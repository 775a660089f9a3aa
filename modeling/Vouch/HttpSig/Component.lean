import Mathlib.Data.List.Sort
import Vouch.Email
import Vouch.HttpSig.SfvAccepted

/-!
# Component identifiers

What a signature covers (`component.rs`): fields and derived components, with parameters, and how
they are written as items of a structured field.

* `ComponentIdentifier` — a field or a derived component with its parameters in the order in which
  the signer wrote them.
* `toSfvItem`, `fromSfvItem` — to an item, and back with every check of RFC 9421 §2.5.
* `serializeId`, `dedupKey` — the text that stands in a signature base, and the key that two
  equivalent identifiers share.
* `printable_of_fromSfvItem`, `Printable.wellFormed` — what is read from a well-formed item is
  written as a well-formed item.
-/

namespace Vouch.HttpSig

open Cursor Result

/-- `DerivedComponent`. -/
inductive DerivedComponent where
  | method | targetUri | authority | scheme | requestTarget | path | query | queryParam | status
deriving DecidableEq, Repr

/-- `ComponentParam`. -/
inductive ComponentParam where
  | sf
  | key (key : List Char)
  | name (name : List Char)
  | bs
  | req
  | tr
deriving DecidableEq, Repr

namespace ComponentParam

/-- `ComponentParam::key_name`. -/
def keyName : ComponentParam → List Char
  | .sf => "sf".toList
  | .key _ => "key".toList
  | .name _ => "name".toList
  | .bs => "bs".toList
  | .req => "req".toList
  | .tr => "tr".toList

/-- The place of a parameter's variant in the derived order. -/
def rank : ComponentParam → Nat
  | .sf => 0
  | .key _ => 1
  | .name _ => 2
  | .bs => 3
  | .req => 4
  | .tr => 5

/-- The text of a parameter that has one. -/
def text : ComponentParam → List Char
  | .key text | .name text => text
  | .sf | .bs | .req | .tr => []

/-- The order of texts, character by character. -/
def textLe : List Char → List Char → Bool
  | [], _ => true
  | _ :: _, [] => false
  | a :: s, b :: t => decide (a.toNat < b.toNat) || (a == b && textLe s t)

/-- The derived order: by variant, then by text. -/
def le (a b : ComponentParam) : Bool :=
  decide (a.rank < b.rank) || (a.rank == b.rank && textLe a.text b.text)

/-- The value a parameter has as a parameter of an item: the flags are written bare. -/
def sfvValue : ComponentParam → Option SfvBareItem
  | .key text | .name text => some (.string text)
  | .sf | .bs | .req | .tr => none

end ComponentParam

/-- `ComponentParams`: in the order in which they were written. -/
structure ComponentParams where
  params : List ComponentParam
deriving DecidableEq, Repr

namespace ComponentParams

/-- Serialize the field strictly. -/
def sf (p : ComponentParams) : Bool := p.params.contains .sf
/-- Wrap the field values in byte sequences. -/
def bs (p : ComponentParams) : Bool := p.params.contains .bs
/-- Take the component from the request. -/
def req (p : ComponentParams) : Bool := p.params.contains .req
/-- Take the field from the trailers. -/
def tr (p : ComponentParams) : Bool := p.params.contains .tr

/-- `ComponentParams::key`. -/
def key (p : ComponentParams) : Option (List Char) :=
  p.params.findSome? fun
    | .key key => some key
    | .sf | .name _ | .bs | .req | .tr => none

/-- `ComponentParams::name`. -/
def name (p : ComponentParams) : Option (List Char) :=
  p.params.findSome? fun
    | .name name => some name
    | .sf | .key _ | .bs | .req | .tr => none

end ComponentParams

/-- `ComponentIdentifier`. -/
inductive ComponentIdentifier where
  | field (name : List Char) (params : ComponentParams)
  | derived (component : DerivedComponent) (params : ComponentParams)
deriving DecidableEq, Repr

/-- `derived_name`. -/
def derivedName : DerivedComponent → List Char
  | .method => "@method".toList
  | .targetUri => "@target-uri".toList
  | .authority => "@authority".toList
  | .scheme => "@scheme".toList
  | .requestTarget => "@request-target".toList
  | .path => "@path".toList
  | .query => "@query".toList
  | .queryParam => "@query-param".toList
  | .status => "@status".toList

/-- `parse_derived_name`. -/
def parseDerivedName (name : List Char) : Except HttpSigError DerivedComponent :=
  if name = "method".toList then .ok .method
  else if name = "target-uri".toList then .ok .targetUri
  else if name = "authority".toList then .ok .authority
  else if name = "scheme".toList then .ok .scheme
  else if name = "request-target".toList then .ok .requestTarget
  else if name = "path".toList then .ok .path
  else if name = "query".toList then .ok .query
  else if name = "query-param".toList then .ok .queryParam
  else if name = "status".toList then .ok .status
  else
    let shown := String.ofList name
    .error (.invalidComponent s!"unknown derived component: @{shown}")

/-- `ParamContext`. -/
inductive ParamContext where
  | field | queryParam | derived
deriving DecidableEq, Repr

/-- `ParamContext::allows`. -/
def ParamContext.allows (context : ParamContext) : ComponentParam → Bool
  | .sf | .key _ | .bs | .tr => context == .field
  | .name _ => context == .queryParam
  | .req => true

/-- `expect_flag`. -/
def expectFlag (key : List Char) : Option SfvBareItem → Except HttpSigError Unit
  | none | some (.boolean true) => .ok ()
  | some _ =>
    let key := String.ofList key
    .error (.invalidComponent s!"component parameter ';{key}' is a Boolean flag and takes no value")

/-- `expect_string`. -/
def expectString (key : List Char) : Option SfvBareItem → Except HttpSigError (List Char)
  | some (.string text) => .ok text
  | _ =>
    let key := String.ofList key
    .error (.invalidComponent s!"component parameter ';{key}' must be a string")

/-- One parameter of `parse_component_params`, before the context is asked. -/
def parseComponentParam (entry : List Char × Option SfvBareItem) :
    Except HttpSigError ComponentParam :=
  let flag (param : ComponentParam) : Except HttpSigError ComponentParam := do
    expectFlag entry.1 entry.2
    .ok param
  if entry.1 = "sf".toList then flag .sf
  else if entry.1 = "bs".toList then flag .bs
  else if entry.1 = "req".toList then flag .req
  else if entry.1 = "tr".toList then flag .tr
  else if entry.1 = "key".toList then do
    let text ← expectString entry.1 entry.2
    .ok (.key text)
  else if entry.1 = "name".toList then do
    let text ← expectString entry.1 entry.2
    .ok (.name text)
  else
    let key := String.ofList entry.1
    .error (.invalidComponent s!"unknown component parameter ';{key}'")

/-- One round of the loop of `parse_component_params`. -/
def parseAllowedParam (context : ParamContext) (entry : List Char × Option SfvBareItem) :
    Except HttpSigError ComponentParam := do
  let param ← parseComponentParam entry
  if context.allows param then .ok param
  else
    let key := String.ofList entry.1
    .error (.invalidComponent
      s!"component parameter ';{key}' does not apply to this component identifier")

/-- `parse_component_params`. -/
def parseComponentParams (sfv : SfvParams) (context : ParamContext) :
    Except HttpSigError ComponentParams := do
  let params ← sfv.entries.mapM (parseAllowedParam context)
  let params : ComponentParams := ⟨params⟩
  if params.bs && (params.sf || params.key.isSome) then
    .error (.invalidComponent "component parameter ';bs' is incompatible with ';sf' and ';key'")
  else .ok params

namespace ComponentIdentifier

/-- The parameters of an identifier. -/
def params : ComponentIdentifier → ComponentParams
  | .field _ params | .derived _ params => params

/-- `ComponentIdentifier::name`. -/
def name : ComponentIdentifier → List Char
  | .field name _ => name
  | .derived component _ => derivedName component

/-- The identifiers without parameters that the constructors of the source make. -/
def ofDerived (component : DerivedComponent) : ComponentIdentifier := .derived component ⟨[]⟩

/-- `ComponentIdentifier::field`. -/
def ofField (name : List Char) : ComponentIdentifier := .field (asciiLowercase name) ⟨[]⟩

/-- `ComponentIdentifier::to_sfv_item`. -/
def toSfvItem (id : ComponentIdentifier) : SfvItem :=
  ⟨.string id.name,
    id.params.params.foldl (fun sfv param => sfv.insert param.keyName param.sfvValue) SfvParams.new⟩

/-- `ComponentIdentifier::from_sfv_item`. -/
def fromSfvItem (item : SfvItem) : Except HttpSigError ComponentIdentifier :=
  match item.value with
  | .string ('@' :: stripped) => do
    let component ← parseDerivedName stripped
    let context := if component = .queryParam then ParamContext.queryParam else .derived
    let params ← parseComponentParams item.params context
    if component = .queryParam ∧ params.name = none then
      .error (.invalidComponent "@query-param requires the ';name' parameter")
    else .ok (.derived component params)
  | .string name => do
    let params ← parseComponentParams item.params .field
    .ok (.field (asciiLowercase name) params)
  | _ => .error (.invalidComponent "component identifier must be a string")

/-- `ComponentIdentifier::serialize_id`. -/
def serializeId (id : ComponentIdentifier) : List Char := serializeItem id.toSfvItem

/-- `ComponentIdentifier::dedup_key`. -/
def dedupKey (id : ComponentIdentifier) : List Char × List ComponentParam :=
  (id.name, id.params.params.insertionSort fun a b => ComponentParam.le a b = true)

end ComponentIdentifier

/-! ## Identifiers as items -/

/-- What is in parameters after insertions was there before or was inserted. -/
theorem mem_foldl_insert {α : Type} {key : α → List Char} {value : α → Option SfvBareItem}
    {entry : List Char × Option SfvBareItem} :
    ∀ (l : List α) (params : SfvParams),
      entry ∈ (l.foldl (fun params a => params.insert (key a) (value a)) params).entries →
        entry ∈ params.entries ∨ ∃ a ∈ l, entry = (key a, value a)
  | [], params, h => .inl h
  | a :: l, params, h => by
    rw [List.foldl_cons] at h
    rcases mem_foldl_insert l _ h with h | ⟨b, hb, rfl⟩
    · exact (SfvParams.mem_insert h).imp_right fun h => ⟨a, List.mem_cons_self, h⟩
    · exact .inr ⟨b, List.mem_cons_of_mem _ hb, rfl⟩

namespace ComponentIdentifier

/-- The name and the texts of the parameters are printable ASCII. -/
structure Printable (id : ComponentIdentifier) : Prop where
  name : ∀ c ∈ id.name, isStringChar c = true
  params : ∀ param ∈ id.params.params, ∀ c ∈ param.text, isStringChar c = true

theorem mem_toSfvItem {id : ComponentIdentifier} {entry : List Char × Option SfvBareItem}
    (h : entry ∈ id.toSfvItem.params.entries) :
    ∃ param ∈ id.params.params, entry = (param.keyName, param.sfvValue) := by
  rcases mem_foldl_insert _ _ h with h | h
  · exact absurd h (by simp [SfvParams.new])
  · exact h

theorem isKey_keyName (param : ComponentParam) : isKey param.keyName = true := by
  cases param <;> rfl

/-- A printable identifier is written as a well-formed item. -/
theorem Printable.wellFormed {id : ComponentIdentifier} (h : id.Printable) :
    id.toSfvItem.wellFormed = true := by
  simp only [SfvItem.wellFormed, Bool.and_eq_true]
  refine ⟨List.all_eq_true.2 h.name, List.all_eq_true.2 fun entry hentry => ?_⟩
  obtain ⟨param, hparam, rfl⟩ := mem_toSfvItem hentry
  have htext := h.params param hparam
  rw [wellFormedEntry, isKey_keyName, Bool.true_and]
  cases param with
  | key text => exact List.all_eq_true.2 htext
  | name text => exact List.all_eq_true.2 htext
  | sf => rfl
  | bs => rfl
  | req => rfl
  | tr => rfl

/-- A colon does not go on with an identifier: all its values are strings or left out. -/
theorem continues_colon (id : ComponentIdentifier) : id.toSfvItem.continues ':' = false := by
  have hvalue : id.toSfvItem.value.continues ':' = false := rfl
  have hparams : id.toSfvItem.params.continues ':' = false := by
    simp only [SfvParams.continues, Bool.or_eq_false_iff, List.any_eq_false]
    refine ⟨by decide, fun entry hentry => ?_⟩
    obtain ⟨param, -, rfl⟩ := mem_toSfvItem hentry
    have hentry : entryContinues (param.keyName, param.sfvValue) ':' = false := by
      cases param <;> rfl
    rw [hentry]
    decide
  rw [SfvItem.continues, hvalue, hparams]
  rfl

end ComponentIdentifier

theorem isStringChar_toLower {c : Char} (hc : isStringChar c = true) :
    isStringChar c.toLower = true :=
  forall_ascii (p := fun c => isStringChar c = true → isStringChar c.toLower = true)
    (by decide +kernel) (isStringChar_ascii hc) hc

theorem expectString_ok {key text : List Char} {value : Option SfvBareItem}
    (h : expectString key value = .ok text) : value = some (.string text) := by
  rw [expectString.eq_def] at h
  split at h
  · cases h
    rfl
  · cases h

/-- What is read as a parameter is written under the key it was read from. -/
theorem parseComponentParam_ok {entry : List Char × Option SfvBareItem} {param : ComponentParam}
    (h : parseComponentParam entry = .ok param) :
    param.keyName = entry.1 ∧ (param.text = [] ∨ entry.2 = some (.string param.text)) := by
  simp only [parseComponentParam] at h
  -- four flags, then two texts
  iterate 4
    split at h
    · rename_i hkey
      obtain ⟨-, -, h⟩ := bind_eq_ok.1 h
      cases h
      exact ⟨hkey.symm, .inl rfl⟩
  iterate 2
    split at h
    · rename_i hkey
      obtain ⟨text, htext, h⟩ := bind_eq_ok.1 h
      cases h
      exact ⟨hkey.symm, .inr (expectString_ok htext)⟩
  cases h

theorem parseComponentParams_text {sfv : SfvParams} (hsfv : sfv.wellFormed = true)
    {context : ParamContext} {params : ComponentParams}
    (h : parseComponentParams sfv context = .ok params) :
    ∀ param ∈ params.params, ∀ c ∈ param.text, isStringChar c = true := by
  rw [parseComponentParams] at h
  obtain ⟨list, hlist, h⟩ := bind_eq_ok.1 h
  dsimp only at h
  split at h
  · cases h
  · cases h
    intro param hparam c hc
    obtain ⟨entry, hentry, hread⟩ := exists_of_mem_mapM hlist param hparam
    rw [parseAllowedParam] at hread
    obtain ⟨param', hparam', hread⟩ := bind_eq_ok.1 hread
    split at hread
    · cases hread
      rcases (parseComponentParam_ok hparam').2 with htext | htext
      · rw [htext] at hc
        exact absurd hc (by simp)
      · have hform := List.all_eq_true.1 hsfv entry hentry
        rw [wellFormedEntry, htext, Bool.and_eq_true] at hform
        exact List.all_eq_true.1 hform.2 c hc
    · cases hread

namespace ComponentIdentifier

theorem isStringChar_derivedName (component : DerivedComponent) :
    ∀ c ∈ derivedName component, isStringChar c = true := by
  refine List.all_eq_true.1 ?_
  cases component <;> decide

/-- **What is read from a well-formed item is printable.** -/
theorem printable_of_fromSfvItem {item : SfvItem} (hitem : item.wellFormed = true)
    {id : ComponentIdentifier} (h : fromSfvItem item = .ok id) : id.Printable := by
  obtain ⟨value, sfv⟩ := item
  simp only [SfvItem.wellFormed, Bool.and_eq_true] at hitem
  rw [fromSfvItem.eq_def] at h
  dsimp only at h
  split at h
  · obtain ⟨component, -, h⟩ := bind_eq_ok.1 h
    obtain ⟨params, hparams, h⟩ := bind_eq_ok.1 h
    split at h
    · cases h
    · cases h
      exact ⟨isStringChar_derivedName component, parseComponentParams_text hitem.2 hparams⟩
  · rename_i text hne
    obtain ⟨params, hparams, h⟩ := bind_eq_ok.1 h
    cases h
    refine ⟨fun c hc => ?_, parseComponentParams_text hitem.2 hparams⟩
    obtain ⟨d, hd, rfl⟩ := List.mem_map.1 hc
    exact isStringChar_toLower (List.all_eq_true.1 hitem.1 d hd)
  · cases h

end ComponentIdentifier

end Vouch.HttpSig
