import Vouch.HttpSig.Message

/-!
# Signature parameters

What a signature says about itself (`signature_params.rs`): the covered components, the algorithm,
the key, the times, the nonce and the tag, as an inner list of the `Signature-Input` header.

* `SignatureParams.toInnerList`, `fromInnerList` — the two directions.
* `SignatureParams.wellFormed_toInnerList` — printable texts and times in range give a well-formed
  list.
* `SignatureParams.fromInnerList_toInnerList` — **reading what was written gives the parameters
  back**, if every component is read back from its item.
* `fromSfvItem_toSfvItem` — the components a builder makes are.
-/

namespace Vouch.HttpSig

open Cursor Result

/-- `SignatureParams`. -/
structure SignatureParams where
  components : List ComponentIdentifier
  alg : Option (List Char)
  keyid : Option (List Char)
  created : Option Int
  expires : Option Int
  nonce : Option (List Char)
  tag : Option (List Char)
deriving DecidableEq

/-- Insert a parameter that may be absent. -/
def SfvParams.insertSome (params : SfvParams) (key : List Char) (value : Option SfvBareItem) :
    SfvParams :=
  match value with
  | some value => params.insert key (some value)
  | none => params

namespace SignatureParams

/-- The parameters of `SignatureParams::to_inner_list`. -/
def toSfvParams (params : SignatureParams) : SfvParams :=
  (((((SfvParams.new.insertSome "alg".toList (params.alg.map .string)).insertSome
    "created".toList (params.created.map .integer)).insertSome
    "expires".toList (params.expires.map .integer)).insertSome
    "keyid".toList (params.keyid.map .string)).insertSome
    "nonce".toList (params.nonce.map .string)).insertSome
    "tag".toList (params.tag.map .string)

/-- `SignatureParams::to_inner_list`. -/
def toInnerList (params : SignatureParams) : SfvInnerList :=
  ⟨params.components.map ComponentIdentifier.toSfvItem, params.toSfvParams⟩

/-- `SignatureParams::serialize`. -/
def serialize (params : SignatureParams) : List Char :=
  serializeInnerListToString params.toInnerList

/-- `extract_string_param`. -/
def extractStringParam (params : SfvParams) (key : List Char) : Option (List Char) :=
  match params.get key with
  | some (some (.string s)) => some s
  | _ => none

/-- `extract_integer_param`. -/
def extractIntegerParam (params : SfvParams) (key : List Char) : Option Int :=
  match params.get key with
  | some (some (.integer n)) => some n
  | _ => none

/-- `SignatureParams::from_inner_list`. -/
def fromInnerList (list : SfvInnerList) : Except HttpSigError SignatureParams := do
  let components ← list.items.mapM ComponentIdentifier.fromSfvItem
  .ok {
    components
    alg := extractStringParam list.params "alg".toList
    keyid := extractStringParam list.params "keyid".toList
    created := extractIntegerParam list.params "created".toList
    expires := extractIntegerParam list.params "expires".toList
    nonce := extractStringParam list.params "nonce".toList
    tag := extractStringParam list.params "tag".toList }

end SignatureParams

/-! ## Inserting and looking up -/

namespace SfvParams

variable {key : List Char}

theorem get_insertSome_other (params : SfvParams) {other : List Char} (value : Option SfvBareItem)
    (h : key ≠ other) : (params.insertSome key value).get other = params.get other := by
  cases value with
  | none => rfl
  | some value => exact (get_insert params key other _).trans (if_neg h)

theorem get_insertSome_self (params : SfvParams) (value : Option SfvBareItem)
    (h : params.get key = none) : (params.insertSome key value).get key = value.map some := by
  cases value with
  | none => exact h
  | some value => exact (get_insert params key key _).trans (if_pos rfl)

theorem get_new (key : List Char) : SfvParams.new.get key = none := rfl

theorem wellFormed_insertSome {params : SfvParams} (hparams : params.wellFormed = true)
    (hkey : isKey key = true) {value : Option SfvBareItem}
    (hvalue : ∀ v, value = some v → v.wellFormed = true) :
    (params.insertSome key value).wellFormed = true := by
  cases value with
  | none => exact hparams
  | some value =>
    have hnew : wellFormedEntry (key, some value) = true := by
      rw [wellFormedEntry, hkey, Bool.true_and]
      exact hvalue value rfl
    exact insert_wellFormed hparams hnew

end SfvParams

/-! ## The round trip -/

/-- A time that can be written as an integer of a structured field. -/
def InSfvRange (t : Int) : Prop := t.natAbs ≤ sfvIntegerMax

namespace SignatureParams

/-- The texts are printable, the times are in range and the components are written as well-formed
items. -/
structure Writable (params : SignatureParams) : Prop where
  components : ∀ id ∈ params.components, id.Printable
  alg : ∀ s, params.alg = some s → IsPrintable s
  keyid : ∀ s, params.keyid = some s → IsPrintable s
  created : ∀ t, params.created = some t → InSfvRange t
  expires : ∀ t, params.expires = some t → InSfvRange t
  nonce : ∀ s, params.nonce = some s → IsPrintable s
  tag : ∀ s, params.tag = some s → IsPrintable s

theorem wellFormed_string {value : Option (List Char)} (h : ∀ s, value = some s → IsPrintable s)
    (v : SfvBareItem) (hv : value.map .string = some v) : v.wellFormed = true := by
  obtain ⟨s, hs, rfl⟩ := Option.map_eq_some_iff.1 hv
  exact List.all_eq_true.2 (h s hs)

theorem wellFormed_integer {value : Option Int} (h : ∀ t, value = some t → InSfvRange t)
    (v : SfvBareItem) (hv : value.map .integer = some v) : v.wellFormed = true := by
  obtain ⟨t, ht, rfl⟩ := Option.map_eq_some_iff.1 hv
  exact decide_eq_true (h t ht)

theorem Writable.wellFormed_toInnerList {params : SignatureParams} (h : params.Writable) :
    params.toInnerList.wellFormed = true := by
  simp only [SfvInnerList.wellFormed, Bool.and_eq_true]
  constructor
  · refine List.all_eq_true.2 fun item hitem => ?_
    obtain ⟨id, hid, rfl⟩ := List.mem_map.1 hitem
    exact (h.components id hid).wellFormed
  · have hnew : SfvParams.new.wellFormed = true := rfl
    have halg := SfvParams.wellFormed_insertSome hnew (by decide : isKey "alg".toList = true)
      (wellFormed_string h.alg)
    have hcreated := SfvParams.wellFormed_insertSome halg
      (by decide : isKey "created".toList = true) (wellFormed_integer h.created)
    have hexpires := SfvParams.wellFormed_insertSome hcreated
      (by decide : isKey "expires".toList = true) (wellFormed_integer h.expires)
    have hkeyid := SfvParams.wellFormed_insertSome hexpires
      (by decide : isKey "keyid".toList = true) (wellFormed_string h.keyid)
    have hnonce := SfvParams.wellFormed_insertSome hkeyid
      (by decide : isKey "nonce".toList = true) (wellFormed_string h.nonce)
    exact SfvParams.wellFormed_insertSome hnonce (by decide : isKey "tag".toList = true)
      (wellFormed_string h.tag)

/-- A string parameter is read back. -/
theorem extractStringParam_of_get {params : SfvParams} {key : List Char}
    {value : Option (List Char)} (h : params.get key = (value.map SfvBareItem.string).map some) :
    extractStringParam params key = value := by
  rw [extractStringParam, h]
  cases value <;> rfl

/-- An integer parameter is read back. -/
theorem extractIntegerParam_of_get {params : SfvParams} {key : List Char} {value : Option Int}
    (h : params.get key = (value.map SfvBareItem.integer).map some) :
    extractIntegerParam params key = value := by
  rw [extractIntegerParam, h]
  cases value <;> rfl

/-- What the six keys hold: each was inserted once, and the keys differ. -/
theorem get_toSfvParams (params : SignatureParams) :
    params.toSfvParams.get "alg".toList = (params.alg.map SfvBareItem.string).map some ∧
      params.toSfvParams.get "created".toList = (params.created.map SfvBareItem.integer).map some ∧
      params.toSfvParams.get "expires".toList = (params.expires.map SfvBareItem.integer).map some ∧
      params.toSfvParams.get "keyid".toList = (params.keyid.map SfvBareItem.string).map some ∧
      params.toSfvParams.get "nonce".toList = (params.nonce.map SfvBareItem.string).map some ∧
      params.toSfvParams.get "tag".toList = (params.tag.map SfvBareItem.string).map some := by
  rw [toSfvParams]
  refine ⟨?_, ?_, ?_, ?_, ?_, ?_⟩ <;>
    repeat'
      first
      | exact SfvParams.get_new _
      | rw [SfvParams.get_insertSome_self]
      | rw [SfvParams.get_insertSome_other _ _ (by decide)]

/-- **Reading what was written gives the parameters back.** -/
theorem fromInnerList_toInnerList {params : SignatureParams}
    (h : ∀ id ∈ params.components, ComponentIdentifier.fromSfvItem id.toSfvItem = .ok id) :
    fromInnerList params.toInnerList = .ok params := by
  have hcomponents : (params.components.map ComponentIdentifier.toSfvItem).mapM
      ComponentIdentifier.fromSfvItem = .ok params.components := by
    generalize params.components = components at h
    induction components with
    | nil => rfl
    | cons id components ih =>
      rw [List.map_cons, List.mapM_cons, h id List.mem_cons_self, ok_bind,
        ih fun id' hid' => h id' (List.mem_cons_of_mem _ hid')]
      rfl
  obtain ⟨halg, hcreated, hexpires, hkeyid, hnonce, htag⟩ := get_toSfvParams params
  rw [fromInnerList, toInnerList]
  simp only [hcomponents, ok_bind, extractStringParam_of_get halg,
    extractIntegerParam_of_get hcreated, extractIntegerParam_of_get hexpires,
    extractStringParam_of_get hkeyid, extractStringParam_of_get hnonce,
    extractStringParam_of_get htag]

end SignatureParams

/-! ## The components a builder makes -/

/-- Letters in lower case, digits and marks: what they are and are not. -/
theorem isHeaderNameChar_spec {c : Char} (h : isHeaderNameChar c = true) :
    isStringChar c = true ∧ c.toLower = c ∧ c ≠ '@' := by
  have htoken : isTokenChar c = true := by
    simp only [isHeaderNameChar, Bool.or_eq_true, beq_iff_eq, or_assoc] at h
    simp only [isTokenChar, Char.isAlphanum, isAlpha_eq, Bool.or_eq_true, beq_iff_eq]
    tauto
  exact forall_ascii (p := fun c => isHeaderNameChar c = true →
    isStringChar c = true ∧ c.toLower = c ∧ c ≠ '@') (by decide +kernel)
      (isTokenChar_ascii c htoken) h

/-- A header name: not empty, and of the characters of names. -/
def IsHeaderName (name : List Char) : Prop := name ≠ [] ∧ name.all isHeaderNameChar = true

/-- A derived component without parameters, or a field under a header name. -/
inductive Plain : ComponentIdentifier → Prop
  | derived {component : DerivedComponent} (h : component ≠ .queryParam) :
    Plain (.ofDerived component)
  | field {name : List Char} (h : IsHeaderName name) : Plain (.field name ⟨[]⟩)

namespace Plain

variable {id : ComponentIdentifier}

theorem printable (h : Plain id) : id.Printable := by
  cases h with
  | @derived component _ =>
    exact ⟨ComponentIdentifier.isStringChar_derivedName component, fun param hparam =>
      absurd hparam (by simp [ComponentIdentifier.ofDerived, ComponentIdentifier.params])⟩
  | field hname =>
    refine ⟨fun c hc => (isHeaderNameChar_spec (List.all_eq_true.1 hname.2 c hc)).1,
      fun param hparam => absurd hparam (by simp [ComponentIdentifier.params])⟩

/-- Its name is in lower case. -/
theorem lower_name (h : Plain id) : asciiLowercase id.name = id.name := by
  cases h with
  | @derived component _ => cases component <;> rfl
  | @field name hname =>
    rw [ComponentIdentifier.name, asciiLowercase]
    refine (List.map_congr_left fun c hc => ?_).trans (List.map_id name)
    exact (isHeaderNameChar_spec (List.all_eq_true.1 hname.2 c hc)).2.1

/-- It is read back from its item. -/
theorem fromSfvItem_toSfvItem (h : Plain id) :
    ComponentIdentifier.fromSfvItem id.toSfvItem = .ok id := by
  cases h with
  | @derived component hne =>
    cases component with
    | queryParam => exact absurd rfl hne
    | method => rfl
    | targetUri => rfl
    | authority => rfl
    | scheme => rfl
    | requestTarget => rfl
    | path => rfl
    | query => rfl
    | status => rfl
  | @field name hname =>
    have hlower : asciiLowercase name = name := (Plain.field hname).lower_name
    obtain ⟨hne, hall⟩ := hname
    cases name with
    | nil => exact absurd rfl hne
    | cons c name =>
      have hat : c ≠ '@' :=
        (isHeaderNameChar_spec (List.all_eq_true.1 hall c List.mem_cons_self)).2.2
      rw [ComponentIdentifier.fromSfvItem]
      split
      · rename_i stripped heq
        have hhead := SfvBareItem.string.inj heq
        exact absurd (List.cons.inj hhead).1 hat
      · rename_i text _ heq
        obtain rfl := SfvBareItem.string.inj heq
        exact congrArg (fun name => Except.ok (ComponentIdentifier.field name ⟨[]⟩)) hlower
      · rename_i _ hstring
        exact absurd rfl (hstring _)

end Plain

end Vouch.HttpSig
