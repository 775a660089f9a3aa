import Vouch.HttpSig.Component

/-!
# Signature bases

The text that is signed (`signature_base.rs`): one line for each covered component and a last line
with the parameters of the signature.

* `BaseBuilder` — its state, `push` and `finish`, with the checks of RFC 9421 §2.5: no identifier
  twice, no character outside printable ASCII in a value, no character outside ASCII at all.
* `BaseBuilder.build` — a whole base from components and their values.
* `isPrintable_serialize…` — what the serializer writes for a well-formed value is printable.
* `base_uniquely_decodable` — **a base says what was signed**: equal bases have equal lines and
  equal parameters.  The argument goes line by line: an identifier is an item, and the parser of
  structured fields takes exactly it off the front of a line; a value is what stands before the next
  newline.
-/

namespace Vouch.HttpSig

open Cursor Result

/-! ## The builder -/

/-- `BaseBuilder`: the lines so far, and what they are about. -/
structure BaseBuilder where
  base : List Char
  seen : List (List Char × List ComponentParam)

namespace BaseBuilder

/-- `BaseBuilder::new`. -/
def new : BaseBuilder := ⟨[], []⟩

/-- `BaseBuilder::push`. -/
def push (builder : BaseBuilder) (component : ComponentIdentifier) (value : List Char) :
    Except HttpSigError BaseBuilder :=
  let id := String.ofList component.serializeId
  if component.dedupKey ∈ builder.seen then
    .error (.baseConstruction
      s!"component identifier {id} appears more than once in the covered components")
  else
    match value.find? fun c => !isStringChar c with
    | some c =>
      let byte := hexByte (firstByte c)
      .error (.baseConstruction
        (s!"component {id} resolved to a value containing byte 0x{byte}, " ++
          "which the signature base does not admit"))
    | none =>
      .ok ⟨builder.base ++ (component.serializeId ++ ": ".toList ++ value ++ ['\n']),
        builder.seen ++ [component.dedupKey]⟩

/-- `BaseBuilder::finish`. -/
def finish (builder : BaseBuilder) (params : List Char) : Except HttpSigError (List Char) :=
  let base := builder.base ++ ("\"@signature-params\": ".toList ++ params)
  if base.all fun c => c.toNat < 128 then .ok base
  else .error (.baseConstruction "signature base contains non-ASCII characters")

/-- Components with their values, one after the other. -/
def pushAll (builder : BaseBuilder) (lines : List (ComponentIdentifier × List Char)) :
    Except HttpSigError BaseBuilder :=
  lines.foldlM (fun builder line => builder.push line.1 line.2) builder

/-- A whole base. -/
def build (lines : List (ComponentIdentifier × List Char)) (params : List Char) :
    Except HttpSigError (List Char) := do
  let builder ← new.pushAll lines
  builder.finish params

end BaseBuilder

/-- The line of a component. -/
def baseLine (line : ComponentIdentifier × List Char) : List Char :=
  line.1.serializeId ++ ": ".toList ++ line.2 ++ ['\n']

/-- The last line. -/
def lastLine (params : List Char) : List Char := "\"@signature-params\": ".toList ++ params

namespace BaseBuilder

/-- What is accepted is added as a line, and it is printable and new. -/
theorem push_ok {builder next : BaseBuilder} {component : ComponentIdentifier} {value : List Char}
    (h : builder.push component value = .ok next) :
    next.base = builder.base ++ baseLine (component, value) ∧
      next.seen = builder.seen ++ [component.dedupKey] ∧ component.dedupKey ∉ builder.seen ∧
      ∀ c ∈ value, isStringChar c = true := by
  simp only [push] at h
  split at h
  · cases h
  · rename_i hnew
    split at h
    · cases h
    · rename_i hfind
      cases h
      refine ⟨rfl, rfl, hnew, fun c hc => ?_⟩
      simpa using List.find?_eq_none.1 hfind c hc

theorem pushAll_ok : ∀ {lines : List (ComponentIdentifier × List Char)}
    {builder next : BaseBuilder}, builder.pushAll lines = .ok next →
      next.base = builder.base ++ lines.flatMap baseLine ∧
        ∀ line ∈ lines, ∀ c ∈ line.2, isStringChar c = true
  | [], builder, next, h => by
    obtain rfl : builder = next := Except.ok.inj h
    simp
  | line :: lines, builder, next, h => by
    rw [pushAll, List.foldlM_cons] at h
    obtain ⟨between, hpush, h⟩ := bind_eq_ok.1 h
    obtain ⟨hbase, -, -, hvalue⟩ := push_ok hpush
    obtain ⟨hrest, hvalues⟩ := pushAll_ok h
    exact ⟨by rw [hrest, hbase, List.flatMap_cons, List.append_assoc],
      List.forall_mem_cons.2 ⟨hvalue, hvalues⟩⟩

/-- **A base is its lines**, and the values in it are printable. -/
theorem build_ok {lines : List (ComponentIdentifier × List Char)} {params base : List Char}
    (h : build lines params = .ok base) :
    base = lines.flatMap baseLine ++ lastLine params ∧
      ∀ line ∈ lines, ∀ c ∈ line.2, isStringChar c = true := by
  rw [build] at h
  obtain ⟨builder, hbuilder, h⟩ := bind_eq_ok.1 h
  obtain ⟨hbase, hvalues⟩ := pushAll_ok hbuilder
  rw [finish] at h
  split at h
  · cases h
    exact ⟨by rw [hbase]; rfl, hvalues⟩
  · cases h

end BaseBuilder

/-! ## Printable texts -/

/-- Every character of the text is printable ASCII. -/
def IsPrintable (s : List Char) : Prop := ∀ c ∈ s, isStringChar c = true

theorem isPrintable_nil : IsPrintable [] := List.forall_mem_nil _

variable {c : Char} {s : List Char}

theorem isPrintable_cons (hc : isStringChar c = true) (hs : IsPrintable s) :
    IsPrintable (c :: s) :=
  List.forall_mem_cons.2 ⟨hc, hs⟩

theorem IsPrintable.append {t : List Char} (hs : IsPrintable s) (ht : IsPrintable t) :
    IsPrintable (s ++ t) :=
  List.forall_mem_append.2 ⟨hs, ht⟩

theorem isPrintable_flatMap {α : Type} {f : α → List Char} {l : List α}
    (h : ∀ a ∈ l, IsPrintable (f a)) : IsPrintable (l.flatMap f) :=
  List.forall_mem_flatMap.2 h

theorem isPrintable_separated {sep : List Char} (hsep : IsPrintable sep) {l : List (List Char)}
    (h : ∀ s ∈ l, IsPrintable s) : IsPrintable (separated sep l) := by
  cases l with
  | nil => exact isPrintable_nil
  | cons first l =>
    refine (h first List.mem_cons_self).append (isPrintable_flatMap fun s hs => ?_)
    exact hsep.append (h s (List.mem_cons_of_mem _ hs))

theorem isStringChar_of_isTokenChar (hc : isTokenChar c = true) : isStringChar c = true :=
  forall_ascii (p := fun c => isTokenChar c = true → isStringChar c = true) (by decide +kernel)
    (isTokenChar_ascii c hc) hc

theorem isStringChar_of_isDigit (hc : c.isDigit = true) : isStringChar c = true := by
  have hrange := isDigit_iff.1 hc
  simp only [isStringChar, Bool.and_eq_true, decide_eq_true_eq]
  omega

theorem isPrintable_word {start cont : Char → Bool} {word : List Char}
    (hstart : ∀ c, start c = true → isTokenChar c = true)
    (hcont : ∀ c, cont c = true → isTokenChar c = true)
    (hword : isWord start cont word = true) : IsPrintable word := by
  obtain ⟨c, word, rfl, hc, hall⟩ := isWord_eq_cons hword
  exact isPrintable_cons (isStringChar_of_isTokenChar (hstart c hc))
    fun d hd => isStringChar_of_isTokenChar (hcont d (hall d hd))

theorem isPrintable_key {key : List Char} (hkey : isKey key = true) : IsPrintable key :=
  isPrintable_word (fun _ hc => isKeyChar_isTokenChar (isKeyChar_of_isKeyStart hc))
    (fun _ hc => isKeyChar_isTokenChar hc) hkey

theorem isPrintable_encode (bytes : List UInt8) : IsPrintable (Base64.encode bytes) := by
  intro c hc
  rcases Base64.mem_encode bytes hc with rfl | ⟨n, hn, rfl⟩
  · rfl
  · have h : ∀ n : Fin 64, isStringChar (Base64.character n) = true := by decide
    exact h ⟨n, hn⟩

theorem isPrintable_toDigits (n : Nat) : IsPrintable (Nat.toDigits 10 n) := fun _ hc =>
  isStringChar_of_isDigit (isDigit_of_mem_toDigits hc)

theorem isPrintable_signed (negative : Bool) (hs : IsPrintable s) :
    IsPrintable (signed negative s) := by
  cases negative with
  | true => exact isPrintable_cons rfl hs
  | false => exact hs

theorem isPrintable_serializeBareItem {v : SfvBareItem} (hv : v.wellFormed = true) :
    IsPrintable (serializeBareItem v) := by
  cases v with
  | integer v => exact isPrintable_signed _ (isPrintable_toDigits _)
  | decimal negative t =>
    rw [serializeBareItem, serializeDecimal_eq]
    refine isPrintable_signed _ ((isPrintable_toDigits _).append (isPrintable_cons rfl ?_))
    exact fun c hc => isStringChar_of_isDigit (isDigit_of_mem_fractionDigits hc)
  | string text =>
    refine isPrintable_cons rfl (IsPrintable.append (isPrintable_flatMap fun c hc => ?_)
      (isPrintable_cons rfl isPrintable_nil))
    have hchar := List.all_eq_true.1 hv c hc
    rw [escapeChar]
    split
    · exact isPrintable_cons rfl (isPrintable_cons hchar isPrintable_nil)
    · exact isPrintable_cons hchar isPrintable_nil
  | token word =>
    exact isPrintable_word (fun _ hc => isTokenChar_of_isTokenStart hc) (fun _ hc => hc) hv
  | byteSequence bytes =>
    exact isPrintable_cons rfl ((isPrintable_encode bytes).append
      (isPrintable_cons rfl isPrintable_nil))
  | boolean b =>
    cases b <;> exact isPrintable_cons rfl (isPrintable_cons rfl isPrintable_nil)

theorem isPrintable_serializeParams {params : SfvParams} (hparams : params.wellFormed = true) :
    IsPrintable (serializeParams params) := by
  refine isPrintable_flatMap fun entry hentry => ?_
  have hform := List.all_eq_true.1 hparams entry hentry
  obtain ⟨key, value⟩ := entry
  simp only [wellFormedEntry, Bool.and_eq_true] at hform
  refine isPrintable_cons rfl ((isPrintable_key hform.1).append ?_)
  cases value with
  | none => exact isPrintable_nil
  | some v => exact isPrintable_cons rfl (isPrintable_serializeBareItem (by simpa using hform.2))

theorem isPrintable_serializeItem {item : SfvItem} (hitem : item.wellFormed = true) :
    IsPrintable (serializeItem item) := by
  simp only [SfvItem.wellFormed, Bool.and_eq_true] at hitem
  exact (isPrintable_serializeBareItem hitem.1).append (isPrintable_serializeParams hitem.2)

theorem isPrintable_serializeInnerList {list : SfvInnerList} (hlist : list.wellFormed = true) :
    IsPrintable (serializeInnerListToString list) := by
  simp only [SfvInnerList.wellFormed, Bool.and_eq_true, List.all_eq_true] at hlist
  refine isPrintable_cons rfl (IsPrintable.append (isPrintable_separated
    (isPrintable_cons rfl isPrintable_nil) fun s hs => ?_)
    (isPrintable_cons rfl (isPrintable_serializeParams hlist.2)))
  obtain ⟨item, hitem, rfl⟩ := List.mem_map.1 hs
  exact isPrintable_serializeItem (hlist.1 item hitem)

theorem IsPrintable.newline_not_mem (hs : IsPrintable s) : '\n' ∉ s := by
  intro h
  exact absurd (hs '\n' h) (by decide)

/-! ## Unique decodability -/

/-- The identifier was read from a well-formed item — every item the parser returns is one
(`wellFormed_of_parseItem`), and every item in a list or a dictionary it returns. -/
def FromParsed (id : ComponentIdentifier) : Prop :=
  ∃ item : SfvItem, item.wellFormed = true ∧ ComponentIdentifier.fromSfvItem item = .ok id

/-- The text was written for a well-formed inner list — every inner list the parser returns is one
(`wellFormed_of_parseInnerList`), and every one in a dictionary it returns. -/
def ParamsText (s : List Char) : Prop :=
  ∃ list : SfvInnerList, list.wellFormed = true ∧ serializeInnerListToString list = s

/-- The parser takes exactly the identifier off the front of a line. -/
theorem parseItem_baseLine {id : ComponentIdentifier} (hid : id.Printable) (value s : List Char) :
    Parser.parseItem (baseLine (id, value) ++ s) =
      .ok (id.toSfvItem, ':' :: ' ' :: (value ++ '\n' :: s)) := by
  have hline : baseLine (id, value) ++ s =
      serializeItem id.toSfvItem ++ ':' :: ' ' :: (value ++ '\n' :: s) := by
    simp [baseLine, ComponentIdentifier.serializeId]
  rw [hline]
  exact parseItem_serialize hid.wellFormed (stops_cons.2 id.continues_colon)

/-- **The first line is determined**: what it is about, its value, and what follows. -/
theorem baseLine_inj {id id' : ComponentIdentifier} (hid : id.Printable) (hid' : id'.Printable)
    {v v' s' : List Char} (hv : IsPrintable v) (hv' : IsPrintable v')
    (h : baseLine (id, v) ++ s = baseLine (id', v') ++ s') :
    id.serializeId = id'.serializeId ∧ v = v' ∧ s = s' := by
  have hparse := parseItem_baseLine hid v s
  rw [h, parseItem_baseLine hid' v' s'] at hparse
  obtain ⟨hitem, hrest⟩ := Prod.mk.inj (Except.ok.inj hparse)
  obtain ⟨hvalue, hs⟩ := append_cons_inj hv'.newline_not_mem hv.newline_not_mem
    (List.cons.inj (List.cons.inj hrest).2).2
  refine ⟨?_, hvalue.symm, hs.symm⟩
  rw [ComponentIdentifier.serializeId, ComponentIdentifier.serializeId, hitem]

/-- The last line holds no newline, so it is no line of a component. -/
theorem lastLine_ne_baseLine {params : List Char} (hparams : IsPrintable params)
    (line : ComponentIdentifier × List Char) (s : List Char) :
    lastLine params ≠ baseLine line ++ s := by
  intro h
  have hlast : IsPrintable (lastLine params) :=
    IsPrintable.append (List.all_eq_true.1 (by decide)) hparams
  refine hlast.newline_not_mem ?_
  rw [h]
  simp [baseLine]

/-- The induction over the lines. -/
theorem lines_inj {params params' : List Char} (hparams : IsPrintable params)
    (hparams' : IsPrintable params') :
    ∀ {lines lines' : List (ComponentIdentifier × List Char)},
      (∀ line ∈ lines, line.1.Printable ∧ IsPrintable line.2) →
      (∀ line ∈ lines', line.1.Printable ∧ IsPrintable line.2) →
      lines.flatMap baseLine ++ lastLine params = lines'.flatMap baseLine ++ lastLine params' →
      lines.map (fun line => (line.1.serializeId, line.2)) =
          lines'.map (fun line => (line.1.serializeId, line.2)) ∧
        params = params'
  | [], [], _, _, h => ⟨rfl, List.append_cancel_left h⟩
  | [], line :: lines', _, _, h => by
    rw [List.flatMap_nil, List.nil_append, List.flatMap_cons, List.append_assoc] at h
    exact absurd h (lastLine_ne_baseLine hparams line _)
  | line :: lines, [], _, _, h => by
    rw [List.flatMap_nil, List.nil_append, List.flatMap_cons, List.append_assoc] at h
    exact absurd h.symm (lastLine_ne_baseLine hparams' line _)
  | line :: lines, line' :: lines', hlines, hlines', h => by
    rw [List.flatMap_cons, List.flatMap_cons, List.append_assoc, List.append_assoc] at h
    have hfirst := hlines line List.mem_cons_self
    have hfirst' := hlines' line' List.mem_cons_self
    obtain ⟨hid, hvalue, hrest⟩ := baseLine_inj hfirst.1 hfirst'.1 hfirst.2 hfirst'.2 h
    obtain ⟨hmap, heq⟩ := lines_inj hparams hparams'
      (fun l hl => hlines l (List.mem_cons_of_mem _ hl))
      (fun l hl => hlines' l (List.mem_cons_of_mem _ hl)) hrest
    exact ⟨by rw [List.map_cons, List.map_cons, hid, hvalue, hmap], heq⟩

/-- **A signature base is uniquely decodable.**  Equal bases come from equally many components, with
equal serialized identifiers and values one by one, and from equal parameters. -/
theorem base_uniquely_decodable {lines lines' : List (ComponentIdentifier × List Char)}
    {params params' base : List Char} (hids : ∀ line ∈ lines, FromParsed line.1)
    (hids' : ∀ line ∈ lines', FromParsed line.1) (hparams : ParamsText params)
    (hparams' : ParamsText params') (h : BaseBuilder.build lines params = .ok base)
    (h' : BaseBuilder.build lines' params' = .ok base) :
    lines.length = lines'.length ∧
      lines.map (fun line => (line.1.serializeId, line.2)) =
        lines'.map (fun line => (line.1.serializeId, line.2)) ∧
      params = params' := by
  obtain ⟨hbase, hvalues⟩ := BaseBuilder.build_ok h
  obtain ⟨hbase', hvalues'⟩ := BaseBuilder.build_ok h'
  have hprintable : ∀ s, ParamsText s → IsPrintable s := by
    rintro s ⟨list, hlist, rfl⟩
    exact isPrintable_serializeInnerList hlist
  have hread : ∀ id, FromParsed id → id.Printable := by
    rintro id ⟨item, hitem, hid⟩
    exact ComponentIdentifier.printable_of_fromSfvItem hitem hid
  obtain ⟨hmap, heq⟩ := lines_inj (hprintable params hparams) (hprintable params' hparams')
    (fun line hline => ⟨hread _ (hids line hline), hvalues line hline⟩)
    (fun line hline => ⟨hread _ (hids' line hline), hvalues' line hline⟩) (hbase.symm.trans hbase')
  have hlength := congrArg List.length hmap
  rw [List.length_map, List.length_map] at hlength
  exact ⟨hlength, hmap, heq⟩

/-- The base of a request that covers its method is read as that one line. -/
theorem base_uniquely_decodable_get :
    ∃ (lines : List (ComponentIdentifier × List Char)) (params base : List Char),
      BaseBuilder.build lines params = .ok base ∧ lines ≠ [] ∧ ∀ lines' params',
        (∀ line ∈ lines', FromParsed line.1) → ParamsText params' →
          BaseBuilder.build lines' params' = .ok base →
            lines'.map (fun line => (line.1.serializeId, line.2)) =
              [("\"@method\"".toList, "GET".toList)] := by
  have hid : ∀ line ∈ [(ComponentIdentifier.ofDerived .method, "GET".toList)],
      FromParsed line.1 := by
    intro line hline
    obtain rfl := List.mem_singleton.1 hline
    exact ⟨⟨.string "@method".toList, SfvParams.new⟩, by decide, by decide⟩
  have hparams : ParamsText "(\"@method\")".toList :=
    ⟨⟨[⟨.string "@method".toList, SfvParams.new⟩], SfvParams.new⟩, by decide, by decide⟩
  have hbuild : BaseBuilder.build [(ComponentIdentifier.ofDerived .method, "GET".toList)]
      "(\"@method\")".toList =
        .ok "\"@method\": GET\n\"@signature-params\": (\"@method\")".toList := by
    decide
  refine ⟨_, _, _, hbuild, by simp, fun lines' params' hids' hparams' hbuild' => ?_⟩
  exact (base_uniquely_decodable hids' hid hparams' hparams hbuild' hbuild).2.1.trans (by decide)

end Vouch.HttpSig
