import Mathlib.Data.List.TakeWhile
import Mathlib.Data.String.Basic

/-!
# Markup as text, and reading it back

A tree of named elements and characters, written out with start tags, end tags and quoted attribute
values — and a recursive-descent reader that undoes the writing.

## What is here

* `Coding stop` — one way of writing single characters into running text that ends at the character
  `stop`, together with the reader that takes one character off the front.  The laws are fields, so
  a coding that cannot be read back cannot be built.  `Coding.escaping` builds one from a table of
  escapes, `Coding.raw` writes every character as itself.
* `Markup` — a forest, with characters as leaves of their own.  Nothing has to be said about
  adjacent or empty pieces of text: a forest has one representation.
* `Style` — which coding the text has, and which coding the value of each attribute has.
* `render` and `parse` — the writer, and the reader with its fuel.
* `parse_render` — **reading undoes writing**, whatever stands behind, and `render_injective`: two
  forests written alike are alike.
* `attributes_inj` — the same for the attributes of one tag, where values that cannot be read back
  are known to agree.
-/

/-! ## Characters in running text -/

/-- One way of writing characters into text that ends at the character `stop`. -/
structure Coding (stop : Char) where
  /-- How a character is written. -/
  write : Char → List Char
  /-- Takes one character off the front; `none` at the end of the text. -/
  read : List Char → Option (Char × List Char)
  /-- The characters that can be written. -/
  Writable : Char → Prop
  read_write : ∀ c, Writable c → ∀ rest, read (write c ++ rest) = some (c, rest)
  read_stop : ∀ rest, read (stop :: rest) = none

namespace Coding

variable {stop : Char}

/-- A written character begins with something other than the end of the text. -/
theorem write_eq_cons (k : Coding stop) {c : Char} (hc : k.Writable c) :
    ∃ d more, k.write c = d :: more ∧ d ≠ stop := by
  have h := k.read_write c hc [stop]
  cases hw : k.write c with
  | nil =>
    rw [hw, List.nil_append, k.read_stop] at h
    exact absurd h (by simp)
  | cons d more =>
    refine ⟨d, more, rfl, ?_⟩
    rintro rfl
    rw [hw, List.cons_append, k.read_stop] at h
    exact absurd h (by simp)

/-- A whole text, character by character. -/
def writeAll (k : Coding stop) (s : List Char) : List Char := s.flatMap k.write

@[simp] theorem writeAll_nil (k : Coding stop) : k.writeAll [] = [] := rfl

@[simp] theorem writeAll_cons (k : Coding stop) (c : Char) (s : List Char) :
    k.writeAll (c :: s) = k.write c ++ k.writeAll s := rfl

/-- Reads characters until there are none, or the fuel is used up. -/
def readAll (k : Coding stop) : Nat → List Char → List Char × List Char
  | 0, input => ([], input)
  | fuel + 1, input =>
    match k.read input with
    | none => ([], input)
    | some (c, rest) =>
      let (s, after) := k.readAll fuel rest
      (c :: s, after)

/-- Reading a written text up to the end of the text gives the text back. -/
theorem readAll_writeAll (k : Coding stop) (rest : List Char) :
    ∀ (s : List Char) (fuel : Nat), (∀ c ∈ s, k.Writable c) → (k.writeAll s).length < fuel →
      k.readAll fuel (k.writeAll s ++ stop :: rest) = (s, stop :: rest)
  | _, 0, _, hlen => absurd hlen (by omega)
  | [], fuel + 1, _, _ => by simp [readAll, k.read_stop]
  | c :: s, fuel + 1, hs, hlen => by
    obtain ⟨d, more, hw, -⟩ := k.write_eq_cons (hs c (by simp))
    have hrest : (k.writeAll s).length < fuel := by
      rw [writeAll_cons, hw, List.length_append, List.length_cons] at hlen
      omega
    rw [writeAll_cons, List.append_assoc, readAll, k.read_write c (hs c (by simp))]
    simp only
    rw [readAll_writeAll k rest s fuel (fun c hc => hs c (by simp [hc])) hrest]

/-- Two texts that are written alike up to their ends are alike, and so is what follows them. -/
theorem writeAll_inj (k : Coding stop) {s s' rest rest' : List Char} (hs : ∀ c ∈ s, k.Writable c)
    (hs' : ∀ c ∈ s', k.Writable c)
    (h : k.writeAll s ++ stop :: rest = k.writeAll s' ++ stop :: rest') :
    s = s' ∧ rest = rest' := by
  have hread := k.readAll_writeAll rest s ((k.writeAll s).length + (k.writeAll s').length + 1) hs
    (by omega)
  rw [h, k.readAll_writeAll rest' s' _ hs' (by omega), Prod.mk.injEq, List.cons.injEq] at hread
  exact ⟨hread.1.symm, hread.2.2.symm⟩

/-- Every character as itself.  The character that ends the text cannot be written. -/
def raw (stop : Char) : Coding stop where
  write c := [c]
  read
    | [] => none
    | c :: rest => if c = stop then none else some (c, rest)
  Writable c := c ≠ stop
  read_write c hc rest := by simp [hc]
  read_stop rest := by simp

/-! ### Escapes

A table of escapes gives, for some characters, a longer text that stands for them.  The table can be
read back if the escapes all begin with one character that is itself escaped, none begins another,
and the end of the text is escaped too. -/

/-- A table of escapes that can be read back. -/
structure EscapeTable (stop : Char) where
  /-- The character every escape begins with. -/
  mark : Char
  /-- The escaped characters, and what stands for them. -/
  entries : List (Char × List Char)
  marked : ∀ e ∈ entries, e.2.head? = some mark
  separate : ∀ e ∈ entries, ∀ e' ∈ entries, e.2 <+: e'.2 → e = e'
  mark_escaped : ∃ e ∈ entries, e.1 = mark
  stop_escaped : ∃ e ∈ entries, e.1 = stop
  stop_ne_mark : stop ≠ mark

namespace EscapeTable

/-- What stands for a character: its escape, or the character itself. -/
def write (t : EscapeTable stop) (c : Char) : List Char :=
  match t.entries.find? (c = ·.1) with
  | some e => e.2
  | none => [c]

/-- Takes an escape or a plain character off the front. -/
def read (t : EscapeTable stop) (input : List Char) : Option (Char × List Char) :=
  match t.entries.find? (·.2.isPrefixOf input) with
  | some e => some (e.1, input.drop e.2.length)
  | none =>
    match input with
    | [] => none
    | c :: rest => if c = stop then none else some (c, rest)

/-- No escape stands at the front of a text that begins with another character than the mark. -/
theorem find_eq_none (t : EscapeTable stop) {c : Char} (hc : c ≠ t.mark) (rest : List Char) :
    t.entries.find? (·.2.isPrefixOf (c :: rest)) = none := by
  rw [List.find?_eq_none]
  rintro ⟨d, escape⟩ he hpre
  rw [List.isPrefixOf_iff_prefix] at hpre
  cases escape with
  | nil => exact absurd (t.marked _ he) (by simp)
  | cons x xs =>
    have hx : some x = some t.mark := t.marked _ he
    have hxc : x = c := (List.cons_prefix_cons.mp hpre).1
    rw [hxc, Option.some.injEq] at hx
    exact hc hx

/-- The escape at the front of a text is the one that was written there. -/
theorem find_escape (t : EscapeTable stop) {e : Char × List Char} (he : e ∈ t.entries)
    (rest : List Char) : t.entries.find? (·.2.isPrefixOf (e.2 ++ rest)) = some e := by
  have hself : e.2.isPrefixOf (e.2 ++ rest) = true :=
    List.isPrefixOf_iff_prefix.mpr (List.prefix_append _ _)
  cases hf : t.entries.find? (·.2.isPrefixOf (e.2 ++ rest)) with
  | none => exact absurd hself (List.find?_eq_none.mp hf e he)
  | some e' =>
    have hmem := List.mem_of_find?_eq_some hf
    have hpre : e'.2 <+: e.2 ++ rest := by simpa using List.find?_some hf
    -- of two texts at the front of one text, one is at the front of the other
    rcases List.prefix_or_prefix_of_prefix hpre (List.prefix_append e.2 rest) with h | h
    · rw [t.separate e' hmem e he h]
    · rw [t.separate e he e' hmem h]

theorem read_write (t : EscapeTable stop) (c : Char) (rest : List Char) :
    t.read (t.write c ++ rest) = some (c, rest) := by
  unfold write
  cases hf : t.entries.find? (c = ·.1) with
  | some e =>
    have hc : c = e.1 := by simpa using List.find?_some hf
    simp [read, t.find_escape (List.mem_of_find?_eq_some hf), hc]
  | none =>
    have hplain : ∀ e ∈ t.entries, c ≠ e.1 := by simpa using hf
    have hmark : c ≠ t.mark := by
      obtain ⟨e, he, hem⟩ := t.mark_escaped
      rw [← hem]
      exact hplain e he
    have hstop : c ≠ stop := by
      obtain ⟨e, he, hes⟩ := t.stop_escaped
      rw [← hes]
      exact hplain e he
    simp [read, t.find_eq_none hmark, hstop]

theorem read_stop (t : EscapeTable stop) (rest : List Char) : t.read (stop :: rest) = none := by
  simp [read, t.find_eq_none t.stop_ne_mark]

end EscapeTable

/-- Characters written with the escapes of a table.  Every character can be written. -/
def escaping (t : EscapeTable stop) : Coding stop where
  write := t.write
  read := t.read
  Writable _ := True
  read_write c _ rest := t.read_write c rest
  read_stop rest := t.read_stop rest

end Coding

/-! ## Forests -/

/-- A forest of elements and characters. -/
inductive Markup where
  | nil
  | char (c : Char) (rest : Markup)
  | element (name : String) (attributes : List (String × String)) (children rest : Markup)
  deriving DecidableEq, Repr

/-- How the characters of the text, and of the value of each attribute, are written. -/
structure Style where
  text : Coding '<'
  value : String → Coding '"'

namespace Markup

/-- The characters a name may not hold: they end it. -/
def isNameChar (c : Char) : Bool := c ∉ [' ', '\t', '\n', '\r', '>', '=', '/', '"', '<']

/-- A name that ends where it ends. -/
def IsName (name : String) : Prop := ∀ c ∈ name.toList, isNameChar c = true

instance (name : String) : Decidable (IsName name) := List.decidableBAll _ name.toList

/-- One attribute, with the blank before it. -/
def renderAttribute (σ : Style) (a : String × String) : List Char :=
  ' ' :: (a.1.toList ++ '=' :: '"' :: ((σ.value a.1).writeAll a.2.toList ++ ['"']))

/-- A forest as text. -/
def render (σ : Style) : Markup → List Char
  | nil => []
  | char c rest => σ.text.write c ++ render σ rest
  | element name attributes children rest =>
    '<' :: (name.toList ++ (attributes.flatMap (renderAttribute σ) ++ '>' :: (render σ children ++
      '<' :: '/' :: (name.toList ++ '>' :: render σ rest))))

/-- Every name ends where it ends, and every character can be written. -/
def Valid (σ : Style) : Markup → Prop
  | nil => True
  | char c rest => σ.text.Writable c ∧ Valid σ rest
  | element name attributes children rest =>
    IsName name ∧
      (∀ a ∈ attributes, IsName a.1 ∧ ∀ c ∈ a.2.toList, (σ.value a.1).Writable c) ∧
      Valid σ children ∧ Valid σ rest

/-! ### Reading -/

/-- Reads attributes as long as a blank announces one. -/
def parseAttributes (σ : Style) : Nat → List Char → Option (List (String × String) × List Char)
  | 0, _ => none
  | fuel + 1, ' ' :: input =>
    let key := String.ofList (input.takeWhile isNameChar)
    match input.dropWhile isNameChar with
    | '=' :: '"' :: quoted =>
      let (value, afterValue) := (σ.value key).readAll fuel quoted
      match afterValue with
      | '"' :: rest => do
        let (more, afterMore) ← parseAttributes σ fuel rest
        pure ((key, String.ofList value) :: more, afterMore)
      | _ => none
    | _ => none
  | _ + 1, input => some ([], input)

/-- What follows an end tag of the given name. -/
def afterEndTag (name : List Char) (input : List Char) : Option (List Char) :=
  let tag := '<' :: '/' :: (name ++ ['>'])
  if tag.isPrefixOf input then some (input.drop tag.length) else none

/-- Reads a forest up to an end tag or the end of the input. -/
def parse (σ : Style) : Nat → List Char → Option (Markup × List Char)
  | 0, _ => none
  | _ + 1, [] => some (nil, [])
  | _ + 1, '<' :: '/' :: input => some (nil, '<' :: '/' :: input)
  | fuel + 1, '<' :: input => do
    let name := input.takeWhile isNameChar
    let (attributes, afterAttributes) ← parseAttributes σ fuel (input.dropWhile isNameChar)
    match afterAttributes with
    | '>' :: body =>
      let (children, afterBody) ← parse σ fuel body
      let afterTag ← afterEndTag name afterBody
      let (rest, afterRest) ← parse σ fuel afterTag
      pure (element (String.ofList name) attributes children rest, afterRest)
    | _ => none
  | fuel + 1, c :: input => do
    let (d, afterChar) ← σ.text.read (c :: input)
    let (rest, afterRest) ← parse σ fuel afterChar
    pure (char d rest, afterRest)

variable {name : String} {d : Char}

/-- A name is read up to the first character that cannot be part of one. -/
theorem takeWhile_name (hname : IsName name) (hd : isNameChar d = false) (rest : List Char) :
    (name.toList ++ d :: rest).takeWhile isNameChar = name.toList := by
  rw [List.takeWhile_append_of_pos hname, List.takeWhile_cons_of_neg (by simp [hd]),
    List.append_nil]

theorem dropWhile_name (hname : IsName name) (hd : isNameChar d = false) (rest : List Char) :
    (name.toList ++ d :: rest).dropWhile isNameChar = d :: rest := by
  rw [List.dropWhile_append_of_pos hname, List.dropWhile_cons_of_neg (by simp [hd])]

theorem parseAttributes_render (σ : Style) (rest : List Char) :
    ∀ (attributes : List (String × String)) (fuel : Nat),
      (∀ a ∈ attributes, IsName a.1 ∧ ∀ c ∈ a.2.toList, (σ.value a.1).Writable c) →
      (attributes.flatMap (renderAttribute σ)).length < fuel →
      parseAttributes σ fuel (attributes.flatMap (renderAttribute σ) ++ '>' :: rest) =
        some (attributes, '>' :: rest)
  | _, 0, _, hlen => absurd hlen (by omega)
  | [], fuel + 1, _, _ => by simp [parseAttributes]
  | (key, value) :: attributes, fuel + 1, hvalid, hlen => by
    obtain ⟨hkey, hvalue⟩ := hvalid (key, value) (by simp)
    simp only [List.flatMap_cons, renderAttribute, List.cons_append, List.append_assoc,
      List.length_cons, List.length_append, List.nil_append] at hlen ⊢
    simp only [parseAttributes, takeWhile_name hkey (d := '=') rfl,
      dropWhile_name hkey (d := '=') rfl, String.ofList_toList]
    rw [(σ.value key).readAll_writeAll _ value.toList fuel hvalue (by omega)]
    simp only
    rw [parseAttributes_render σ rest attributes fuel (fun a ha => hvalid a (by simp [ha]))
      (by omega)]
    simp

/-- Two names that are ended by something else, in texts that are alike. -/
theorem name_inj {name' : String} (hname : IsName name) (hname' : IsName name') {d' : Char}
    (hd : isNameChar d = false) (hd' : isNameChar d' = false) {rest rest' : List Char}
    (h : name.toList ++ d :: rest = name'.toList ++ d' :: rest') :
    name = name' ∧ d :: rest = d' :: rest' := by
  have htake := congrArg (List.takeWhile isNameChar) h
  have hdrop := congrArg (List.dropWhile isNameChar) h
  rw [takeWhile_name hname hd, takeWhile_name hname' hd', String.toList_inj] at htake
  rw [dropWhile_name hname hd, dropWhile_name hname' hd'] at hdrop
  exact ⟨htake, hdrop⟩

variable {σ : Style}

/-- Two lists of attributes that are written alike are alike, even if some values cannot be read
back: those only have to be the same for the same name. -/
theorem attributes_inj {x y : List Char} :
    ∀ {as bs : List (String × String)}, (∀ a ∈ as, IsName a.1) → (∀ b ∈ bs, IsName b.1) →
      (∀ a ∈ as, ∀ b ∈ bs, a.1 = b.1 → a.2 = b.2 ∨
        (∀ c ∈ a.2.toList, (σ.value a.1).Writable c) ∧ ∀ c ∈ b.2.toList, (σ.value a.1).Writable c) →
      as.flatMap (renderAttribute σ) ++ '>' :: x = bs.flatMap (renderAttribute σ) ++ '>' :: y →
      as = bs ∧ x = y
  | [], [], _, _, _, h => ⟨rfl, (List.cons.inj h).2⟩
  | [], b :: bs, _, _, _, h => by
    rw [List.flatMap_cons, renderAttribute] at h
    exact absurd (List.cons.inj h).1 (by decide)
  | a :: as, [], _, _, _, h => by
    rw [List.flatMap_cons, renderAttribute] at h
    exact absurd (List.cons.inj h).1 (by decide)
  | (key, value) :: as, (key', value') :: bs, has, hbs, hvalues, h => by
    simp only [List.flatMap_cons, renderAttribute, List.cons_append, List.append_assoc,
      List.nil_append, List.cons.injEq, true_and] at h
    obtain ⟨rfl, h⟩ := name_inj (has (key, value) List.mem_cons_self)
      (hbs (key', value') List.mem_cons_self) (by decide) (by decide) h
    simp only [List.cons.injEq, true_and] at h
    obtain ⟨rfl, hmore⟩ : value = value' ∧ as.flatMap (renderAttribute σ) ++ '>' :: x =
        bs.flatMap (renderAttribute σ) ++ '>' :: y := by
      rcases hvalues _ List.mem_cons_self _ List.mem_cons_self rfl with hsame | ⟨hw, hw'⟩
      · obtain rfl : value = value' := hsame
        have hrest := List.append_cancel_left h
        exact ⟨rfl, (List.cons.inj hrest).2⟩
      · obtain ⟨hvalue, hrest⟩ := (σ.value key).writeAll_inj hw hw' h
        exact ⟨String.toList_inj.1 hvalue, hrest⟩
    obtain ⟨rfl, hxy⟩ := attributes_inj (fun a ha => has a (List.mem_cons_of_mem _ ha))
      (fun b hb => hbs b (List.mem_cons_of_mem _ hb))
      (fun a ha b hb => hvalues a (List.mem_cons_of_mem _ ha) b (List.mem_cons_of_mem _ hb)) hmore
    exact ⟨rfl, hxy⟩

theorem afterEndTag_self (name rest : List Char) :
    afterEndTag name ('<' :: '/' :: (name ++ '>' :: rest)) = some rest := by
  have happ : ('<' :: '/' :: (name ++ '>' :: rest)) = ('<' :: '/' :: (name ++ ['>'])) ++ rest := by
    simp
  unfold afterEndTag
  rw [happ]
  simp

/-- The name of a start tag is ended by a blank or by the end of the tag. -/
theorem afterName_eq_cons (σ : Style) (attributes : List (String × String)) (rest : List Char) :
    ∃ d more, attributes.flatMap (renderAttribute σ) ++ '>' :: rest = d :: more ∧
      isNameChar d = false ∧ d ≠ '/' := by
  cases attributes with
  | nil => exact ⟨'>', rest, rfl, by decide, by decide⟩
  | cons a attributes =>
    rw [List.flatMap_cons, renderAttribute]
    exact ⟨' ', _, rfl, by decide, by decide⟩

/-- A start tag is not taken for an end tag. -/
theorem startTag_ne_slash (hname : IsName name) (hd : d ≠ '/') {more input : List Char} :
    name.toList ++ d :: more ≠ '/' :: input := by
  cases hn : name.toList with
  | nil => simpa using fun h => absurd h hd
  | cons c cs =>
    have hc : isNameChar c = true := hname c (by simp [hn])
    rintro h
    obtain rfl : c = '/' := (List.cons.inj h).1
    exact absurd hc (by decide)

/-- What may stand behind a forest: nothing, or an end tag. -/
def Ends (tail : List Char) : Prop := tail = [] ∨ ∃ rest, tail = '<' :: '/' :: rest

/-- **Reading undoes writing**, whatever stands behind. -/
theorem parse_render (σ : Style) : ∀ (m : Markup) (fuel : Nat) (tail : List Char), m.Valid σ →
    (m.render σ).length < fuel → Ends tail → parse σ fuel (m.render σ ++ tail) = some (m, tail)
  | _, 0, _, _, hlen, _ => absurd hlen (by omega)
  | nil, fuel + 1, tail, _, _, htail => by
    rcases htail with rfl | ⟨rest, rfl⟩
    · simp [render, parse]
    · simp [render, parse]
  | char c rest, fuel + 1, tail, hvalid, hlen, htail => by
    obtain ⟨hc, hrest⟩ := hvalid
    obtain ⟨d, more, hw, hd⟩ := σ.text.write_eq_cons hc
    have hread := σ.text.read_write c hc (rest.render σ ++ tail)
    simp only [render, List.append_assoc, hw, List.cons_append, List.length_cons,
      List.length_append] at hlen hread ⊢
    have hrec := parse_render σ rest fuel tail hrest (by omega) htail
    rw [parse]
    · rw [hread]
      simp [hrec]
    · rintro input rfl
      exact absurd rfl hd
    · rintro rfl
      exact absurd rfl hd
  | element name attributes children rest, fuel + 1, tail, hvalid, hlen, htail => by
    obtain ⟨hname, hattributes, hchildren, hrest⟩ := hvalid
    simp only [render, List.cons_append, List.append_assoc, List.length_cons,
      List.length_append] at hlen ⊢
    obtain ⟨d, more, hafter, hd, hslash⟩ := afterName_eq_cons σ attributes
      (children.render σ ++ '<' :: '/' :: (name.toList ++ '>' :: (rest.render σ ++ tail)))
    have hattrs := parseAttributes_render σ
      (children.render σ ++ '<' :: '/' :: (name.toList ++ '>' :: (rest.render σ ++ tail)))
      attributes fuel hattributes (by omega)
    have hbody := parse_render σ children fuel
      ('<' :: '/' :: (name.toList ++ '>' :: (rest.render σ ++ tail))) hchildren (by omega)
      (.inr ⟨_, rfl⟩)
    have hmore := parse_render σ rest fuel tail hrest (by omega) htail
    rw [parse]
    · rw [hafter] at hattrs ⊢
      rw [takeWhile_name hname hd, dropWhile_name hname hd, hattrs]
      simp [hbody, afterEndTag_self, hmore]
    · rintro input h
      rw [hafter] at h
      exact startTag_ne_slash hname hslash h

/-- Reads a whole input as a forest. -/
def read (σ : Style) (input : List Char) : Option Markup :=
  match parse σ (input.length + 1) input with
  | some (m, []) => some m
  | _ => none

theorem read_render {m : Markup} (h : m.Valid σ) : read σ (m.render σ) = some m := by
  have hparse := parse_render σ m ((m.render σ).length + 1) [] h (by omega) (.inl rfl)
  rw [List.append_nil] at hparse
  rw [read, hparse]

/-- Two forests that are written alike are alike. -/
theorem render_injective {m₁ m₂ : Markup} (h₁ : m₁.Valid σ) (h₂ : m₂.Valid σ)
    (h : m₁.render σ = m₂.render σ) : m₁ = m₂ := by
  have hread := read_render h₁
  rw [h, read_render h₂] at hread
  exact (Option.some.inj hread).symm

end Markup
