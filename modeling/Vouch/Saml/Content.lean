import Mathlib.Data.List.Find
import Mathlib.Data.Prod.Lex
import Vouch.Saml.Canonical
import Vouch.Saml.Response

/-!
# What the validator looks at

The validator reads the document as it was parsed, with its comments, its prefixes and its
signature; the digest covers the content of an element without the signature.  This file shows that
the validator's answer depends on a part of that content alone.

* `descendants_path_unique` — an element is determined by its place, so that a lookup by place (the
  source compares `NodeId`s) finds the element that was meant.
* `elements_prune` — what is left of the children of an element when the node at one place is taken
  out; `child_pruneElement` — no child that the validator looks for goes with the signature.
* `bareElement` — what the validator can see of an element.  It asks for attributes by their local
  names, whatever their namespaces, and takes the first; so this is all it depends on if no start
  tag has two values for one local name (`Head.Definite`).
* `bare_toNodes`, `bare_normalize` — writing an element out and parsing it again, and comparing
  canonical texts, keep what the validator can see.
* `validateAssertion_bareElement` — **the answer to an assertion is a function of what can be seen
  of it.**
-/

namespace Vouch.Saml

open Xml

/-! ## Places -/

variable {nodes : Nodes} {path : List Nat} {ancestors : List (List Namespace)}
    {i : Nat} {n n' : Node}
  {outer : List Namespace}

theorem located_subset_descendants (hn : n ∈ nodes.located path ancestors i) :
    n ∈ nodes.descendants path ancestors i := by
  induction nodes generalizing i with
  | nil => cases hn
  | text _ rest ih => exact ih hn
  | misc rest ih => exact ih hn
  | element head children rest _ ih =>
    rw [Nodes.located, List.mem_cons] at hn
    rw [Nodes.descendants, List.mem_cons, List.mem_append]
    rcases hn with rfl | hn
    · exact .inl rfl
    · exact .inr (.inr (ih hn))

theorem map_element_located (ancestors : List (List Namespace)) (nodes : Nodes) (path : List Nat)
    (i : Nat) : (nodes.located path ancestors i).map (·.element) = nodes.elements := by
  induction nodes generalizing i with
  | nil => rfl
  | text _ rest ih => exact ih (i + 1)
  | misc rest ih => exact ih (i + 1)
  | element head children rest _ ih => rw [Nodes.located, List.map_cons, ih, Nodes.elements]

/-- The children of a descendant are descendants. -/
theorem children_subset_descendants (hn : n ∈ nodes.descendants path ancestors i)
    (hc : n' ∈ n.children) : n' ∈ nodes.descendants path ancestors i := by
  induction nodes generalizing path ancestors i with
  | nil => cases hn
  | text _ rest ih => exact ih hn
  | misc rest ih => exact ih hn
  | element head children rest ihChildren ih =>
    rw [Nodes.descendants, List.mem_cons, List.mem_append] at hn ⊢
    refine .inr ?_
    rcases hn with rfl | hn | hn
    · exact .inl (located_subset_descendants hc)
    · exact .inl (ihChildren hn)
    · exact .inr (ih hn)

/-- The place of a descendant is below the place of the parent. -/
theorem descendants_path (hn : n ∈ nodes.descendants path ancestors i) :
    ∃ below j, n.path = below ++ j :: path ∧ i ≤ j := by
  induction nodes generalizing path ancestors i with
  | nil => cases hn
  | text _ rest ih =>
    obtain ⟨below, j, hpath, hj⟩ := ih hn
    exact ⟨below, j, hpath, by omega⟩
  | misc rest ih =>
    obtain ⟨below, j, hpath, hj⟩ := ih hn
    exact ⟨below, j, hpath, by omega⟩
  | element head children rest ihChildren ih =>
    rw [Nodes.descendants, List.mem_cons, List.mem_append] at hn
    rcases hn with rfl | hn | hn
    · exact ⟨[], i, rfl, le_rfl⟩
    · obtain ⟨below, j, hpath, -⟩ := ihChildren hn
      exact ⟨below ++ [j], i, by rw [hpath]; simp, le_rfl⟩
    · obtain ⟨below, j, hpath, hj⟩ := ih hn
      exact ⟨below, j, hpath, by omega⟩

/-- **An element is determined by its place.** -/
theorem descendants_path_unique (hn : n ∈ nodes.descendants path ancestors i)
    (hn' : n' ∈ nodes.descendants path ancestors i) (h : n.path = n'.path) : n = n' := by
  induction nodes generalizing path ancestors i with
  | nil => cases hn
  | text _ rest ih => exact ih hn hn'
  | misc rest ih => exact ih hn hn'
  | element head children rest ihChildren ih =>
    -- the places below the first element are longer than its own
    have hbelow : ∀ m : Node,
      m ∈ children.descendants (i :: path) (head.namespaces :: ancestors) 0 →
        m.path ≠ i :: path := by
      intro m hm heq
      obtain ⟨below, j, hpath, -⟩ := descendants_path hm
      have hlen := congrArg List.length (hpath.symm.trans heq)
      simp only [List.length_append, List.length_cons] at hlen
      omega
    -- the places at or below the first element end in its number, those behind it in a later one
    have hbehind : ∀ m m' : Node, (m = ⟨⟨head, children⟩, i :: path, ancestors⟩ ∨
        m ∈ children.descendants (i :: path) (head.namespaces :: ancestors) 0) →
        m' ∈ rest.descendants path ancestors (i + 1) → m.path ≠ m'.path := by
      intro m m' hm hm' heq
      obtain ⟨below, hpath⟩ : ∃ below, m.path = below ++ i :: path := by
        rcases hm with rfl | hm
        · exact ⟨[], rfl⟩
        · obtain ⟨below, j, hpath, -⟩ := descendants_path hm
          exact ⟨below ++ [j], by simp [hpath]⟩
      obtain ⟨below', j, hpath', hj⟩ := descendants_path hm'
      have hcons := (List.append_inj' (hpath'.symm.trans (heq.symm.trans hpath)) (by simp)).2
      have hji := (List.cons.inj hcons).1
      omega
    rw [Nodes.descendants, List.mem_cons, List.mem_append, ← or_assoc] at hn hn'
    rcases hn with hn | hn
    · rcases hn' with hn' | hn'
      · rcases hn with rfl | hn
        · rcases hn' with rfl | hn'
          · rfl
          · exact absurd h.symm (hbelow n' hn')
        · rcases hn' with rfl | hn'
          · exact absurd h (hbelow n hn)
          · exact ihChildren hn hn'
      · exact absurd h (hbehind n n' hn hn')
    · rcases hn' with hn' | hn'
      · exact absurd h.symm (hbehind n' n hn' hn)
      · exact ih hn hn'

/-- An element that is well formed inside some element. -/
def Element.WellFormed (e : Element) : Prop :=
  ∃ outer, e.head.WellFormed outer ∧ e.children.WellFormed e.head.namespaces

/-- The elements of a well-formed document are well formed. -/
theorem wellFormed_of_mem_descendants (hwf : nodes.WellFormed outer)
    (hn : n ∈ nodes.descendants path ancestors i) : Element.WellFormed n.element := by
  induction nodes generalizing outer path ancestors i with
  | nil => cases hn
  | text _ rest ih => exact ih hwf hn
  | misc rest ih => exact ih hwf hn
  | element head children rest ihChildren ih =>
    obtain ⟨hhead, hchildren, hrest⟩ := hwf
    rw [Nodes.descendants, List.mem_cons, List.mem_append] at hn
    rcases hn with rfl | hn | hn
    · exact ⟨outer, hhead, hchildren⟩
    · exact ihChildren hchildren hn
    · exact ih hrest hn

variable {e : Element}

/-! ## Without the signature -/

/-- An element at `path` without the node at `exclude`. -/
def pruneElement (exclude path : List Nat) (e : Element) : Element :=
  ⟨e.head, prune exclude path 0 e.children⟩

section Prune

variable {exclude : List Nat}

/-- A node whose place is not below an element is not taken out of it. -/
theorem prune_eq_self (hlen : exclude.length ≤ path.length) :
    prune exclude path i nodes = nodes := by
  induction nodes generalizing path i with
  | nil => rfl
  | text _ rest ih => rw [prune, ih hlen]
  | misc rest ih => rw [prune, ih hlen]
  | element head children rest ihChildren ih =>
    have hne : i :: path ≠ exclude := by
      rintro rfl
      rw [List.length_cons] at hlen
      omega
    rw [prune, if_neg hne, ih hlen, ihChildren (by rw [List.length_cons]; omega)]

theorem wellFormed_prune (hwf : nodes.WellFormed outer) :
    (prune exclude path i nodes).WellFormed outer := by
  induction nodes generalizing outer path i with
  | nil => trivial
  | text _ rest ih => exact ih hwf
  | misc rest ih => exact ih hwf
  | element head children rest ihChildren ih =>
    obtain ⟨hhead, hchildren, hrest⟩ := hwf
    rw [prune]
    split
    · exact ih hrest
    · exact ⟨hhead, ihChildren hchildren, ih hrest⟩

end Prune

theorem wellFormed_pruneElement (exclude path : List Nat) (hwf : Element.WellFormed e) :
    Element.WellFormed (pruneElement exclude path e) := by
  obtain ⟨outer, hhead, hchildren⟩ := hwf
  exact ⟨outer, hhead, wellFormed_prune hchildren⟩

/-- What is left of the children of an element. -/
theorem elements_prune (exclude : List Nat) (ancestors : List (List Namespace)) :
    (prune exclude path i nodes).elements =
      (nodes.located path ancestors i).filterMap fun n =>
        if n.path = exclude then none else some (pruneElement exclude n.path n.element) := by
  induction nodes generalizing i with
  | nil => rfl
  | text _ rest ih => exact ih
  | misc rest ih => exact ih
  | element head children rest _ ih =>
    rw [prune, Nodes.located, List.filterMap_cons]
    by_cases hpath : i :: path = exclude
    · simp [if_pos hpath, ih]
    · simp only [if_neg hpath, Nodes.elements, ih]
      rfl

theorem length_path_located (hn : n ∈ nodes.located path ancestors i) :
    n.path.length = path.length + 1 := by
  induction nodes generalizing i with
  | nil => cases hn
  | text _ rest ih => exact ih hn
  | misc rest ih => exact ih hn
  | element head children rest _ ih =>
    rcases List.mem_cons.mp hn with rfl | hn
    · rfl
    · exact ih hn

variable {ns name : String}

/-- The children of a name, without the node at `exclude`, if that node has another name. -/
theorem childrenNamed_pruneElement {exclude path : List Nat} (ancestors : List (List Namespace))
    (hother : ∀ n ∈ e.children.located path ancestors 0, n.path = exclude →
      n.element.hasTagName ns name = false) :
    (pruneElement exclude path e).childrenNamed ns name =
      ((e.children.located path ancestors 0).filter (·.element.hasTagName ns name)).map fun n =>
        pruneElement exclude n.path n.element := by
  rw [Element.childrenNamed, pruneElement, elements_prune exclude ancestors]
  generalize e.children.located path ancestors 0 = l at hother ⊢
  induction l with
  | nil => rfl
  | cons n l ih =>
    have hrest := ih fun m hm => hother m (by simp [hm])
    by_cases hpath : n.path = exclude
    · have hname := hother n (by simp) hpath
      simp [hpath, hname, hrest]
    · have hsame : (pruneElement exclude n.path n.element).hasTagName ns name =
          n.element.hasTagName ns name := rfl
      simp only [List.filterMap_cons, if_neg hpath, List.filter_cons, hsame, hrest]
      split
      · rfl
      · rfl

/-- No child that the validator looks for goes with a node of another name. -/
theorem child_pruneElement {exclude path : List Nat} (ancestors : List (List Namespace))
    (hlen : exclude.length ≤ path.length + 1)
    (hother : ∀ n ∈ e.children.located path ancestors 0, n.path = exclude →
      n.element.hasTagName ns name = false) :
    (pruneElement exclude path e).child ns name = e.child ns name := by
  have hself : ∀ n ∈ (e.children.located path ancestors 0).filter (·.element.hasTagName ns name),
      pruneElement exclude n.path n.element = n.element := by
    intro n hn
    have hlong := length_path_located (List.mem_filter.mp hn).1
    rw [pruneElement, prune_eq_self (by omega)]
  have hnamed : (pruneElement exclude path e).childrenNamed ns name = e.childrenNamed ns name := by
    rw [childrenNamed_pruneElement ancestors hother, List.map_congr_left hself,
      Element.childrenNamed, ← map_element_located ancestors e.children path 0, List.filter_map]
    simp [Function.comp_def]
  rw [Element.child, Element.child, ← List.head?_filter, ← List.head?_filter]
  exact congrArg List.head? hnamed

/-! ## Content -/

/-- Local names and values of the attributes of a start tag, in one order. -/
def bareAttributes (h : Head) : List (String × String) :=
  (h.attributes.map fun a => (a.name.name, a.value)).insertionSort pairLe

/-- What the validator can see of a start tag: the name, and the attributes without their
namespaces. -/
def bareHead (h : Head) : Head where
  tagName := normalName h.tagName
  qname := ""
  namespaces := []
  attributes := (bareAttributes h).map fun a => ⟨⟨none, a.1⟩, a.2, ""⟩

/-- What the validator can see of some nodes. -/
def bare : Nodes → Nodes
  | .nil => .nil
  | .text s rest => textNodes s (bare rest)
  | .misc rest => bare rest
  | .element head children rest => .element (bareHead head) (bare children) (bare rest)

/-- What the validator can see of an element. -/
def bareElement (e : Element) : Element := ⟨bareHead e.head, bare e.children⟩

theorem pairLe_iff {a b : String × String} : pairLe a b ↔ toLex a ≤ toLex b :=
  Prod.Lex.toLex_le_toLex.symm

instance : Std.Total pairLe where
  total a b := by simpa only [pairLe_iff] using le_total (toLex a) (toLex b)

instance : IsTrans (String × String) pairLe where
  trans a b c := by simpa only [pairLe_iff] using le_trans

instance : Std.Antisymm pairLe where
  antisymm a b := by simpa only [pairLe_iff] using fun h h' => toLex.injective (le_antisymm h h')

/-- A set of declarations has one order. -/
theorem insertionSort_eq_of_perm {l l' : List (String × String)} (h : l.Perm l') :
    l.insertionSort pairLe = l'.insertionSort pairLe :=
  ((l.perm_insertionSort pairLe).trans
    (h.trans (l'.perm_insertionSort pairLe).symm)).eq_of_pairwise'
    (List.pairwise_insertionSort pairLe l) (List.pairwise_insertionSort pairLe l')

theorem bareHead_congr {h h' : Head} (htag : normalName h.tagName = normalName h'.tagName)
    (hperm : (h.attributes.map fun a => (a.name.name, a.value)).Perm
      (h'.attributes.map fun a => (a.name.name, a.value))) : bareHead h = bareHead h' := by
  rw [bareHead, bareHead, htag, bareAttributes, bareAttributes, insertionSort_eq_of_perm hperm]

/-- What can be seen of a start tag is part of its normal form. -/
theorem bareHead_normalHead {h : Head} (hwf : h.WellFormed outer) :
    bareHead (normalHead h) = bareHead h := by
  refine bareHead_congr ?_ ?_
  · show normalName (normalName h.tagName) = normalName h.tagName
    rw [normalName, normalName, Option.filter_filter]
    simp
  · rw [← map_attributesToRender, attributesToRender_eq hwf, List.map_map]
    exact (h.attributes.perm_insertionSort attributeLe).map _

/-- What is read back of a start tag looks the same. -/
theorem bareHead_serial {h : Head} {scope : List Namespace} (hwf : h.WellFormed scope)
    (hwf' : (resolveHead scope (elementQname ancestors h)
      (serialAttributes ancestors h)).WellFormed scope) :
    bareHead (resolveHead scope (elementQname ancestors h) (serialAttributes ancestors h)) =
      bareHead h := by
  obtain ⟨hscope, hattributes⟩ := resolveHead_serial ancestors hwf hwf'
  have htag := hwf'.tagName
  rw [hscope] at htag
  refine bareHead_congr ?_ ?_
  · rw [htag]
    exact congrArg normalName (resolveTagName_elementQname ancestors hwf).1
  · rw [hattributes, List.map_map]
    refine .of_eq (List.map_congr_left fun a ha => ?_)
    exact Prod.ext (resolveAttributeName_attributeQname ancestors hwf ha).1 rfl

theorem bare_textNodes (s : String) (nodes : Nodes) :
    bare (textNodes s nodes) = textNodes s (bare nodes) := by
  unfold textNodes
  induction s.toList with
  | nil => rfl
  | cons c cs ih =>
    rw [List.foldr_cons, List.foldr_cons, bare, ih, textNodes, String.toList_singleton]
    rfl

/-- What can be seen of some nodes is part of their normal form. -/
theorem bare_normalize (hwf : nodes.WellFormed outer) : bare (normalize nodes) = bare nodes := by
  induction nodes generalizing outer with
  | nil => rfl
  | text s rest ih => rw [normalize, bare_textNodes, ih hwf, bare]
  | misc rest ih => exact ih hwf
  | element head children rest ihChildren ihRest =>
    rw [normalize, bare, bare, bareHead_normalHead hwf.1, ihChildren hwf.2.1, ihRest hwf.2.2]

theorem bare_textCons (c : Char) (nodes : Nodes) :
    bare (textCons c nodes) = .text (String.singleton c) (bare nodes) := by
  cases nodes with
  | text s rest => simp [textCons, bare, textNodes]
  | nil => simp [textCons, bare, textNodes]
  | misc rest => simp [textCons, bare, textNodes]
  | element head children rest => simp [textCons, bare, textNodes]

theorem bare_toNodes_chars (outer : List Namespace) (s : String) (rest : Markup) :
    bare (toNodes outer (chars s rest)) = textNodes s (bare (toNodes outer rest)) := by
  unfold chars textNodes
  induction s.toList with
  | nil => rfl
  | cons c cs ih => rw [List.foldr_cons, toNodes, bare_textCons, ih, List.foldr_cons]

/-- **What was written and parsed again looks the same.** -/
theorem bare_toNodes (hwf : nodes.WellFormed outer)
    (hread : (toNodes outer (serialMarkup ancestors nodes)).WellFormed outer) :
    bare (toNodes outer (serialMarkup ancestors nodes)) = bare nodes := by
  induction nodes generalizing outer ancestors with
  | nil => rfl
  | text s rest ih =>
    rw [serialMarkup, wellFormed_chars] at hread
    rw [serialMarkup, bare_toNodes_chars, ih hwf hread, bare]
  | misc rest ih => exact ih hwf hread
  | element head children rest ihChildren ihRest =>
    rw [serialMarkup, toNodes] at hread ⊢
    obtain ⟨hscope, -⟩ := resolveHead_serial ancestors hwf.1 hread.1
    rw [bare, bare, bareHead_serial hwf.1 hread.1, ihChildren (hscope ▸ hwf.2.1) hread.2.1,
      ihRest hwf.2.2 hread.2.2]

theorem elements_textNodes (s : String) (rest : Nodes) :
    (textNodes s rest).elements = rest.elements := by
  unfold textNodes
  induction s.toList with
  | nil => rfl
  | cons c cs ih => rw [List.foldr_cons, Nodes.elements, ih]

theorem elements_bare : ∀ nodes : Nodes,
    (bare nodes).elements = nodes.elements.map bareElement
  | .nil => rfl
  | .text s rest => by
    rw [bare, elements_textNodes, elements_bare rest, Nodes.elements]
  | .misc rest => by rw [bare, elements_bare rest, Nodes.elements]
  | .element head children rest => by
    rw [bare, Nodes.elements, elements_bare rest, Nodes.elements, List.map_cons]
    rfl

theorem hasTagName_bareElement (hns : ns ≠ "") (name : String) (e : Element) :
    (bareElement e).hasTagName ns name = e.hasTagName ns name := by
  have hiff : normalName e.head.tagName = ⟨some ns, name⟩ ↔ e.head.tagName = ⟨some ns, name⟩ := by
    obtain ⟨tagNs, tagName⟩ := e.head.tagName
    rw [normalName, ExpandedName.mk.injEq, ExpandedName.mk.injEq, Option.filter_eq_some_iff]
    simp [hns]
  exact decide_eq_decide.mpr hiff

theorem childrenNamed_bareElement (hns : ns ≠ "") (name : String) (e : Element) :
    (bareElement e).childrenNamed ns name = (e.childrenNamed ns name).map bareElement := by
  rw [Element.childrenNamed, bareElement, elements_bare, List.filter_map, Element.childrenNamed]
  congr 1
  refine List.filter_congr fun c _ => ?_
  exact hasTagName_bareElement hns name c

theorem child_bareElement (hns : ns ≠ "") (name : String) (e : Element) :
    (bareElement e).child ns name = (e.child ns name).map bareElement := by
  have h := congrArg List.head? (childrenNamed_bareElement hns name e)
  rwa [Element.childrenNamed, Element.childrenNamed, List.head?_map, List.head?_filter,
    List.head?_filter] at h

variable {α : Type}

/-- A start tag in which the value of an attribute does not depend on its namespace. -/
def Head.Definite (h : Head) : Prop :=
  ∀ a ∈ h.attributes, ∀ b ∈ h.attributes, a.name.name = b.name.name → a.value = b.value

instance : DecidablePred Head.Definite := fun h => List.decidableBAll _ h.attributes

/-- All start tags of an element are definite. -/
def Element.Definite (e : Element) : Prop := (asNodes e).All Head.Definite

instance (e : Element) : Decidable (Element.Definite e) := Nodes.decidableAll _ _

/-- Where a key has one value, a lookup does not depend on the order of the entries. -/
theorem find?_value_eq {l l' : List (String × String)} (hperm : l.Perm l')
    (hone : ∀ x ∈ l, ∀ y ∈ l, x.1 = y.1 → x.2 = y.2) (key : String) :
    (l.find? (·.1 = key)).map (·.2) = (l'.find? (·.1 = key)).map (·.2) := by
  cases hl : l.find? (·.1 = key) with
  | none =>
    have hnone : ∀ x ∈ l', ¬ decide (x.1 = key) = true :=
      fun x hx => List.find?_eq_none.mp hl x (hperm.mem_iff.mpr hx)
    rw [List.find?_eq_none.mpr hnone]
  | some x =>
    have hx := List.mem_of_find?_eq_some hl
    have hxkey : x.1 = key := by simpa using List.find?_some hl
    cases hl' : l'.find? (·.1 = key) with
    | none =>
      exact absurd (decide_eq_true hxkey) (List.find?_eq_none.mp hl' x (hperm.mem_iff.mp hx))
    | some y =>
      have hy := hperm.mem_iff.mpr (List.mem_of_find?_eq_some hl')
      have hykey : y.1 = key := by simpa using List.find?_some hl'
      rw [Option.map_some, Option.map_some, hone x hx y hy (hxkey.trans hykey.symm)]

theorem attributeValue_bareElement (hdef : Element.Definite e) (name : String) :
    (bareElement e).attributeValue name = e.attributeValue name := by
  have hone : ∀ x ∈ bareAttributes e.head, ∀ y ∈ bareAttributes e.head, x.1 = y.1 → x.2 = y.2 := by
    intro x hx y hy hkey
    rw [bareAttributes, List.mem_insertionSort] at hx hy
    obtain ⟨a, ha, rfl⟩ := List.mem_map.mp hx
    obtain ⟨b, hb, rfl⟩ := List.mem_map.mp hy
    exact hdef.1 a ha b hb hkey
  have hlookup := find?_value_eq (List.perm_insertionSort pairLe _) hone name
  rw [List.find?_map, Option.map_map] at hlookup
  rw [Element.attributeValue, Element.attributeValue]
  refine Eq.trans ?_ hlookup
  show (((bareAttributes e.head).map _).find? _).map _ = _
  rw [List.find?_map, Option.map_map]
  rfl

/-! ### Text -/

/-- The text of an element, empty if there is none. -/
def textOf (e : Element) : String := e.children.texts.foldr (· ++ ·) ""

theorem elementText_eq (e : Element) :
    elementText e = if e.children.texts = [] then none else some (textOf e) := by
  rw [elementText, textOf]
  cases e.children.texts with
  | nil => rfl
  | cons s l => simp

theorem textOf_of_no_text (h : e.children.texts = []) : textOf e = "" := by
  rw [textOf, h]
  rfl

theorem texts_textNodes (s : String) (rest : Nodes) :
    (textNodes s rest).texts.foldr (· ++ ·) "" = s ++ rest.texts.foldr (· ++ ·) "" := by
  rw [← String.toList_inj, String.toList_append]
  unfold textNodes
  induction s.toList with
  | nil => rfl
  | cons c cs ih =>
    rw [List.foldr_cons, Nodes.texts, List.foldr_cons, String.toList_append, ih,
      String.toList_singleton]
    rfl

theorem texts_bare : ∀ nodes : Nodes,
    (bare nodes).texts.foldr (· ++ ·) "" = nodes.texts.foldr (· ++ ·) ""
  | .nil => rfl
  | .text s rest => by
    rw [bare, texts_textNodes, texts_bare rest, Nodes.texts, List.foldr_cons]
  | .misc rest => by rw [bare, texts_bare rest, Nodes.texts]
  | .element head children rest => by
    rw [bare, Nodes.texts, texts_bare rest, Nodes.texts]

theorem textOf_bareElement (e : Element) : textOf (bareElement e) = textOf e :=
  texts_bare e.children

/-- Where an empty text counts as none, the text is all that matters. -/
theorem elementText_bind_trimmed (e : Element) (f : String → α) :
    ((elementText e).bind fun text => if trimmed text = "" then none else some (f (trimmed text))) =
      if trimmed (textOf e) = "" then none else some (f (trimmed (textOf e))) := by
  rw [elementText_eq]
  by_cases h : e.children.texts = []
  · rw [if_pos h, textOf_of_no_text h, Option.bind_none, if_pos (by decide)]
  · rw [if_neg h, Option.bind_some]

/-! ### Children -/

variable {c : Element}

theorem all_of_mem_elements {P : Head → Prop} (hall : nodes.All P) (hc : c ∈ nodes.elements) :
    (asNodes c).All P := by
  induction nodes with
  | nil => cases hc
  | text _ rest ih => exact ih hall hc
  | misc rest ih => exact ih hall hc
  | element head children rest _ ih =>
    rcases List.mem_cons.mp hc with rfl | hc
    · exact ⟨hall.1, hall.2.1, trivial⟩
    · exact ih hall.2.2 hc

theorem Element.Definite.child (hdef : Element.Definite e) (hc : e.child ns name = some c) :
    Element.Definite c :=
  all_of_mem_elements hdef.2.1 (List.mem_of_find?_eq_some hc)

theorem Element.Definite.childrenNamed (hdef : Element.Definite e)
    (hc : c ∈ e.childrenNamed ns name) : Element.Definite c :=
  all_of_mem_elements hdef.2.1 (List.mem_filter.mp hc).1

/-! ## The checks of the assertion -/

theorem nsSaml_ne_empty : nsSaml ≠ "" := by decide

theorem toOption_bind {ε β : Type} (x : Except ε α) (f : α → Except ε β) :
    (x >>= f).toOption = x.toOption.bind fun a => (f a).toOption := by
  cases x with
  | error e => rfl
  | ok a => rfl

theorem toOption_okOr {ε : Type} (e : ε) (o : Option α) : (okOr e o).toOption = o := by
  cases o <;> rfl

/-- Whether the issuer is the expected one. -/
theorem toOption_validateIssuer (e : Element) {expected : String} (hne : expected ≠ "") :
    (validateIssuer e expected).toOption = (e.child nsSaml "Issuer").bind fun issuer =>
      if trimmed (textOf issuer) = expected then some () else none := by
  rw [validateIssuer]
  cases e.child nsSaml "Issuer" with
  | none => rfl
  | some issuer =>
    rw [Option.bind_some, Option.bind_some, elementText_eq]
    by_cases htexts : issuer.children.texts = []
    · have hempty : trimmed "" = "" := by decide
      rw [if_pos htexts, textOf_of_no_text htexts, hempty, if_neg hne.symm]
      rfl
    · rw [if_neg htexts]
      by_cases heq : trimmed (textOf issuer) = expected
      · simp [okOr, heq, bind, Except.bind, Except.toOption, pure, Except.pure]
      · simp [okOr, heq, bind, Except.bind, Except.toOption, throw, throwThe,
          MonadExceptOf.throw]

theorem toOption_validateIssuer_bareElement (e : Element) {expected : String}
    (hne : expected ≠ "") :
    (validateIssuer (bareElement e) expected).toOption =
      (validateIssuer e expected).toOption := by
  rw [toOption_validateIssuer _ hne, toOption_validateIssuer _ hne,
    child_bareElement nsSaml_ne_empty, Option.bind_map]
  cases e.child nsSaml "Issuer" with
  | none => rw [Option.bind_none, Option.bind_none]
  | some issuer =>
    rw [Option.bind_some, Option.bind_some, Function.comp, textOf_bareElement]

variable {spEntityId : String}

theorem restrictionAdmits_eq (hne : spEntityId ≠ "") (restriction : Element) :
    restrictionAdmits spEntityId restriction =
      (restriction.childrenNamed nsSaml "Audience").any fun a =>
        trimmed (textOf a) = spEntityId := by
  rw [restrictionAdmits]
  induction restriction.childrenNamed nsSaml "Audience" with
  | nil => rfl
  | cons a l ih =>
    rw [List.filterMap_cons, elementText_eq, List.any_cons, ← ih]
    by_cases htexts : a.children.texts = []
    · have hempty : trimmed "" = "" := by decide
      simp [htexts, textOf_of_no_text htexts, hempty, hne.symm]
    · simp [htexts]

theorem restrictionAdmits_bareElement (hne : spEntityId ≠ "") (restriction : Element) :
    restrictionAdmits spEntityId (bareElement restriction) =
      restrictionAdmits spEntityId restriction := by
  rw [restrictionAdmits_eq hne, restrictionAdmits_eq hne,
    childrenNamed_bareElement nsSaml_ne_empty, List.any_map]
  simp [Function.comp_def, textOf_bareElement]

theorem validateAudienceRestriction_bareElement (e : Element) (hne : spEntityId ≠ "") :
    validateAudienceRestriction (bareElement e) spEntityId =
      validateAudienceRestriction e spEntityId := by
  rw [validateAudienceRestriction, validateAudienceRestriction, child_bareElement nsSaml_ne_empty]
  cases e.child nsSaml "Conditions" with
  | none => rfl
  | some conditions =>
    simp [okOr_some_bind, childrenNamed_bareElement nsSaml_ne_empty,
      restrictionAdmits_bareElement hne]

theorem checkConditions_bareElement : ∀ (children : List Element) (oneTimeUse : Nat),
    checkConditions oneTimeUse (children.map bareElement) = checkConditions oneTimeUse children
  | [], _ => rfl
  | c :: children, oneTimeUse => by
    have hlocal : (bareElement c).head.tagName.name = c.head.tagName.name := rfl
    rw [List.map_cons, checkConditions, checkConditions, hasTagName_bareElement nsSaml_ne_empty,
      hasTagName_bareElement nsSaml_ne_empty, checkConditions_bareElement children,
      checkConditions_bareElement children, hlocal]

theorem validateConditions_bareElement (libs : Libraries) (hdef : Element.Definite e)
    (now : Timestamp) :
    validateConditions libs (bareElement e) now = validateConditions libs e now := by
  rw [validateConditions, validateConditions, child_bareElement nsSaml_ne_empty]
  cases hc : e.child nsSaml "Conditions" with
  | none => rfl
  | some conditions =>
    have hconditions := hdef.child hc
    have hchildren : (bareElement conditions).children.elements =
        conditions.children.elements.map bareElement := elements_bare conditions.children
    simp [okOr_some_bind, hchildren, checkConditions_bareElement,
      attributeValue_bareElement hconditions]

theorem validateSingleSubjectConfirmation_bareElement (libs : Libraries)
    (hdef : Element.Definite c) (expectedRequestId acsUrl : String) (now : Timestamp) :
    validateSingleSubjectConfirmation libs (bareElement c) expectedRequestId acsUrl now =
      validateSingleSubjectConfirmation libs c expectedRequestId acsUrl now := by
  rw [validateSingleSubjectConfirmation, validateSingleSubjectConfirmation,
    attributeValue_bareElement hdef, child_bareElement nsSaml_ne_empty]
  cases hd : c.child nsSaml "SubjectConfirmationData" with
  | none => rfl
  | some confData =>
    simp [okOr_some_bind, attributeValue_bareElement (hdef.child hd)]

theorem firstOk_map {check : Element → Except ResponseError Unit} {f : Element → Element} :
    ∀ (l : List Element) (firstError : Option ResponseError), (∀ c ∈ l, check (f c) = check c) →
      firstOk check firstError (l.map f) = firstOk check firstError l
  | [], _, _ => rfl
  | c :: l, firstError, h => by
    rw [List.map_cons, firstOk, firstOk, h c (by simp)]
    cases check c with
    | ok u => rfl
    | error e => exact firstOk_map l _ fun c hc => h c (by simp [hc])

theorem validateSubjectConfirmation_bareElement (libs : Libraries) (hdef : Element.Definite e)
    (expectedRequestId acsUrl : String) (now : Timestamp) :
    validateSubjectConfirmation libs (bareElement e) expectedRequestId acsUrl now =
      validateSubjectConfirmation libs e expectedRequestId acsUrl now := by
  rw [validateSubjectConfirmation, validateSubjectConfirmation, child_bareElement nsSaml_ne_empty]
  cases hs : e.child nsSaml "Subject" with
  | none => rfl
  | some subject =>
    have hconfirmations : firstOk
        (fun c => validateSingleSubjectConfirmation libs c expectedRequestId acsUrl now) none
          ((subject.childrenNamed nsSaml "SubjectConfirmation").map bareElement) =
        firstOk (fun c => validateSingleSubjectConfirmation libs c expectedRequestId
          acsUrl now) none (subject.childrenNamed nsSaml "SubjectConfirmation") :=
      firstOk_map _ none fun c hc => validateSingleSubjectConfirmation_bareElement libs
        ((hdef.child hs).childrenNamed hc) expectedRequestId acsUrl now
    simp [okOr_some_bind, childrenNamed_bareElement nsSaml_ne_empty, hconfirmations]

theorem findSome?_congr {β : Type} {f g : α → Option β} {l : List α} (h : ∀ a ∈ l, f a = g a) :
    l.findSome? f = l.findSome? g := by
  induction l with
  | nil => rfl
  | cons a l ih =>
    rw [List.findSome?_cons, List.findSome?_cons, h a (by simp), ih fun b hb => h b (by simp [hb])]

/-! ## The identity -/

theorem extractNameId_bareElement (hdef : Element.Definite e) :
    extractNameId (bareElement e) = extractNameId e := by
  rw [extractNameId, extractNameId, child_bareElement nsSaml_ne_empty]
  cases hs : e.child nsSaml "Subject" with
  | none => rfl
  | some subject =>
    simp only [Option.map_some, Option.bind_eq_bind, Option.bind_some,
      child_bareElement nsSaml_ne_empty]
    cases hn : subject.child nsSaml "NameID" with
    | none => rfl
    | some node =>
      have hnode := (hdef.child hs).child hn
      simp only [Option.map_some, Option.bind_some]
      rw [elementText_bind_trimmed _ fun text => (text, (bareElement node).attributeValue "Format"),
        elementText_bind_trimmed _ fun text => (text, node.attributeValue "Format"),
        textOf_bareElement, attributeValue_bareElement hnode]

theorem samlAttributeValue_bareElement {a : Element} (hdef : Element.Definite a)
    (attrName : String) : samlAttributeValue attrName (bareElement a) =
      samlAttributeValue attrName a := by
  rw [samlAttributeValue, samlAttributeValue, attributeValue_bareElement hdef,
    child_bareElement nsSaml_ne_empty]
  split
  · cases a.child nsSaml "AttributeValue" with
    | none => rfl
    | some valueNode =>
      simp only [Option.map_some, Option.bind_eq_bind, Option.bind_some]
      rw [elementText_bind_trimmed _ fun text => text, elementText_bind_trimmed _ fun text => text,
        textOf_bareElement]
  · rfl

theorem findSamlAttribute_bareElement (hdef : Element.Definite e) (attrName : String) :
    findSamlAttribute (bareElement e) attrName =
      findSamlAttribute e attrName := by
  rw [findSamlAttribute, findSamlAttribute, child_bareElement nsSaml_ne_empty]
  cases hs : e.child nsSaml "AttributeStatement" with
  | none => rfl
  | some statement =>
    simp only [Option.map_some, Option.bind_eq_bind, Option.bind_some,
      childrenNamed_bareElement nsSaml_ne_empty, List.findSome?_map]
    have hattributes : ∀ a ∈ statement.childrenNamed nsSaml "Attribute",
        (samlAttributeValue attrName ∘ bareElement) a = samlAttributeValue attrName a :=
      fun a ha => samlAttributeValue_bareElement ((hdef.child hs).childrenNamed ha) attrName
    exact findSome?_congr hattributes

theorem extractEmail_bareElement (hdef : Element.Definite e) (emailAttribute : Option String) :
    extractEmail (bareElement e) emailAttribute = extractEmail e emailAttribute := by
  rw [extractEmail, extractEmail, extractNameId_bareElement hdef,
    funext (findSamlAttribute_bareElement hdef)]

theorem extractDomain_bareElement (hdef : Element.Definite e) (domainAttribute : Option String)
    (email : String) :
    extractDomain (bareElement e) domainAttribute email =
      extractDomain e domainAttribute email := by
  rw [extractDomain, extractDomain, funext (findSamlAttribute_bareElement hdef)]

/-- **The answer to an assertion is a function of its content.** -/
theorem validateAssertion_bareElement (libs : Libraries) (hdef : Element.Definite e)
    (expectedRequestId : String) {provider : SamlProvider}
    (hentity : provider.idpMetadata.entityId ≠ "") (hsp : provider.spEntityId ≠ "")
    (now : Timestamp) :
    (validateAssertion libs (bareElement e) expectedRequestId provider now).toOption =
      (validateAssertion libs e expectedRequestId provider now).toOption := by
  rw [validateAssertion, validateAssertion, validateAudienceRestriction_bareElement e hsp,
    validateConditions_bareElement libs hdef, validateSubjectConfirmation_bareElement libs hdef,
    extractEmail_bareElement hdef, extractNameId_bareElement hdef,
    funext (extractDomain_bareElement hdef _), toOption_bind,
    toOption_validateIssuer_bareElement e hentity, ← toOption_bind]

/-- The answer to an assertion looks at nothing but children of some names. -/
theorem validateAssertion_congr (libs : Libraries) {e' : Element}
    (h : ∀ name, e.child nsSaml name = e'.child nsSaml name) (expectedRequestId : String)
    (provider : SamlProvider) (now : Timestamp) :
    validateAssertion libs e expectedRequestId provider now =
      validateAssertion libs e' expectedRequestId provider now := by
  have hattribute : findSamlAttribute e = findSamlAttribute e' := by
    funext name
    rw [findSamlAttribute, findSamlAttribute, h]
  have hnameId : extractNameId e = extractNameId e' := by
    rw [extractNameId, extractNameId, h]
  simp [validateAssertion, validateIssuer, validateAudienceRestriction, validateConditions,
    validateSubjectConfirmation, extractEmail, extractDomain, h, hattribute, hnameId]

end Vouch.Saml
