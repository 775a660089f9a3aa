import Mathlib.Data.Finset.Dedup
import Vouch.Saml.Canonical

/-!
# Canonicalisation on the infoset

What exclusive canonicalisation may forget of an element is comments, processing instructions, the
order of attributes and the declarations nobody uses.  `Infoset` is what is left: expanded names,
attributes as a set, runs of text and the order of children.

* `infoset` — the infoset of some nodes; it depends on their `normalize`d form only
  (`infoset_normalize`).
* `covers_of_mem_descendants` — an element of a well-formed document at its place: it is well formed
  inside declarations that cover those of its ancestors.
* `canonical_determines_infoset` — the canonical text determines the infoset of two elements neither
  of which makes use of a namespace with a quotation mark in its name; and of two elements with one
  infoset both do, or neither.

Values of attributes and text are escaped on output, namespace names are not: with a quotation mark
in its name, a namespace reads as one that ends there, followed by an attribute.
-/

namespace Vouch.Saml

open Xml

/-! ## Infosets -/

/-- The infoset of some siblings, in document order. -/
inductive Infoset where
  | nil
  | char (c : Char) (rest : Infoset)
  /-- An element: its namespace and local name, its attributes as namespace, local name and
  value. -/
  | element (ns name : String) (attributes : Finset (String × String × String))
      (children rest : Infoset)
  deriving DecidableEq

/-- An attribute without the name it was written with. -/
def attributeInfo (a : Attribute) : String × String × String :=
  (a.name.ns.getD "", a.name.name, a.value)

/-- A text in front of some siblings; runs of text are not told apart. -/
def Infoset.text (s : String) (rest : Infoset) : Infoset := s.toList.foldr Infoset.char rest

/-- The infoset of some nodes. -/
def infoset : Nodes → Infoset
  | .nil => .nil
  | .text s rest => .text s (infoset rest)
  | .misc rest => infoset rest
  | .element head children rest =>
    .element (head.tagName.ns.getD "") head.tagName.name
      (head.attributes.map attributeInfo).toFinset (infoset children) (infoset rest)

/-- The infoset of an element. -/
def elementInfoset (e : Element) : Infoset := infoset (.element e.head e.children .nil)

theorem attributeInfo_normalAttribute (a : Attribute) :
    attributeInfo (normalAttribute a) = attributeInfo a := by
  rw [attributeInfo, normalAttribute, getD_normalName]
  rfl

/-- Sorting attributes does not change the set of them, and none is in the namespace of
declarations. -/
theorem attributeInfo_normalHead {outer : List Namespace} {h : Head} (hwf : h.WellFormed outer) :
    ((normalHead h).attributes.map attributeInfo).toFinset =
      (h.attributes.map attributeInfo).toFinset := by
  ext info
  simp only [normalHead, List.mem_toFinset, List.mem_map, List.mem_filter, List.mem_insertionSort]
  constructor
  · rintro ⟨_, ⟨⟨a, ha, rfl⟩, -⟩, rfl⟩
    exact ⟨a, ha, (attributeInfo_normalAttribute a).symm⟩
  · rintro ⟨a, ha, rfl⟩
    refine ⟨normalAttribute a, ⟨⟨a, ha, rfl⟩, ?_⟩, attributeInfo_normalAttribute a⟩
    have hne := hwf.attribute_ne_xmlns ha
    simpa [normalAttribute, getD_normalName] using hne

theorem infoset_textNodes (s : String) (rest : Nodes) :
    infoset (textNodes s rest) = .text s (infoset rest) := by
  unfold textNodes Infoset.text
  induction s.toList with
  | nil => rfl
  | cons c cs ih =>
    rw [List.foldr_cons, List.foldr_cons, infoset, ih, Infoset.text, String.toList_singleton]
    rfl

/-- The infoset is a part of the normal form. -/
theorem infoset_normalize {nodes : Nodes} {outer : List Namespace} (hwf : nodes.WellFormed outer) :
    infoset (normalize nodes) = infoset nodes := by
  induction nodes generalizing outer with
  | nil => rfl
  | text s rest ih => rw [normalize, infoset_textNodes, ih hwf, infoset]
  | misc rest ih => exact ih hwf
  | element head children rest ihChildren ihRest =>
    rw [normalize, infoset, infoset, ihChildren hwf.2.1, ihRest hwf.2.2,
      attributeInfo_normalHead hwf.1]
    show Infoset.element ((normalName head.tagName).ns.getD "") _ _ _ _ = _
    rw [getD_normalName]
    rfl

/-! ## Elements at their place -/

/-- An element of a well-formed document is well formed inside declarations that cover those of its
ancestors. -/
theorem located_of_mem_descendants {nodes : Nodes} {outer : List Namespace} {path : List Nat}
    {ancestors : List (List Namespace)} {i : Nat} {n : Node} (hwf : nodes.WellFormed outer)
    (hcover : Covers outer ancestors) (hn : n ∈ nodes.descendants path ancestors i) :
    ∃ inner, (asNodes n.element).WellFormed inner ∧ Covers inner n.ancestors := by
  induction nodes generalizing outer path ancestors i with
  | nil => cases hn
  | text _ rest ih => exact ih hwf hcover hn
  | misc rest ih => exact ih hwf hcover hn
  | element head children rest ihChildren ihRest =>
    rw [Nodes.descendants, List.mem_cons, List.mem_append] at hn
    rcases hn with rfl | hn | hn
    · exact ⟨outer, ⟨hwf.1, hwf.2.1, trivial⟩, hcover⟩
    · exact ihChildren hwf.2.1 (hcover.child hwf.1).2 hn
    · exact ihRest hwf.2.2 hcover hn

theorem covers_of_mem_descendants {doc : Xml.Document} (hwf : doc.nodes.WellFormed []) {n : Node}
    (hn : n ∈ doc.descendants) :
    ∃ inner, (asNodes n.element).WellFormed inner ∧ Covers inner n.ancestors :=
  located_of_mem_descendants hwf covers_nil hn

/-! ## Injectivity -/

/-- No namespace that an element makes use of, or something in it, has a quotation mark in its
name. -/
def Quoteless (inclusive : List String) (e : Element) : Prop :=
  (asNodes e).All (Head.Readable inclusive)

instance (inclusive : List String) (e : Element) : Decidable (Quoteless inclusive e) :=
  Nodes.decidableAll _ _

/-- Something holds of the names of all namespaces in an infoset. -/
def Infoset.NamesAll (P : String → Prop) : Infoset → Prop
  | nil => True
  | char _ rest => rest.NamesAll P
  | element ns _ attributes children rest =>
    P ns ∧ (∀ a ∈ attributes, P a.1) ∧ children.NamesAll P ∧ rest.NamesAll P

theorem namesAll_text {P : String → Prop} (s : String) (rest : Infoset) :
    (Infoset.text s rest).NamesAll P ↔ rest.NamesAll P := by
  unfold Infoset.text
  induction s.toList with
  | nil => rfl
  | cons c cs ih => exact ih

/-- The names that are used are those in the infoset, the empty one apart. -/
theorem forall_namesUsed {P : String → Prop} (hempty : P "") (h : Head) :
    (∀ uri ∈ namesUsed [] h, P uri) ↔ P (h.tagName.ns.getD "") ∧
      ∀ info ∈ (h.attributes.map attributeInfo).toFinset, P info.1 := by
  have hgetD : ∀ ns : Option String, P (ns.getD "") ↔ ∀ uri ∈ ns, P uri := by
    intro ns
    cases ns with
    | none => simpa using hempty
    | some uri => simp
  have hattribute : ∀ a : Attribute, P (attributeInfo a).1 ↔ ∀ uri ∈ a.name.ns, P uri :=
    fun a => hgetD a.name.ns
  simp only [namesUsed, List.map_nil, List.not_mem_nil, decide_false, List.filter_false,
    List.append_nil, List.mem_append, or_imp, forall_and, Option.mem_toList, hgetD,
      List.mem_toFinset,
    List.forall_mem_map, hattribute, List.mem_filterMap, forall_exists_index, and_imp]
  exact and_congr_right fun _ =>
    ⟨fun h a ha uri huri => h uri a ha huri, fun h uri a ha huri => h a ha uri huri⟩

theorem all_readable_iff (nodes : Nodes) :
    nodes.All (Head.Readable []) ↔ (infoset nodes).NamesAll ('"' ∉ ·.toList) := by
  induction nodes with
  | nil => rfl
  | text s rest ih => exact ih.trans (namesAll_text s _).symm
  | misc rest ih => exact ih
  | element head children rest ihChildren ihRest =>
    rw [Nodes.All, infoset, Infoset.NamesAll, ihChildren, ihRest, ← and_assoc, ← and_assoc,
      ← and_assoc]
    exact and_congr_left' (and_congr_left' (forall_namesUsed (by simp) head))

/-- **Canonicalisation is injective on the infoset, but for quotation marks.**  Of two elements of
well-formed documents with one canonical text: if neither makes use of a namespace with a quotation
mark in its name, they have one infoset; and they do not, if just one of them is named with such a
namespace or has an element or attribute that is. -/
theorem canonical_determines_infoset {d₁ d₂ : Xml.Document} (hwf₁ : d₁.nodes.WellFormed [])
    (hwf₂ : d₂.nodes.WellFormed []) {n₁ n₂ : Node} (hn₁ : n₁ ∈ d₁.descendants)
    (hn₂ : n₂ ∈ d₂.descendants) (inclusive : List String)
    (htext : exclusiveC14n n₁ inclusive = exclusiveC14n n₂ inclusive) :
    (Quoteless inclusive n₁.element → Quoteless inclusive n₂.element →
        elementInfoset n₁.element = elementInfoset n₂.element) ∧
      (elementInfoset n₁.element = elementInfoset n₂.element →
        (Quoteless [] n₁.element ↔ Quoteless [] n₂.element)) := by
  obtain ⟨inner₁, helem₁, hcover₁⟩ := covers_of_mem_descendants hwf₁ hn₁
  obtain ⟨inner₂, helem₂, hcover₂⟩ := covers_of_mem_descendants hwf₂ hn₂
  refine ⟨fun hread₁ hread₂ => ?_, fun hinfoset => ?_⟩
  · have hnormal := normalize_eq_of_canonicalIn inclusive inclusive helem₁ helem₂ hread₁ hread₂
      hcover₁ hcover₂ htext
    calc elementInfoset n₁.element = infoset (normalize (asNodes n₁.element)) :=
          (infoset_normalize helem₁).symm
      _ = infoset (normalize (asNodes n₂.element)) := by rw [hnormal]
      _ = elementInfoset n₂.element := infoset_normalize helem₂
  · have hnames : infoset (asNodes n₁.element) = infoset (asNodes n₂.element) := hinfoset
    rw [Quoteless, Quoteless, all_readable_iff, all_readable_iff, hnames]

/-- An element, alone in its document. -/
def soleNode (h : Head) : Node := ⟨⟨h, .nil⟩, [0], []⟩

/-- The document of an element that is alone in it. -/
def soleDocument (h : Head) : Xml.Document := ⟨.element h .nil .nil⟩

/-- An attribute in no namespace. -/
def plainAttribute (name value : String) : Attribute := ⟨⟨none, name⟩, value, name⟩

/-- `<p:e xmlns:q='a"b&amp;c' xmlns:p="urn:p" p:y="2" x="1"/>`, with a declaration that is not
used. -/
def unusedQuoteHead : Head where
  tagName := ⟨some "urn:p", "e"⟩
  qname := "p:e"
  namespaces := [⟨some "q", "a\"b&c"⟩, ⟨some "p", "urn:p"⟩]
  attributes := [⟨⟨some "urn:p", "y"⟩, "2", "p:y"⟩, plainAttribute "x" "1"]

/-- `<p:e xmlns:p="urn:p" x="1" p:y="2"/>`. -/
def sortedHead : Head where
  tagName := ⟨some "urn:p", "e"⟩
  qname := "p:e"
  namespaces := [⟨some "p", "urn:p"⟩]
  attributes := [plainAttribute "x" "1", ⟨⟨some "urn:p", "y"⟩, "2", "p:y"⟩]

/-- Declarations that are not used, and the order of attributes, do not matter. -/
theorem infoset_of_unused_quote :
    elementInfoset (soleNode unusedQuoteHead).element =
      elementInfoset (soleNode sortedHead).element := by
  have hwf₁ : (soleDocument unusedQuoteHead).nodes.WellFormed [] := by decide +kernel
  have hwf₂ : (soleDocument sortedHead).nodes.WellFormed [] := by decide +kernel
  have htext : exclusiveC14n (soleNode unusedQuoteHead) [] =
    exclusiveC14n (soleNode sortedHead) [] := by
    decide +kernel
  exact (canonical_determines_infoset hwf₁ hwf₂ List.mem_cons_self List.mem_cons_self [] htext).1
    (by decide +kernel) (by decide +kernel)

/-- A start tag in a default namespace. -/
def defaultHead (uri : String) (attributes : List Attribute) : Head :=
  ⟨⟨some uri, "e"⟩, "e", [⟨none, uri⟩], attributes⟩

/-- **Two documents, one canonical text.**  `<e xmlns='a" a="a'/>` and `<e xmlns="a" a="a"/>` both
give `<e xmlns="a" a="a"></e>`. -/
theorem canonical_collision :
    (soleDocument (defaultHead "a\" a=\"a" [])).nodes.WellFormed [] ∧
      (soleDocument (defaultHead "a" [plainAttribute "a" "a"])).nodes.WellFormed [] ∧
      exclusiveC14n (soleNode (defaultHead "a\" a=\"a" [])) [] = "<e xmlns=\"a\" a=\"a\"></e>" ∧
      exclusiveC14n (soleNode (defaultHead "a" [plainAttribute "a" "a"])) [] =
        "<e xmlns=\"a\" a=\"a\"></e>" ∧
      elementInfoset (soleNode (defaultHead "a\" a=\"a" [])).element ≠
        elementInfoset (soleNode (defaultHead "a" [plainAttribute "a" "a"])).element := by
  refine ⟨?_, ?_, ?_, ?_, ?_⟩ <;> decide +kernel

end Vouch.Saml
