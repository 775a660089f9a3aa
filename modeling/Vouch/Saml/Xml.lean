import Mathlib.Data.List.Nodup
import Vouch.Lib.Markup

/-!
# XML documents as the SAML code sees them

The SAML code reads documents through `roxmltree`: a tree of elements, text and other nodes in which
every name is already resolved to its namespace.  This file is the part of that interface the code
uses, and what a document that came out of the parser looks like.

## What is here

* `Head`, `Nodes`, `Element` — the tree.  An element lists the namespace declarations *in scope* on
  it, nearest first, and keeps the qualified name its start tag was written with; so do attributes.
  The source reads these off the document's text.  Comments and processing instructions are `misc`:
  no code looks inside one.
* `Node` — an element with its place in the document: the path of child numbers up to the root,
  which is what `NodeId` identifies, and the declarations in scope on each ancestor.
* `Markup.toNodes` — the tree that Namespaces in XML gives to a plain piece of markup.
* `Nodes.WellFormed` — what Namespaces in XML promises of every document: prefixes declared once,
  declarations inherited, every name resolved through the declarations in scope, no attribute twice.
* `ParsesXml parse` — the two facts about the parser everything rests on.
-/

namespace Vouch

/-- `str::split_once`: the parts before and after the first occurrence of a character. -/
def splitOnce (c : Char) (s : String) : Option (String × String) :=
  match s.toList.dropWhile (· ≠ c) with
  | [] => none
  | _ :: after => some (String.ofList (s.toList.takeWhile (· ≠ c)), String.ofList after)

variable {c : Char}

theorem splitOnce_append {before after : String} (h : c ∉ before.toList) :
    splitOnce c (before ++ String.singleton c ++ after) = some (before, after) := by
  have hpos : ∀ d ∈ before.toList, decide (d ≠ c) = true := by
    intro d hd
    have hne : d ≠ c := by
      rintro rfl
      exact h hd
    simpa using hne
  have hlist : (before ++ String.singleton c ++ after).toList = before.toList ++
    c :: after.toList := by
    simp
  unfold splitOnce
  rw [hlist, List.dropWhile_append_of_pos hpos, List.takeWhile_append_of_pos hpos,
    List.dropWhile_cons_of_neg (by simp), List.takeWhile_cons_of_neg (by simp)]
  simp

theorem splitOnce_eq_none {s : String} (h : c ∉ s.toList) : splitOnce c s = none := by
  have hnil : s.toList.dropWhile (· ≠ c) = [] := by
    rw [List.dropWhile_eq_nil_iff]
    intro d hd
    have hne : d ≠ c := by
      rintro rfl
      exact h hd
    simpa using hne
  rw [splitOnce, hnil]

/-- A split text is its two parts around the character. -/
theorem eq_of_splitOnce {s before after : String} (h : splitOnce c s = some (before, after)) :
    s = before ++ String.singleton c ++ after ∧ c ∉ before.toList := by
  unfold splitOnce at h
  cases hd : s.toList.dropWhile (· ≠ c) with
  | nil => exact absurd (hd ▸ h) (by simp)
  | cons d rest =>
    rw [hd] at h
    cases h
    have hne : s.toList.dropWhile (· ≠ c) ≠ [] := by
      rw [hd]
      exact List.cons_ne_nil d rest
    have hhead := List.head_dropWhile_not (fun x => decide (x ≠ c)) hne
    obtain rfl : d = c := by
      simpa only [hd, List.head_cons, decide_eq_false_iff_not, not_not] using hhead
    constructor
    · rw [← String.toList_inj]
      simp only [String.toList_append, String.toList_ofList, String.toList_singleton]
      rw [List.append_assoc, List.singleton_append, ← hd, List.takeWhile_append_dropWhile]
    · intro hmem
      rw [String.toList_ofList] at hmem
      exact absurd (List.mem_takeWhile_imp hmem) (by simp)

namespace Xml

/-- The namespace that the prefix `xml` stands for. -/
def nsXml : String := "http://www.w3.org/XML/1998/namespace"

/-- The namespace of namespace declarations. -/
def nsXmlns : String := "http://www.w3.org/2000/xmlns/"

/-! ## The tree -/

/-- A namespace declaration; without a name, that of the default namespace. -/
structure Namespace where
  name : Option String
  uri : String
  deriving DecidableEq, Repr

/-- A name with its namespace. -/
structure ExpandedName where
  ns : Option String
  name : String
  deriving DecidableEq, Repr

/-- An attribute, with the qualified name it was written with. -/
structure Attribute where
  name : ExpandedName
  value : String
  qname : String
  deriving DecidableEq, Repr

/-- What a start tag says: the resolved name and the one that was written, the declarations in
scope, nearest first, and the attributes in document order. -/
structure Head where
  tagName : ExpandedName
  qname : String
  namespaces : List Namespace
  attributes : List Attribute
  deriving DecidableEq, Repr

/-- The children of a node, in document order. -/
inductive Nodes where
  | nil
  | text (text : String) (rest : Nodes)
  /-- A comment or a processing instruction. -/
  | misc (rest : Nodes)
  | element (head : Head) (children rest : Nodes)
  deriving DecidableEq, Repr

/-- An element, apart from its place. -/
structure Element where
  head : Head
  children : Nodes
  deriving DecidableEq, Repr

/-- A document: the children of its root node. -/
structure Document where
  nodes : Nodes
  deriving DecidableEq, Repr

/-- The URI that the first declaration of a name binds it to. -/
def lookupNamespaceUri (namespaces : List Namespace) (name : Option String) : Option String :=
  (namespaces.find? (·.name = name)).map (·.uri)

namespace Nodes

/-- The elements among some nodes. -/
def elements : Nodes → List Element
  | nil => []
  | text _ rest => rest.elements
  | misc rest => rest.elements
  | element head children rest => ⟨head, children⟩ :: rest.elements

/-- The text nodes among some nodes. -/
def texts : Nodes → List String
  | nil => []
  | text s rest => s :: rest.texts
  | misc rest => rest.texts
  | element _ _ rest => rest.texts

end Nodes

namespace Element

/-- `Node::has_tag_name`, with a namespace. -/
def hasTagName (ns name : String) (e : Element) : Bool := e.head.tagName = ⟨some ns, name⟩

/-- The value of the first attribute with a local name; asked for without a namespace, `roxmltree`
looks at attributes in all of them. -/
def attributeValue (name : String) (e : Element) : Option String :=
  (e.head.attributes.find? (·.name.name = name)).map (·.value)

/-- The child elements of a name. -/
def childrenNamed (ns name : String) (e : Element) : List Element :=
  e.children.elements.filter (hasTagName ns name)

/-- The first child element of a name. -/
def child (ns name : String) (e : Element) : Option Element :=
  e.children.elements.find? (hasTagName ns name)

end Element

/-- Something holds of every start tag among some nodes and below them. -/
def Nodes.All (P : Head → Prop) : Nodes → Prop
  | nil => True
  | text _ rest => rest.All P
  | misc rest => rest.All P
  | element head children rest => P head ∧ children.All P ∧ rest.All P

instance Nodes.decidableAll (P : Head → Prop) [DecidablePred P] :
    (nodes : Nodes) → Decidable (nodes.All P)
  | .nil => inferInstanceAs (Decidable True)
  | .text _ rest => Nodes.decidableAll P rest
  | .misc rest => Nodes.decidableAll P rest
  | .element _ children rest =>
    have := Nodes.decidableAll P children
    have := Nodes.decidableAll P rest
    inferInstanceAs (Decidable (_ ∧ _ ∧ _))

/-! ## Elements at their place -/

/-- An element at its place: the child numbers that lead to it, innermost first, and the
declarations in scope on its ancestors, nearest first. -/
structure Node where
  element : Element
  path : List Nat
  ancestors : List (List Namespace)
  deriving DecidableEq, Repr

namespace Nodes

/-- The elements among the children of the node at `path`, from the `i`-th child on. -/
def located (path : List Nat) (ancestors : List (List Namespace)) (i : Nat) : Nodes → List Node
  | nil => []
  | text _ rest => rest.located path ancestors (i + 1)
  | misc rest => rest.located path ancestors (i + 1)
  | element head children rest =>
    ⟨⟨head, children⟩, i :: path, ancestors⟩ :: rest.located path ancestors (i + 1)

/-- The elements below the node at `path`, from the `i`-th child on, in document order. -/
def descendants (path : List Nat) (ancestors : List (List Namespace)) (i : Nat) : Nodes → List Node
  | nil => []
  | text _ rest => rest.descendants path ancestors (i + 1)
  | misc rest => rest.descendants path ancestors (i + 1)
  | element head children rest =>
    ⟨⟨head, children⟩, i :: path, ancestors⟩ ::
      (children.descendants (i :: path) (head.namespaces :: ancestors) 0 ++
        rest.descendants path ancestors (i + 1))

end Nodes

namespace Node

/-- The declarations in scope on the element and on its ancestors. -/
def scopes (n : Node) : List (List Namespace) := n.element.head.namespaces :: n.ancestors

/-- The elements directly below it. -/
def children (n : Node) : List Node := n.element.children.located n.path n.scopes 0

/-- The element itself, and the elements below it. -/
def descendants (n : Node) : List Node :=
  n :: n.element.children.descendants n.path n.scopes 0

end Node

namespace Document

/-- The elements among the children of the root node. -/
def rootElements (d : Document) : List Node := d.nodes.located [] [] 0

/-- All elements, in document order. -/
def descendants (d : Document) : List Node := d.nodes.descendants [] [] 0

end Document

/-- The text of the children of an element; `none` if there is no text node among them. -/
def elementText (e : Element) : Option String :=
  match e.children.texts with
  | [] => none
  | texts => some (texts.foldr (· ++ ·) "")

/-! ## Namespaces in XML -/

/-- What a qualified name stands for, given what its prefix stands for. -/
def lookupPrefix (scope : List Namespace) (p : String) : Option String :=
  if p = "xml" then some nsXml else lookupNamespaceUri scope (some p)

/-- The name of an element.  Without a prefix it is in the default namespace. -/
def resolveTagName (scope : List Namespace) (qname : String) : ExpandedName :=
  match splitOnce ':' qname with
  | none => ⟨lookupNamespaceUri scope none, qname⟩
  | some (p, name) => ⟨lookupPrefix scope p, name⟩

/-- The name of an attribute.  Without a prefix it is in no namespace. -/
def resolveAttributeName (scope : List Namespace) (qname : String) : ExpandedName :=
  match splitOnce ':' qname with
  | none => ⟨none, qname⟩
  | some (p, name) => ⟨lookupPrefix scope p, name⟩

/-- The name a declaration declares; `none` for an ordinary attribute. -/
def declaredName (qname : String) : Option (Option String) :=
  if qname = "xmlns" then some none
  else
    match splitOnce ':' qname with
    | some (p, name) => if p = "xmlns" then some (some name) else none
    | none => none

/-- The declaration that an attribute makes.  One of `xml` itself is not listed. -/
def declarationOf (a : String × String) : Option Namespace :=
  match declaredName a.1 with
  | some name => if name = some "xml" then none else some ⟨name, a.2⟩
  | none => none

/-- An attribute that is not a declaration. -/
def attributeOf (scope : List Namespace) (a : String × String) : Option Attribute :=
  match declaredName a.1 with
  | some _ => none
  | none => some ⟨resolveAttributeName scope a.1, a.2, a.1⟩

/-- The declarations in scope: those of the element itself, then those it inherits. -/
def inScope (own outer : List Namespace) : List Namespace :=
  own ++ outer.filter fun n => n.name ∉ own.map (·.name)

/-- A character before some nodes becomes part of the text they start with. -/
def textCons (c : Char) : Nodes → Nodes
  | .text s rest => .text (String.singleton c ++ s) rest
  | nodes => .text (String.singleton c) nodes

/-- What a start tag says, with the declarations in scope around it. -/
def resolveHead (outer : List Namespace) (qname : String) (attributes : List (String × String)) :
    Head :=
  let scope := inScope (attributes.filterMap declarationOf) outer
  { tagName := resolveTagName scope qname
    qname
    namespaces := scope
    attributes := attributes.filterMap (attributeOf scope) }

/-- The tree of a plain piece of markup. -/
def toNodes (outer : List Namespace) : Markup → Nodes
  | .nil => .nil
  | .char c rest => textCons c (toNodes outer rest)
  | .element qname attributes children rest =>
    let head := resolveHead outer qname attributes
    .element head (toNodes head.namespaces children) (toNodes outer rest)

variable {p name : String}

theorem splitOnce_qualified (hp : ':' ∉ p.toList) :
    splitOnce ':' (p ++ ":" ++ name) = some (p, name) := splitOnce_append hp

theorem eq_qualified {qname : String} (h : splitOnce ':' qname = some (p, name)) :
    qname = p ++ ":" ++ name := (eq_of_splitOnce h).1

theorem mem_of_lookup {namespaces : List Namespace} {name : Option String} {uri : String}
    (h : lookupNamespaceUri namespaces name = some uri) :
    ∃ n ∈ namespaces, n.name = name ∧ n.uri = uri := by
  obtain ⟨n, hn, huri⟩ := Option.map_eq_some_iff.mp h
  exact ⟨n, List.mem_of_find?_eq_some hn, by simpa using List.find?_some hn, huri⟩

/-- A key that no two entries share is looked up to its entry. -/
theorem find?_of_mem {α κ : Type} [DecidableEq κ] {f : α → κ} {l : List α}
    (hnodup : (l.map f).Nodup) {a : α} (ha : a ∈ l) : l.find? (f · = f a) = some a := by
  cases hf : l.find? (f · = f a) with
  | none => exact absurd (List.find?_eq_none.mp hf a ha) (by simp)
  | some b =>
    have hb : f b = f a := by simpa using List.find?_some hf
    rw [List.inj_on_of_nodup_map hnodup (List.mem_of_find?_eq_some hf) ha hb]

/-- Where no name is declared twice, a declaration is the one its name is looked up to. -/
theorem lookup_of_mem {namespaces : List Namespace} (hunique : (namespaces.map (·.name)).Nodup)
    {n : Namespace} (hn : n ∈ namespaces) : lookupNamespaceUri namespaces n.name = some n.uri := by
  rw [lookupNamespaceUri, find?_of_mem hunique hn, Option.map_some]

/-! ### Well-formed documents -/

/-- A name without a colon. -/
def IsNcName (s : String) : Prop := Markup.IsName s ∧ ':' ∉ s.toList

instance (s : String) : Decidable (IsNcName s) := inferInstanceAs (Decidable (_ ∧ _))

theorem isName_qualified (hp : IsNcName p) (hname : IsNcName name) :
    Markup.IsName (p ++ ":" ++ name) := by
  intro c hc
  simp only [String.toList_append, List.mem_append] at hc
  rcases hc with (hc | hc) | hc
  · exact hp.1 c hc
  · obtain rfl : c = ':' := by simpa using hc
    decide
  · exact hname.1 c hc

theorem resolveTagName_plain (scope : List Namespace) (hname : IsNcName name) :
    resolveTagName scope name = ⟨lookupNamespaceUri scope none, name⟩ := by
  rw [resolveTagName, splitOnce_eq_none hname.2]

theorem resolveTagName_qualified (scope : List Namespace) (hp : IsNcName p) :
    resolveTagName scope (p ++ ":" ++ name) = ⟨lookupPrefix scope p, name⟩ := by
  rw [resolveTagName, splitOnce_qualified hp.2]

theorem resolveAttributeName_plain (scope : List Namespace) (hname : IsNcName name) :
    resolveAttributeName scope name = ⟨none, name⟩ := by
  rw [resolveAttributeName, splitOnce_eq_none hname.2]

theorem resolveAttributeName_qualified (scope : List Namespace) (hp : IsNcName p) :
    resolveAttributeName scope (p ++ ":" ++ name) = ⟨lookupPrefix scope p, name⟩ := by
  rw [resolveAttributeName, splitOnce_qualified hp.2]

theorem declaredName_plain (hname : IsNcName name) (hne : name ≠ "xmlns") :
    declaredName name = none := by
  rw [declaredName, if_neg hne, splitOnce_eq_none hname.2]

theorem declaredName_qualified (hp : IsNcName p) :
    declaredName (p ++ ":" ++ name) = if p = "xmlns" then some (some name) else none := by
  have hne : p ++ ":" ++ name ≠ "xmlns" := by
    intro h
    have hcolon : ':' ∈ (p ++ ":" ++ name).toList := by simp
    rw [h] at hcolon
    exact absurd hcolon (by decide)
  rw [declaredName, if_neg hne, splitOnce_qualified hp.2]

theorem lookupPrefix_of_ne_xml (scope : List Namespace) (hp : p ≠ "xml") :
    lookupPrefix scope p = lookupNamespaceUri scope (some p) := if_neg hp

/-- A declaration that Namespaces in XML allows. -/
def Namespace.Allowed (n : Namespace) : Prop :=
  n.uri ≠ nsXml ∧ n.uri ≠ nsXmlns ∧
    ∀ p ∈ n.name, IsNcName p ∧ p ≠ "xml" ∧ p ≠ "xmlns" ∧ p ≠ "" ∧ n.uri ≠ ""

instance (n : Namespace) : Decidable n.Allowed := inferInstanceAs (Decidable (_ ∧ _ ∧ _))

/-- A qualified name whose prefix, if it has one, is declared. -/
def Declared (scope : List Namespace) (qname : String) : Prop :=
  (splitOnce ':' qname = none → IsNcName qname) ∧
    ∀ q ∈ splitOnce ':' qname, IsNcName q.2 ∧ (lookupPrefix scope q.1).isSome = true

instance (scope : List Namespace) (qname : String) : Decidable (Declared scope qname) :=
  inferInstanceAs (Decidable (_ ∧ _))

/-- What the parser promises of a start tag inside an element with the declarations `outer`.  The
prefix `xml` is for attributes; the parser does not resolve it in the name of an element. -/
structure Head.WellFormed (outer : List Namespace) (h : Head) : Prop where
  allowed : ∀ n ∈ h.namespaces, n.Allowed
  unique : (h.namespaces.map (·.name)).Nodup
  inherits : ∀ n ∈ outer, n.name ∈ h.namespaces.map (·.name)
  tagDeclared : Declared h.namespaces h.qname
  tagName : h.tagName = resolveTagName h.namespaces h.qname
  tag_ne_xml : h.tagName.ns ≠ some nsXml
  attributeDeclared : ∀ a ∈ h.attributes, Declared h.namespaces a.qname ∧ a.qname ≠ "xmlns"
  attributeName : ∀ a ∈ h.attributes, a.name = resolveAttributeName h.namespaces a.qname
  attributesUnique : (h.attributes.map (·.name)).Nodup

instance (outer : List Namespace) (h : Head) : Decidable (h.WellFormed outer) :=
  decidable_of_iff
    ((∀ n ∈ h.namespaces, n.Allowed) ∧ (h.namespaces.map (·.name)).Nodup ∧
      (∀ n ∈ outer, n.name ∈ h.namespaces.map (·.name)) ∧ Declared h.namespaces h.qname ∧
      h.tagName = resolveTagName h.namespaces h.qname ∧ h.tagName.ns ≠ some nsXml ∧
      (∀ a ∈ h.attributes, Declared h.namespaces a.qname ∧ a.qname ≠ "xmlns") ∧
      (∀ a ∈ h.attributes, a.name = resolveAttributeName h.namespaces a.qname) ∧
      (h.attributes.map (·.name)).Nodup)
    ⟨fun ⟨h₁, h₂, h₃, h₄, h₅, h₆, h₇, h₈, h₉⟩ => ⟨h₁, h₂, h₃, h₄, h₅, h₆, h₇, h₈, h₉⟩,
      fun ⟨h₁, h₂, h₃, h₄, h₅, h₆, h₇, h₈, h₉⟩ => ⟨h₁, h₂, h₃, h₄, h₅, h₆, h₇, h₈, h₉⟩⟩

/-- Every start tag among some nodes and below them is well formed. -/
def Nodes.WellFormed (outer : List Namespace) : Nodes → Prop
  | nil => True
  | text _ rest => rest.WellFormed outer
  | misc rest => rest.WellFormed outer
  | element head children rest =>
    head.WellFormed outer ∧ children.WellFormed head.namespaces ∧ rest.WellFormed outer

instance Nodes.decidableWellFormed (outer : List Namespace) :
    (nodes : Nodes) → Decidable (nodes.WellFormed outer)
  | .nil => inferInstanceAs (Decidable True)
  | .text _ rest => Nodes.decidableWellFormed outer rest
  | .misc rest => Nodes.decidableWellFormed outer rest
  | .element head children rest =>
    have := Nodes.decidableWellFormed head.namespaces children
    have := Nodes.decidableWellFormed outer rest
    inferInstanceAs (Decidable (_ ∧ _ ∧ _))

/-- A prefix that is listed on an element, and the namespace it stands for. -/
structure Head.Binds (h : Head) (p uri : String) : Prop where
  listed : ∃ n ∈ h.namespaces, n.name = some p ∧ n.uri = uri
  lookup : lookupNamespaceUri h.namespaces (some p) = some uri
  uri_ne_empty : uri ≠ ""
  ne_nsXml : uri ≠ nsXml
  ne_nsXmlns : uri ≠ nsXmlns
  isNcName : IsNcName p
  ne_xml : p ≠ "xml"
  ne_xmlns : p ≠ "xmlns"
  ne_empty : p ≠ ""

theorem Head.Binds.lookupPrefix_eq {h : Head} {uri : String} (hp : h.Binds p uri) :
    lookupPrefix h.namespaces p = some uri :=
  (lookupPrefix_of_ne_xml _ hp.ne_xml).trans hp.lookup

namespace Head.WellFormed

variable {outer : List Namespace} {h : Head}

/-- A prefix that is listed stands for a namespace. -/
theorem binds_of_mem (hwf : h.WellFormed outer) {n : Namespace} (hn : n ∈ h.namespaces)
    (hname : n.name = some p) : h.Binds p n.uri := by
  obtain ⟨hxml, hxmlns, hallowed⟩ := hwf.allowed n hn
  obtain ⟨hnc, hpxml, hpxmlns, hpne, hne⟩ := hallowed p hname
  have hlookup := lookup_of_mem hwf.unique hn
  rw [hname] at hlookup
  exact ⟨⟨n, hn, hname, rfl⟩, hlookup, hne, hxml, hxmlns, hnc, hpxml, hpxmlns, hpne⟩

/-- The three kinds of qualified names: without a prefix, with the prefix `xml`, and with one that
is listed. -/
theorem declared_cases (hwf : h.WellFormed outer) {qname : String}
    (hq : Declared h.namespaces qname) :
    (splitOnce ':' qname = none ∧ IsNcName qname) ∨
    (∃ name, splitOnce ':' qname = some ("xml", name) ∧ IsNcName name) ∨
    ∃ p name uri, splitOnce ':' qname = some (p, name) ∧ IsNcName name ∧ h.Binds p uri := by
  obtain ⟨hplain, hprefixed⟩ := hq
  cases hs : splitOnce ':' qname with
  | none => exact .inl ⟨rfl, hplain hs⟩
  | some q =>
    obtain ⟨p, name⟩ := q
    obtain ⟨hname, hsome⟩ := hprefixed (p, name) hs
    obtain ⟨uri, huri⟩ := Option.isSome_iff_exists.mp hsome
    unfold lookupPrefix at huri
    split at huri
    · rename_i hxml
      exact .inr (.inl ⟨name, by rw [← hxml], hname⟩)
    · obtain ⟨n, hn, hp, -⟩ := mem_of_lookup huri
      exact .inr (.inr ⟨p, name, n.uri, rfl, hname, hwf.binds_of_mem hn hp⟩)

/-- The two ways in which an element can be named. -/
theorem tag_cases (hwf : h.WellFormed outer) :
    (splitOnce ':' h.qname = none ∧ h.tagName.name = h.qname ∧ IsNcName h.tagName.name ∧
      h.tagName.ns = lookupNamespaceUri h.namespaces none) ∨
    ∃ p uri, splitOnce ':' h.qname = some (p, h.tagName.name) ∧ IsNcName h.tagName.name ∧
      h.tagName.ns = some uri ∧ h.Binds p uri := by
  have htag := hwf.tagName
  unfold resolveTagName at htag
  rcases hwf.declared_cases hwf.tagDeclared with ⟨hs, hnc⟩ | ⟨name, hs, -⟩ | ⟨p, name,
    uri, hs, hnc, hp⟩
  · rw [hs] at htag
    rw [htag]
    exact .inl ⟨hs, rfl, hnc, rfl⟩
  · rw [hs] at htag
    exact absurd (by rw [htag]; rfl) hwf.tag_ne_xml
  · rw [hs] at htag
    rw [htag]
    exact .inr ⟨p, uri, hs, hnc, hp.lookupPrefix_eq, hp⟩

theorem getD_tag_ne_xml (hwf : h.WellFormed outer) : h.tagName.ns.getD "" ≠ nsXml := by
  have hne := hwf.tag_ne_xml
  cases hns : h.tagName.ns with
  | none => decide
  | some uri =>
    rw [hns] at hne
    exact fun heq => hne (congrArg some heq)

/-- The three ways in which an attribute can be named. -/
theorem attribute_cases (hwf : h.WellFormed outer) {a : Attribute} (ha : a ∈ h.attributes) :
    (splitOnce ':' a.qname = none ∧ a.name.name = a.qname ∧ IsNcName a.name.name ∧
      a.name.name ≠ "xmlns" ∧ a.name.ns = none) ∨
    (splitOnce ':' a.qname = some ("xml", a.name.name) ∧ IsNcName a.name.name ∧
      a.name.ns = some nsXml) ∨
    ∃ p uri, splitOnce ':' a.qname = some (p, a.name.name) ∧ IsNcName a.name.name ∧
      a.name.ns = some uri ∧ h.Binds p uri := by
  obtain ⟨hdeclared, hxmlns⟩ := hwf.attributeDeclared a ha
  have hname := hwf.attributeName a ha
  unfold resolveAttributeName at hname
  rcases hwf.declared_cases hdeclared with ⟨hs, hnc⟩ | ⟨name, hs, hnc⟩ | ⟨p, name, uri, hs, hnc, hp⟩
  · rw [hs] at hname
    rw [hname]
    exact .inl ⟨hs, rfl, hnc, hxmlns, rfl⟩
  · rw [hs] at hname
    rw [hname]
    exact .inr (.inl ⟨hs, hnc, rfl⟩)
  · rw [hs] at hname
    rw [hname]
    exact .inr (.inr ⟨p, uri, hs, hnc, hp.lookupPrefix_eq, hp⟩)

/-- No attribute is in the namespace of declarations. -/
theorem attribute_ne_xmlns (hwf : h.WellFormed outer) {a : Attribute} (ha : a ∈ h.attributes) :
    a.name.ns.getD "" ≠ nsXmlns := by
  rcases hwf.attribute_cases ha with ⟨-, -, -, -, hns⟩ | ⟨-, -, hns⟩ | ⟨p, uri, -, -, hns, hp⟩
  · rw [hns]
    decide
  · rw [hns]
    decide
  · rw [hns]
    exact hp.ne_nsXmlns

end Head.WellFormed

end Xml

end Vouch
