import Vouch.Saml.Signature

/-!
# What survives serialising and parsing again

Before it is canonicalised, the signed element is written out without its signature and parsed again
(`c14n_excluding_signature`).  This file shows what that keeps of a start tag: the declarations in
scope, the name, and the local names and values of the attributes, in their order.

## What is here

* `writtenStyle` — how the serialiser writes characters, as a `Style`; `serialMarkup` — the markup
  it writes, so that `serializeNodes_eq` reads the text it produces as rendered markup.
* `ParsesXml` — what is assumed of the XML parser: it reads plain markup as Namespaces in XML says
  (`toNodes`), and every document it returns is well formed.
* `normalize` — the content of some nodes: comments gone, text character by character, names without
  their prefixes, attributes in canonical order.
* `resolveHead_serial` — what is read back of a start tag.  An attribute whose namespace is *first*
  bound as the default one is written without a prefix, and leaves its namespace.
* `namesUsed` — the namespaces a start tag makes use of.  Of what is declared, these are written.
-/

namespace Vouch.Saml

open Xml

/-! ## Characters -/

/-- The escapes of text. -/
def textEscapes : Coding.EscapeTable '<' where
  mark := '&'
  entries := [('&', "&amp;".toList), ('<', "&lt;".toList), ('>', "&gt;".toList),
    ('\r', "&#xD;".toList)]
  marked := by decide
  separate := by decide
  mark_escaped := ⟨_, List.mem_cons_self, rfl⟩
  stop_escaped := ⟨_, List.mem_cons_of_mem _ List.mem_cons_self, rfl⟩
  stop_ne_mark := by decide

/-- The escapes of attribute values. -/
def attributeEscapes : Coding.EscapeTable '"' where
  mark := '&'
  entries := [('&', "&amp;".toList), ('"', "&quot;".toList), ('<', "&lt;".toList),
    ('\t', "&#x9;".toList), ('\n', "&#xA;".toList), ('\r', "&#xD;".toList)]
  marked := by decide
  separate := by decide
  mark_escaped := ⟨_, List.mem_cons_self, rfl⟩
  stop_escaped := ⟨_, List.mem_cons_of_mem _ List.mem_cons_self, rfl⟩
  stop_ne_mark := by decide

theorem toList_escapeText (s : String) :
    (escapeText s).toList = (Coding.escaping textEscapes).writeAll s.toList := by
  rw [escapeText, String.toList_ofList, Coding.writeAll]
  congr 1
  funext c
  show _ = textEscapes.write c
  simp only [Coding.EscapeTable.write, textEscapes, List.find?_cons, List.find?_nil]
  split <;> simp_all

theorem toList_escapeAttribute (s : String) :
    (escapeAttribute s).toList = (Coding.escaping attributeEscapes).writeAll s.toList := by
  rw [escapeAttribute, String.toList_ofList, Coding.writeAll]
  congr 1
  funext c
  show _ = attributeEscapes.write c
  simp only [Coding.EscapeTable.write, attributeEscapes, List.find?_cons, List.find?_nil]
  split <;> simp_all

/-- Text and attribute values are escaped. -/
def writtenStyle : Style where
  text := .escaping textEscapes
  value _ := .escaping attributeEscapes

/-- Pieces of text one after the other. -/
theorem toList_foldr_append {α : Type} (f : α → String) (l : List α) :
    ((l.map f).foldr (· ++ ·) "").toList = l.flatMap fun a => (f a).toList := by
  induction l with
  | nil => rfl
  | cons a l ih => simp [ih]

/-- The characters of a text, as markup. -/
def chars (s : String) (rest : Markup) : Markup := s.toList.foldr .char rest

theorem chars_induction {P : Markup → Prop} {rest : Markup} (s : String) (hrest : P rest)
    (hchar : ∀ c m, P m → P (.char c m)) : P (chars s rest) := by
  unfold chars
  induction s.toList with
  | nil => exact hrest
  | cons c cs ih => exact hchar c _ ih

theorem render_chars (σ : Style) (s : String) (rest : Markup) :
    (chars s rest).render σ = σ.text.writeAll s.toList ++ rest.render σ := by
  unfold chars
  induction s.toList with
  | nil => rfl
  | cons c cs ih => rw [List.foldr_cons, Markup.render, ih, Coding.writeAll_cons, List.append_assoc]

/-! ## What the serialiser writes -/

/-- An element as a document of its own. -/
def asNodes (e : Element) : Nodes := .element e.head e.children .nil

/-- Some nodes without the node at `exclude`. -/
def prune (exclude path : List Nat) (i : Nat) : Nodes → Nodes
  | .nil => .nil
  | .text s rest => .text s (prune exclude path (i + 1) rest)
  | .misc rest => .misc (prune exclude path (i + 1) rest)
  | .element head children rest =>
    if i :: path = exclude then prune exclude path (i + 1) rest
    else .element head (prune exclude (i :: path) 0 children) (prune exclude path (i + 1) rest)

/-- The declarations and attributes that are written for a start tag. -/
def serialAttributes (ancestors : List (List Namespace)) (head : Head) : List (String × String) :=
  (head.namespaces.map fun ns => (namespaceAttribute (ns.name.getD ""), ns.uri)) ++
    ((head.attributes.filter fun a => a.name.ns.getD "" ≠ nsXmlns).map fun a =>
      (attributeQname ancestors head a, a.value))

/-- The markup that is written for some nodes. -/
def serialMarkup (ancestors : List (List Namespace)) : Nodes → Markup
  | .nil => .nil
  | .text s rest => chars s (serialMarkup ancestors rest)
  | .misc rest => serialMarkup ancestors rest
  | .element head children rest =>
    .element (elementQname ancestors head) (serialAttributes ancestors head)
      (serialMarkup (head.namespaces :: ancestors) children) (serialMarkup ancestors rest)

/-- The serialiser writes markup, in the written style. -/
theorem serializeNodes_eq {exclude path : List Nat} {ancestors : List (List Namespace)} {i : Nat}
    {nodes : Nodes} :
    (serializeNodes exclude path ancestors i nodes).toList =
      (serialMarkup ancestors (prune exclude path i nodes)).render writtenStyle := by
  induction nodes generalizing path ancestors i with
  | nil => rfl
  | text s rest ih =>
    rw [serializeNodes, prune, serialMarkup, render_chars, String.toList_append,
      toList_escapeText, ih]
    rfl
  | misc rest ih => exact ih
  | element head children rest ihChildren ihRest =>
    rw [serializeNodes, prune]
    split
    · rw [String.toList_append, ihRest]
      rfl
    · simp only [serialMarkup, Markup.render, String.toList_append, toList_foldr_append, ihChildren,
        ihRest, serialAttributes, List.flatMap_append, List.flatMap_map, Markup.renderAttribute,
        toList_escapeAttribute]
      simp [writtenStyle]

/-! ## The parser -/

/-- What is assumed of the XML parser.  Plain markup is read as Namespaces in XML says, if it is
accepted; and what is accepted is well formed. -/
structure ParsesXml (parseXml : String → Except String Xml.Document) : Prop where
  parse_written : ∀ (name : String) (attributes : List (String × String)) (children : Markup)
    (doc : Xml.Document), (Markup.element name attributes children .nil).Valid writtenStyle →
    parseXml (String.ofList ((Markup.element name attributes children .nil).render writtenStyle)) =
      .ok doc → doc = ⟨toNodes [] (.element name attributes children .nil)⟩
  parse_wellFormed : ∀ (text : String) (doc : Xml.Document), parseXml text = .ok doc →
    doc.nodes.WellFormed []

/-! ## Content -/

/-- A name, with no namespace where the namespace has no name. -/
def normalName (n : ExpandedName) : ExpandedName := ⟨n.ns.filter (· ≠ ""), n.name⟩

theorem getD_normalName (n : ExpandedName) : (normalName n).ns.getD "" = n.ns.getD "" := by
  obtain ⟨ns, name⟩ := n
  cases ns with
  | none => rfl
  | some uri =>
    by_cases huri : uri = ""
    · rw [huri]
      rfl
    · simp [normalName, Option.filter_some, huri]

theorem normalName_getD (n : ExpandedName) :
    normalName ⟨some (n.ns.getD ""), n.name⟩ = normalName n := by
  obtain ⟨ns, name⟩ := n
  cases ns with
  | none => rfl
  | some uri => rfl

/-- An attribute without its prefix. -/
def normalAttribute (a : Attribute) : Attribute := ⟨normalName a.name, a.value, ""⟩

/-- What a start tag says, apart from prefixes and from the order of attributes. -/
def normalHead (h : Head) : Head where
  tagName := normalName h.tagName
  qname := ""
  namespaces := []
  attributes := ((h.attributes.map normalAttribute).insertionSort attributeLe).filter fun a =>
    a.name.ns.getD "" ≠ nsXmlns

/-- The characters of a text, as nodes of their own. -/
def textNodes (s : String) (rest : Nodes) : Nodes :=
  s.toList.foldr (fun c nodes => .text (String.singleton c) nodes) rest

/-- The content of some nodes. -/
def normalize : Nodes → Nodes
  | .nil => .nil
  | .text s rest => textNodes s (normalize rest)
  | .misc rest => normalize rest
  | .element head children rest => .element (normalHead head) (normalize children) (normalize rest)

/-! ## Start tags -/

/-- The names of the namespaces that a start tag makes use of: that of the element, those of its
attributes, and those that the prefixes listed as `inclusive` stand for. -/
def namesUsed (inclusive : List String) (h : Head) : List String :=
  h.tagName.ns.toList ++ (h.attributes.filterMap (·.name.ns) ++
    (h.namespaces.filter fun n =>
      n.name.getD "" ∈ inclusive.map fun p => if p = "#default" then "" else p).map (·.uri))

/-- A start tag that the canonicaliser writes unambiguously: no namespace it makes use of has a
quotation mark in its name. -/
def Head.Readable (inclusive : List String) (h : Head) : Prop :=
  ∀ uri ∈ namesUsed inclusive h, '"' ∉ uri.toList

instance (inclusive : List String) : DecidablePred (Head.Readable inclusive) :=
  fun h => List.decidableBAll _ (namesUsed inclusive h)

/-- The serialiser looks a namespace up among the declarations of the element itself, if it is
there. -/
theorem findNsPrefix_eq {namespaces : List Namespace} (ancestors : List (List Namespace))
    {n : Namespace} (hn : n ∈ namespaces) :
    ∃ n' ∈ namespaces, n'.uri = n.uri ∧ namespaces.find? (·.uri = n.uri) = some n' ∧
      findNsPrefix (namespaces :: ancestors) n.uri = some (n'.name.getD "") := by
  cases hf : namespaces.find? (·.uri = n.uri) with
  | none => exact absurd (List.find?_eq_none.mp hf n hn) (by simp)
  | some n' =>
    refine ⟨n', List.mem_of_find?_eq_some hf, by simpa using List.find?_some hf, rfl, ?_⟩
    simp [findNsPrefix, hf]

section StartTag

variable {outer : List Namespace} {h : Head} (ancestors : List (List Namespace))

/-- The name an element is written with stands for the name it has. -/
theorem resolveTagName_elementQname (hwf : h.WellFormed outer) :
    resolveTagName h.namespaces (elementQname ancestors h) = h.tagName ∧
      Markup.IsName (elementQname ancestors h) := by
  -- where the element has no namespace, or one without a name
  have hplain : h.tagName.ns.getD "" = "" → IsNcName h.tagName.name →
      h.tagName.ns = lookupNamespaceUri h.namespaces none →
      resolveTagName h.namespaces (elementQname ancestors h) = h.tagName ∧
        Markup.IsName (elementQname ancestors h) := by
    intro hempty hnc hns
    have hq : elementQname ancestors h = h.tagName.name := by simp [elementQname, hempty]
    rw [hq, resolveTagName_plain _ hnc, ← hns]
    exact ⟨rfl, hnc.1⟩
  -- where its namespace is among the declarations
  have hlisted : ∀ n ∈ h.namespaces, h.tagName.ns = some n.uri → n.uri ≠ "" →
      IsNcName h.tagName.name →
      resolveTagName h.namespaces (elementQname ancestors h) = h.tagName ∧
        Markup.IsName (elementQname ancestors h) := by
    intro n hn hns hne hnc
    obtain ⟨n', hn', huri, -, hfind⟩ := findNsPrefix_eq ancestors hn
    cases hname : n'.name with
    | none =>
      have hq : elementQname ancestors h = h.tagName.name := by
        simp [elementQname, hns, hne, hfind, hname]
      have hlookup := lookup_of_mem hwf.unique hn'
      rw [hname, huri, ← hns] at hlookup
      rw [hq, resolveTagName_plain _ hnc, hlookup]
      exact ⟨rfl, hnc.1⟩
    | some p =>
      have hp := hwf.binds_of_mem hn' hname
      have hq : elementQname ancestors h = p ++ ":" ++ h.tagName.name := by
        simp [elementQname, hns, hne, hfind, hname, hp.ne_empty]
      rw [hq, resolveTagName_qualified _ hp.isNcName, hp.lookupPrefix_eq, huri, ← hns]
      exact ⟨rfl, isName_qualified hp.isNcName hnc⟩
  rcases hwf.tag_cases with ⟨-, -, hnc, hns⟩ | ⟨p, uri, -, hnc, hns, hp⟩
  · by_cases hempty : h.tagName.ns.getD "" = ""
    · exact hplain hempty hnc hns
    · cases hl : lookupNamespaceUri h.namespaces none with
      | none => exact absurd (by rw [hns, hl]; rfl) hempty
      | some uri =>
        obtain ⟨n, hn, -, rfl⟩ := mem_of_lookup hl
        rw [hl] at hns
        rw [hns] at hempty
        exact hlisted n hn hns hempty hnc
  · obtain ⟨n, hn, -, rfl⟩ := hp.listed
    exact hlisted n hn hns hp.uri_ne_empty hnc

variable {a : Attribute}

/-- The two ways in which an attribute is written: without a prefix, where it has no namespace or
one that is first bound as the default one; or with a prefix that stands for its namespace. -/
theorem attributeQname_cases (hwf : h.WellFormed outer) (ha : a ∈ h.attributes) :
    (attributeQname ancestors h a = a.name.name ∧ IsNcName a.name.name ∧
      (a.name.ns = none ∧ a.name.name ≠ "xmlns" ∨ ∃ n ∈ h.namespaces, n.name = none ∧
        a.name.ns = some n.uri ∧ h.namespaces.find? (·.uri = n.uri) = some n)) ∨
    ∃ p uri, attributeQname ancestors h a = p ++ ":" ++ a.name.name ∧ IsNcName p ∧ p ≠ "xmlns" ∧
      IsNcName a.name.name ∧ a.name.ns = some uri ∧ lookupPrefix h.namespaces p = some uri := by
  rcases hwf.attribute_cases ha with
    ⟨-, -, hnc, hxmlns, hns⟩ | ⟨-, hnc, hns⟩ | ⟨p, uri, -, hnc, hns, hp⟩
  · refine .inl ⟨?_, hnc, .inl ⟨hns, hxmlns⟩⟩
    simp [attributeQname, hns, nsXml]
  · refine .inr ⟨"xml", nsXml, ?_, by decide, by decide, hnc, hns, rfl⟩
    simp [attributeQname, hns]
  · obtain ⟨n, hn, -, rfl⟩ := hp.listed
    obtain ⟨n', hn', huri, hfirst, hfind⟩ := findNsPrefix_eq ancestors hn
    cases hname : n'.name with
    | none =>
      refine .inl ⟨?_, hnc, .inr ⟨n', hn', hname, by rw [hns, huri], by rw [huri, hfirst]⟩⟩
      simp [attributeQname, hns, hp.uri_ne_empty, hp.ne_nsXml, hfind, hname]
    | some p' =>
      have hp' := hwf.binds_of_mem hn' hname
      rw [huri] at hp'
      refine .inr ⟨p', n.uri, ?_, hp'.isNcName, hp'.ne_xmlns, hnc, hns, hp'.lookupPrefix_eq⟩
      simp [attributeQname, hns, hp.uri_ne_empty, hp.ne_nsXml, hfind, hname, hp'.ne_empty]

/-- The name an attribute is written with is a name. -/
theorem isName_attributeQname (hwf : h.WellFormed outer) (ha : a ∈ h.attributes) :
    Markup.IsName (attributeQname ancestors h a) := by
  rcases attributeQname_cases ancestors hwf ha with ⟨hq, hnc, -⟩ | ⟨p, uri, hq, hpnc, -, hnc, -⟩
  · rw [hq]
    exact hnc.1
  · rw [hq]
    exact isName_qualified hpnc hnc

/-- The name an attribute is written with is read as the name it has, or without its namespace. -/
theorem resolveAttributeName_attributeQname (hwf : h.WellFormed outer) (ha : a ∈ h.attributes) :
    (resolveAttributeName h.namespaces (attributeQname ancestors h a)).name = a.name.name ∧
      ((resolveAttributeName h.namespaces (attributeQname ancestors h a)).ns = none ∨
        (resolveAttributeName h.namespaces (attributeQname ancestors h a)).ns = a.name.ns) := by
  rcases attributeQname_cases ancestors hwf ha with ⟨hq, hnc, -⟩ | ⟨p, uri, hq, hpnc, -, -, hns, hp⟩
  · rw [hq, resolveAttributeName_plain _ hnc]
    exact ⟨rfl, .inl rfl⟩
  · rw [hq, resolveAttributeName_qualified _ hpnc, hp, ← hns]
    exact ⟨rfl, .inr rfl⟩

/-- A declaration is written as one. -/
theorem declaredName_namespaceAttribute {n : Namespace} (hn : n.Allowed) :
    declaredName (namespaceAttribute (n.name.getD "")) = some n.name ∧
      Markup.IsName (namespaceAttribute (n.name.getD "")) := by
  cases hname : n.name with
  | none => exact ⟨rfl, by decide⟩
  | some p =>
    obtain ⟨hpnc, -, -, hpne, -⟩ := hn.2.2 p hname
    have hkey : namespaceAttribute p = "xmlns" ++ ":" ++ p := by
      rw [namespaceAttribute, if_neg hpne]
      rfl
    have hnc : IsNcName "xmlns" := by decide
    rw [Option.getD_some, hkey, declaredName_qualified hnc, if_pos rfl]
    exact ⟨rfl, isName_qualified hnc hpnc⟩

/-- All attributes of a well-formed start tag are written. -/
theorem serialAttributes_eq (hwf : h.WellFormed outer) :
    serialAttributes ancestors h =
      (h.namespaces.map fun ns => (namespaceAttribute (ns.name.getD ""), ns.uri)) ++
        h.attributes.map fun a => (attributeQname ancestors h a, a.value) := by
  have hall : (h.attributes.filter fun a => a.name.ns.getD "" ≠ nsXmlns) = h.attributes := by
    rw [List.filter_eq_self]
    intro a ha
    simpa using hwf.attribute_ne_xmlns ha
  rw [serialAttributes, hall]

/-- The declarations that are written are those in scope. -/
theorem filterMap_declarationOf (hwf : h.WellFormed outer) {g : Attribute → String × String}
    (hg : ∀ a ∈ h.attributes, declaredName (g a).1 = none) :
    ((h.namespaces.map fun ns => (namespaceAttribute (ns.name.getD ""), ns.uri)) ++
      h.attributes.map g).filterMap declarationOf = h.namespaces := by
  have hattributes : ∀ a ∈ h.attributes, (declarationOf ∘ g) a = none := by
    intro a ha
    simp [declarationOf, hg a ha]
  have hself : ∀ n ∈ h.namespaces,
      (declarationOf ∘ fun ns : Namespace => (namespaceAttribute (ns.name.getD ""), ns.uri)) n =
        some n := by
    intro n hn
    have hallowed := hwf.allowed n hn
    have hxml : n.name ≠ some "xml" := fun hname => (hallowed.2.2 "xml" hname).2.1 rfl
    simp [declarationOf, (declaredName_namespaceAttribute hallowed).1, hxml]
  rw [List.filterMap_append, List.filterMap_map, List.filterMap_map, List.filterMap_congr hself,
    List.filterMap_some, List.filterMap_eq_nil_iff.mpr hattributes, List.append_nil]

/-- The attributes that are written are the attributes, by the names they are written with. -/
theorem filterMap_attributeOf (hwf : h.WellFormed outer) {g : Attribute → String × String}
    (hg : ∀ a ∈ h.attributes, declaredName (g a).1 = none) :
    ((h.namespaces.map fun ns => (namespaceAttribute (ns.name.getD ""), ns.uri)) ++
      h.attributes.map g).filterMap (attributeOf h.namespaces) =
        h.attributes.map fun a =>
          ⟨resolveAttributeName h.namespaces (g a).1, (g a).2, (g a).1⟩ := by
  have hdecls : ∀ n ∈ h.namespaces, (attributeOf h.namespaces ∘
      fun ns : Namespace => (namespaceAttribute (ns.name.getD ""), ns.uri)) n = none := by
    intro n hn
    simp [attributeOf, (declaredName_namespaceAttribute (hwf.allowed n hn)).1]
  have hown : ∀ a ∈ h.attributes, (attributeOf h.namespaces ∘ g) a =
      (some ∘ fun a => ⟨resolveAttributeName h.namespaces (g a).1, (g a).2, (g a).1⟩) a := by
    intro a ha
    simp [attributeOf, hg a ha]
  rw [List.filterMap_append, List.filterMap_map, List.filterMap_map,
    List.filterMap_eq_nil_iff.mpr hdecls, List.nil_append, List.filterMap_congr hown,
    List.filterMap_eq_map]

/-- Every declaration that is inherited is written again. -/
theorem inScope_eq_self (hwf : h.WellFormed outer) : inScope h.namespaces outer = h.namespaces := by
  have hnone : (outer.filter fun n => n.name ∉ h.namespaces.map (·.name)) = [] := by
    rw [List.filter_eq_nil_iff]
    intro n hn
    simpa using hwf.inherits n hn
  rw [inScope, hnone, List.append_nil]

variable {scope : List Namespace}

/-- No attribute is taken for a declaration, if what is written is read as a well-formed start
tag. -/
theorem declaredName_attributeQname (hwf : h.WellFormed outer)
    (hwf' : (resolveHead scope (elementQname ancestors h)
      (serialAttributes ancestors h)).WellFormed scope)
    (ha : a ∈ h.attributes) : declaredName (attributeQname ancestors h a) = none := by
  rcases attributeQname_cases ancestors hwf ha with
    ⟨hq, hnc, ⟨-, hxmlns⟩ | ⟨n, hn, hname, -, -⟩⟩ | ⟨p, uri, hq, hpnc, hpxmlns, -⟩
  · rw [hq]
    exact declaredName_plain hnc hxmlns
  · rw [hq]
    refine declaredName_plain hnc fun hxmlns => ?_
    -- the default namespace would be declared twice
    have hdecl : declarationOf (namespaceAttribute (n.name.getD ""), n.uri) = some n := by
      obtain ⟨name, uri⟩ := n
      obtain rfl : name = none := hname
      rfl
    have hdecl' : declarationOf (attributeQname ancestors h a, a.value) = some ⟨none, a.value⟩ := by
      rw [hq, hxmlns]
      rfl
    have hunique := hwf'.unique
    simp only [resolveHead, inScope, serialAttributes_eq ancestors hwf, List.filterMap_append,
      List.map_append, List.append_assoc] at hunique
    refine (List.nodup_append.mp hunique).2.2 n.name ?_ none ?_ hname
    · exact List.mem_map.mpr ⟨n, List.mem_filterMap.mpr ⟨_, List.mem_map.mpr ⟨n, hn, rfl⟩, hdecl⟩,
        rfl⟩
    · refine List.mem_append.mpr (.inl (List.mem_map.mpr ⟨⟨none, a.value⟩, ?_, rfl⟩))
      exact List.mem_filterMap.mpr ⟨_, List.mem_map.mpr ⟨a, ha, rfl⟩, hdecl'⟩
  · rw [hq, declaredName_qualified hpnc, if_neg hpxmlns]

/-- What is read back from a start tag, if that is well formed: the declarations, and the attributes
by the names they were written with. -/
theorem resolveHead_serial (hwf : h.WellFormed scope)
    (hwf' : (resolveHead scope (elementQname ancestors h)
      (serialAttributes ancestors h)).WellFormed scope) :
    (resolveHead scope (elementQname ancestors h) (serialAttributes ancestors h)).namespaces =
      h.namespaces ∧
      (resolveHead scope (elementQname ancestors h) (serialAttributes ancestors h)).attributes =
        h.attributes.map fun a =>
          ⟨resolveAttributeName h.namespaces (attributeQname ancestors h a), a.value,
            attributeQname ancestors h a⟩ := by
  have hnone : ∀ a ∈ h.attributes, declaredName (attributeQname ancestors h a) = none :=
    fun a ha => declaredName_attributeQname ancestors hwf hwf' ha
  have hscope : inScope ((serialAttributes ancestors h).filterMap declarationOf) scope =
    h.namespaces := by
    rw [serialAttributes_eq ancestors hwf, filterMap_declarationOf hwf hnone, inScope_eq_self hwf]
  refine ⟨hscope, ?_⟩
  show (serialAttributes ancestors h).filterMap (attributeOf (inScope _ scope)) = _
  rw [hscope, serialAttributes_eq ancestors hwf, filterMap_attributeOf hwf hnone]

/-- What is read back makes use of no other namespaces. -/
theorem namesUsed_serial (hwf : h.WellFormed scope)
    (hwf' : (resolveHead scope (elementQname ancestors h)
      (serialAttributes ancestors h)).WellFormed scope)
    (inclusive : List String) {uri : String} (huri : uri ∈ namesUsed inclusive
      (resolveHead scope (elementQname ancestors h) (serialAttributes ancestors h))) :
    uri ∈ namesUsed inclusive h := by
  obtain ⟨hscope, hattributes⟩ := resolveHead_serial ancestors hwf hwf'
  have htag := hwf'.tagName
  rw [hscope] at htag
  rw [namesUsed, htag, hscope, hattributes, List.mem_append, List.mem_append] at huri
  rw [namesUsed, List.mem_append, List.mem_append]
  refine huri.imp (fun htagged => ?_) (.imp_left fun hnamed => ?_)
  · rwa [← (resolveTagName_elementQname ancestors hwf).1]
  · obtain ⟨b, hb, huri⟩ := List.mem_filterMap.mp hnamed
    obtain ⟨a, ha, rfl⟩ := List.mem_map.mp hb
    rcases (resolveAttributeName_attributeQname ancestors hwf ha).2 with hnone | hsame
    · exact absurd (hnone.symm.trans huri) (by simp)
    · exact List.mem_filterMap.mpr ⟨a, ha, hsame.symm.trans huri⟩

end StartTag

/-! ## Whole elements -/

section Elements

variable {nodes : Nodes} {outer : List Namespace} {h : Head} {ancestors : List (List Namespace)}

theorem all_textCons {P : Head → Prop} (c : Char) (nodes : Nodes) :
    (textCons c nodes).All P ↔ nodes.All P := by
  cases nodes <;> rfl

theorem wellFormed_textCons {outer : List Namespace} {c : Char} {nodes : Nodes} :
    (textCons c nodes).WellFormed outer ↔ nodes.WellFormed outer := by
  cases nodes <;> rfl

theorem wellFormed_chars {outer scope : List Namespace} {s : String} {rest : Markup} :
    (toNodes outer (chars s rest)).WellFormed scope ↔ (toNodes outer rest).WellFormed scope := by
  rw [chars]
  induction s.toList with
  | nil => rfl
  | cons c cs ih => rw [List.foldr_cons, toNodes, wellFormed_textCons, ih]

/-- What is parsed again can be canonicalised unambiguously. -/
theorem readable_toNodes (inclusive : List String) (hwf : nodes.WellFormed outer)
    (hread : (toNodes outer (serialMarkup ancestors nodes)).WellFormed outer)
    (hclean : nodes.All (Head.Readable inclusive)) :
    (toNodes outer (serialMarkup ancestors nodes)).All (Head.Readable inclusive) := by
  induction nodes generalizing outer ancestors with
  | nil => trivial
  | text s rest ih =>
    rw [serialMarkup, wellFormed_chars] at hread
    exact chars_induction (P := fun m => (toNodes outer m).All (Head.Readable inclusive)) s
      (ih hwf hread hclean) fun c _ => (all_textCons c _).mpr
  | misc rest ih => exact ih hwf hread hclean
  | element head children rest ihChildren ihRest =>
    rw [serialMarkup, toNodes] at hread ⊢
    obtain ⟨hscope, -⟩ := resolveHead_serial ancestors hwf.1 hread.1
    refine ⟨?_, ihChildren (hscope ▸ hwf.2.1) hread.2.1 hclean.2.1,
      ihRest hwf.2.2 hread.2.2 hclean.2.2⟩
    exact fun uri huri => hclean.1 uri (namesUsed_serial ancestors hwf.1 hread.1 inclusive huri)

/-- A start tag can be read if the names of its attributes can. -/
theorem isName_startTag (hwf : h.WellFormed outer) {name : Attribute → String}
    (hname : ∀ a ∈ h.attributes, Markup.IsName (name a)) : ∀ a ∈
      (h.namespaces.map fun ns => (namespaceAttribute (ns.name.getD ""), ns.uri)) ++
        h.attributes.map fun a => (name a, a.value), Markup.IsName a.1 := by
  intro a ha
  rw [List.mem_append, List.mem_map, List.mem_map] at ha
  rcases ha with ⟨n, hn, rfl⟩ | ⟨attr, hattr, rfl⟩
  · exact (declaredName_namespaceAttribute (hwf.allowed n hn)).2
  · exact hname attr hattr

variable (ancestors) in
/-- What is written can be read. -/
theorem valid_serialMarkup (hwf : nodes.WellFormed outer) :
    (serialMarkup ancestors nodes).Valid writtenStyle := by
  induction nodes generalizing outer ancestors with
  | nil => trivial
  | text s rest ih => exact chars_induction s (ih _ hwf) fun _ _ h => ⟨trivial, h⟩
  | misc rest ih => exact ih _ hwf
  | element head children rest ihChildren ihRest =>
    refine ⟨(resolveTagName_elementQname ancestors hwf.1).2, fun a ha => ⟨?_, fun _ _ => trivial⟩,
      ihChildren _ hwf.2.1, ihRest _ hwf.2.2⟩
    rw [serialAttributes_eq ancestors hwf.1] at ha
    exact isName_startTag hwf.1 (fun _ => isName_attributeQname ancestors hwf.1) a ha

end Elements

/-! ## A parser that does what is assumed

The assumption on the parser can be met, and by a parser that reads every well-formed document from
its own text. -/

/-- A parser of plain markup. -/
def parseMarkup (text : String) : Except String Xml.Document :=
  match Markup.read writtenStyle text.toList with
  | some (.element name attributes children .nil) =>
    if (toNodes [] (.element name attributes children .nil)).WellFormed [] then
      .ok ⟨toNodes [] (.element name attributes children .nil)⟩
    else .error "malformed document"
  | _ => .error "not a document"

theorem parsesXml_parseMarkup : ParsesXml parseMarkup where
  parse_written := by
    intro name attributes children doc hvalid h
    rw [parseMarkup, String.toList_ofList, Markup.read_render hvalid] at h
    simp only at h
    split at h
    · exact (Except.ok.inj h).symm
    · exact absurd h (by simp)
  parse_wellFormed := by
    intro text doc h
    unfold parseMarkup at h
    split at h
    · split at h
      · rename_i hwf
        cases h
        exact hwf
      · exact absurd h (by simp)
    · exact absurd h (by simp)

/-- The declarations and attributes of a start tag, as it has them. -/
def sourceAttributes (head : Head) : List (String × String) :=
  (head.namespaces.map fun ns => (namespaceAttribute (ns.name.getD ""), ns.uri)) ++
    head.attributes.map fun a => (a.qname, a.value)

/-- A text of some nodes: every start tag with all declarations in scope, and with the prefixes it
has. -/
def sourceMarkup : Nodes → Markup
  | .nil => .nil
  | .text s rest => chars s (sourceMarkup rest)
  | .misc rest => sourceMarkup rest
  | .element head children rest =>
    .element head.qname (sourceAttributes head) (sourceMarkup children) (sourceMarkup rest)

/-- No comments, and no piece of text that is empty or follows another one. -/
def Solid : Nodes → Prop
  | .nil => True
  | .text s rest => s ≠ "" ∧ (∀ s' rest', rest ≠ .text s' rest') ∧ Solid rest
  | .misc _ => False
  | .element _ children rest => Solid children ∧ Solid rest

/-- The characters of a text are put together again. -/
theorem toNodes_chars (outer : List Namespace) {s : String} {rest : Markup} (hs : s ≠ "")
    (hrest : ∀ s' rest', toNodes outer rest ≠ .text s' rest') :
    toNodes outer (chars s rest) = .text s (toNodes outer rest) := by
  have hcons : ∀ (c : Char) (cs : List Char), toNodes outer ((c :: cs).foldr .char rest) =
      .text (String.ofList (c :: cs)) (toNodes outer rest) := by
    intro c cs
    induction cs generalizing c with
    | nil =>
      rw [List.foldr_cons, List.foldr_nil, toNodes]
      cases hnodes : toNodes outer rest with
      | nil => rfl
      | text s' rest' => exact absurd hnodes (hrest s' rest')
      | misc rest' => rfl
      | element head children rest' => rfl
    | cons d cs ih =>
      have htext : String.singleton c ++ String.ofList (d :: cs) =
        String.ofList (c :: d :: cs) := by
        rw [← String.toList_inj]
        simp
      rw [List.foldr_cons, toNodes, ih d, textCons, htext]
  rw [chars]
  cases hl : s.toList with
  | nil => exact absurd (String.toList_inj.mp (hl.trans String.toList_empty.symm)) hs
  | cons c cs => rw [hcons, ← hl, String.ofList_toList]

/-- A qualified name whose prefix is declared can be written, and declares nothing itself. -/
theorem isName_of_declared {outer : List Namespace} {h : Head} (hwf : h.WellFormed outer)
    {qname : String} (hq : Declared h.namespaces qname) :
    Markup.IsName qname ∧ (qname ≠ "xmlns" → declaredName qname = none) := by
  rcases hwf.declared_cases hq with ⟨hs, hnc⟩ | ⟨name, hs, hnc⟩ | ⟨p, name, uri, hs, hnc, hp⟩
  · exact ⟨hnc.1, declaredName_plain hnc⟩
  · have hxml : IsNcName "xml" := by decide
    rw [eq_qualified hs, declaredName_qualified hxml]
    exact ⟨isName_qualified hxml hnc, fun _ => if_neg (by decide)⟩
  · rw [eq_qualified hs, declaredName_qualified hp.isNcName]
    exact ⟨isName_qualified hp.isNcName hnc, fun _ => if_neg hp.ne_xmlns⟩

theorem declaredName_qname {outer : List Namespace} {h : Head} (hwf : h.WellFormed outer)
    {a : Attribute} (ha : a ∈ h.attributes) : declaredName a.qname = none := by
  obtain ⟨hdeclared, hne⟩ := hwf.attributeDeclared a ha
  exact (isName_of_declared hwf hdeclared).2 hne

/-- A start tag is read back from its own text. -/
theorem resolveHead_source {outer : List Namespace} {h : Head} (hwf : h.WellFormed outer) :
    resolveHead outer h.qname (sourceAttributes h) = h := by
  have hnone : ∀ a ∈ h.attributes, declaredName a.qname = none :=
    fun a ha => declaredName_qname hwf ha
  have hscope : inScope ((sourceAttributes h).filterMap declarationOf) outer = h.namespaces := by
    rw [sourceAttributes, filterMap_declarationOf hwf hnone, inScope_eq_self hwf]
  have hattributes : (sourceAttributes h).filterMap (attributeOf h.namespaces) = h.attributes := by
    rw [sourceAttributes, filterMap_attributeOf hwf hnone]
    refine (List.map_congr_left fun a ha => ?_).trans (List.map_id _)
    rw [← hwf.attributeName a ha]
    rfl
  rw [resolveHead]
  simp [hscope, hattributes, ← hwf.tagName]

/-- **A well-formed document is read back from its own text.** -/
theorem toNodes_source {nodes : Nodes} {outer : List Namespace} (hwf : nodes.WellFormed outer)
    (hsolid : Solid nodes) : toNodes outer (sourceMarkup nodes) = nodes := by
  induction nodes generalizing outer with
  | nil => rfl
  | text s rest ih =>
    have heq := ih hwf hsolid.2.2
    rw [sourceMarkup, toNodes_chars outer hsolid.1 (by rw [heq]; exact hsolid.2.1), heq]
  | misc rest => exact hsolid.elim
  | element head children rest ihChildren ihRest =>
    simp [sourceMarkup, toNodes, resolveHead_source hwf.1, ihChildren hwf.2.1 hsolid.1,
      ihRest hwf.2.2 hsolid.2]

theorem valid_source {nodes : Nodes} {outer : List Namespace} (hwf : nodes.WellFormed outer) :
    (sourceMarkup nodes).Valid writtenStyle := by
  induction nodes generalizing outer with
  | nil => trivial
  | text s rest ih => exact chars_induction s (ih hwf) fun _ _ h => ⟨trivial, h⟩
  | misc rest ih => exact ih hwf
  | element head children rest ihChildren ihRest =>
    refine ⟨(isName_of_declared hwf.1 hwf.1.tagDeclared).1, fun a ha => ⟨?_, fun _ _ => trivial⟩,
      ihChildren hwf.2.1, ihRest hwf.2.2⟩
    exact isName_startTag hwf.1
      (fun _ h => (isName_of_declared hwf.1 (hwf.1.attributeDeclared _ h).1).1) a ha

/-- The text of a document with one element. -/
def sourceText (e : Element) : String :=
  String.ofList ((sourceMarkup (.element e.head e.children .nil)).render writtenStyle)

theorem parseMarkup_source {e : Element}
    (hwf : (Nodes.element e.head e.children .nil).WellFormed []) (hsolid : Solid e.children) :
    parseMarkup (sourceText e) = .ok ⟨.element e.head e.children .nil⟩ := by
  have hread := Markup.read_render (valid_source hwf)
  have heq := toNodes_source hwf ⟨hsolid, trivial⟩
  rw [parseMarkup, sourceText, String.toList_ofList, hread]
  rw [sourceMarkup, sourceMarkup] at heq ⊢
  simp [heq, if_pos hwf]

end Vouch.Saml
