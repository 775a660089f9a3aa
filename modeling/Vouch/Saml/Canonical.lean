import Vouch.Saml.Serialize

/-!
# The canonical text determines the content

Two elements with one canonical text have the same content.  The canonical text is markup in which
every element declares the prefixes it uses, unless they still stand for the same namespaces as in
its output ancestors; so the text can be read back — as markup, and then by resolving each name
through the declarations met on the way down (`expand`).

* `canonicalStyle`, `canonicalMarkup`, `canonicalizeNodes_eq` — the canonical text as rendered
  markup. Namespace names are written as they are, so one with a quotation mark could not be read
  back.
* `writtenPrefix`, `tagAttributes` — the prefixes and names a start tag was written with; these are
  the ones the canonicaliser writes, whatever the ancestors of the element declare.
* `lookup_used`, `lookup_default` — what one start tag does to the declarations in force below it:
  every prefix the element uses stands for what it stood for in the document, and an element in no
  namespace is in none — whatever was in force above.  These carry the induction.
* `expand_canonicalMarkup` — **resolving the canonical markup gives the content.**
* `normalize_eq_of_canonical` — two elements with one canonical text have the same content.
-/

namespace Vouch.Saml

open Xml

/-! ## The canonical text as markup -/

/-- Text and attribute values are escaped, the names of namespaces are not. -/
def canonicalStyle : Style where
  text := .escaping textEscapes
  value key := if (declaredName key).isSome then .raw '"' else .escaping attributeEscapes

/-- What is written in a start tag, with the declarations `entries`. -/
def canonicalAttributes (ancestors : List (List Namespace)) (head : Head)
    (entries : List (String × String)) : List (String × String) :=
  (entries.map fun e => (namespaceAttribute e.1, e.2)) ++
    (attributesToRender head).map fun a => (attrQualifiedName ancestors head a, a.value)

/-- The markup of the canonical text. -/
def canonicalMarkup (inclusive : List String) (ancestors : List (List Namespace))
    (rendered : Rendered) : Nodes → Markup
  | .nil => .nil
  | .text s rest => chars s (canonicalMarkup inclusive ancestors rendered rest)
  | .misc rest => canonicalMarkup inclusive ancestors rendered rest
  | .element head children rest =>
    let entries := namespacesToRender inclusive ancestors head rendered
    .element (nodeQualifiedName ancestors head) (canonicalAttributes ancestors head entries)
      (canonicalMarkup inclusive (head.namespaces :: ancestors)
        (entries.foldl (fun r e => e :: r) rendered) children)
      (canonicalMarkup inclusive ancestors rendered rest)

/-! ## Names in a well-formed start tag -/

/-- What a prefix stands for on an element; the empty one for the default namespace. -/
def binding (h : Head) (p : String) : Option String :=
  lookupNamespaceUri h.namespaces (if p = "" then none else some p)

/-- The names declared on the ancestors are declared on the element. -/
def Covers (namespaces : List Namespace) (ancestors : List (List Namespace)) : Prop :=
  ∀ n ∈ ancestors.flatten, n.name ∈ namespaces.map (·.name)

/-! ## Reading canonical markup -/

/-- The declaration that an attribute makes, as a pair. -/
def declaredEntry (a : String × String) : Option (String × String) :=
  (declaredName a.1).map fun name => (name.getD "", a.2)

/-- The name of an element, with the declarations in force. -/
def expandTagName (rendered : Rendered) (qname : String) : ExpandedName :=
  match splitOnce ':' qname with
  | none => normalName ⟨some ((rendered.lookup "").getD ""), qname⟩
  | some (p, name) => normalName ⟨some ((rendered.lookup p).getD ""), name⟩

/-- The name of an attribute, with the declarations in force. -/
def expandAttributeName (rendered : Rendered) (qname : String) : ExpandedName :=
  match splitOnce ':' qname with
  | none => ⟨none, qname⟩
  | some (p, name) =>
    if p = "xml" then ⟨some nsXml, name⟩ else normalName ⟨some ((rendered.lookup p).getD ""), name⟩

/-- An attribute that is not a declaration. -/
def expandAttribute (rendered : Rendered) (a : String × String) : Option Attribute :=
  match declaredName a.1 with
  | some _ => none
  | none => some ⟨expandAttributeName rendered a.1, a.2, ""⟩

/-- The content of canonical markup, below the declarations `rendered`. -/
def expand (rendered : Rendered) : Markup → Nodes
  | .nil => .nil
  | .char c rest => .text (String.singleton c) (expand rendered rest)
  | .element qname attributes children rest =>
    let inForce := (attributes.filterMap declaredEntry).foldl (fun r e => e :: r) rendered
    .element ⟨expandTagName inForce qname, "", [], attributes.filterMap (expandAttribute inForce)⟩
      (expand inForce children) (expand rendered rest)

/-! ## What a start tag is written with -/

/-- The prefix of a qualified name. -/
def writtenPrefix (qname : String) : Option String := (splitOnce ':' qname).map (·.1)

/-- The declaration that an attribute needs, going by what is written. -/
def writtenNamespace (a : Attribute) : Option (String × String) :=
  if a.name.ns.getD "" = "" ∨ a.name.ns.getD "" = nsXml ∨ a.name.ns.getD "" = nsXmlns then none
  else (writtenPrefix a.qname).map fun p => (p, a.name.ns.getD "")

/-- What is written in a start tag: the declarations, and the attributes as they were written. -/
def tagAttributes (inclusive : List String) (rendered : Rendered) (h : Head) :
    List (String × String) :=
  ((namespacesToRender inclusive [] h rendered).map fun e => (namespaceAttribute e.1, e.2)) ++
    (attributesToRender h).map fun a => (a.qname, a.value)

/-- The attributes in canonical order, and the canonical order of the attributes. -/
theorem map_attributesToRender (h : Head) :
    (attributesToRender h).map normalAttribute = (normalHead h).attributes := by
  have hkey : ∀ a : Attribute, (normalAttribute a).name.ns.getD "" = a.name.ns.getD "" :=
    fun a => getD_normalName a.name
  have hsort : (h.attributes.insertionSort attributeLe).map normalAttribute =
      (h.attributes.map normalAttribute).insertionSort attributeLe := by
    refine List.map_insertionSort attributeLe attributeLe normalAttribute _ fun a _ b _ => ?_
    simp only [attributeLe, hkey]
    rfl
  rw [attributesToRender, normalHead]
  simp only [← hsort, List.filter_map]
  congr 1
  refine List.filter_congr fun a _ => ?_
  simp [Function.comp, hkey]

section StartTag

variable {outer : List Namespace} {h : Head} {ancestors : List (List Namespace)} {p uri : String}
  {a : Attribute} {e : String × String} {inclusive : List String} {rendered : Rendered}

/-- The prefix an attribute is written with. -/
theorem attrPrefix_eq (hsplit : splitOnce ':' a.qname = some (p, a.name.name))
    (hns : a.name.ns = some uri) (hp : h.Binds p uri) : attrPrefix ancestors h a = some p := by
  simp [attrPrefix, sourcePrefix, hsplit, hns, hp.lookup, Option.filter]

/-- An attribute with a listed prefix uses it. -/
theorem mem_usedNamespaces (ha : a ∈ h.attributes)
    (hsplit : splitOnce ':' a.qname = some (p, a.name.name)) (hns : a.name.ns = some uri)
    (hp : h.Binds p uri) : (p, uri) ∈ usedNamespaces inclusive [] h := by
  rw [usedNamespaces, List.mem_append, List.mem_append]
  refine .inr (.inl (List.mem_filterMap.mpr ⟨a, ha, ?_⟩))
  simp [attributeNamespace, attrPrefix_eq hsplit hns hp, hns, hp.uri_ne_empty, hp.ne_nsXml,
    hp.ne_nsXmlns]

/-- A prefix is looked up among the declarations of the element itself. -/
theorem resolvePrefixInScope_own (hcover : Covers h.namespaces ancestors) (p : String) :
    resolvePrefixInScope (h.namespaces :: ancestors) p = resolvePrefixInScope [h.namespaces] p := by
  rw [resolvePrefixInScope, resolvePrefixInScope, List.flatten_cons, List.flatten_cons,
    List.find?_append, List.flatten_nil, List.append_nil]
  cases hown : h.namespaces.find? (fun n => n.name.getD "" = p) with
  | some n => rfl
  | none =>
    rw [Option.none_or]
    cases hfind : ancestors.flatten.find? (fun n => n.name.getD "" = p) with
    | none => rfl
    | some n =>
      -- an ancestor's declaration of the prefix would be inherited
      have hname : n.name.getD "" = p := by simpa using List.find?_some hfind
      obtain ⟨n', hn', hsame⟩ := List.mem_map.mp (hcover n (List.mem_of_find?_eq_some hfind))
      refine absurd ?_ (List.find?_eq_none.mp hown n' hn')
      simp [hsame, hname]

/-- A declaration is in force below the start tag it is written in, if it is the only one of its
prefix there. -/
theorem lookup_declared {entries : List (String × String)} (rendered : Rendered)
    (hmem : (p, uri) ∈ entries) (hall : ∀ e ∈ entries, e.1 = p → e.2 = uri) :
    (entries.foldl (fun r e => e :: r) rendered).lookup p = some uri := by
  rw [List.foldl_flip_cons_eq_append', List.lookup_append]
  cases hl : entries.reverse.lookup p with
  | none =>
    have hp := List.lookup_eq_none_iff.mp hl (p, uri) (List.mem_reverse.mpr hmem)
    exact absurd hp (by simp)
  | some uri' =>
    obtain ⟨l₁, l₂, hsplit, -⟩ := List.lookup_eq_some_iff.mp hl
    have hmem' : (p, uri') ∈ entries := by
      rw [← List.mem_reverse, hsplit]
      simp
    rw [Option.some_or, show uri' = uri from hall (p, uri') hmem' rfl]

/-- A prefix that is not declared keeps what it stands for. -/
theorem lookup_inherited {entries : List (String × String)} (rendered : Rendered)
    (hall : ∀ e ∈ entries, e.1 ≠ p) :
    (entries.foldl (fun r e => e :: r) rendered).lookup p = rendered.lookup p := by
  have hnone : entries.reverse.lookup p = none := by
    rw [List.lookup_eq_none_iff]
    intro e he
    simpa using (hall e (List.mem_reverse.mp he)).symm
  rw [List.foldl_flip_cons_eq_append', List.lookup_append, hnone, Option.none_or]

theorem mem_collectNamespaces :
    e ∈ sortByPrefix (collectNamespaces inclusive ancestors h rendered) ↔
    e ∈ usedNamespaces inclusive ancestors h ∧ rendered.lookup e.1 ≠ some e.2 := by
  rw [sortByPrefix, List.mem_insertionSort, collectNamespaces, List.mem_filter,
    List.mem_insertionSort, List.mem_dedup, decide_eq_true_iff]

/-- What is written: a declaration that is used and not in force yet, or the undeclaration of a
default namespace that is in force. -/
theorem mem_namespacesToRender (he : e ∈ namespacesToRender inclusive ancestors h rendered) :
    (e ∈ usedNamespaces inclusive ancestors h ∧ rendered.lookup e.1 ≠ some e.2) ∨
      (e = ("", "") ∧ (lookupNamespaceUri h.namespaces none).getD "" = "") := by
  rw [namespacesToRender] at he
  split at he
  · rename_i hundeclares
    rw [sortByPrefix, List.mem_insertionSort, List.mem_append, List.mem_singleton] at he
    rcases he with he | rfl
    · exact .inl (mem_collectNamespaces.1 he)
    · simp only [undeclaresDefault, Bool.and_eq_true, decide_eq_true_eq] at hundeclares
      exact .inr ⟨rfl, hundeclares.1.2⟩
  · exact .inl (mem_collectNamespaces.1 he)

/-- A declaration that is used and not in force is written. -/
theorem mem_namespacesToRender_of_used (he : e ∈ usedNamespaces inclusive ancestors h)
    (hnew : rendered.lookup e.1 ≠ some e.2) :
    e ∈ namespacesToRender inclusive ancestors h rendered := by
  have hcollected := mem_collectNamespaces.2 ⟨he, hnew⟩
  rw [namespacesToRender]
  split
  · rw [sortByPrefix, List.mem_insertionSort, List.mem_append]
    exact .inl hcollected
  · exact hcollected

/-- The name of a namespace that is written is one the start tag makes use of, or empty. -/
theorem name_written (he : e ∈ namespacesToRender inclusive [] h rendered) :
    e.2 = "" ∨ e.2 ∈ namesUsed inclusive h := by
  have hsome : ∀ {ns : Option String}, ns.getD "" ≠ "" → ns = some (ns.getD "") := by
    intro ns hne
    cases ns with
    | none => exact absurd rfl hne
    | some uri => rfl
  rcases mem_namespacesToRender he with ⟨hused, -⟩ | ⟨rfl, -⟩
  · refine .inr ?_
    rw [usedNamespaces, List.mem_append, List.mem_append] at hused
    rw [namesUsed, List.mem_append, List.mem_append]
    refine hused.imp (fun htag => ?_) (.imp (fun hattribute => ?_) fun hlisted => ?_)
    · rw [elementNamespace] at htag
      split at htag
      · cases htag
      · rename_i hne
        obtain rfl := List.mem_singleton.mp htag
        exact Option.mem_toList.mpr (hsome (not_or.mp hne).1)
    · obtain ⟨a, ha, hae⟩ := List.mem_filterMap.mp hattribute
      rw [attributeNamespace] at hae
      split at hae
      · cases hae
      · rename_i hne
        obtain ⟨p, -, rfl⟩ := Option.map_eq_some_iff.mp hae
        exact List.mem_filterMap.mpr ⟨a, ha, hsome (not_or.mp hne).1⟩
    · obtain ⟨p, hp, hpe⟩ := List.mem_filterMap.mp hlisted
      obtain ⟨uri, huri, rfl⟩ := Option.map_eq_some_iff.mp hpe
      obtain ⟨n, hfind, rfl⟩ := Option.map_eq_some_iff.mp (Option.filter_eq_some_iff.mp huri).1
      rw [List.flatten_cons, List.flatten_nil, List.append_nil] at hfind
      have hname : n.name.getD "" = if p = "#default" then "" else p := by
        simpa using List.find?_some hfind
      refine List.mem_map.mpr ⟨n, List.mem_filter.mpr ⟨List.mem_of_find?_eq_some hfind, ?_⟩, rfl⟩
      exact decide_eq_true (List.mem_map.mpr ⟨p, hp, hname.symm⟩)
  · exact .inl rfl

variable (hwf : h.WellFormed outer)
include hwf

/-- A declaration in scope is the binding of its prefix. -/
theorem binding_of_mem {n : Namespace} (hn : n ∈ h.namespaces) :
    binding h (n.name.getD "") = some n.uri := by
  cases hname : n.name with
  | none =>
    have hlookup := lookup_of_mem hwf.unique hn
    rw [hname] at hlookup
    simpa [binding] using hlookup
  | some p =>
    have hp := hwf.binds_of_mem hn hname
    simpa [binding, hp.ne_empty] using hp.lookup

/-- A prefix that is bound can be written. -/
theorem isNcName_of_binding (hp : binding h p = some uri) :
    IsNcName p ∧ p ≠ "xmlns" ∧ p ≠ "xml" := by
  unfold binding at hp
  split at hp
  · rename_i hempty
    subst hempty
    decide
  · obtain ⟨n, hn, hname, -⟩ := mem_of_lookup hp
    have hp := hwf.binds_of_mem hn hname
    exact ⟨hp.isNcName, hp.ne_xmlns, hp.ne_xml⟩

/-- The prefix an element in a namespace was written with stands for that namespace. -/
theorem elementPrefix_binding (hne : h.tagName.ns.getD "" ≠ "") :
    binding h ((writtenPrefix h.qname).getD "") = some (h.tagName.ns.getD "") := by
  rcases hwf.tag_cases with ⟨hsplit, -, -, hns⟩ | ⟨p, uri, hsplit, -, hns, hp⟩
  · cases hl : lookupNamespaceUri h.namespaces none with
    | none => exact absurd (by rw [hns, hl]; rfl) hne
    | some uri => simp [writtenPrefix, binding, hsplit, hns, hl]
  · simp [writtenPrefix, binding, hsplit, hns, hp.lookup, hp.ne_empty]

/-- And it is the prefix the canonicaliser writes. -/
theorem elementPrefix_eq (hne : h.tagName.ns.getD "" ≠ "") :
    elementPrefix ancestors h = some ((writtenPrefix h.qname).getD "") := by
  rcases hwf.tag_cases with ⟨hsplit, -, -, hns⟩ | ⟨p, uri, hsplit, -, hns, hp⟩
  · have hbound := elementPrefix_binding hwf hne
    rw [writtenPrefix, hsplit, Option.map_none, Option.getD_none, binding, if_pos rfl] at hbound
    simp [elementPrefix, sourcePrefix, writtenPrefix, hsplit, hbound]
  · simp [elementPrefix, sourcePrefix, writtenPrefix, hsplit, hns, hp.lookup, Option.filter]

/-- An element in no namespace has no prefix, and no default namespace or one without a name. -/
theorem default_of_no_namespace (hempty : h.tagName.ns.getD "" = "") :
    writtenPrefix h.qname = none ∧ (lookupNamespaceUri h.namespaces none).getD "" = "" := by
  rcases hwf.tag_cases with ⟨hsplit, -, -, hns⟩ | ⟨p, uri, -, -, hns, hp⟩
  · exact ⟨by rw [writtenPrefix, hsplit]; rfl, by rw [← hns, hempty]⟩
  · rw [hns] at hempty
    exact absurd hempty hp.uri_ne_empty

/-- The canonicaliser writes the name that was written. -/
theorem nodeQualifiedName_eq : nodeQualifiedName ancestors h = h.qname := by
  rcases hwf.tag_cases with ⟨hsplit, hname, -, -⟩ | ⟨p, uri, hsplit, -, hns, hp⟩
  · rw [← hname, nodeQualifiedName]
    split
    · rfl
    · rename_i hne
      rw [elementPrefix_eq hwf (not_or.mp hne).1, writtenPrefix, hsplit]
      rfl
  · have hne : h.tagName.ns.getD "" ≠ "" := by
      rw [hns]
      exact hp.uri_ne_empty
    rw [nodeQualifiedName, elementPrefix_eq hwf hne, writtenPrefix, hsplit, eq_qualified hsplit]
    simp [hns, hp.uri_ne_empty, hp.ne_nsXml, hp.ne_empty]

/-- And the names of attributes that were written. -/
theorem attrQualifiedName_eq (ha : a ∈ h.attributes) :
    attrQualifiedName ancestors h a = a.qname := by
  rcases hwf.attribute_cases ha with
    ⟨-, hname, -, -, hns⟩ | ⟨hsplit, -, hns⟩ | ⟨p, uri, hsplit, -, hns, hp⟩
  · simp [attrQualifiedName, hns, nsXml, hname]
  · simp [attrQualifiedName, hns, eq_qualified hsplit]
  · rw [attrQualifiedName, attrPrefix_eq hsplit hns hp, eq_qualified hsplit]
    simp [hns, hp.uri_ne_empty, hp.ne_nsXml]

theorem attributeNamespace_written (ha : a ∈ h.attributes) :
    attributeNamespace ancestors h a = writtenNamespace a := by
  rcases hwf.attribute_cases ha with
    ⟨-, -, -, -, hns⟩ | ⟨-, -, hns⟩ | ⟨p, uri, hsplit, -, hns, hp⟩
  · simp [attributeNamespace, writtenNamespace, hns]
  · simp [attributeNamespace, writtenNamespace, hns]
  · rw [attributeNamespace, attrPrefix_eq hsplit hns hp, writtenNamespace, writtenPrefix, hsplit]
    rfl

theorem attributesToRender_eq : attributesToRender h = h.attributes.insertionSort attributeLe := by
  rw [attributesToRender, List.filter_eq_self]
  intro a ha
  simpa using hwf.attribute_ne_xmlns (List.mem_insertionSort attributeLe |>.mp ha)

theorem mem_attributesToRender : a ∈ attributesToRender h ↔ a ∈ h.attributes := by
  rw [attributesToRender_eq hwf, List.mem_insertionSort]

/-- The declarations a start tag needs do not depend on its ancestors. -/
theorem usedNamespaces_own (hcover : Covers h.namespaces ancestors) (inclusive : List String) :
    usedNamespaces inclusive ancestors h = usedNamespaces inclusive [] h := by
  have helement : elementNamespace ancestors h = elementNamespace [] h := by
    rw [elementNamespace, elementNamespace]
    split
    · rfl
    · rename_i hne
      rw [not_or] at hne
      rw [elementPrefix_eq hwf hne.1, elementPrefix_eq hwf hne.1]
  have hattributes : ∀ a ∈ h.attributes,
      attributeNamespace ancestors h a = attributeNamespace [] h a := by
    intro a ha
    rw [attributeNamespace_written hwf ha, attributeNamespace_written hwf ha]
  rw [usedNamespaces, usedNamespaces, helement, List.filterMap_congr hattributes]
  congr 2
  refine List.filterMap_congr fun p _ => ?_
  rw [inclusiveNamespace, inclusiveNamespace, resolvePrefixInScope_own hcover]

/-- What a start tag declares does not depend on its ancestors. -/
theorem namespacesToRender_own (hcover : Covers h.namespaces ancestors) :
    namespacesToRender inclusive ancestors h rendered =
      namespacesToRender inclusive [] h rendered := by
  have hcollect : collectNamespaces inclusive ancestors h rendered =
      collectNamespaces inclusive [] h rendered := by
    rw [collectNamespaces, collectNamespaces, usedNamespaces_own hwf hcover]
  have hundeclares : ∀ entries, undeclaresDefault inclusive ancestors h rendered entries =
      undeclaresDefault inclusive [] h rendered entries := by
    intro entries
    by_cases hne : h.tagName.ns.getD "" = ""
    · simp [undeclaresDefault, hne]
    · simp [undeclaresDefault, elementPrefix_eq hwf hne]
  rw [namespacesToRender, namespacesToRender, hcollect]
  simp [hundeclares]

/-- Everything an element uses is bound on it. -/
theorem binding_of_used (he : e ∈ usedNamespaces inclusive [] h) :
    binding h e.1 = some e.2 ∧ e.2 ≠ "" := by
  rw [usedNamespaces, List.mem_append, List.mem_append] at he
  rcases he with he | he | he
  · rw [elementNamespace] at he
    split at he
    · exact absurd he (by simp)
    · rename_i hne
      rw [not_or] at hne
      rw [List.mem_singleton, elementPrefix_eq hwf hne.1] at he
      subst he
      exact ⟨elementPrefix_binding hwf hne.1, hne.1⟩
  · obtain ⟨a, ha, hae⟩ := List.mem_filterMap.mp he
    rw [attributeNamespace_written hwf ha, writtenNamespace] at hae
    split at hae
    · exact absurd hae (by simp)
    · rename_i hne
      rw [not_or, not_or] at hne
      rcases hwf.attribute_cases ha with ⟨-, -, -, -, hns⟩ | ⟨-, -, hns⟩ | ⟨p, uri,
        hsplit, -, hns, hp⟩
      · exact absurd (by rw [hns]; rfl) hne.1
      · exact absurd (by rw [hns]; rfl) hne.2.1
      · obtain rfl : (p, uri) = e := by simpa [writtenPrefix, hsplit, hns] using hae
        exact ⟨by simp [binding, hp.ne_empty, hp.lookup], hp.uri_ne_empty⟩
  · obtain ⟨p, -, hpe⟩ := List.mem_filterMap.mp he
    obtain ⟨uri, huri, rfl⟩ := Option.map_eq_some_iff.mp hpe
    obtain ⟨hscope, hne⟩ := Option.filter_eq_some_iff.mp huri
    obtain ⟨n, hfind, rfl⟩ := Option.map_eq_some_iff.mp hscope
    rw [List.flatten_cons, List.flatten_nil, List.append_nil] at hfind
    have hname : n.name.getD "" = if p = "#default" then "" else p := by
      simpa using List.find?_some hfind
    exact ⟨hname ▸ binding_of_mem hwf (List.mem_of_find?_eq_some hfind), by simpa using hne⟩

/-! ## What a start tag declares -/

/-- **A prefix that the element uses stands, below its start tag, for what it stands for in the
document.** -/
theorem lookup_used (he : e ∈ usedNamespaces inclusive [] h) :
    ((namespacesToRender inclusive [] h rendered).foldl (fun r e => e :: r) rendered).lookup e.1 =
      some e.2 := by
  obtain ⟨hbound, hne⟩ := binding_of_used hwf he
  -- whatever else is written for the prefix is the same
  have hsame : ∀ e' ∈ namespacesToRender inclusive [] h rendered, e'.1 = e.1 →
      e'.2 = e.2 ∧ rendered.lookup e'.1 ≠ some e'.2 := by
    intro e' he' hp
    rcases mem_namespacesToRender he' with ⟨hused, hnew⟩ | ⟨rfl, hdefault⟩
    · have hbound' := (binding_of_used hwf hused).1
      rw [hp, hbound, Option.some.injEq] at hbound'
      exact ⟨hbound'.symm, hnew⟩
    · rw [← hp, binding, if_pos rfl] at hbound
      rw [hbound] at hdefault
      exact absurd hdefault hne
  by_cases hold : rendered.lookup e.1 = some e.2
  · rw [lookup_inherited, hold]
    intro e' he' hp
    obtain ⟨huri, hnew⟩ := hsame e' he' hp
    rw [hp, huri] at hnew
    exact hnew hold
  · exact lookup_declared rendered (mem_namespacesToRender_of_used he hold)
      fun e' he' hp => (hsame e' he' hp).1

/-- **Below the start tag of an element in no namespace there is no default namespace.** -/
theorem lookup_default (hempty : h.tagName.ns.getD "" = "") :
    (((namespacesToRender inclusive [] h rendered).foldl (fun r e => e :: r) rendered).lookup
      "").getD "" =
      "" := by
  obtain ⟨-, hdefault⟩ := default_of_no_namespace hwf hempty
  have honly : ∀ e ∈ namespacesToRender inclusive [] h rendered, e.1 = "" → e.2 = "" := by
    intro e he hp
    rcases mem_namespacesToRender he with ⟨hused, -⟩ | ⟨rfl, -⟩
    · obtain ⟨hbound, hne⟩ := binding_of_used hwf hused
      rw [hp, binding, if_pos rfl] at hbound
      rw [hbound] at hdefault
      exact absurd hdefault hne
    · rfl
  by_cases hany : ∃ e ∈ namespacesToRender inclusive [] h rendered, e.1 = ""
  · obtain ⟨⟨p, uri⟩, he, hp⟩ := hany
    obtain rfl : p = "" := hp
    obtain rfl : uri = "" := honly _ he rfl
    rw [lookup_declared rendered he honly]
    rfl
  · -- nothing was undeclared, because no default namespace is in force
    have hnone : ∀ e ∈ namespacesToRender inclusive [] h rendered, e.1 ≠ "" :=
      fun e he hp => hany ⟨e, he, hp⟩
    rw [lookup_inherited rendered hnone]
    by_contra hforce
    rw [namespacesToRender] at hnone
    split at hnone
    · refine hnone ("", "") ?_ rfl
      rw [sortByPrefix, List.mem_insertionSort]
      simp
    · rename_i hundeclares
      refine hundeclares ?_
      have hfree : (sortByPrefix (collectNamespaces inclusive [] h rendered)).any
        (·.1 = "") = false := by
        rw [List.any_eq_false]
        intro e he
        simpa using hnone e he
      simp [undeclaresDefault, hempty, hfree, hdefault, hforce]

/-- Below its start tag, the prefix of an element stands for the namespace of the element. -/
theorem lookup_tag :
    (((namespacesToRender inclusive [] h rendered).foldl (fun r e => e :: r) rendered).lookup
      ((writtenPrefix h.qname).getD "")).getD "" = h.tagName.ns.getD "" := by
  by_cases hempty : h.tagName.ns.getD "" = ""
  · rw [(default_of_no_namespace hwf hempty).1, Option.getD_none, hempty, lookup_default hwf hempty]
  · have hused : ((writtenPrefix h.qname).getD "", h.tagName.ns.getD "") ∈
        usedNamespaces inclusive [] h := by
      rw [usedNamespaces, List.mem_append, elementNamespace,
        if_neg (not_or.mpr ⟨hempty, hwf.getD_tag_ne_xml⟩), elementPrefix_eq hwf hempty]
      exact .inl (List.mem_singleton.mpr rfl)
    rw [lookup_used hwf hused, Option.getD_some]

/-! ## Reading a start tag back -/

/-- The name an element is written with is resolved to the name it has. -/
theorem expandTagName_eq :
    expandTagName ((namespacesToRender inclusive [] h rendered).foldl (fun r e => e :: r) rendered)
      h.qname = normalName h.tagName := by
  have hlookup : (((namespacesToRender inclusive [] h rendered).foldl (fun r e => e :: r)
      rendered).lookup ((writtenPrefix h.qname).getD "")).getD "" = h.tagName.ns.getD "" :=
        lookup_tag hwf
  rcases hwf.tag_cases with ⟨hsplit, hname, -, -⟩ | ⟨p, uri, hsplit, -, -, -⟩
  · rw [writtenPrefix, hsplit, Option.map_none, Option.getD_none] at hlookup
    rw [expandTagName, hsplit]
    simp only [hlookup, ← hname, normalName_getD]
  · rw [writtenPrefix, hsplit, Option.map_some, Option.getD_some] at hlookup
    rw [expandTagName, hsplit]
    simp only [hlookup, normalName_getD]

/-- The name an attribute is written with is resolved to the name it has. -/
theorem expandAttribute_eq (ha : a ∈ h.attributes) :
    expandAttribute
      ((namespacesToRender inclusive [] h rendered).foldl (fun r e => e :: r) rendered)
      (a.qname, a.value) = some (normalAttribute a) := by
  simp only [expandAttribute, declaredName_qname hwf ha, normalAttribute, expandAttributeName]
  rcases hwf.attribute_cases ha with
    ⟨hsplit, hname, -, -, hns⟩ | ⟨hsplit, -, hns⟩ | ⟨p, uri, hsplit, -, hns, hp⟩
  · simp [hsplit, normalName, hns, hname]
  · simp [hsplit, normalName, hns, nsXml, Option.filter]
  · simp only [hsplit, if_neg hp.ne_xml, lookup_used hwf (mem_usedNamespaces ha hsplit hns hp),
      normalName, hns, Option.getD_some]

/-- A declaration is written under a name that declares its prefix, with what that stands for. -/
theorem entry_written (he : e ∈ namespacesToRender inclusive [] h rendered) :
    declaredName (namespaceAttribute e.1) = some (if e.1 = "" then none else some e.1) ∧
      Markup.IsName (namespaceAttribute e.1) ∧ e.2 = (binding h e.1).getD "" := by
  rcases mem_namespacesToRender he with ⟨hused, -⟩ | ⟨rfl, hdefault⟩
  · obtain ⟨hbound, -⟩ := binding_of_used hwf hused
    obtain ⟨p, uri⟩ := e
    rw [hbound]
    by_cases hp : p = ""
    · subst hp
      exact ⟨rfl, show Markup.IsName "xmlns" by decide, rfl⟩
    · have hxmlns : IsNcName "xmlns" := by decide
      have hkey : namespaceAttribute p = "xmlns" ++ ":" ++ p := by
        rw [namespaceAttribute, if_neg hp]
        rfl
      rw [hkey, declaredName_qualified hxmlns, if_pos rfl, if_neg hp]
      exact ⟨rfl, isName_qualified hxmlns (isNcName_of_binding hwf hbound).1, rfl⟩
  · exact ⟨rfl, by decide, by rw [binding, if_pos rfl, hdefault]⟩

/-- What is read back from a start tag of the canonical text. -/
theorem expand_head :
    (tagAttributes inclusive rendered h).filterMap declaredEntry =
        namespacesToRender inclusive [] h rendered ∧
      (tagAttributes inclusive rendered h).filterMap (expandAttribute
        ((namespacesToRender inclusive [] h rendered).foldl (fun r e => e :: r) rendered)) =
          (normalHead h).attributes := by
  have hwritten : ∀ e ∈ namespacesToRender inclusive [] h rendered,
      declaredName (namespaceAttribute e.1) = some (if e.1 = "" then none else some e.1) :=
    fun e he => (entry_written hwf he).1
  have hnone : ∀ a ∈ attributesToRender h, declaredName a.qname = none :=
    fun a ha => declaredName_qname hwf ((mem_attributesToRender hwf).1 ha)
  rw [tagAttributes, List.filterMap_append, List.filterMap_append, List.filterMap_map,
    List.filterMap_map, List.filterMap_map, List.filterMap_map]
  constructor
  · have hentries : ∀ e ∈ namespacesToRender inclusive [] h rendered,
        (declaredEntry ∘ fun e => (namespaceAttribute e.1, e.2)) e = some e := by
      intro e he
      by_cases hp : e.1 = ""
      · simp [declaredEntry, hwritten e he, ← hp]
      · simp [declaredEntry, hwritten e he, hp]
    rw [List.filterMap_congr hentries, List.filterMap_some, List.filterMap_eq_nil_iff.mpr,
      List.append_nil]
    intro a ha
    simp [declaredEntry, hnone a ha]
  · rw [List.filterMap_eq_nil_iff.mpr, List.nil_append, ← map_attributesToRender,
      ← List.filterMap_eq_map]
    · exact List.filterMap_congr fun a ha =>
        expandAttribute_eq hwf ((mem_attributesToRender hwf).1 ha)
    · intro e he
      simp [Function.comp, expandAttribute, hwritten e he]

/-- The canonical text of a start tag, its content and what follows. -/
theorem toList_canonicalizeNodes_element (hcover : Covers h.namespaces ancestors)
    (children rest : Nodes) :
    (canonicalizeNodes inclusive ancestors rendered (.element h children rest)).toList =
      '<' :: (h.qname.toList ++
        ((tagAttributes inclusive rendered h).flatMap (Markup.renderAttribute canonicalStyle) ++
          '>' :: ((canonicalizeNodes inclusive (h.namespaces :: ancestors)
              ((namespacesToRender inclusive [] h rendered).foldl (fun r e => e :: r) rendered)
              children).toList ++
            '<' :: '/' :: (h.qname.toList ++
              '>' :: (canonicalizeNodes inclusive ancestors rendered rest).toList)))) := by
  have hentries : ∀ e ∈ namespacesToRender inclusive [] h rendered,
      (" " ++ namespaceAttribute e.1 ++ "=\"" ++ e.2 ++ "\"").toList =
        Markup.renderAttribute canonicalStyle (namespaceAttribute e.1, e.2) := by
    intro e he
    have hraw : (Coding.raw '"').writeAll e.2.toList = e.2.toList := by
      simp [Coding.writeAll, Coding.raw]
    simp [Markup.renderAttribute, canonicalStyle, (entry_written hwf he).1, hraw]
  have hattributes : ∀ a ∈ attributesToRender h,
      (" " ++ attrQualifiedName ancestors h a ++ "=\"" ++ escapeAttribute a.value ++ "\"").toList =
        Markup.renderAttribute canonicalStyle (a.qname, a.value) := by
    intro a ha
    have hmem := (mem_attributesToRender hwf).1 ha
    rw [attrQualifiedName_eq hwf hmem]
    simp [Markup.renderAttribute, canonicalStyle, declaredName_qname hwf hmem,
      toList_escapeAttribute]
  simp only [String.toList_append] at hentries hattributes
  simp only [canonicalizeNodes, nodeQualifiedName_eq hwf, namespacesToRender_own hwf hcover,
    String.toList_append, toList_foldr_append, tagAttributes, List.flatMap_append, List.flatMap_map]
  rw [List.flatMap_congr hentries, List.flatMap_congr hattributes]
  simp

/-- Canonical markup, by what is written in its start tags. -/
theorem canonicalMarkup_element (hcover : Covers h.namespaces ancestors) (children rest : Nodes) :
    canonicalMarkup inclusive ancestors rendered (.element h children rest) =
      .element h.qname (tagAttributes inclusive rendered h)
        (canonicalMarkup inclusive (h.namespaces :: ancestors)
          ((namespacesToRender inclusive [] h rendered).foldl (fun r e => e :: r) rendered)
            children)
        (canonicalMarkup inclusive ancestors rendered rest) := by
  have hattributes :
    (attributesToRender h).map (fun a => (attrQualifiedName ancestors h a, a.value)) =
      (attributesToRender h).map fun a => (a.qname, a.value) := by
    refine List.map_congr_left fun a ha => ?_
    rw [attrQualifiedName_eq hwf ((mem_attributesToRender hwf).1 ha)]
  rw [canonicalMarkup, canonicalAttributes, nodeQualifiedName_eq hwf,
    namespacesToRender_own hwf hcover, hattributes]
  rfl

end StartTag

/-! ## Whole elements -/

theorem Covers.child {outer : List Namespace} {ancestors : List (List Namespace)} {h : Head}
    (hwf : h.WellFormed outer) (hcover : Covers outer ancestors) :
    Covers h.namespaces ancestors ∧ Covers h.namespaces (h.namespaces :: ancestors) := by
  have hown : Covers h.namespaces ancestors := by
    intro n hn
    obtain ⟨n', hn', hname⟩ := List.mem_map.mp (hcover n hn)
    rw [← hname]
    exact hwf.inherits n' hn'
  refine ⟨hown, ?_⟩
  intro n hn
  rw [List.flatten_cons, List.mem_append] at hn
  rcases hn with hn | hn
  · exact List.mem_map_of_mem hn
  · exact hown n hn

section Elements

variable {nodes : Nodes} {outer : List Namespace} {ancestors : List (List Namespace)}
  {inclusive : List String} {rendered : Rendered}

/-- The canonicaliser writes markup, in the canonical style. -/
theorem canonicalizeNodes_eq (hwf : nodes.WellFormed outer) (hcover : Covers outer ancestors) :
    (canonicalizeNodes inclusive ancestors rendered nodes).toList =
      (canonicalMarkup inclusive ancestors rendered nodes).render canonicalStyle := by
  induction nodes generalizing outer ancestors rendered with
  | nil => rfl
  | text s rest ih =>
    rw [canonicalizeNodes, canonicalMarkup, render_chars, String.toList_append, toList_escapeText,
      ih hwf hcover]
    rfl
  | misc rest ih => exact ih hwf hcover
  | element head children rest ihChildren ihRest =>
    obtain ⟨hown, hbelow⟩ := hcover.child hwf.1
    rw [toList_canonicalizeNodes_element hwf.1 hown, canonicalMarkup_element hwf.1 hown,
      Markup.render, ihChildren hwf.2.1 hbelow, ihRest hwf.2.2 hcover]

variable (inclusive rendered) in
/-- The canonical text can be read. -/
theorem valid_canonicalMarkup (hwf : nodes.WellFormed outer)
    (hclean : nodes.All (Head.Readable inclusive))
    (hcover : Covers outer ancestors) :
    (canonicalMarkup inclusive ancestors rendered nodes).Valid canonicalStyle := by
  induction nodes generalizing outer ancestors rendered with
  | nil => trivial
  | text s rest ih => exact chars_induction s (ih _ hwf hclean hcover) fun _ _ h => ⟨trivial, h⟩
  | misc rest ih => exact ih _ hwf hclean hcover
  | element head children rest ihChildren ihRest =>
    obtain ⟨hown, hbelow⟩ := hcover.child hwf.1
    rw [canonicalMarkup_element hwf.1 hown]
    refine ⟨(isName_of_declared hwf.1 hwf.1.tagDeclared).1, ?_,
      ihChildren _ hwf.2.1 hclean.2.1 hbelow, ihRest _ hwf.2.2 hclean.2.2 hcover⟩
    intro a ha
    rw [tagAttributes, List.mem_append, List.mem_map, List.mem_map] at ha
    rcases ha with ⟨e, he, rfl⟩ | ⟨attr, hattr, rfl⟩
    · obtain ⟨hdecl, hname, -⟩ := entry_written hwf.1 he
      have hquotes : ∀ c ∈ e.2.toList, c ≠ '"' := by
        rintro c hc rfl
        rcases name_written he with hempty | hused
        · rw [hempty] at hc
          exact absurd hc (by simp)
        · exact hclean.1 _ hused hc
      refine ⟨hname, fun c hc => ?_⟩
      have hraw : canonicalStyle.value (namespaceAttribute e.1) = .raw '"' := by
        simp [canonicalStyle, hdecl]
      rw [hraw]
      exact hquotes c hc
    · have hmem := (mem_attributesToRender hwf.1).1 hattr
      refine ⟨(isName_of_declared hwf.1 (hwf.1.attributeDeclared _ hmem).1).1, fun c _ => ?_⟩
      have hescaped : canonicalStyle.value attr.qname = .escaping attributeEscapes := by
        simp [canonicalStyle, declaredName_qname hwf.1 hmem]
      rw [hescaped]
      trivial

/-- **Resolving the canonical markup gives the content.** -/
theorem expand_canonicalMarkup (hwf : nodes.WellFormed outer) (hcover : Covers outer ancestors) :
    expand rendered (canonicalMarkup inclusive ancestors rendered nodes) = normalize nodes := by
  induction nodes generalizing outer ancestors rendered with
  | nil => rfl
  | text s rest ih =>
    rw [canonicalMarkup, normalize, ← ih hwf hcover, chars, textNodes]
    induction s.toList with
    | nil => rfl
    | cons c cs ihText => rw [List.foldr_cons, List.foldr_cons, expand, ihText]
  | misc rest ih => exact ih hwf hcover
  | element head children rest ihChildren ihRest =>
    obtain ⟨hown, hbelow⟩ := hcover.child hwf.1
    rw [canonicalMarkup_element hwf.1 hown]
    simp only [expand, normalize, (expand_head hwf.1).1, (expand_head hwf.1).2,
      expandTagName_eq hwf.1, ihChildren hwf.2.1 hbelow, ihRest hwf.2.2 hcover]
    rfl

end Elements

/-- Two elements with one canonical text have the same content, wherever they stand. -/
theorem normalize_eq_of_canonicalIn {nodes₁ nodes₂ : Nodes} {outer₁ outer₂ : List Namespace}
    {ancestors₁ ancestors₂ : List (List Namespace)} (inclusive₁ inclusive₂ : List String)
    (hwf₁ : nodes₁.WellFormed outer₁) (hwf₂ : nodes₂.WellFormed outer₂)
    (hclean₁ : nodes₁.All (Head.Readable inclusive₁))
    (hclean₂ : nodes₂.All (Head.Readable inclusive₂))
    (hcover₁ : Covers outer₁ ancestors₁) (hcover₂ : Covers outer₂ ancestors₂)
    (h : canonicalizeNodes inclusive₁ ancestors₁ [] nodes₁ =
      canonicalizeNodes inclusive₂ ancestors₂ [] nodes₂) :
    normalize nodes₁ = normalize nodes₂ := by
  have hrender := congrArg String.toList h
  rw [canonicalizeNodes_eq hwf₁ hcover₁, canonicalizeNodes_eq hwf₂ hcover₂] at hrender
  have hmarkup := Markup.render_injective (valid_canonicalMarkup inclusive₁ [] hwf₁ hclean₁ hcover₁)
    (valid_canonicalMarkup inclusive₂ [] hwf₂ hclean₂ hcover₂) hrender
  rw [← expand_canonicalMarkup hwf₁ hcover₁, hmarkup, expand_canonicalMarkup hwf₂ hcover₂]

/-- Nothing is declared on no ancestors. -/
theorem covers_nil {namespaces : List Namespace} : Covers namespaces [] :=
  fun _ hn => absurd hn List.not_mem_nil

/-- Two elements with one canonical text have the same content. -/
theorem normalize_eq_of_canonical {nodes₁ nodes₂ : Nodes} (inclusive₁ inclusive₂ : List String)
    (hwf₁ : nodes₁.WellFormed []) (hwf₂ : nodes₂.WellFormed [])
    (hclean₁ : nodes₁.All (Head.Readable inclusive₁))
    (hclean₂ : nodes₂.All (Head.Readable inclusive₂))
    (h : canonicalizeNodes inclusive₁ [] [] nodes₁ = canonicalizeNodes inclusive₂ [] [] nodes₂) :
    normalize nodes₁ = normalize nodes₂ :=
  normalize_eq_of_canonicalIn inclusive₁ inclusive₂ hwf₁ hwf₂ hclean₁ hclean₂
    covers_nil covers_nil h

end Vouch.Saml
