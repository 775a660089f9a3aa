import Vouch.Saml.Enveloped

/-!
# The canonical text by itself

Exclusive canonicalisation is meant to give an element one text wherever it stands, and a text that
is its own canonical form (`exclusive_c14n` with an empty `PrefixList`).

* `namespacesToRender_alike` — what a start tag declares is determined by the names it is written
  with and what they stand for.
* `SameText` — two elements with one source text, each in its surroundings, with every prefix that
  is written standing for the same; `canonicalizeNodes_sameText` — they have one canonical text.
* `InForce` — the declarations in scope in the canonical text are the ones the canonicaliser
  remembers; `canonicalizeNodes_toNodes_canonical` — what is read back from canonical markup has
  that markup for its canonical form.
* `canonical_text_stable` — **canonicalisation does not depend on the surroundings; and it changes
  no canonical text of an element whose namespaces have names without `&`, `"`, `<`, tab and line
  break**. The names are written as they are, and read as the values of attributes.
-/

namespace Vouch.Saml

open Xml

/-! ## Sorted declarations and attributes -/

/-- What attributes are sorted by. -/
def attributeKey (a : Attribute) : String × String := (a.name.ns.getD "", a.name.name)

instance : Std.Total attributeLe where
  total a b := Std.Total.total (r := pairLe) (attributeKey a) (attributeKey b)

instance : IsTrans Attribute attributeLe where
  trans a b c hab hbc :=
    IsTrans.trans (r := pairLe) (attributeKey a) (attributeKey b) (attributeKey c) hab hbc

/-! ## What a start tag is written with -/

section StartTag

variable {outer outer' : List Namespace} {h h' : Head} (hwf : h.WellFormed outer)
include hwf

/-- Only an element in no namespace undeclares a default namespace. -/
theorem undeclaresDefault_eq (rendered : Rendered) (entries : List (String × String)) :
    undeclaresDefault [] [] h rendered entries =
      (decide (h.tagName.ns.getD "" = "") && !entries.any (·.1 = "") &&
        decide ((rendered.lookup "").getD "" ≠ "")) := by
  by_cases hempty : h.tagName.ns.getD "" = ""
  · simp [undeclaresDefault, hempty, (default_of_no_namespace hwf hempty).2]
  · have hbound := elementPrefix_binding hwf hempty
    by_cases hpe : (writtenPrefix h.qname).getD "" = ""
    · rw [hpe, binding, if_pos rfl] at hbound
      simp [undeclaresDefault, hbound, hempty]
    · simp [undeclaresDefault, hempty, hwf.getD_tag_ne_xml, elementPrefix_eq hwf hempty, hpe]

/-- **What a start tag declares is determined by what is written in it.** -/
theorem namespacesToRender_alike (hwf' : h'.WellFormed outer') (hqname : h'.qname = h.qname)
    (hns : h'.tagName.ns.getD "" = h.tagName.ns.getD "")
    (hattributes : h'.attributes.Perm h.attributes) (rendered : Rendered) :
    namespacesToRender [] [] h' rendered = namespacesToRender [] [] h rendered := by
  have helement : elementNamespace [] h' = elementNamespace [] h := by
    rw [elementNamespace, elementNamespace, hns]
    split
    · rfl
    · rename_i hne
      rw [not_or] at hne
      rw [elementPrefix_eq hwf hne.1, elementPrefix_eq hwf' (by rw [hns]; exact hne.1), hqname]
  have hused : (usedNamespaces [] [] h').Perm (usedNamespaces [] [] h) := by
    rw [usedNamespaces, usedNamespaces, helement,
      List.filterMap_congr fun a ha => attributeNamespace_written hwf' ha,
      List.filterMap_congr fun a ha => attributeNamespace_written hwf ha]
    exact .append_left _ (.append_right _ (hattributes.filterMap _))
  have hcollect : collectNamespaces [] [] h' rendered = collectNamespaces [] [] h rendered := by
    rw [collectNamespaces, collectNamespaces]
    rw [insertionSort_eq_of_perm hused.dedup]
  rw [namespacesToRender, namespacesToRender, hcollect]
  simp only [undeclaresDefault_eq hwf, undeclaresDefault_eq hwf', hns]

end StartTag

/-! ## One source text in two places -/

/-- `scope` are the declarations `own` inside the declarations `outer`. -/
def Extends (own outer scope : List Namespace) : Prop :=
  ∀ name, lookupNamespaceUri scope name =
    (lookupNamespaceUri own name).or (lookupNamespaceUri outer name)

/-- The same source text, once inside the declarations `outer` and once inside `outer'`, where every
prefix that is written stands for the same. -/
inductive SameText : List Namespace → List Namespace → Nodes → Nodes → Prop
  | nil {outer outer' : List Namespace} : SameText outer outer' .nil .nil
  | text {outer outer' : List Namespace} {s : String} {rest rest' : Nodes}
      (hrest : SameText outer outer' rest rest') :
      SameText outer outer' (.text s rest) (.text s rest')
  | misc {outer outer' : List Namespace} {rest rest' : Nodes}
      (hrest : SameText outer outer' rest rest') : SameText outer outer' (.misc rest) (.misc rest')
  | element {outer outer' own : List Namespace} {h h' : Head}
      {children children' rest rest' : Nodes}
      (hscope : Extends own outer h.namespaces) (hscope' : Extends own outer' h'.namespaces)
      (hqname : h'.qname = h.qname)
      (hattributes : h'.attributes.map (fun a => (a.qname, a.value)) =
        h.attributes.map fun a => (a.qname, a.value))
      (hprefixes : ∀ qname ∈ h.qname :: h.attributes.map (·.qname), ∀ p ∈ writtenPrefix qname,
        lookupNamespaceUri h'.namespaces (some p) = lookupNamespaceUri h.namespaces (some p))
      (hchildren : SameText h.namespaces h'.namespaces children children')
      (hrest : SameText outer outer' rest rest') :
      SameText outer outer' (.element h children rest) (.element h' children' rest')

/-- The name of the default namespace; empty if there is none. -/
def defaultNamespace (scope : List Namespace) : String := (lookupNamespaceUri scope none).getD ""

section SameText

variable {outer outer' : List Namespace} {h h' : Head}

/-- Names that are written alike and whose prefixes stand for the same are the same. -/
theorem resolve_eq {scope scope' : List Namespace} {qname : String}
    (hresolves : ∀ p ∈ writtenPrefix qname,
      lookupNamespaceUri scope' (some p) = lookupNamespaceUri scope (some p)) :
    resolveAttributeName scope' qname = resolveAttributeName scope qname ∧
      (defaultNamespace scope' = defaultNamespace scope →
        (resolveTagName scope' qname).ns.getD "" = (resolveTagName scope qname).ns.getD "") := by
  rw [resolveAttributeName, resolveAttributeName, resolveTagName, resolveTagName]
  cases hsplit : splitOnce ':' qname with
  | none => exact ⟨rfl, fun hdefault => hdefault⟩
  | some q =>
    have hp := hresolves q.1 (by rw [writtenPrefix, hsplit]; rfl)
    simp [lookupPrefix, hp]

/-- In the two places a start tag says the same. -/
theorem head_sameText (hwf : h.WellFormed outer) (hwf' : h'.WellFormed outer')
    (hqname : h'.qname = h.qname)
    (hattributes : h'.attributes.map (fun a => (a.qname, a.value)) =
      h.attributes.map fun a => (a.qname, a.value))
    (hprefixes : ∀ qname ∈ h.qname :: h.attributes.map (·.qname), ∀ p ∈ writtenPrefix qname,
      lookupNamespaceUri h'.namespaces (some p) = lookupNamespaceUri h.namespaces (some p))
    (hdefault : defaultNamespace h'.namespaces = defaultNamespace h.namespaces) :
    h'.tagName.ns.getD "" = h.tagName.ns.getD "" ∧ h'.attributes = h.attributes := by
  rw [List.forall_mem_cons] at hprefixes
  refine ⟨?_, ?_⟩
  · rw [hwf'.tagName, hwf.tagName, hqname]
    exact (resolve_eq hprefixes.1).2 hdefault
  · have hread : ∀ {o : List Namespace} {k : Head}, k.WellFormed o → k.attributes =
        (k.attributes.map fun a => (a.qname, a.value)).map fun w =>
          ⟨resolveAttributeName k.namespaces w.1, w.2, w.1⟩ := by
      intro o k hk
      rw [List.map_map]
      refine (List.map_id _).symm.trans (List.map_congr_left fun a ha => ?_)
      show a = ⟨resolveAttributeName k.namespaces a.qname, a.value, a.qname⟩
      rw [← hk.attributeName a ha]
    rw [hread hwf', hread hwf, hattributes]
    refine List.map_congr_left fun w hw => ?_
    obtain ⟨a, ha, rfl⟩ := List.mem_map.mp hw
    rw [(resolve_eq (hprefixes.2 _ (List.mem_map_of_mem ha))).1]

/-- Two start tags that say the same are canonicalised alike, with content and what follows that
is. -/
theorem canonicalizeNodes_element_alike {ancestors ancestors' : List (List Namespace)}
    (hwf : h.WellFormed outer) (hwf' : h'.WellFormed outer')
    (hcover : Covers h.namespaces ancestors) (hcover' : Covers h'.namespaces ancestors')
    (hqname : h'.qname = h.qname) (hns : h'.tagName.ns.getD "" = h.tagName.ns.getD "")
    (hperm : h'.attributes.Perm h.attributes)
    (hattributes : attributesToRender h' = attributesToRender h) (rendered : Rendered)
    {children children' rest rest' : Nodes}
    (hchildren : (canonicalizeNodes [] (h'.namespaces :: ancestors')
        ((namespacesToRender [] [] h rendered).foldl (fun r e => e :: r) rendered)
          children').toList =
      (canonicalizeNodes [] (h.namespaces :: ancestors)
        ((namespacesToRender [] [] h rendered).foldl (fun r e => e :: r) rendered) children).toList)
    (hrest : (canonicalizeNodes [] ancestors' rendered rest').toList =
      (canonicalizeNodes [] ancestors rendered rest).toList) :
    (canonicalizeNodes [] ancestors' rendered (.element h' children' rest')).toList =
      (canonicalizeNodes [] ancestors rendered (.element h children rest)).toList := by
  have hentries := namespacesToRender_alike hwf hwf' hqname hns hperm rendered
  rw [toList_canonicalizeNodes_element hwf' hcover', toList_canonicalizeNodes_element hwf hcover,
    tagAttributes, tagAttributes, hqname, hentries, hattributes, hchildren, hrest]

/-- **The canonical text does not depend on the surroundings.** -/
theorem canonicalizeNodes_sameText {nodes nodes' : Nodes} (h : SameText outer outer' nodes nodes')
    (hdefault : defaultNamespace outer' = defaultNamespace outer) {inner inner' : List Namespace}
    (hwf : nodes.WellFormed inner) (hwf' : nodes'.WellFormed inner')
    {ancestors ancestors' : List (List Namespace)} (hcover : Covers inner ancestors)
    (hcover' : Covers inner' ancestors') (rendered : Rendered) :
    (canonicalizeNodes [] ancestors' rendered nodes').toList =
      (canonicalizeNodes [] ancestors rendered nodes).toList := by
  induction h generalizing inner inner' ancestors ancestors' rendered with
  | nil => rfl
  | text _ ih =>
    rw [canonicalizeNodes, canonicalizeNodes, String.toList_append, String.toList_append,
      ih hdefault hwf hwf' hcover hcover']
  | misc _ ih =>
    rw [canonicalizeNodes, canonicalizeNodes, ih hdefault hwf hwf' hcover hcover']
  | @element outer outer' own h h' _ _ _ _ hscope hscope' hqname
      hattributes hprefixes _ _ ihchildren ihrest =>
    obtain ⟨hhead, hchildren, hrest⟩ := hwf
    obtain ⟨hhead', hchildren', hrest'⟩ := hwf'
    have hown : defaultNamespace h'.namespaces = defaultNamespace h.namespaces := by
      rw [defaultNamespace, defaultNamespace, hscope, hscope']
      cases lookupNamespaceUri own none with
      | none => exact hdefault
      | some uri => rfl
    obtain ⟨htag, hattr⟩ := head_sameText hhead hhead' hqname hattributes hprefixes hown
    refine canonicalizeNodes_element_alike hhead hhead' (hcover.child hhead).1
      (hcover'.child hhead').1
      hqname htag (by rw [hattr]) (by rw [attributesToRender, attributesToRender, hattr])
        rendered ?_
      (ihrest hdefault hrest hrest' hcover hcover' rendered)
    exact ihchildren hown hchildren hchildren' (hcover.child hhead).2 (hcover'.child hhead').2 _

end SameText

/-! ## The canonical text, read again -/

/-- In what is read back, a prefix stands for what the canonicaliser wrote last. -/
def InForce (scope : List Namespace) (rendered : Rendered) : Prop :=
  ∀ p, (lookupNamespaceUri scope (if p = "" then none else some p)).getD "" =
    (rendered.lookup p).getD ""

theorem extends_inScope (own outer : List Namespace) : Extends own outer (inScope own outer) := by
  intro name
  rw [inScope, lookupNamespaceUri, List.find?_append]
  cases hown : own.find? (·.name = name) with
  | some n => simp [lookupNamespaceUri, hown]
  | none =>
    have hnot : ∀ n ∈ own, n.name ≠ name :=
      fun n hn => by simpa using List.find?_eq_none.mp hown n hn
    have hfilter : (outer.filter fun n => n.name ∉ own.map (·.name)).find? (·.name = name) =
        outer.find? (·.name = name) := by
      rw [List.find?_filter]
      refine List.find?_congr fun n _ => ?_
      by_cases hn : n.name = name
      · simpa [hn] using hnot
      · simp [hn]
    rw [Option.none_or, hfilter]
    simp [lookupNamespaceUri, hown]

section ReadBack

/-- The start tag that is read back. -/
def reread (scope : List Namespace) (rendered : Rendered) (h : Head) : Head :=
  resolveHead scope h.qname (tagAttributes [] rendered h)

variable {outer scope : List Namespace} {h : Head} {rendered : Rendered} (hwf : h.WellFormed outer)
include hwf

/-- The declarations that are read back. -/
theorem declarations_reread :
    (tagAttributes [] rendered h).filterMap declarationOf =
      (namespacesToRender [] [] h rendered).map fun e =>
        ⟨if e.1 = "" then none else some e.1, e.2⟩ := by
  have hentries : ∀ e ∈ namespacesToRender [] [] h rendered,
      (declarationOf ∘ fun e => (namespaceAttribute e.1, e.2)) e =
        some ⟨if e.1 = "" then none else some e.1, e.2⟩ := by
    intro e he
    have hne : e.1 ≠ "xml" := by
      rcases mem_namespacesToRender he with ⟨hused, -⟩ | ⟨rfl, -⟩
      · exact (isNcName_of_binding hwf (binding_of_used hwf hused).1).2.2
      · decide
    rw [Function.comp_apply, declarationOf, (entry_written hwf he).1]
    by_cases hempty : e.1 = ""
    · simp [hempty]
    · simp [hempty, hne]
  have hattributes : ∀ a ∈ attributesToRender h,
      (declarationOf ∘ fun a => (a.qname, a.value)) a = none := by
    intro a ha
    rw [Function.comp_apply, declarationOf,
      declaredName_qname hwf ((mem_attributesToRender hwf).1 ha)]
  rw [tagAttributes, List.filterMap_append, List.filterMap_map, List.filterMap_map,
    List.filterMap_congr hentries, List.filterMap_eq_nil_iff.mpr hattributes, List.append_nil]
  exact congrFun List.filterMap_eq_map _

variable (hread : (reread scope rendered h).WellFormed scope) (hforce : InForce scope rendered)
include hread hforce

/-- What is in force inside the start tag. -/
theorem inForce_reread : InForce (reread scope rendered h).namespaces
      ((namespacesToRender [] [] h rendered).foldl (fun r e => e :: r) rendered) := by
  intro p
  by_cases hdeclared : ∃ e ∈ namespacesToRender [] [] h rendered, e.1 = p
  · obtain ⟨e, he, rfl⟩ := hdeclared
    have hlookup :
        ((namespacesToRender [] [] h rendered).foldl (fun r e => e :: r) rendered).lookup e.1 =
          some e.2 := by
      refine lookup_declared rendered he fun e' he' heq => ?_
      rw [(entry_written hwf he').2.2, (entry_written hwf he).2.2, heq]
    have hmem : (⟨if e.1 = "" then none else some e.1, e.2⟩ : Namespace) ∈
        (reread scope rendered h).namespaces := by
      refine List.mem_append_left _ ?_
      rw [declarations_reread hwf]
      exact List.mem_map.mpr ⟨e, he, rfl⟩
    rw [hlookup, lookup_of_mem hread.unique hmem]
  · have hdeclared : ∀ e ∈ namespacesToRender [] [] h rendered, e.1 ≠ p :=
      fun e he heq => hdeclared ⟨e, he, heq⟩
    rw [lookup_inherited rendered hdeclared, ← hforce p]
    have hscope : Extends _ scope (reread scope rendered h).namespaces := extends_inScope _ _
    rw [hscope, declarations_reread hwf]
    have hnone : lookupNamespaceUri ((namespacesToRender [] [] h rendered).map fun e =>
        ⟨if e.1 = "" then none else some e.1, e.2⟩) (if p = "" then none else some p) = none := by
      rw [lookupNamespaceUri, Option.map_eq_none_iff, List.find?_eq_none]
      intro n hn
      obtain ⟨e, he, rfl⟩ := List.mem_map.mp hn
      have hne := hdeclared e he
      by_cases hp : p = ""
      · subst hp
        simp [hne]
      · by_cases hempty : e.1 = ""
        · simp [hempty, hp]
        · simp [hempty, hp, hne]
    rw [hnone, Option.none_or]

/-- The namespace of the element that is read back. -/
theorem tag_reread : (reread scope rendered h).tagName.ns.getD "" = h.tagName.ns.getD "" := by
  rw [← lookup_tag hwf, ← inForce_reread hwf hread hforce, hread.tagName]
  show (resolveTagName (reread scope rendered h).namespaces h.qname).ns.getD "" = _
  rcases hwf.tag_cases with ⟨hsplit, -⟩ | ⟨p, uri, hsplit, -, -, hp⟩
  · rw [resolveTagName, writtenPrefix, hsplit]
    rfl
  · rw [resolveTagName, writtenPrefix, hsplit, Option.map_some, Option.getD_some,
      if_neg hp.ne_empty, ← lookupPrefix_of_ne_xml _ hp.ne_xml]

/-- An attribute that is read back has the name it had. -/
theorem attributeName_reread {a : Attribute} (ha : a ∈ h.attributes) :
    resolveAttributeName (reread scope rendered h).namespaces a.qname = a.name := by
  rw [hwf.attributeName a ha, resolveAttributeName, resolveAttributeName]
  rcases hwf.attribute_cases ha with ⟨hsplit, -⟩ | ⟨hsplit, -⟩ | ⟨p, uri, hsplit, -, hns, hp⟩
  · rw [hsplit]
  · rw [hsplit]
    rfl
  · -- the prefix is used, so it was declared
    have hinside := inForce_reread hwf hread hforce p
    rw [lookup_used hwf (mem_usedNamespaces ha hsplit hns hp), if_neg hp.ne_empty,
      Option.getD_some] at hinside
    have hresolves : lookupPrefix (reread scope rendered h).namespaces p = some uri := by
      rw [lookupPrefix_of_ne_xml _ hp.ne_xml]
      cases hl : lookupNamespaceUri (reread scope rendered h).namespaces (some p) with
      | none =>
        rw [hl] at hinside
        exact absurd hinside.symm hp.uri_ne_empty
      | some uri' =>
        rw [hl] at hinside
        exact congrArg some hinside
    rw [hsplit]
    simp [hresolves, hp.lookupPrefix_eq]

/-- The attributes that are read back, in the order they were written. -/
theorem attributes_reread : (reread scope rendered h).attributes = attributesToRender h := by
  have hentries : ∀ e ∈ namespacesToRender [] [] h rendered,
      (attributeOf (reread scope rendered h).namespaces ∘
        fun e => (namespaceAttribute e.1, e.2)) e =
        none := by
    intro e he
    rw [Function.comp_apply, attributeOf, (entry_written hwf he).1]
  have hattributes : ∀ a ∈ attributesToRender h,
      (attributeOf (reread scope rendered h).namespaces ∘
        fun a => (a.qname, a.value)) a = some a := by
    intro a ha
    have hmem := (mem_attributesToRender hwf).1 ha
    have hname := attributeName_reread hwf hread hforce hmem
    rw [Function.comp_apply, attributeOf, declaredName_qname hwf hmem, hname]
  show (tagAttributes [] rendered h).filterMap
    (attributeOf (reread scope rendered h).namespaces) = _
  rw [tagAttributes, List.filterMap_append, List.filterMap_map, List.filterMap_map,
    List.filterMap_eq_nil_iff.mpr hentries, List.nil_append, List.filterMap_congr hattributes,
    List.filterMap_some]

/-- Attributes that were written in order stay in that order. -/
theorem attributesToRender_reread :
    attributesToRender (reread scope rendered h) = attributesToRender h := by
  rw [attributesToRender_eq hread, attributes_reread hwf hread hforce, attributesToRender_eq hwf]
  exact (List.pairwise_insertionSort attributeLe h.attributes).insertionSort_eq

end ReadBack

variable {ancestors : List (List Namespace)}

/-- **What is read back from canonical markup has that markup for its canonical form.** -/
theorem canonicalizeNodes_toNodes_canonical (nodes : Nodes) {outer scope : List Namespace}
    {ancestors' : List (List Namespace)} {rendered : Rendered} (hwf : nodes.WellFormed outer)
    (hcover : Covers outer ancestors) (hcover' : Covers scope ancestors')
    (hforce : InForce scope rendered)
    (hread : (toNodes scope (canonicalMarkup [] ancestors rendered nodes)).WellFormed scope) :
    (canonicalizeNodes [] ancestors' rendered
        (toNodes scope (canonicalMarkup [] ancestors rendered nodes))).toList =
      (canonicalizeNodes [] ancestors rendered nodes).toList := by
  induction nodes generalizing outer scope ancestors ancestors' rendered with
  | nil => rfl
  | text s rest ih =>
    rw [canonicalMarkup, canonicalizeNodes_chars, canonicalizeNodes, String.toList_append]
    rw [canonicalMarkup, wellFormed_chars] at hread
    rw [ih hwf hcover hcover' hforce hread]
  | misc rest ih => exact ih hwf hcover hcover' hforce hread
  | element h children rest ihchildren ihrest =>
    obtain ⟨hhead, hchildren, hrest⟩ := hwf
    rw [canonicalMarkup_element hhead (hcover.child hhead).1, toNodes] at hread ⊢
    obtain ⟨hhead', hchildren', hrest'⟩ := hread
    have hperm : (reread scope rendered h).attributes.Perm h.attributes := by
      rw [attributes_reread hhead hhead' hforce, attributesToRender_eq hhead]
      exact h.attributes.perm_insertionSort attributeLe
    refine canonicalizeNodes_element_alike hhead hhead' (hcover.child hhead).1
      (hcover'.child hhead').1 rfl
      (tag_reread hhead hhead' hforce) hperm (attributesToRender_reread hhead hhead' hforce)
        rendered ?_
      (ihrest hrest hcover hcover' hforce hrest')
    exact ihchildren hchildren (hcover.child hhead).2 (hcover'.child hhead').2
      (inForce_reread hhead hhead' hforce) hchildren'

/-! ## Names that need no escape -/

/-- Characters that are written as themselves in the value of an attribute. -/
def Plain (c : Char) : Prop := c ∉ ['&', '"', '<', '\t', '\n', '\r']

instance : DecidablePred Plain := fun _ => inferInstanceAs (Decidable (¬ _))

/-- The names of the namespaces that a start tag makes use of need no escape. -/
def Head.PlainNames (h : Head) : Prop := ∀ uri ∈ namesUsed [] h, ∀ c ∈ uri.toList, Plain c

instance (uri : String) : Decidable (∀ c ∈ uri.toList, Plain c) := List.decidableBAll _ uri.toList

instance : DecidablePred Head.PlainNames := fun h => List.decidableBAll _ (namesUsed [] h)

theorem write_plain {c : Char} (hc : Plain c) : attributeEscapes.write c = [c] := by
  simp only [Plain, List.mem_cons, List.not_mem_nil, or_false, not_or] at hc
  obtain ⟨hamp, hquote, hless, htab, hline, hreturn⟩ := hc
  have hnone : attributeEscapes.entries.find? (c = ·.1) = none := by
    simp [attributeEscapes, hamp, hquote, hless, htab, hline, hreturn]
  rw [Coding.EscapeTable.write, hnone]

theorem readable_of_plain {nodes : Nodes} (hplain : nodes.All Head.PlainNames) :
    nodes.All (Head.Readable []) := by
  induction nodes with
  | nil => trivial
  | text _ rest ih => exact ih hplain
  | misc rest ih => exact ih hplain
  | element head children rest ihChildren ihRest =>
    refine ⟨fun uri huri hquote => ?_, ihChildren hplain.2.1, ihRest hplain.2.2⟩
    exact hplain.1 uri huri _ hquote (by decide)

/-- The values in a start tag are written as attribute values are. -/
theorem renderAttribute_plain {outer : List Namespace} {h : Head} (hwf : h.WellFormed outer)
    (hplain : Head.PlainNames h) {rendered : Rendered} :
    ∀ a ∈ tagAttributes [] rendered h,
      Markup.renderAttribute canonicalStyle a = Markup.renderAttribute writtenStyle a := by
  intro a ha
  rw [tagAttributes, List.mem_append, List.mem_map, List.mem_map] at ha
  rcases ha with ⟨e, he, rfl⟩ | ⟨attr, hattr, rfl⟩
  · have hchars : ∀ c ∈ e.2.toList, Plain c := by
      rcases name_written he with hempty | hused
      · rw [hempty]
        exact fun c hc => absurd hc (by simp)
      · exact hplain _ hused
    have hwrite : (Coding.raw '"').writeAll e.2.toList =
        (Coding.escaping attributeEscapes).writeAll e.2.toList :=
      List.flatMap_congr fun c hc => (write_plain (hchars c hc)).symm
    simp [Markup.renderAttribute, canonicalStyle, writtenStyle, (entry_written hwf he).1, hwrite]
  · simp [Markup.renderAttribute, canonicalStyle, writtenStyle,
      declaredName_qname hwf ((mem_attributesToRender hwf).1 hattr)]

/-- Where names need no escape, the canonical text is written as the serialiser writes. -/
theorem canonicalizeNodes_written (nodes : Nodes) {outer : List Namespace} {rendered : Rendered}
    (hwf : nodes.WellFormed outer) (hplain : nodes.All Head.PlainNames)
    (hcover : Covers outer ancestors) :
    (canonicalizeNodes [] ancestors rendered nodes).toList =
      (canonicalMarkup [] ancestors rendered nodes).render writtenStyle := by
  induction nodes generalizing outer ancestors rendered with
  | nil => rfl
  | text s rest ih =>
    rw [canonicalizeNodes, canonicalMarkup, render_chars, String.toList_append, toList_escapeText,
      ih hwf hplain hcover]
    rfl
  | misc rest ih => exact ih hwf hplain hcover
  | element h children rest ihchildren ihrest =>
    obtain ⟨hhead, hchildren, hrest⟩ := hwf
    obtain ⟨hphead, hpchildren, hprest⟩ := hplain
    obtain ⟨hown, hbelow⟩ := hcover.child hhead
    rw [toList_canonicalizeNodes_element hhead hown, canonicalMarkup_element hhead hown,
      Markup.render, List.flatMap_congr (renderAttribute_plain hhead hphead),
        ihchildren hchildren hpchildren hbelow,
      ihrest hrest hprest hcover]

/-- In a style in which every character can be written, what is valid in another style is valid. -/
theorem valid_of_writable {σ τ : Style} (htext : ∀ c, τ.text.Writable c)
    (hvalue : ∀ key c, (τ.value key).Writable c) : ∀ {m : Markup}, m.Valid σ → m.Valid τ
  | .nil, _ => trivial
  | .char c _, ⟨_, hrest⟩ => ⟨htext c, valid_of_writable htext hvalue hrest⟩
  | .element _ _ _ _, ⟨hname, hattributes, hchildren, hrest⟩ =>
    ⟨hname, fun a ha => ⟨(hattributes a ha).1, fun c _ => hvalue a.1 c⟩,
      valid_of_writable htext hvalue hchildren, valid_of_writable htext hvalue hrest⟩

/-! ## Canonical texts as documents -/

/-- The declarations around an element. -/
def outerScope (n : Node) : List Namespace := n.ancestors.headD []

/-- Elements with one source text have one canonical text, in whatever documents they stand. -/
def ContextFree (parseXml : String → Except String Xml.Document) : Prop :=
  ∀ (text text' : String) (doc doc' : Xml.Document) (n n' : Node), parseXml text = .ok doc →
    parseXml text' = .ok doc' → n ∈ doc.descendants → n' ∈ doc'.descendants →
    SameText (outerScope n) (outerScope n') (asNodes n.element) (asNodes n'.element) →
    defaultNamespace (outerScope n') = defaultNamespace (outerScope n) →
      exclusiveC14n n' [] = exclusiveC14n n []

/-- The canonical text of an element, if it is parsed, is its own canonical form. -/
def CanonicalStable (parseXml : String → Except String Xml.Document) (n : Node) : Prop :=
  ∀ (doc : Xml.Document) (root : Node), parseXml (exclusiveC14n n []) = .ok doc →
    root ∈ doc.rootElements → exclusiveC14n root [] = exclusiveC14n n []

section Parser

variable {parseXml : String → Except String Xml.Document}

theorem contextFree (hparser : ParsesXml parseXml) : ContextFree parseXml := by
  intro text text' doc doc' n n' hdoc hdoc' hn hn' hsame hdefault
  obtain ⟨inner, hwf, hcover⟩ := covers_of_mem_descendants (hparser.parse_wellFormed _ _ hdoc) hn
  obtain ⟨inner', hwf', hcover'⟩ :=
    covers_of_mem_descendants (hparser.parse_wellFormed _ _ hdoc') hn'
  exact String.toList_inj.mp (canonicalizeNodes_sameText hsame hdefault hwf hwf' hcover hcover' [])

theorem canonicalStable_of_plain (hparser : ParsesXml parseXml) {source : Xml.Document}
    (hsource : source.nodes.WellFormed []) {n : Node} (hn : n ∈ source.descendants)
    (hplain : (asNodes n.element).All Head.PlainNames) : CanonicalStable parseXml n := by
  intro doc root hparse hroot
  obtain ⟨inner, hwf, hcover⟩ := covers_of_mem_descendants hsource hn
  have hwritten : (exclusiveC14n n []).toList =
      (canonicalMarkup [] n.ancestors [] (asNodes n.element)).render writtenStyle :=
    canonicalizeNodes_written _ hwf hplain hcover
  have hvalid : (canonicalMarkup [] n.ancestors [] (asNodes n.element)).Valid writtenStyle :=
    valid_of_writable (fun _ => trivial) (fun _ _ => trivial) (valid_canonicalMarkup [] []
      hwf (readable_of_plain hplain) hcover)
  have hagain : (toNodes [] (canonicalMarkup [] n.ancestors [] (asNodes n.element))).WellFormed [] →
      (canonicalizeNodes [] [] []
        (toNodes [] (canonicalMarkup [] n.ancestors [] (asNodes n.element)))).toList =
        (exclusiveC14n n []).toList :=
    canonicalizeNodes_toNodes_canonical _ hwf hcover covers_nil fun _ => rfl
  obtain ⟨name, attributes, children, hmarkup⟩ : ∃ name attributes children,
      canonicalMarkup [] n.ancestors [] (asNodes n.element) =
        .element name attributes children .nil :=
    ⟨_, _, _, rfl⟩
  rw [hmarkup] at hwritten hvalid hagain
  rw [← String.ofList_toList (s := exclusiveC14n n []), hwritten] at hparse
  have hread := hparser.parse_wellFormed _ _ hparse
  obtain rfl := hparser.parse_written name attributes children doc hvalid hparse
  obtain rfl := List.mem_singleton.mp hroot
  exact String.toList_inj.mp (hagain hread)

end Parser

/-- An element in a default namespace is written with the name of the namespace as it is. -/
theorem exclusiveC14n_defaultHead {uri : String} (hempty : uri ≠ "") (hxml : uri ≠ nsXml) :
    exclusiveC14n (soleNode (defaultHead uri [])) [] = "<e xmlns=\"" ++ uri ++ "\"></e>" := by
  have hprefix : elementPrefix [] (defaultHead uri []) = some "" := by
    have hsplit : splitOnce ':' "e" = none := by decide
    simp [elementPrefix, sourcePrefix, defaultHead, hsplit, lookupNamespaceUri]
  have hused : usedNamespaces [] [] (defaultHead uri []) = [("", uri)] := by
    rw [usedNamespaces, elementNamespace, hprefix]
    simp [defaultHead, hempty, hxml]
  have hentries : namespacesToRender [] [] (defaultHead uri []) [] = [("", uri)] := by
    simp [namespacesToRender, collectNamespaces, hused, sortByPrefix, undeclaresDefault]
  have hname : nodeQualifiedName [] (defaultHead uri []) = "e" := by
    rw [nodeQualifiedName, hprefix]
    simp [defaultHead]
  rw [exclusiveC14n]
  show canonicalizeNodes [] [] [] (.element (defaultHead uri []) .nil .nil) = _
  simp only [canonicalizeNodes, hname, hentries]
  rw [← String.toList_inj]
  simp [attributesToRender, defaultHead, namespaceAttribute]

end Vouch.Saml
