import Vouch.Saml.Infoset
import Vouch.Saml.SignedContent

/-!
# The enveloped signature

The signed element is canonicalised without its signature by a detour: it is written out, parsed
again, and the copy is canonicalised (`c14n_excluding_signature`).  A signer canonicalises the
element itself. This file says when the two texts are the same.

* `Head.Kept` — of all declarations in scope of its namespace, a start tag was written with the
  first, and so were its attributes; `elementQname_eq_iff`, `attributeQname_eq_iff` — then, and only
  then, it is written out with the prefixes it has.
* `canonicalizeNodes_toNodes_source` — a copy that was written with the prefixes it has is
  canonicalised as the original is, comments and pieces of text apart.
* `kept_of_canonical_eq` — conversely, where the two canonical texts are the same, every prefix was
  kept. The texts are compared from the left: up to the first prefix that was changed they are the
  same, and there they part.
* `enveloped_c14n_iff` — **the detour gives the canonical text of the element without its signature
  exactly when all prefixes are kept**.  With two prefixes for one namespace that need not be the
  case.
-/

namespace Vouch.Saml

open Xml
open Result (bind_eq_ok)

/-! ## Prefixes -/

/-- The declarations in scope of a namespace begin with the one that a qualified name was written
with. -/
def WrittenFirst (h : Head) (uri qname : String) : Prop :=
  (h.namespaces.find? (·.uri = uri)).map (·.name) = some (writtenPrefix qname)

/-- A start tag whose name, and each attribute, was written with the first declaration of its
namespace in scope.  Names in no namespace, and attributes of `xml`, need none. -/
def Head.Kept (h : Head) : Prop :=
  (∀ uri ∈ h.tagName.ns, uri ≠ "" → WrittenFirst h uri h.qname) ∧
    ∀ a ∈ h.attributes, ∀ uri ∈ a.name.ns, uri ≠ nsXml → WrittenFirst h uri a.qname

instance (h : Head) (uri qname : String) : Decidable (WrittenFirst h uri qname) :=
  inferInstanceAs (Decidable (_ = _))

instance (h : Head) : Decidable (Head.Kept h) := inferInstanceAs (Decidable (_ ∧ _))

/-- A name with a prefix, or without. -/
def qualified (p : Option String) (name : String) : String :=
  p.elim name (· ++ ":" ++ name)

theorem qualified_inj {p p' : Option String} (name : String) :
    qualified p name = qualified p' name ↔ p = p' := by
  have hlonger : ∀ q : String, q ++ ":" ++ name ≠ name := by
    intro q h
    have hlength := congrArg (·.toList.length) h
    simp only [String.toList_append, List.length_append] at hlength
    have hcolon : (":" : String).toList.length = 1 := rfl
    omega
  have hsame : ∀ q q' : String, q ++ ":" ++ name = q' ++ ":" ++ name → q = q' := by
    intro q q' h
    simpa [← String.toList_inj] using h
  refine ⟨fun h => ?_, congrArg (qualified · name)⟩
  cases p with
  | none =>
    cases p' with
    | none => rfl
    | some q => exact absurd h.symm (hlonger q)
  | some q =>
    cases p' with
    | none => exact absurd h (hlonger q)
    | some q' => exact congrArg some (hsame q q' h)

section StartTag

variable {outer : List Namespace} {h : Head} {ancestors : List (List Namespace)} {a : Attribute}
  {inclusive : List String} {rendered : Rendered} {scope : List Namespace}

/-- A name in a namespace that is declared is written out as it was written exactly when that was
with the first declaration. -/
theorem writtenFirst_iff (hwf : h.WellFormed outer) {n : Namespace} (hn : n ∈ h.namespaces)
    {qname name out : String} (hqname : qname = qualified (writtenPrefix qname) name)
    (hout : ∀ p, findNsPrefix (h.namespaces :: ancestors) n.uri = some p →
      out = if p = "" then name else p ++ ":" ++ name) :
    out = qname ↔ WrittenFirst h n.uri qname := by
  obtain ⟨first, hmem, -, hfind, hprefix⟩ := findNsPrefix_eq ancestors hn
  have hwritten : out = qualified first.name name := by
    rw [hout _ hprefix]
    cases hname : first.name with
    | none => rfl
    | some p => exact if_neg (hwf.binds_of_mem hmem hname).ne_empty
  rw [WrittenFirst, hfind, Option.map_some, Option.some.injEq, hwritten, ← qualified_inj name,
    ← hqname]

theorem elementQname_eq_iff (hwf : h.WellFormed outer) :
    elementQname ancestors h = h.qname ↔
      ∀ uri ∈ h.tagName.ns, uri ≠ "" → WrittenFirst h uri h.qname := by
  have hqname : h.qname = qualified (writtenPrefix h.qname) h.tagName.name := by
    rcases hwf.tag_cases with ⟨hsplit, hname, -, -⟩ | ⟨p, uri, hsplit, -, -, -⟩
    · rw [writtenPrefix, hsplit]
      exact hname.symm
    · rw [writtenPrefix, hsplit]
      exact eq_qualified hsplit
  by_cases hempty : h.tagName.ns.getD "" = ""
  · -- no namespace, so no prefix
    have hplain := (default_of_no_namespace hwf hempty).1
    refine iff_of_true ?_ fun uri huri hne => absurd ?_ hne
    · rw [hqname, hplain, elementQname, if_pos hempty]
      rfl
    · rwa [Option.mem_def.mp huri] at hempty
  · obtain ⟨n, hn, -, huri⟩ := mem_of_lookup (elementPrefix_binding hwf hempty)
    have hns : h.tagName.ns = some n.uri := by
      cases hns : h.tagName.ns with
      | none => exact absurd (by rw [hns]; rfl) hempty
      | some uri =>
        rw [hns] at huri
        exact congrArg some huri.symm
    rw [hns, Option.getD_some] at hempty
    rw [writtenFirst_iff hwf hn hqname fun p hp => by
      rw [elementQname, hns, Option.getD_some, if_neg hempty, hp], hns]
    simp [hempty]

theorem attributeQname_eq_iff (hwf : h.WellFormed outer) (ha : a ∈ h.attributes) :
    attributeQname ancestors h a = a.qname ↔
      ∀ uri ∈ a.name.ns, uri ≠ nsXml → WrittenFirst h uri a.qname := by
  rcases hwf.attribute_cases ha with
    ⟨-, hname, -, -, hns⟩ | ⟨hsplit, -, hns⟩ | ⟨p, uri, hsplit, -, hns, hp⟩
  · simp [attributeQname, hns, nsXml, hname]
  · simp [attributeQname, hns, eq_qualified hsplit]
  · obtain ⟨n, hn, -, rfl⟩ := hp.listed
    have hqname : a.qname = qualified (writtenPrefix a.qname) a.name.name := by
      rw [writtenPrefix, hsplit]
      exact eq_qualified hsplit
    rw [writtenFirst_iff hwf hn hqname fun p hfind => by
      rw [attributeQname, hns, Option.getD_some, if_pos ⟨hp.uri_ne_empty, hp.ne_nsXml⟩, hfind], hns]
    simp [hp.ne_nsXml]

/-- A start tag that is kept is written out as it is. -/
theorem serialAttributes_of_kept (ancestors : List (List Namespace)) (hwf : h.WellFormed outer)
    (hkept : Head.Kept h) :
    elementQname ancestors h = h.qname ∧ serialAttributes ancestors h = sourceAttributes h := by
  refine ⟨(elementQname_eq_iff hwf).2 hkept.1, ?_⟩
  rw [serialAttributes_eq ancestors hwf, sourceAttributes]
  refine congrArg _ (List.map_congr_left fun a ha => ?_)
  rw [(attributeQname_eq_iff hwf ha).2 (hkept.2 a ha)]

/-! ## Start tags that are written alike -/

/-- Two start tags with the same declarations in scope that are written alike have the same name and
write the same in their tags. -/
theorem tag_eq_of_written {h' : Head} {outer' : List Namespace} (hwf : h.WellFormed outer)
    (hwf' : h'.WellFormed outer') (hscope : h'.namespaces = h.namespaces) {x y : List Char}
    (heq : h.qname.toList ++
        ((tagAttributes inclusive rendered h).flatMap (Markup.renderAttribute canonicalStyle) ++
          '>' :: x) =
      h'.qname.toList ++
        ((tagAttributes inclusive rendered h').flatMap (Markup.renderAttribute canonicalStyle) ++
          '>' :: y)) :
    h.qname = h'.qname ∧ tagAttributes inclusive rendered h = tagAttributes inclusive rendered h' ∧
      x = y := by
  obtain ⟨d, more, hafter, hd, -⟩ := Markup.afterName_eq_cons canonicalStyle
    (tagAttributes inclusive rendered h) x
  obtain ⟨d', more', hafter', hd', -⟩ := Markup.afterName_eq_cons canonicalStyle
    (tagAttributes inclusive rendered h') y
  rw [hafter, hafter'] at heq
  obtain ⟨hqname, htags⟩ := Markup.name_inj (isName_of_declared hwf hwf.tagDeclared).1
    (isName_of_declared hwf' hwf'.tagDeclared).1 hd hd' heq
  rw [← hafter, ← hafter'] at htags
  -- A name in a tag is that of a declaration, or that of an attribute.
  have hcases : ∀ {outer : List Namespace} {h : Head}, h.WellFormed outer →
      ∀ a ∈ tagAttributes inclusive rendered h, Markup.IsName a.1 ∧
        ((∃ p, declaredName a.1 = some (if p = "" then none else some p) ∧
            a.2 = (binding h p).getD "") ∨ declaredName a.1 = none) := by
    intro outer h hwf a ha
    rw [tagAttributes, List.mem_append, List.mem_map, List.mem_map] at ha
    rcases ha with ⟨e, he, rfl⟩ | ⟨attr, hattr, rfl⟩
    · obtain ⟨hdecl, hname, hvalue⟩ := entry_written hwf he
      exact ⟨hname, .inl ⟨e.1, hdecl, hvalue⟩⟩
    · have hmem := (mem_attributesToRender hwf).1 hattr
      exact ⟨(isName_of_declared hwf (hwf.attributeDeclared attr hmem).1).1,
        .inr (declaredName_qname hwf hmem)⟩
  have hvalues : ∀ a ∈ tagAttributes inclusive rendered h,
    ∀ b ∈ tagAttributes inclusive rendered h',
      a.1 = b.1 → a.2 = b.2 ∨ (∀ c ∈ a.2.toList, (canonicalStyle.value a.1).Writable c) ∧
        ∀ c ∈ b.2.toList, (canonicalStyle.value a.1).Writable c := by
    intro a ha b hb hkey
    rcases (hcases hwf a ha).2 with ⟨p, hdecl, hvalue⟩ | hdecl
    · rcases (hcases hwf' b hb).2 with ⟨p', hdecl', hvalue'⟩ | hdecl'
      · -- the same prefix, with the same declarations in scope
        rw [hkey, hdecl', Option.some.injEq] at hdecl
        refine .inl ?_
        rw [hvalue, hvalue', binding, binding, hscope, hdecl]
      · rw [hkey, hdecl'] at hdecl
        cases hdecl
    · refine .inr ⟨fun c _ => ?_, fun c _ => ?_⟩
      all_goals
        simp only [canonicalStyle, hdecl]
        trivial
  exact ⟨hqname, Markup.attributes_inj (fun a ha => (hcases hwf a ha).1)
    (fun b hb => (hcases hwf' b hb).1) hvalues htags⟩

/-- **A start tag that is canonicalised alike before and after kept its prefixes.** -/
theorem kept_of_tag_eq (anc : List (List Namespace)) (hwf : h.WellFormed scope)
    (hwf' : (resolveHead scope (elementQname anc h) (serialAttributes anc h)).WellFormed scope)
    (hqname : h.qname = elementQname anc h)
    (htags : tagAttributes inclusive rendered h = tagAttributes inclusive rendered
      (resolveHead scope (elementQname anc h) (serialAttributes anc h))) : Head.Kept h := by
  refine ⟨(elementQname_eq_iff hwf).1 hqname.symm, fun a ha => ?_⟩
  suffices hkeeps : attributeQname anc h a = a.qname from (attributeQname_eq_iff hwf ha).1 hkeeps
  rcases hwf.attribute_cases ha with ⟨-, hname, -, -, hns⟩ | ⟨hsplit, -, hns⟩ | ⟨p, uri,
    hsplit, -, hns, hp⟩
  · simp [attributeQname, hns, nsXml, hname]
  · simp [attributeQname, hns, eq_qualified hsplit]
  · -- some attribute of the copy has this name
    have hmem : (a.qname, a.value) ∈ tagAttributes inclusive rendered h :=
      List.mem_append_right _ (List.mem_map.mpr ⟨a, (mem_attributesToRender hwf).2 ha, rfl⟩)
    rw [htags, tagAttributes, List.mem_append, List.mem_map, List.mem_map] at hmem
    have hb : ∃ b ∈ h.attributes, attributeQname anc h b = a.qname := by
      rcases hmem with ⟨e, he, heq⟩ | ⟨b', hb', heq⟩
      · have hdecl := (entry_written hwf' he).1
        rw [(Prod.mk.inj heq).1, declaredName_qname hwf ha] at hdecl
        cases hdecl
      · have hb := (mem_attributesToRender hwf').1 hb'
        rw [(resolveHead_serial anc hwf hwf').2, List.mem_map] at hb
        obtain ⟨b, hb, rfl⟩ := hb
        exact ⟨b, hb, (Prod.mk.inj heq).1⟩
    obtain ⟨b, hb, hbq⟩ := hb
    -- its prefix has one meaning, so the two attributes have one name
    rcases attributeQname_cases anc hwf hb with ⟨hq, hnc, -⟩ | ⟨p', uri', hq, hpnc, -, -, hns', hp'⟩
    · rw [← hbq, hq, splitOnce_eq_none hnc.2] at hsplit
      cases hsplit
    · rw [← hbq, hq, splitOnce_qualified hpnc.2, Option.some.injEq, Prod.mk.injEq] at hsplit
      obtain ⟨rfl, hlocal⟩ := hsplit
      obtain rfl : uri' = uri := Option.some.inj (hp'.symm.trans hp.lookupPrefix_eq)
      have hname : b.name = a.name := by
        cases hbn : b.name with
        | mk ns name =>
          cases han : a.name with
          | mk ns' name' =>
            rw [hbn] at hns' hlocal
            rw [han] at hns hlocal
            rw [show ns = some uri' from hns', show ns' = some uri' from hns,
              show name = name' from hlocal]
      rw [← List.inj_on_of_nodup_map hwf.attributesUnique hb ha hname]
      exact hbq.trans (by rw [List.inj_on_of_nodup_map hwf.attributesUnique hb ha hname])

end StartTag

/-! ## Whole elements -/

theorem canonicalizeNodes_textCons (inclusive : List String) (ancestors : List (List Namespace))
    (rendered : Rendered) (c : Char) (nodes : Nodes) :
    (canonicalizeNodes inclusive ancestors rendered (textCons c nodes)).toList =
      textEscapes.write c ++ (canonicalizeNodes inclusive ancestors rendered nodes).toList := by
  have hone : (escapeText (String.singleton c)).toList = textEscapes.write c := by
    rw [toList_escapeText, String.toList_singleton, Coding.writeAll_cons]
    exact List.append_nil _
  have hcons : ∀ s, (escapeText (String.singleton c ++ s)).toList =
      textEscapes.write c ++ (escapeText s).toList := by
    intro s
    rw [toList_escapeText, toList_escapeText, String.toList_append, String.toList_singleton,
      List.singleton_append, Coding.writeAll_cons]
    rfl
  have hown : (canonicalizeNodes inclusive ancestors rendered
    (.text (String.singleton c) nodes)).toList =
      textEscapes.write c ++ (canonicalizeNodes inclusive ancestors rendered nodes).toList := by
    rw [canonicalizeNodes, String.toList_append, hone]
  cases nodes with
  | text s rest =>
    rw [textCons, canonicalizeNodes, canonicalizeNodes, String.toList_append, String.toList_append,
      hcons, List.append_assoc]
  | nil => exact hown
  | misc rest => exact hown
  | element head children rest => exact hown

/-- Text that is read back character by character is canonicalised as it was. -/
theorem canonicalizeNodes_chars (inclusive : List String) (ancestors : List (List Namespace))
    (rendered : Rendered) (outer : List Namespace) (s : String) (rest : Markup) :
    (canonicalizeNodes inclusive ancestors rendered (toNodes outer (chars s rest))).toList =
      (escapeText s).toList ++
        (canonicalizeNodes inclusive ancestors rendered (toNodes outer rest)).toList := by
  rw [toList_escapeText, chars]
  induction s.toList with
  | nil => rfl
  | cons c cs ih =>
    rw [List.foldr_cons, toNodes, canonicalizeNodes_textCons, ih, Coding.writeAll_cons,
      List.append_assoc]
    rfl

section Elements

variable {nodes : Nodes} {outer : List Namespace} {ancestors : List (List Namespace)}
  {inclusive : List String} {rendered : Rendered}

/-- The canonical text does not depend on the ancestors. -/
theorem canonicalizeNodes_ancestors {ancestors' : List (List Namespace)}
    (hwf : nodes.WellFormed outer) (hcover : Covers outer ancestors)
    (hcover' : Covers outer ancestors') :
    (canonicalizeNodes inclusive ancestors rendered nodes).toList =
      (canonicalizeNodes inclusive ancestors' rendered nodes).toList := by
  induction nodes generalizing outer ancestors ancestors' rendered with
  | nil => rfl
  | text s rest ih =>
    rw [canonicalizeNodes, canonicalizeNodes, String.toList_append, String.toList_append,
      ih hwf hcover hcover']
  | misc rest ih => exact ih hwf hcover hcover'
  | element head children rest ihChildren ihRest =>
    obtain ⟨hown, hbelow⟩ := hcover.child hwf.1
    obtain ⟨hown', hbelow'⟩ := hcover'.child hwf.1
    rw [toList_canonicalizeNodes_element hwf.1 hown, toList_canonicalizeNodes_element hwf.1 hown',
      ihChildren hwf.2.1 hbelow hbelow', ihRest hwf.2.2 hcover hcover']

variable (ancestors) in
/-- Where all prefixes are kept, an element is written as it was. -/
theorem serialMarkup_of_kept (hwf : nodes.WellFormed outer) (hkept : nodes.All Head.Kept) :
    serialMarkup ancestors nodes = sourceMarkup nodes := by
  induction nodes generalizing outer ancestors with
  | nil => rfl
  | text s rest ih => rw [serialMarkup, sourceMarkup, ih _ hwf hkept]
  | misc rest ih => exact ih _ hwf hkept
  | element head children rest ihChildren ihRest =>
    obtain ⟨hqname, hattributes⟩ := serialAttributes_of_kept ancestors hwf.1 hkept.1
    rw [serialMarkup, sourceMarkup, hqname, hattributes, ihChildren _ hwf.2.1 hkept.2.1,
      ihRest _ hwf.2.2 hkept.2.2]

/-- What is read back from an element that was written as it was has its canonical text. -/
theorem canonicalizeNodes_toNodes_source (hwf : nodes.WellFormed outer)
    (hcover : Covers outer ancestors) :
    (canonicalizeNodes inclusive ancestors rendered (toNodes outer (sourceMarkup nodes))).toList =
      (canonicalizeNodes inclusive ancestors rendered nodes).toList := by
  induction nodes generalizing outer ancestors rendered with
  | nil => rfl
  | text s rest ih =>
    rw [sourceMarkup, canonicalizeNodes_chars, canonicalizeNodes, String.toList_append,
      ih hwf hcover]
  | misc rest ih => exact ih hwf hcover
  | element head children rest ihChildren ihRest =>
    obtain ⟨hown, hbelow⟩ := hcover.child hwf.1
    simp only [sourceMarkup, toNodes, resolveHead_source hwf.1]
    rw [toList_canonicalizeNodes_element hwf.1 hown, toList_canonicalizeNodes_element hwf.1 hown,
      ihChildren hwf.2.1 hbelow, ihRest hwf.2.2 hcover]

/-- What is written as it was is read back as something well formed. -/
theorem wellFormed_toNodes_source (hwf : nodes.WellFormed outer) :
    (toNodes outer (sourceMarkup nodes)).WellFormed outer := by
  induction nodes generalizing outer with
  | nil => trivial
  | text _ rest ih => exact wellFormed_chars.mpr (ih hwf)
  | misc rest ih => exact ih hwf
  | element head children rest ihChildren ihRest =>
    simp only [sourceMarkup, toNodes, resolveHead_source hwf.1]
    exact ⟨hwf.1, ihChildren hwf.2.1, ihRest hwf.2.2⟩

end Elements

/-- **Where the canonical texts before and after are the same, all prefixes were kept.**  By
induction on the nodes, with what follows them: the texts agree up to the end of a start tag, which
makes the copy of the tag the tag itself, and so on with the content. -/
theorem kept_of_canonical_eq (inclusive : List String) (nodes : Nodes) {scope : List Namespace}
    (anc : List (List Namespace)) {ancestors : List (List Namespace)} {rendered : Rendered}
    {after after' : List Char} (hwf : nodes.WellFormed scope) (hcover : Covers scope ancestors)
    (hwf' : (toNodes scope (serialMarkup anc nodes)).WellFormed scope)
    (h : (canonicalizeNodes inclusive ancestors rendered nodes).toList ++ after =
      (canonicalizeNodes inclusive ancestors rendered
        (toNodes scope (serialMarkup anc nodes))).toList ++ after') :
    nodes.All Head.Kept ∧ after = after' := by
  induction nodes generalizing scope anc ancestors rendered after after' with
  | nil => exact ⟨trivial, h⟩
  | text s rest ih =>
    rw [serialMarkup, canonicalizeNodes_chars, canonicalizeNodes, String.toList_append,
      List.append_assoc, List.append_assoc] at h
    exact ih anc hwf hcover (wellFormed_chars.mp hwf') (List.append_cancel_left h)
  | misc rest ih => exact ih anc hwf hcover hwf' h
  | element head children rest ihchildren ihrest =>
    obtain ⟨hhead, hchildren, hrest⟩ := hwf
    rw [serialMarkup, toNodes] at hwf' h
    obtain ⟨hhead', hchildren', hrest'⟩ := hwf'
    obtain ⟨hown, hbelow⟩ := hcover.child hhead
    obtain ⟨hscope, -⟩ := resolveHead_serial anc hhead hhead'
    have hown' : Covers (resolveHead scope (elementQname anc head)
        (serialAttributes anc head)).namespaces ancestors := by rwa [hscope]
    rw [toList_canonicalizeNodes_element hhead hown,
      toList_canonicalizeNodes_element hhead' hown'] at h
    simp only [List.cons_append, List.append_assoc, List.cons.injEq, true_and] at h
    obtain ⟨hqname, htags, hcontent⟩ := tag_eq_of_written hhead hhead' hscope h
    have hkept := kept_of_tag_eq anc hhead hhead' hqname htags
    -- so the copy of the tag is the tag itself
    obtain ⟨helement, hattributes⟩ := serialAttributes_of_kept anc hhead hkept
    have hcopy : resolveHead scope (elementQname anc head) (serialAttributes anc head) = head := by
      rw [helement, hattributes, resolveHead_source hhead]
    rw [hcopy] at hcontent hchildren'
    obtain ⟨hkchildren, hend⟩ := ihchildren _ hchildren hbelow hchildren' hcontent
    simp only [List.cons.injEq, true_and, List.append_cancel_left_eq] at hend
    obtain ⟨hkrest, hafter⟩ := ihrest anc hrest hcover hrest' hend
    exact ⟨⟨hkept, hkchildren, hkrest⟩, hafter⟩

/-! ## The detour -/

/-- What more is assumed of the XML parser: an element of a document it accepted, written with its
own names and without some node in it, is accepted again. -/
structure ReadsXml (parseXml : String → Except String Xml.Document) : Prop extends
    ParsesXml parseXml where
  accepts : ∀ (text : String) (doc : Xml.Document) (e : Node) (exclude : List Nat),
    parseXml text = .ok doc → e ∈ doc.descendants →
      ∃ copy, parseXml (sourceText (pruneElement exclude e.path e.element)) = .ok copy

theorem readsXml_parseMarkup : ReadsXml parseMarkup where
  toParsesXml := parsesXml_parseMarkup
  accepts := by
    intro text doc e exclude hdoc he
    have hwf := wellFormed_of_mem_descendants (parsesXml_parseMarkup.parse_wellFormed _ _ hdoc) he
    have hpruned := wellFormed_asNodes (wellFormed_pruneElement exclude e.path hwf)
    refine ⟨⟨toNodes [] (sourceMarkup (asNodes (pruneElement exclude e.path e.element)))⟩, ?_⟩
    have hread := Markup.read_render (valid_source hpruned)
    rw [asNodes] at hread
    rw [parseMarkup, sourceText, String.toList_ofList, hread]
    exact if_pos (wellFormed_toNodes_source hpruned)

/-- An element without the node at a place. -/
def without (e : Node) (place : List Nat) : Node :=
  { e with element := pruneElement place e.path e.element }

/-- The copy is canonicalised as a document of its own. -/
theorem c14nExcludingSignature_of_copy {libs : Libraries} {e s : Node} {m : Element}
    (inclusive : List String)
    (hparse : libs.parseXml (serializeNodeExcl e s.path) =
      .ok ⟨toNodes [] (sourceMarkup (asNodes m))⟩) :
    c14nExcludingSignature libs e s inclusive =
      .ok (canonicalizeNodes inclusive [] [] (toNodes [] (sourceMarkup (asNodes m)))) := by
  rw [c14nExcludingSignature_of_parse inclusive hparse rfl]
  rfl

/-- **The detour gives the canonical text exactly when all prefixes are kept.**  For an element of a
document that was parsed, a signature anywhere but at the element itself, and any list of inclusive
prefixes: what `c14n_excluding_signature` returns is the canonical text of the element without the
signature if and only if each start tag in that, and each attribute, was written with the first of
the declarations of its namespace in scope. -/
theorem enveloped_c14n_iff {libs : Libraries} (hparser : ReadsXml libs.parseXml) {text : String}
    {doc : Xml.Document} (hdoc : libs.parseXml text = .ok doc) {e s : Node}
    (he : e ∈ doc.descendants) (hplace : e.path ≠ s.path) (inclusive : List String) :
    c14nExcludingSignature libs e s inclusive = .ok (exclusiveC14n (without e s.path) inclusive) ↔
      (asNodes (without e s.path).element).All Head.Kept := by
  obtain ⟨inner, hlocated, hcover⟩ :=
    covers_of_mem_descendants (hparser.parse_wellFormed _ _ hdoc) he
  have hwf : (asNodes (without e s.path).element).WellFormed inner :=
    ⟨hlocated.1, wellFormed_prune hlocated.2.1, trivial⟩
  have hwf₀ : (asNodes (without e s.path).element).WellFormed [] :=
    wellFormed_asNodes ⟨inner, hwf.1, hwf.2.1⟩
  obtain ⟨below, i, hpath, -⟩ := descendants_path he
  have hwritten := serializeNodeExcl_eq (by simp [hpath]) hplace
  have hvalid := valid_serialMarkup e.ancestors hwf₀
  have hdirect : (exclusiveC14n (without e s.path) inclusive).toList =
      (canonicalizeNodes inclusive [] [] (asNodes (without e s.path).element)).toList :=
    canonicalizeNodes_ancestors hwf hcover covers_nil
  constructor
  · intro h
    obtain ⟨copy, hcopy, h⟩ := bind_eq_ok.mp h
    obtain ⟨root, hroot, h⟩ := bind_eq_ok.mp h
    rw [mapError_eq_ok, hwritten] at hcopy
    rw [okOr_eq_ok] at hroot
    obtain rfl := hparser.parse_written _ _ _ copy hvalid hcopy
    cases hroot
    have htext := congrArg String.toList (Except.ok.inj h)
    rw [hdirect] at htext
    have htexts : (canonicalizeNodes inclusive [] []
      (asNodes (without e s.path).element)).toList ++ [] =
        (canonicalizeNodes inclusive [] [] (toNodes []
          (serialMarkup e.ancestors (asNodes (without e s.path).element)))).toList ++ [] :=
      congrArg (· ++ []) htext.symm
    exact (kept_of_canonical_eq inclusive _ e.ancestors hwf₀ covers_nil
      (hparser.parse_wellFormed _ _ hcopy) htexts).1
  · intro hkept
    have hsource := serialMarkup_of_kept e.ancestors hwf₀ hkept
    obtain ⟨copy, hcopy⟩ := hparser.accepts text doc e s.path hdoc he
    rw [hsource] at hvalid
    obtain rfl := hparser.parse_written _ _ _ copy hvalid hcopy
    have hparse : libs.parseXml (serializeNodeExcl e s.path) = .ok ⟨toNodes []
        (sourceMarkup (asNodes (without e s.path).element))⟩ := by
      rw [hwritten]
      show libs.parseXml (String.ofList ((serialMarkup e.ancestors
        (asNodes (without e s.path).element)).render writtenStyle)) = _
      rw [hsource]
      exact hcopy
    rw [c14nExcludingSignature_of_copy inclusive hparse]
    refine congrArg Except.ok (String.toList_inj.mp ?_)
    rw [hdirect]
    exact canonicalizeNodes_toNodes_source hwf₀ covers_nil

/-! ### Two prefixes for one namespace -/

/-- `u` has two prefixes. -/
def aliasScope : List Namespace := [⟨some "a", "u"⟩, ⟨some "b", "u"⟩, ⟨some "ds", nsDs⟩]

/-- An element in `u`, by the prefix `p`, with its signature in it. -/
def aliasElement (p : String) : Element where
  head := plainHead aliasScope p "u" "e" []
  children := .element (plainHead aliasScope "ds" nsDs "Signature" []) .nil .nil

/-- The element is the root of its document. -/
def aliasNode (p : String) : Node := ⟨aliasElement p, [0], []⟩

/-- The signature at its place. -/
def aliasSignature : Node :=
  ⟨⟨plainHead aliasScope "ds" nsDs "Signature" [], .nil⟩, [0, 0], [aliasScope]⟩

/-- What is read back of the element without its signature. -/
def aliasCopy : Element := ⟨plainHead aliasScope "a" "u" "e" [], .nil⟩

theorem parse_aliasElement {p : String} (hwf : (asNodes (aliasElement p)).WellFormed []) :
    (sampleLibraries .once).parseXml (sourceText (aliasElement p)) =
      .ok ⟨asNodes (aliasElement p)⟩ :=
  parse_asNodes hwf (show Solid (aliasElement p).children from ⟨trivial, trivial⟩)

theorem aliasNode_mem (p : String) :
    aliasNode p ∈ (Xml.Document.mk (asNodes (aliasElement p))).descendants := List.mem_cons_self

theorem aliasSignature_mem (p : String) : aliasSignature ∈ (aliasNode p).children :=
  List.mem_cons_self

/-- By the first of its prefixes. -/
theorem enveloped_c14n_first_prefix :
    c14nExcludingSignature (sampleLibraries .once) (aliasNode "a") aliasSignature [] =
      .ok (exclusiveC14n (without (aliasNode "a") aliasSignature.path) []) := by
  have hparser : ReadsXml (sampleLibraries .once).parseXml := readsXml_parseMarkup
  have hparse := parse_aliasElement (p := "a") (by decide +kernel)
  have hplace : (aliasNode "a").path ≠ aliasSignature.path := by decide
  refine (enveloped_c14n_iff hparser hparse (aliasNode_mem "a") hplace []).2 ?_
  exact ⟨by decide +kernel, trivial, trivial⟩

/-- **The other prefix is not kept.**  `<b:e xmlns:a="u" xmlns:b="u">` is written out as `<a:e …>`,
and that is what the digest is computed of; a signer canonicalises the element with the prefix it
has. -/
theorem prefix_exchanged :
    (sampleLibraries .once).parseXml (sourceText (aliasElement "b")) =
      .ok ⟨asNodes (aliasElement "b")⟩ ∧
      aliasNode "b" ∈ (Xml.Document.mk (asNodes (aliasElement "b"))).descendants ∧
      aliasSignature ∈ (aliasNode "b").children ∧
      aliasSignature.element.hasTagName nsDs "Signature" = true ∧
      c14nExcludingSignature (sampleLibraries .once) (aliasNode "b") aliasSignature [] =
        .ok "<a:e xmlns:a=\"u\"></a:e>" ∧
      exclusiveC14n (without (aliasNode "b") aliasSignature.path) [] =
        "<b:e xmlns:b=\"u\"></b:e>" := by
  refine ⟨parse_aliasElement (by decide +kernel), aliasNode_mem "b",
    aliasSignature_mem "b", by decide, ?_,
    by decide +kernel⟩
  have hwritten : serializeNodeExcl (aliasNode "b") aliasSignature.path = sourceText aliasCopy := by
    decide +kernel
  have hcopy : (sampleLibraries .once).parseXml (sourceText aliasCopy) = .ok ⟨asNodes aliasCopy⟩ :=
    parse_asNodes (show (asNodes aliasCopy).WellFormed [] by decide +kernel)
      (show Solid aliasCopy.children from trivial)
  rw [← hwritten] at hcopy
  have hroot : (Xml.Document.mk (asNodes aliasCopy)).rootElements.head? =
    some ⟨aliasCopy, [0], []⟩ := rfl
  have htext : exclusiveC14n ⟨aliasCopy, [0], []⟩ [] = "<a:e xmlns:a=\"u\"></a:e>" := by
    decide +kernel
  rw [c14nExcludingSignature_of_parse [] hcopy hroot, htext]

end Vouch.Saml
