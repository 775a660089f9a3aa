import Vouch.Lib.Base64
import Vouch.Saml.Content
import Vouch.Saml.Infoset

/-!
# What is used is what was signed

Two SAML responses whose signed elements have one canonical text get one answer.  The digest is
computed over a copy of the signed element that was written out and parsed again, while the
validator reads the element itself; `Vouch.Saml.Canonical` and `Vouch.Saml.Content` connect both to
the content of the element, and this file puts them together.

* `SignedResponse` — a response as the validator finds it: decoded, verified, with the signed
  element where it belongs, and one assertion at most.
* `bareElement_eq_of_canonical` — two signed elements with one canonical text look the same to the
  validator.
* `same_verdict` — **the validator gives the same answer to both.**
* `Sample`, `Fits` — two responses with real signatures, the start tag of their conditions written
  in several ways.
* `one_signature_two_answers` — why the theorem excludes quotation marks in names of namespaces and
  two attributes of one local name, and asks for one assertion.
-/

namespace Vouch.Saml

open Xml
open Result (bind_eq_ok ok_bind)

variable {ε α : Type}

theorem throw_bind_ne_ok {β : Type} {e : ε} {f : α → Except ε β} {b : β} :
    ((throw e : Except ε α) >>= f) ≠ .ok b := by
  intro h
  exact absurd h (by simp [bind, Except.bind, throw, throwThe, MonadExceptOf.throw])

theorem okOr_eq_ok {e : ε} {o : Option α} {a : α} : okOr e o = .ok a ↔ o = some a := by
  cases o with
  | none => simp [okOr]
  | some b => simp [okOr]

theorem mapError_eq_ok {ε' : Type} {f : ε → ε'} {x : Except ε α} {a : α} :
    x.mapError f = .ok a ↔ x = .ok a := by
  cases x with
  | error e => simp [Except.mapError]
  | ok b => simp [Except.mapError]

variable {doc : Xml.Document}

/-- The prefixes that the transforms of a signature list as inclusive. -/
def transformPrefixes (sig : Node) : List String :=
  let reference := (findChildElement sig nsDs "SignedInfo").bind fun signedInfo =>
    (signedInfo.children.filter (·.element.hasTagName nsDs "Reference")).head?
  extractInclusivePrefixes (reference.bind (findChildElement · nsDs "Transforms"))

/-- What a verified signature is about. -/
theorem checkXmlSignature_ok {libs : Libraries} {certs : List (List UInt8)} {v : Verified}
    (h : checkXmlSignature libs doc certs = .ok v) :
    ∃ sig signed, findSamlSignature doc = some sig ∧
      findElementById doc v.elementId = some signed ∧
      c14nExcludingSignature libs signed sig (transformPrefixes sig) = .ok v.canonicalElement := by
  unfold checkXmlSignature at h
  obtain ⟨sig, hsig, h⟩ := bind_eq_ok.mp h
  obtain ⟨signedInfo, hinfo, h⟩ := bind_eq_ok.mp h
  simp only at h
  split at h
  · exact absurd h throw_bind_ne_ok
  · obtain ⟨reference, hreference, h⟩ := bind_eq_ok.mp h
    obtain ⟨refUri, -, h⟩ := bind_eq_ok.mp h
    obtain ⟨elementId, -, h⟩ := bind_eq_ok.mp h
    obtain ⟨signed, hsigned, h⟩ := bind_eq_ok.mp h
    obtain ⟨canonical, hcanonical, h⟩ := bind_eq_ok.mp h
    obtain ⟨digestValue, -, h⟩ := bind_eq_ok.mp h
    obtain ⟨expected, -, h⟩ := bind_eq_ok.mp h
    split at h
    · exact absurd h throw_bind_ne_ok
    · obtain ⟨sigValue, -, h⟩ := bind_eq_ok.mp h
      obtain ⟨sigBytes, -, h⟩ := bind_eq_ok.mp h
      obtain ⟨algorithm, -, h⟩ := bind_eq_ok.mp h
      obtain ⟨u, -, h⟩ := bind_eq_ok.mp h
      cases h
      refine ⟨sig, signed, okOr_eq_ok.mp hsig, okOr_eq_ok.mp hsigned, ?_⟩
      rw [transformPrefixes, okOr_eq_ok.mp hinfo, Option.bind_some, okOr_eq_ok.mp hreference]
      exact hcanonical

variable {root : Node}

/-- Where the signed element stands, once its place is accepted. -/
theorem checkPlacement_ok {signed : Node} (h : checkPlacement root signed = .ok ()) :
    (signed.element.hasTagName nsSamlp "Response" = true ∨
        signed.element.hasTagName nsSaml "Assertion" = true) ∧
      (signed.element.hasTagName nsSamlp "Response" = true → signed.path = root.path) ∧
      (signed.element.hasTagName nsSaml "Assertion" = true →
        ∃ c ∈ root.children, c.path = signed.path) := by
  unfold checkPlacement at h
  simp only at h
  split at h
  · exact absurd h throw_bind_ne_ok
  · rename_i hkind
    split at h
    · exact absurd h throw_bind_ne_ok
    · rename_i hresponse
      split at h
      · exact absurd h nofun
      · rename_i hassertion
        simp only [List.any_eq_true, decide_eq_true_eq, not_and, not_not]
          at hkind hresponse hassertion
        exact ⟨or_iff_not_imp_left.mpr hkind, hresponse, hassertion⟩

/-! ## The digested text -/

variable {e : Element}

theorem wellFormed_asNodes (hwf : Element.WellFormed e) : (asNodes e).WellFormed [] := by
  obtain ⟨outer, hhead, hchildren⟩ := hwf
  refine ⟨⟨hhead.allowed, hhead.unique, ?_, hhead.tagDeclared, hhead.tagName,
    hhead.tag_ne_xml, hhead.attributeDeclared, hhead.attributeName, hhead.attributesUnique⟩,
      hchildren, trivial⟩
  intro n hn
  exact absurd hn (by simp)

variable {node : Node}

/-- The text that is parsed again is the written form of the element without the signature. -/
theorem serializeNodeExcl_eq {exclude : List Nat} (hplace : node.path ≠ [])
    (hne : node.path ≠ exclude) :
    serializeNodeExcl node exclude = String.ofList
      ((serialMarkup node.ancestors (asNodes (pruneElement exclude node.path node.element))).render
        writtenStyle) := by
  cases hpath : node.path with
  | nil => exact absurd hpath hplace
  | cons i path =>
    rw [hpath] at hne
    rw [← String.toList_inj, String.toList_ofList, serializeNodeExcl, serializeNodes_eq, hpath]
    rw [List.tail_cons, List.headD_cons, prune, if_neg hne]
    rfl

/-- The text the digest is computed of is the canonical text of a well-formed element that looks to
the validator like the signed element. -/
theorem content_of_canonical {libs : Libraries} (hparse : ParsesXml libs.parseXml) {sig : Node}
    {inclusive : List String} {text : String}
    (h : c14nExcludingSignature libs node sig inclusive = .ok text) (hplace : node.path ≠ [])
    (hne : node.path ≠ sig.path) (hwf : Element.WellFormed node.element)
    (hquotes : Quoteless inclusive (pruneElement sig.path node.path node.element)) :
    ∃ nodes : Nodes, nodes.WellFormed [] ∧ nodes.All (Head.Readable inclusive) ∧
      text = canonicalizeNodes inclusive [] [] nodes ∧
      bare nodes = bare (asNodes (pruneElement sig.path node.path node.element)) := by
  have hwf' := wellFormed_asNodes (wellFormed_pruneElement sig.path node.path hwf)
  obtain ⟨doc, hdoc, h⟩ := bind_eq_ok.mp h
  obtain ⟨root, hroot, h⟩ := bind_eq_ok.mp h
  rw [mapError_eq_ok, serializeNodeExcl_eq hplace hne] at hdoc
  rw [okOr_eq_ok] at hroot
  have hvalid := valid_serialMarkup node.ancestors hwf'
  have heq := hparse.parse_written _ _ _ doc hvalid hdoc
  have hread := hparse.parse_wellFormed _ doc hdoc
  refine ⟨doc.nodes, hread, ?_, ?_, ?_⟩
  · rw [heq] at hread ⊢
    exact readable_toNodes inclusive hwf' hread hquotes
  · cases h
    rw [heq] at hroot ⊢
    cases hroot
    rfl
  · rw [heq] at hread ⊢
    exact bare_toNodes hwf' hread

/-! ## What the rest of the validator reads -/

/-- The status code of a response. -/
def statusCode (response : Element) : Option String :=
  (response.child nsSamlp "Status").bind fun status =>
    (status.child nsSamlp "StatusCode").bind (·.attributeValue "Value")

/-- The checks of the response look at two attributes and the status code. -/
theorem toOption_checkResponse_congr {e₁ e₂ : Element}
    (hdestination : e₁.attributeValue "Destination" = e₂.attributeValue "Destination")
    (hrequest : e₁.attributeValue "InResponseTo" = e₂.attributeValue "InResponseTo")
    (hstatus : statusCode e₁ = statusCode e₂) (requestId : String) (provider : SamlProvider) :
    (checkResponse e₁ requestId provider).toOption =
      (checkResponse e₂ requestId provider).toOption := by
  have hvalidate : ∀ e, (validateStatus e).toOption = (statusCode e).bind fun value =>
      (do if value ≠ statusSuccess then throw (.statusNotSuccess value) :
        Except ResponseError Unit).toOption := by
    intro e
    simp only [validateStatus, toOption_bind, toOption_okOr, statusCode, Option.bind_assoc]
  simp only [checkResponse, hdestination, hrequest, apply_ite Except.toOption, toOption_bind,
    hvalidate, hstatus]

/-- The assertion in a signed element. -/
def assertionOf (e : Element) : Option Element :=
  if e.hasTagName nsSaml "Assertion" then some e else (e.childrenNamed nsSaml "Assertion").head?

/-! ## A signed response -/

theorem nsDs_ne_nsSaml : nsDs ≠ nsSaml := by decide

theorem nsDs_ne_nsSamlp : nsDs ≠ nsSamlp := by decide

theorem validate_of_verified {libs : Libraries} {provider : SamlProvider} {base64Response : String}
    {verified : Verified} {signed : Node} (hread : readDocument libs base64Response = .ok doc)
    (hcheck : checkXmlSignature libs doc provider.idpMetadata.signingCertificates = .ok verified)
    (hsigned : findElementById doc verified.elementId = some signed)
    (hroot : responseRoot doc = some root) (hplaced : checkPlacement root signed = .ok ())
    (requestId : String) (arrival : Timestamp) :
    validateSamlResponse libs base64Response requestId provider arrival =
      (do
        checkResponse root.element requestId provider
        let assertion ← selectAssertion root signed
        validateAssertion libs assertion requestId provider arrival) := by
  simp only [validateSamlResponse, hread, verifyXmlSignature, hcheck, Except.map,
    Except.mapError, ok_bind, hsigned, hroot, hplaced, okOr_some_bind]

/-- A response whose signature verifies, as the validator finds it: the signed element is where it
has to be, and there is one assertion at most. -/
structure SignedResponse (libs : Libraries) (provider : SamlProvider) (base64Response : String)
    where
  doc : Xml.Document
  sig : Node
  signed : Node
  root : Node
  verified : Verified
  read : readDocument libs base64Response = .ok doc
  verify : checkXmlSignature libs doc provider.idpMetadata.signingCertificates = .ok verified
  findSignature : findSamlSignature doc = some sig
  findSigned : findElementById doc verified.elementId = some signed
  findRoot : responseRoot doc = some root
  placed : checkPlacement root signed = .ok ()
  single : (root.element.childrenNamed nsSaml "Assertion").length ≤ 1

namespace SignedResponse

variable {libs : Libraries} {provider : SamlProvider} {base64Response : String}
  (r : SignedResponse libs provider base64Response)

/-- What is left to check after the signature. -/
theorem validate_eq (requestId : String) (arrival : Timestamp) :
    validateSamlResponse libs base64Response requestId provider arrival =
      (do
        checkResponse r.root.element requestId provider
        let assertion ← selectAssertion r.root r.signed
        validateAssertion libs assertion requestId provider arrival) :=
  validate_of_verified r.read r.verify r.findSigned r.findRoot r.placed requestId arrival

/-! ### Places -/

theorem root_mem_rootElements : r.root ∈ r.doc.rootElements :=
  List.mem_of_find?_eq_some r.findRoot

theorem length_path_root : r.root.path.length = 1 :=
  length_path_located r.root_mem_rootElements

theorem root_isResponse : r.root.element.hasTagName nsSamlp "Response" = true := by
  have h := r.findRoot
  rw [responseRoot] at h
  exact List.find?_some (p := fun n : Node => n.element.hasTagName nsSamlp "Response") h

variable {n : Node}

theorem root_mem : r.root ∈ r.doc.descendants := located_subset_descendants r.root_mem_rootElements

theorem signed_mem : r.signed ∈ r.doc.descendants := List.mem_of_find?_eq_some r.findSigned

theorem signatureBelow_some {sig : Node} (h : signatureBelow n = some sig) :
    sig ∈ n.children ∧ sig.element.hasTagName nsDs "Signature" = true :=
  ⟨List.mem_of_find?_eq_some h,
    List.find?_some (p := fun c : Node => c.element.hasTagName nsDs "Signature") h⟩

/-- The signature is a child of the response or of a child of it. -/
theorem sig_parent :
    ∃ parent ∈ r.doc.descendants, parent.path.length ≤ 2 ∧ r.sig ∈ parent.children ∧
    r.sig.element.hasTagName nsDs "Signature" = true := by
  have h := r.findSignature
  unfold findSamlSignature at h
  split at h
  · exact absurd h (by simp)
  · rename_i root hroot
    have hroot : root ∈ r.doc.rootElements := List.mem_of_head? hroot
    have hlength : root.path.length = 1 := length_path_located hroot
    cases hbelow : signatureBelow root with
    | some sig =>
      rw [hbelow] at h
      cases h
      exact ⟨root, located_subset_descendants hroot, by omega, signatureBelow_some hbelow⟩
    | none =>
      rw [hbelow] at h
      obtain ⟨child, hchild, hsig⟩ := List.exists_of_findSome?_eq_some h
      have hchild := (List.mem_filter.mp hchild).1
      have hlength' := length_path_located hchild
      exact ⟨child, children_subset_descendants (located_subset_descendants hroot) hchild, by omega,
        signatureBelow_some hsig⟩

theorem sig_mem : r.sig ∈ r.doc.descendants := by
  obtain ⟨parent, hparent, -, hsig, -⟩ := r.sig_parent
  exact children_subset_descendants hparent hsig

theorem length_path_sig : r.sig.path.length ≤ 3 := by
  obtain ⟨parent, -, hparent, hsig, -⟩ := r.sig_parent
  have hlength := length_path_located hsig
  omega

/-- What is at the place of the signature is the signature, and so has no other name. -/
theorem hasTagName_of_path_eq_sig (hn : n ∈ r.doc.descendants) (hpath : n.path = r.sig.path)
    {ns name : String} (hne : nsDs ≠ ns) : n.element.hasTagName ns name = false := by
  obtain rfl := descendants_path_unique hn r.sig_mem hpath
  obtain ⟨-, -, -, -, htag⟩ := r.sig_parent
  have htag : r.sig.element.head.tagName = ⟨some nsDs, "Signature"⟩ := of_decide_eq_true htag
  rw [Element.hasTagName, htag, decide_eq_false_iff_not]
  intro h
  exact hne (Option.some.inj (ExpandedName.mk.inj h).1)

/-- The signed element is the response, or an assertion directly below it. -/
theorem signed_cases :
    (r.signed = r.root ∧ r.signed.element.hasTagName nsSaml "Assertion" = false) ∨
      (r.signed ∈ r.root.children ∧ r.signed.element.hasTagName nsSaml "Assertion" = true) := by
  obtain ⟨hkind, hresponse, hchild⟩ := checkPlacement_ok r.placed
  cases hassertion : r.signed.element.hasTagName nsSaml "Assertion" with
  | true =>
    obtain ⟨c, hc, hpath⟩ := hchild hassertion
    have hc' := children_subset_descendants r.root_mem hc
    obtain rfl := descendants_path_unique hc' r.signed_mem hpath
    exact .inr ⟨hc, rfl⟩
  | false =>
    have hpath := hresponse (hkind.resolve_right (by simp [hassertion]))
    exact .inl ⟨descendants_path_unique r.signed_mem r.root_mem hpath, rfl⟩

/-! ### Content -/

/-- The signed element, without the signature. -/
def covered : Element := pruneElement r.sig.path r.signed.path r.signed.element

/-- The canonical text says what the validator reads in the signed element: no name of a namespace
with a quotation mark is written, and no start tag has two values for one local name. -/
structure Clean : Prop where
  quotes : Quoteless (transformPrefixes r.sig) r.covered
  definite : Element.Definite r.covered

theorem signed_path_ne_sig : r.signed.path ≠ r.sig.path := by
  intro h
  rcases (checkPlacement_ok r.placed).1 with hkind | hkind
  · exact absurd hkind (by simp [r.hasTagName_of_path_eq_sig r.signed_mem h nsDs_ne_nsSamlp])
  · exact absurd hkind (by simp [r.hasTagName_of_path_eq_sig r.signed_mem h nsDs_ne_nsSaml])

theorem signed_path_ne_nil : r.signed.path ≠ [] := by
  obtain ⟨below, j, hpath, -⟩ := descendants_path r.signed_mem
  simp [hpath]

section Parser

variable (hparse : ParsesXml libs.parseXml)
include hparse

theorem wellFormed : r.doc.nodes.WellFormed [] := by
  have h := r.read
  unfold readDocument at h
  obtain ⟨bytes, -, h⟩ := bind_eq_ok.mp h
  split at h
  · exact absurd h throw_bind_ne_ok
  · obtain ⟨xml, -, h⟩ := bind_eq_ok.mp h
    exact hparse.parse_wellFormed xml r.doc (mapError_eq_ok.mp h)

theorem wellFormed_element (hn : n ∈ r.doc.descendants) : Element.WellFormed n.element :=
  wellFormed_of_mem_descendants (r.wellFormed hparse) hn

/-- The digested text is the canonical text of something that looks like the signed element. -/
theorem content (hclean : r.Clean) :
    ∃ nodes : Nodes, nodes.WellFormed [] ∧ nodes.All (Head.Readable (transformPrefixes r.sig)) ∧
      r.verified.canonicalElement = canonicalizeNodes (transformPrefixes r.sig) [] [] nodes ∧
      bare nodes = bare (asNodes r.covered) := by
  obtain ⟨sig, signed, hsig, hsigned, h⟩ := checkXmlSignature_ok r.verify
  obtain rfl := Option.some.inj (hsig.symm.trans r.findSignature)
  obtain rfl := Option.some.inj (hsigned.symm.trans r.findSigned)
  exact content_of_canonical hparse h r.signed_path_ne_nil r.signed_path_ne_sig
    (r.wellFormed_element hparse r.signed_mem) hclean.quotes

end Parser

variable (hentity : provider.idpMetadata.entityId ≠ "") (hsp : provider.spEntityId ≠ "")
include hentity hsp

/-- No check of an assertion of the document sees the signature. -/
theorem validateAssertion_prune (hn : n ∈ r.root.children)
    (hdef : Element.Definite (pruneElement r.sig.path n.path n.element)) (requestId : String)
    (now : Timestamp) :
    (validateAssertion libs (bareElement (pruneElement r.sig.path n.path n.element)) requestId
        provider now).toOption =
      (validateAssertion libs n.element requestId provider now).toOption := by
  have hmem := children_subset_descendants r.root_mem hn
  have hlength : n.path.length = 2 := by
    have hroot := r.length_path_root
    have hchild := length_path_located hn
    omega
  have hlen := r.length_path_sig
  rw [validateAssertion_bareElement libs hdef requestId hentity hsp now]
  congr 1
  refine validateAssertion_congr libs (fun name => ?_) requestId provider now
  refine child_pruneElement n.scopes (by omega) fun c hc hpath => ?_
  exact r.hasTagName_of_path_eq_sig (children_subset_descendants hmem hc) hpath nsDs_ne_nsSaml

/-- The answer to the assertion that is consumed, in terms of what is signed. -/
theorem select_eq (hclean : r.Clean) (requestId : String) (now : Timestamp) :
    (selectAssertion r.root r.signed >>= fun a =>
        validateAssertion libs a requestId provider now).toOption =
      (assertionOf (bareElement r.covered)).bind fun a =>
        (validateAssertion libs a requestId provider now).toOption := by
  have hmany : ¬ 1 < (r.root.element.childrenNamed nsSaml "Assertion").length := by
    have hsingle := r.single
    omega
  have htag : (bareElement r.covered).hasTagName nsSaml "Assertion" =
      r.signed.element.hasTagName nsSaml "Assertion" :=
    hasTagName_bareElement nsSaml_ne_empty "Assertion" r.covered
  rw [assertionOf, htag]
  rcases r.signed_cases with ⟨hroot, hassertion⟩ | ⟨hchild, hassertion⟩
  · -- the response is signed: its assertion is a child of it, and the signature is below either
    have hselect : selectAssertion r.root r.signed =
        okOr .noAssertion (r.root.element.childrenNamed nsSaml "Assertion").head? := by
      have hresponse := r.root_isResponse
      rw [← hroot] at hresponse
      simp [selectAssertion, hmany, hassertion, hresponse]
    have hchildren : r.root.element.childrenNamed nsSaml "Assertion" =
        (r.root.children.filter (·.element.hasTagName nsSaml "Assertion")).map (·.element) := by
      rw [Element.childrenNamed, ← map_element_located r.root.scopes _ r.root.path 0,
        List.filter_map]
      rfl
    have hnamed : r.covered.childrenNamed nsSaml "Assertion" =
        (r.root.children.filter (·.element.hasTagName nsSaml "Assertion")).map fun n =>
          pruneElement r.sig.path n.path n.element := by
      rw [covered, hroot]
      refine childrenNamed_pruneElement r.root.scopes fun n hn hpath => ?_
      have hn := children_subset_descendants r.root_mem hn
      exact r.hasTagName_of_path_eq_sig hn hpath nsDs_ne_nsSaml
    rw [hselect, hassertion, hchildren, childrenNamed_bareElement nsSaml_ne_empty,
      hnamed, List.map_map, List.head?_map, List.head?_map]
    cases hhead : (r.root.children.filter (·.element.hasTagName nsSaml "Assertion")).head? with
    | none => rfl
    | some n =>
      have hn := List.mem_of_head? hhead
      have hmem : pruneElement r.sig.path n.path n.element ∈ r.covered.childrenNamed nsSaml
        "Assertion" := by
        rw [hnamed]
        exact List.mem_map_of_mem hn
      exact (r.validateAssertion_prune hentity hsp (List.mem_filter.mp hn).1
        (hclean.definite.childrenNamed hmem) requestId now).symm
  · -- the assertion is signed
    have hselect : selectAssertion r.root r.signed = .ok r.signed.element := by
      simp [selectAssertion, hmany, hassertion]
      rfl
    rw [hselect, hassertion]
    exact (r.validateAssertion_prune hentity hsp hchild hclean.definite requestId now).symm

/-- The whole answer, in terms of what is signed. -/
theorem verdict_eq (hclean : r.Clean) (requestId : String) (now : Timestamp) :
    (validateSamlResponse libs base64Response requestId provider now).toOption =
      (checkResponse r.root.element requestId provider).toOption.bind fun _ =>
        (assertionOf (bareElement r.covered)).bind fun a =>
          (validateAssertion libs a requestId provider now).toOption := by
  rw [r.validate_eq, toOption_bind, r.select_eq hentity hsp hclean]

end SignedResponse

/-! ## Signed responses

Two responses whose assertions are signed.  The conditions of an assertion are a parameter: they are
written in several ways, so that the signature still verifies. -/

/-- The two responses: the conditions limit the time once, or once more in another namespace. -/
inductive Sample where
  | once
  | twice

/-- The declarations of the prefixes in the responses. -/
def sampleScope : List Namespace :=
  [⟨some "samlp", nsSamlp⟩, ⟨some "saml", nsSaml⟩, ⟨some "ds", nsDs⟩]

/-- A start tag with a prefix and with attributes in no namespace. -/
def plainHead (namespaces : List Namespace) (p uri name : String)
    (attributes : List (String × String)) : Head where
  tagName := ⟨some uri, name⟩
  qname := p ++ ":" ++ name
  namespaces
  attributes := attributes.map fun a => plainAttribute a.1 a.2

/-- An element of an assertion. -/
def samlNode (name : String) (attributes : List (String × String)) (children rest : Nodes) :
    Nodes :=
  .element (plainHead sampleScope "saml" nsSaml name attributes) children rest

/-- An element of the protocol. -/
def samlpNode (name : String) (attributes : List (String × String)) (children rest : Nodes) :
    Nodes :=
  .element (plainHead sampleScope "samlp" nsSamlp name attributes) children rest

/-- An element of a signature. -/
def dsNode (name : String) (attributes : List (String × String)) (children rest : Nodes) : Nodes :=
  .element (plainHead sampleScope "ds" nsDs name attributes) children rest

/-- The start tag of the conditions, with declarations and attributes of its own. -/
structure ConditionsTag where
  own : List Namespace
  attributes : List Attribute

/-- The whole start tag. -/
def ConditionsTag.head (c : ConditionsTag) : Head where
  tagName := ⟨some nsSaml, "Conditions"⟩
  qname := "saml:Conditions"
  namespaces := c.own ++ sampleScope
  attributes := c.attributes

/-- The one audience the conditions allow. -/
def ConditionsTag.audience (c : ConditionsTag) : Nodes :=
  .element (plainHead c.head.namespaces "saml" nsSaml "AudienceRestriction" [])
    (.element (plainHead c.head.namespaces "saml" nsSaml "Audience" [])
      (.text "https://sp.example" .nil) .nil) .nil

/-- The conditions, for one audience. -/
def ConditionsTag.nodes (c : ConditionsTag) (rest : Nodes) : Nodes :=
  .element c.head c.audience rest

/-- The first of January. -/
def notOnOrAfter : Attribute := plainAttribute "NotOnOrAfter" "2026-01-01T00:00:00Z"

/-- The first of June, in another namespace. -/
def otherNotOnOrAfter : Attribute :=
  ⟨⟨some "urn:y", "NotOnOrAfter"⟩, "2026-06-01T00:00:00Z", "y:NotOnOrAfter"⟩

/-- An attribute that nobody asks for. -/
def extraAttribute (uri : String) : Attribute := ⟨⟨some uri, "a"⟩, "b", "x:a"⟩

/-- The conditions as they were signed. -/
def Sample.conditions : Sample → ConditionsTag
  | .once => ⟨[⟨some "x", "urn:x"⟩], [notOnOrAfter, extraAttribute "urn:x"]⟩
  | .twice => ⟨[⟨some "y", "urn:y"⟩], [notOnOrAfter, otherNotOnOrAfter]⟩

/-- The digest of the assertion. -/
def Sample.digestValue : Sample → String
  | .once => "wfE0DDwqFYM3dQ6LP35/7iN98i41lEVNkWobEGcR+9c="
  | .twice => "xfQCLuSmZ9hN15x2Q+AP8v2KvQo4Qzy0W7yb/QV6q9I="

/-- The signature. -/
def Sample.signatureValue : Sample → String
  | .once =>
  "MEYCIQCtK/6yLspYq4ZVH0iT6J0SGs7eCWJW3XVax/617jSJwAIhANtfm8h1XasUloEMyQ2OCL0syKUjYHBLqtVIvoQz4B7h"
  | .twice =>
  "MEUCIQDFLUvRDIkhKFeTWTHRycVwhjymKpT1oCMr0fHN8k1VNwIgNEV049acFE0zr4UMcSIzIdZVUWqUQu2pfTkidpjJkrY="

/-- What is signed. -/
def sampleSignedInfo (k : Sample) : Element where
  head := plainHead sampleScope "ds" nsDs "SignedInfo" []
  children := dsNode "SignatureMethod" [("Algorithm", sigEcdsaSha256)] .nil
    (dsNode "Reference" [("URI", "#_a")]
      (dsNode "DigestValue" [] (.text k.digestValue .nil) .nil) .nil)

/-- The signature, with what is signed. -/
def sampleSignatureElement (k : Sample) : Element where
  head := plainHead sampleScope "ds" nsDs "Signature" []
  children := .element (sampleSignedInfo k).head (sampleSignedInfo k).children
    (dsNode "SignatureValue" [] (.text k.signatureValue .nil) .nil)

/-- The issuer of the assertion. -/
def sampleIssuer (rest : Nodes) : Nodes :=
  samlNode "Issuer" [] (.text "https://idp.example" .nil) rest

/-- The subject of the assertion. -/
def sampleSubject : Nodes :=
  samlNode "Subject" []
    (samlNode "NameID" [] (.text "alice" .nil)
      (samlNode "SubjectConfirmation" [("Method", subjectBearer)]
        (samlNode "SubjectConfirmationData"
          [("Recipient", "https://sp.example/acs"), ("InResponseTo", "_q"),
            ("NotOnOrAfter", "2026-06-01T00:00:00Z")] .nil .nil) .nil)) .nil

/-- The start tag of the assertion. -/
def sampleAssertionHead : Head := plainHead sampleScope "saml" nsSaml "Assertion" [("ID", "_a")]

/-- What follows the conditions. -/
def sampleSignedRest (k : Sample) : Nodes :=
  sampleIssuer (.element (sampleSignatureElement k).head (sampleSignatureElement k).children
    sampleSubject)

/-- The assertion that is signed. -/
def sampleAssertion (k : Sample) (c : ConditionsTag) : Element where
  head := sampleAssertionHead
  children := c.nodes (sampleSignedRest k)

/-- The assertion without its signature. -/
def sampleCovered (c : ConditionsTag) : Element where
  head := sampleAssertionHead
  children := c.nodes (sampleIssuer sampleSubject)

/-- The status of the response. -/
def sampleStatus (rest : Nodes) : Nodes :=
  samlpNode "Status" [] (samlpNode "StatusCode" [("Value", statusSuccess)] .nil .nil) rest

/-- The start tag of the response. -/
def sampleResponseHead : Head :=
  plainHead sampleScope "samlp" nsSamlp "Response"
    [("Destination", "https://sp.example/acs"), ("InResponseTo", "_q")]

/-- The response, with what follows the assertion. -/
def sampleResponse (k : Sample) (c : ConditionsTag) (rest : Nodes) : Element where
  head := sampleResponseHead
  children := sampleStatus (.element sampleAssertionHead (sampleAssertion k c).children rest)

/-- The text the digest is computed of. -/
def canonicalAssertion (k : Sample) : String :=
  canonicalizeNodes [] [] [] (asNodes (sampleCovered k.conditions))

/-- The text the signature is computed of. -/
def canonicalSignedInfo (k : Sample) : String :=
  canonicalizeNodes [] [sampleScope, sampleScope, sampleScope] [] (asNodes (sampleSignedInfo k))

/-- The bytes that a text in Base64 stands for. -/
def base64Bytes (s : String) : List UInt8 := (Base64.decode s.toList).getD []

/-- Bytes as a text in Base64. -/
def base64Text (bytes : List UInt8) : String := String.ofList (Base64.encode bytes)

/-- The key of the identity provider. -/
def sampleKey : List UInt8 := base64Bytes
  "BOO87Sz+vLelZ0N2N2SBNGq3AziaFIH49D9T5RSbammLEcRpydKu6zVnTB/iyLWMvxgHCsB4y9CC0CYno+p2wLA="

/-- The certificate of the key. -/
def sampleCertificate : List UInt8 := base64Bytes
  ("MIIBcTCCARegAwIBAgIUStka1wrEDCCAWM1hSMX7EF7jG4swCgYIKoZIzj0EAwIwDjEMMAoGA1UEAwwDaWRwMB4X" ++
    "DTI2MTExNjA4MTQyOVoXDTM2MTExMzA4MTQyOVowDjEMMAoGA1UEAwwDaWRwMFkwEwYHKoZIzj0CAQYIKoZIzj0D" ++
    "AQcDQgAE47ztLP68t6VnQ3Y3ZIE0arcDOJoUgfj0P1PlFJtqaYsRxGnJ0q7rNWdMH+LItYy/GAcKwHjL0ILQJiej" ++
    "6nbAsKNTMFEwHQYDVR0OBBYEFOhvRJwdPoxUHjcHhpclJaJZQxEKMB8GA1UdIwQYMBaAFOhvRJwdPoxUHjcHhpcl" ++
    "JaJZQxEKMA8GA1UdEwEB/wQFMAMBAf8wCgYIKoZIzj0EAwIDSAAwRQIhAMhrUjKhHGRt/RyhuGvpFHHZ3HqMDg1x" ++
    "rdh7idMwdFzdAiByyEOUAnySqhe+DewqANsZAtUqSB61tPngzJwqUI/Z7w==")

/-- The first of December 2025. -/
def sampleIssued : Timestamp := 1764547200 * Timestamp.second

/-- The first of March 2026. -/
def sampleArrival : Timestamp := 1772323200 * Timestamp.second

/-- The digest of the one text that is digested. -/
def sampleSha256 (k : Sample) (text : String) : List UInt8 :=
  if text = canonicalAssertion k then base64Bytes k.digestValue else []

/-- The key in the one certificate. -/
def samplePublicKey (certificate : List UInt8) : Except String (List UInt8) :=
  if certificate = sampleCertificate then .ok sampleKey else .error "invalid certificate"

/-- The one signature that verifies. -/
def sampleVerify (k : Sample) (key : List UInt8) (message : String) (signature : List UInt8) :
    Bool :=
  key = sampleKey ∧ message = canonicalSignedInfo k ∧ signature = base64Bytes k.signatureValue

/-- What the libraries do with the documents below. -/
def sampleLibraries (k : Sample) : Libraries where
  base64Decode s := match Base64.decode s.toList with
    | some bytes => .ok bytes
    | none => .error "invalid Base64"
  fromUtf8 bytes := match String.fromUTF8? ⟨bytes.toArray⟩ with
    | some s => .ok s
    | none => .error "invalid UTF-8"
  parseXml := parseMarkup
  sha256 := sampleSha256 k
  publicKey := samplePublicKey
  verifyRsaPkcs1Sha256 _ _ _ := false
  verifyEcdsaP256Sha256 := sampleVerify k
  parseTimestamp s :=
    if s = "2026-01-01T00:00:00Z" then .ok (1767225600 * Timestamp.second)
    else if s = "2026-06-01T00:00:00Z" then .ok (1780272000 * Timestamp.second)
    else .error "invalid timestamp"
  showTimestamp now :=
    if now = sampleArrival then "2026-03-01T00:00:00Z" else "2025-12-01T00:00:00Z"

/-- The provider the responses are for. -/
def sampleProvider : SamlProvider where
  idpMetadata := ⟨"https://idp.example", [sampleCertificate]⟩
  spEntityId := "https://sp.example"
  acsUrl := "https://sp.example/acs"
  emailAttribute := none
  domainAttribute := none

/-- The form parameter of a response. -/
def formParameter (e : Element) : String := base64Text (sourceText e).toByteArray.data.toList

variable {bytes : List UInt8} {k : Sample}

theorem noWhitespace_base64Text {c : Char} (hc : c ∈ (base64Text bytes).toList) :
    isWhitespace c = false := by
  rw [base64Text, String.toList_ofList] at hc
  rcases Base64.mem_encode bytes hc with rfl | ⟨n, hn, rfl⟩
  · decide
  · have h : ∀ n : Fin 64, isWhitespace (Base64.character n) = false := by decide
    exact h ⟨n, hn⟩

theorem trimmed_base64Text (bytes : List UInt8) :
    trimmed (base64Text bytes) = base64Text bytes := by
  have hfront : (base64Text bytes).toList.dropWhile isWhitespace = (base64Text bytes).toList := by
    rw [List.dropWhile_eq_self_iff]
    intro hl
    rw [noWhitespace_base64Text (List.getElem_mem _)]
    exact Bool.false_ne_true
  have hback : (base64Text bytes).toList.rdropWhile isWhitespace = (base64Text bytes).toList := by
    rw [List.rdropWhile_eq_self_iff]
    intro hl
    rw [noWhitespace_base64Text (List.getLast_mem _)]
    exact Bool.false_ne_true
  rw [trimmed, trim, hfront, hback, String.ofList_toList]

theorem base64Decode_base64Text (bytes : List UInt8) :
    (sampleLibraries k).base64Decode (base64Text bytes) = .ok bytes := by
  show (match Base64.decode (String.ofList (Base64.encode bytes)).toList with
    | some bytes => Except.ok bytes
    | none => .error "invalid Base64") = .ok bytes
  rw [String.toList_ofList, Base64.decode_encode]

theorem fromUtf8_toByteArray (s : String) :
    (sampleLibraries k).fromUtf8 s.toByteArray.data.toList = .ok s := by
  show (match String.fromUTF8? ⟨s.toByteArray.data.toList.toArray⟩ with
    | some s => Except.ok s
    | none => .error "invalid UTF-8") = .ok s
  rw [Array.toArray_toList, String.fromUTF8?, dif_pos s.isValidUTF8]
  rfl

/-- A text has at most four bytes for each character. -/
theorem length_toByteArray_le (l : List Char) :
    (String.ofList l).toByteArray.data.toList.length ≤ 4 * l.length := by
  rw [String.toByteArray_ofList]
  induction l with
  | nil => simp
  | cons c l ih =>
    have hc := c.utf8Size_le_four
    rw [List.utf8Encode_cons, ByteArray.data_append, Array.toList_append, List.length_append,
      List.length_cons]
    have hlen : (List.utf8Encode [c]).data.toList.length = c.utf8Size := by
      simp [List.utf8Encode]
    omega

theorem parse_asNodes (hwf : (asNodes e).WellFormed []) (hsolid : Solid e.children) :
    (sampleLibraries k).parseXml (String.ofList ((sourceMarkup (asNodes e)).render writtenStyle)) =
      .ok ⟨asNodes e⟩ := by
  have hparse : (sampleLibraries k).parseXml = parseMarkup := rfl
  rw [hparse]
  exact parseMarkup_source hwf hsolid

/-- The form parameter is read as the document it was made of. -/
theorem readDocument_formParameter (hwf : (asNodes e).WellFormed []) (hsolid : Solid e.children)
    (hlength : ((sourceMarkup (asNodes e)).render writtenStyle).length ≤ 262144) :
    readDocument (sampleLibraries k) (formParameter e) = .ok ⟨asNodes e⟩ := by
  have hbytes := length_toByteArray_le ((sourceMarkup (asNodes e)).render writtenStyle)
  have hsize : (sourceText e).toByteArray.data.toList.length ≤ maxResponseBytes := by
    have hmax : maxResponseBytes = 1048576 := rfl
    exact Nat.le_trans hbytes (by omega)
  have hparse : (sampleLibraries k).parseXml (sourceText e) = .ok ⟨asNodes e⟩ :=
    parse_asNodes hwf hsolid
  simp only [readDocument, formParameter, trimmed_base64Text, base64Decode_base64Text,
    fromUtf8_toByteArray,
    hparse, Nat.not_lt.mpr hsize, if_false, Except.mapError, bind, Except.bind]

/-! ### The signature -/

/-- The document of a response. -/
def sampleDocument (k : Sample) (c : ConditionsTag) (rest : Nodes) : Xml.Document :=
  ⟨asNodes (sampleResponse k c rest)⟩

/-- The response at its place. -/
def sampleRoot (k : Sample) (c : ConditionsTag) (rest : Nodes) : Node :=
  ⟨sampleResponse k c rest, [0], []⟩

/-- The assertion at its place. -/
def sampleSigned (k : Sample) (c : ConditionsTag) : Node :=
  ⟨sampleAssertion k c, [1, 0], [sampleScope]⟩

/-- The signature at its place. -/
def sampleSig (k : Sample) : Node :=
  ⟨sampleSignatureElement k, [2, 1, 0], [sampleScope, sampleScope]⟩

/-- What is signed at its place. -/
def sampleInfo (k : Sample) : Node :=
  ⟨sampleSignedInfo k, [0, 2, 1, 0], [sampleScope, sampleScope, sampleScope]⟩

/-- What the verification finds. -/
def sampleVerified (k : Sample) : Verified := ⟨"_a", canonicalAssertion k, canonicalSignedInfo k⟩

variable {c : ConditionsTag} {extra : Nodes}

theorem wellFormed_sample (h : (c.nodes extra).WellFormed sampleScope) :
    (asNodes (sampleResponse k c extra)).WellFormed [] := by
  have hresponse : sampleResponseHead.WellFormed [] := by decide +kernel
  have hstatus : (sampleStatus .nil).WellFormed sampleScope := by decide +kernel
  have hassertion : sampleAssertionHead.WellFormed sampleScope := by decide +kernel
  have hrest : (sampleSignedRest k).WellFormed sampleScope := by cases k <;> decide +kernel
  exact ⟨hresponse, ⟨hstatus.1, hstatus.2.1, hassertion, ⟨h.1, h.2.1, hrest⟩, h.2.2⟩, trivial⟩

theorem wellFormed_covered (h : (c.nodes extra).WellFormed sampleScope) :
    (asNodes (sampleCovered c)).WellFormed [] := by
  have hassertion : sampleAssertionHead.WellFormed [] := by decide +kernel
  have hafter : (sampleIssuer sampleSubject).WellFormed sampleScope := by decide +kernel
  exact ⟨hassertion, ⟨h.1, h.2.1, hafter⟩, trivial⟩

theorem solid_covered (c : ConditionsTag) : Solid (sampleCovered c).children := by
  simp [sampleCovered, ConditionsTag.nodes, ConditionsTag.audience, sampleIssuer, sampleSubject,
    samlNode, Solid]

theorem solid_sample (k : Sample) (c : ConditionsTag) (hextra : Solid extra) :
    Solid (sampleResponse k c extra).children := by
  have hdigest : k.digestValue ≠ "" := by cases k <;> decide
  have hvalue : k.signatureValue ≠ "" := by cases k <;> decide
  have hcovered := solid_covered c
  simp_all [sampleResponse, sampleStatus, sampleAssertion, sampleCovered, sampleSignedRest,
    sampleSignatureElement, sampleSignedInfo, sampleIssuer, sampleSubject, ConditionsTag.nodes,
    samlNode, samlpNode, dsNode, Solid]

/-- The length of the source text of some nodes. -/
def sourceLength (nodes : Nodes) : Nat := ((sourceMarkup nodes).render writtenStyle).length

theorem sourceLength_element (head : Head) (children rest : Nodes) :
    sourceLength (.element head children rest) =
      sourceLength (.element head .nil .nil) + sourceLength children + sourceLength rest := by
  simp only [sourceLength, sourceMarkup, Markup.render, List.length_append, List.length_cons,
    List.length_nil]
  omega

theorem sourceLength_sample (h : sourceLength (c.nodes extra) ≤ 2000) :
    sourceLength (asNodes (sampleResponse k c extra)) ≤ 262144 := by
  have hresponse : sourceLength (.element sampleResponseHead (sampleStatus .nil) .nil) ≤ 1000 := by
    decide +kernel
  have hassertion : sourceLength (.element sampleAssertionHead (sampleSignedRest k) .nil) ≤
    5000 := by
    cases k <;> decide +kernel
  rw [ConditionsTag.nodes, sourceLength_element] at h
  rw [sourceLength_element] at hassertion
  simp only [asNodes, sampleResponse, sampleAssertion, sampleStatus, samlpNode, ConditionsTag.nodes,
    sourceLength_element _ (.element _ _ _)] at hresponse ⊢
  rw [sourceLength_element c.head]
  omega

/-- Conditions that can be written for those that were signed, with what may follow the assertion:
the documents are kept when they are written out and parsed again, and the canonical text is the one
that was signed. -/
@[mk_iff]
structure Fits (k : Sample) (c : ConditionsTag) (extra : Nodes) : Prop where
  wellFormed : (c.nodes extra).WellFormed sampleScope
  length_le : sourceLength (c.nodes extra) ≤ 2000
  written : serialMarkup [sampleScope] (asNodes (sampleCovered c)) =
    sourceMarkup (asNodes (sampleCovered c))
  canonical : canonicalizeNodes [] [] [] (asNodes (sampleCovered c)) = canonicalAssertion k

instance : Decidable (Fits k c extra) := decidable_of_iff _ (fits_iff k c extra).symm

theorem c14nExcludingSignature_of_parse {libs : Libraries} {sig : Node} (inclusive : List String)
    (hparse : libs.parseXml (serializeNodeExcl node sig.path) = .ok doc)
    (hroot : doc.rootElements.head? = some root) :
    c14nExcludingSignature libs node sig inclusive = .ok (exclusiveC14n root inclusive) := by
  rw [c14nExcludingSignature, hparse]
  show (okOr _ doc.rootElements.head? >>= _) = _
  rw [hroot]
  rfl

theorem c14n_sample (h : Fits k c extra) :
    c14nExcludingSignature (sampleLibraries k) (sampleSigned k c) (sampleSig k) [] =
      .ok (canonicalAssertion k) := by
  have hparse :
    (sampleLibraries k).parseXml (serializeNodeExcl (sampleSigned k c) (sampleSig k).path) =
      .ok ⟨asNodes (sampleCovered c)⟩ := by
    have hprune : pruneElement (sampleSig k).path (sampleSigned k c).path
      (sampleSigned k c).element =
        sampleCovered c := rfl
    rw [serializeNodeExcl_eq (List.cons_ne_nil _ _) (by simp [sampleSigned, sampleSig]), hprune,
      show (sampleSigned k c).ancestors = [sampleScope] from rfl, h.written]
    exact parse_asNodes (wellFormed_covered h.wellFormed) (solid_covered c)
  have hroot : (Xml.Document.mk (asNodes (sampleCovered c))).rootElements.head? =
      some ⟨sampleCovered c, [0], []⟩ := rfl
  have htext : exclusiveC14n ⟨sampleCovered c, [0], []⟩ [] = canonicalAssertion k := h.canonical
  rw [c14nExcludingSignature_of_parse [] hparse hroot, htext]

theorem verify_ecdsa {libs : Libraries} {certificate key signature : List UInt8} {message : String}
    (hkey : libs.publicKey certificate = .ok key)
    (hverify : libs.verifyEcdsaP256Sha256 key message signature = true) :
    verifySignatureWithCerts libs sigEcdsaSha256 signature message [certificate] = .ok () := by
  have hne : sigEcdsaSha256 ≠ sigRsaSha256 := by decide
  have htry : tryVerifyWithCert libs sigEcdsaSha256 signature message certificate = .ok () := by
    simp only [tryVerifyWithCert, hkey, hverify, hne, if_false, if_true, Except.mapError, bind,
      Except.bind, pure, Except.pure]
  rw [verifySignatureWithCerts, List.isEmpty_cons, if_neg Bool.false_ne_true, verifyWithCerts, htry]

theorem elementText_text (head : Head) (s : String) :
    elementText ⟨head, .text s .nil⟩ = some s := by
  simp [elementText, Nodes.texts]

theorem check_sample (h : Fits k c extra)
    (hsig : findSamlSignature (sampleDocument k c extra) = some (sampleSig k)) :
    checkXmlSignature (sampleLibraries k) (sampleDocument k c extra) [sampleCertificate] =
      .ok (sampleVerified k) := by
  have hdigest : (sampleLibraries k).base64Decode (trimmed k.digestValue) =
      .ok (base64Bytes k.digestValue) := by
    cases k <;> decide +kernel
  have hvalue : (sampleLibraries k).base64Decode
      ((splitWhitespace k.signatureValue).foldr (· ++ ·) "") =
        .ok (base64Bytes k.signatureValue) := by
    cases k <;> decide +kernel
  have hid : referencedId "#_a" = .ok "_a" := by decide +kernel
  have hverify : verifySignatureWithCerts (sampleLibraries k) sigEcdsaSha256
      (base64Bytes k.signatureValue) (canonicalSignedInfo k) [sampleCertificate] = .ok () := by
    have hkey : (sampleLibraries k).publicKey = samplePublicKey := rfl
    have hecdsa : (sampleLibraries k).verifyEcdsaP256Sha256 = sampleVerify k := rfl
    apply verify_ecdsa
    · rw [hkey, samplePublicKey, if_pos rfl]
    · simp only [hecdsa, sampleVerify, decide_true, and_self]
  have hsha256 : (sampleLibraries k).sha256 (canonicalAssertion k) = base64Bytes k.digestValue := by
    rw [show (sampleLibraries k).sha256 = sampleSha256 k from rfl, sampleSha256, if_pos rfl]
  rw [checkXmlSignature, hsig, okOr_some_bind]
  show (okOr _ (some (sampleInfo k)) >>= _) = _
  rw [okOr_some_bind]
  show (okOr _ (some _) >>= _) = _
  rw [okOr_some_bind]
  show (okOr _ (some "#_a") >>= _) = _
  rw [okOr_some_bind, hid, ok_bind]
  show (okOr _ (some (sampleSigned k c)) >>= _) = _
  rw [okOr_some_bind]
  show (c14nExcludingSignature (sampleLibraries k) (sampleSigned k c) (sampleSig k) [] >>= _) = _
  rw [c14n_sample h, ok_bind]
  show (okOr _ (elementText ⟨_, .text k.digestValue .nil⟩) >>= _) = _
  rw [elementText_text, okOr_some_bind, hdigest, Except.mapError, ok_bind, hsha256,
    if_neg (not_not.mpr rfl)]
  show (okOr _ (elementText ⟨_, .text k.signatureValue .nil⟩) >>= _) = _
  rw [elementText_text, okOr_some_bind, hvalue, Except.mapError, ok_bind]
  show (okOr _ (some sigEcdsaSha256) >>= _) = _
  rw [okOr_some_bind]
  show (verifySignatureWithCerts (sampleLibraries k) sigEcdsaSha256 (base64Bytes k.signatureValue)
    (canonicalSignedInfo k) [sampleCertificate] >>= _) = _
  rw [hverify]
  rfl

theorem read_sample (h : Fits k c extra) (hsolid : Solid extra) :
    readDocument (sampleLibraries k) (formParameter (sampleResponse k c extra)) =
      .ok (sampleDocument k c extra) :=
  readDocument_formParameter (wellFormed_sample h.wellFormed) (solid_sample k c hsolid)
    (sourceLength_sample h.length_le)

/-- A response with its signature, as the validator finds it. -/
def sampleSignedResponse (h : Fits k c .nil) :
    SignedResponse (sampleLibraries k) sampleProvider
      (formParameter (sampleResponse k c .nil)) where
  doc := sampleDocument k c .nil
  sig := sampleSig k
  signed := sampleSigned k c
  root := sampleRoot k c .nil
  verified := sampleVerified k
  read := read_sample h trivial
  verify := check_sample h rfl
  findSignature := rfl
  findSigned := rfl
  findRoot := rfl
  placed := rfl
  single := Nat.le_refl 1

variable {requestId : String}

theorem checkResponse_of {response : Element} {provider : SamlProvider}
    (hdestination : response.attributeValue "Destination" = some provider.acsUrl)
    (hrequest : response.attributeValue "InResponseTo" = some requestId)
    (hstatus : statusCode response = some statusSuccess) :
    checkResponse response requestId provider = .ok () := by
  have hvalidate : validateStatus response = .ok () := by
    obtain ⟨status, hchild, hstatus⟩ := Option.bind_eq_some_iff.mp hstatus
    obtain ⟨code, hcode, hvalue⟩ := Option.bind_eq_some_iff.mp hstatus
    simp only [validateStatus, hchild, hcode, hvalue, okOr_some_bind, ne_eq, not_true_eq_false,
      if_false, pure, Except.pure]
  simp only [checkResponse, hdestination, hrequest, hvalidate, okOr_some_bind, ne_eq,
    not_true_eq_false, if_false]

/-- The answer of the validator to a sample. -/
def answer (k : Sample) (c : ConditionsTag) (arrival : Timestamp) :
    Except ResponseError SamlAssertion :=
  validateSamlResponse (sampleLibraries k) (formParameter (sampleResponse k c .nil))
    "_q" sampleProvider arrival

/-- What is left to check is the assertion. -/
theorem answer_eq (h : Fits k c .nil) (arrival : Timestamp) : answer k c arrival =
    validateAssertion (sampleLibraries k) (sampleAssertion k c) "_q" sampleProvider arrival := by
  have hcheck : checkResponse (sampleSignedResponse h).root.element "_q" sampleProvider = .ok () :=
    checkResponse_of rfl rfl rfl
  have hselect : selectAssertion (sampleSignedResponse h).root (sampleSignedResponse h).signed =
      .ok (sampleAssertion k c) := rfl
  rw [answer, (sampleSignedResponse h).validate_eq, hcheck, ok_bind, hselect, ok_bind]

/-- The conditions with their declarations and attributes in another order, and one declaration
more, with a quotation mark, that nobody uses. -/
def reorderedConditions : ConditionsTag where
  own := [⟨some "z", "urn:\"z"⟩, ⟨some "x", "urn:x"⟩]
  attributes := [extraAttribute "urn:x", notOnOrAfter]

/-- The two limits in the other order. -/
def swappedConditions : ConditionsTag where
  own := [⟨some "y", "urn:y"⟩]
  attributes := [otherNotOnOrAfter, notOnOrAfter]

/-- A namespace that has the time limit in its name. -/
def quotedNamespace : String := "urn:x\" NotOnOrAfter=\"2026-01-01T00:00:00Z"

/-- Conditions whose time limit is part of the name of a namespace. -/
def quotedConditions : ConditionsTag where
  own := [⟨some "x", quotedNamespace⟩]
  attributes := [extraAttribute quotedNamespace]

theorem fits_signed (k : Sample) : Fits k k.conditions .nil := by cases k <;> decide +kernel

theorem fits_reordered : Fits .once reorderedConditions .nil := by decide +kernel

theorem fits_swapped : Fits .twice swappedConditions .nil := by decide +kernel

theorem fits_quoted : Fits .once quotedConditions .nil := by decide +kernel

/-- The identity that the response asserts. -/
def alice : SamlAssertion := ⟨"alice", none, some "alice", none⟩

/-! ## What is used -/

/-- **Two signed elements with one canonical text look the same.** -/
theorem bareElement_eq_of_canonical {libs : Libraries} {provider : SamlProvider}
    {base64₁ base64₂ : String} (hparse : ParsesXml libs.parseXml)
    (r₁ : SignedResponse libs provider base64₁) (r₂ : SignedResponse libs provider base64₂)
    (hclean₁ : r₁.Clean) (hclean₂ : r₂.Clean)
    (h : r₁.verified.canonicalElement = r₂.verified.canonicalElement) :
    bareElement r₁.covered = bareElement r₂.covered := by
  obtain ⟨nodes₁, hwf₁, hread₁, htext₁, hbare₁⟩ := r₁.content hparse hclean₁
  obtain ⟨nodes₂, hwf₂, hread₂, htext₂, hbare₂⟩ := r₂.content hparse hclean₂
  rw [htext₁, htext₂] at h
  have hnormal := normalize_eq_of_canonical _ _ hwf₁ hwf₂ hread₁ hread₂ h
  have hbare : bare (asNodes r₁.covered) = bare (asNodes r₂.covered) := by
    rw [← hbare₁, ← bare_normalize hwf₁, hnormal, bare_normalize hwf₂, hbare₂]
  obtain ⟨hhead, hchildren, -⟩ := Nodes.element.inj hbare
  rw [bareElement, bareElement, hhead, hchildren]

/-- **What is used is what was signed.**  Two responses whose signatures verify, with one canonical
text of the signed element and the same destination, request and status, get the same answer. -/
theorem same_verdict {libs : Libraries} {provider : SamlProvider} {base64₁ base64₂ : String}
    (hparse : ParsesXml libs.parseXml) (hentity : provider.idpMetadata.entityId ≠ "")
    (hsp : provider.spEntityId ≠ "") (r₁ : SignedResponse libs provider base64₁)
    (r₂ : SignedResponse libs provider base64₂) (hclean₁ : r₁.Clean) (hclean₂ : r₂.Clean)
    (hcanonical : r₁.verified.canonicalElement = r₂.verified.canonicalElement)
    (hdestination : r₁.root.element.attributeValue "Destination" =
      r₂.root.element.attributeValue "Destination")
    (hrequest : r₁.root.element.attributeValue "InResponseTo" =
      r₂.root.element.attributeValue "InResponseTo")
    (hstatus : statusCode r₁.root.element = statusCode r₂.root.element)
    (requestId : String) (arrival : Timestamp) :
    (validateSamlResponse libs base64₁ requestId provider arrival).toOption =
      (validateSamlResponse libs base64₂ requestId provider arrival).toOption := by
  have hbare := bareElement_eq_of_canonical hparse r₁ r₂ hclean₁ hclean₂ hcanonical
  rw [r₁.verdict_eq hentity hsp hclean₁, r₂.verdict_eq hentity hsp hclean₂, hbare,
    toOption_checkResponse_congr hdestination hrequest hstatus]

/-- Declarations that are not used and the order of attributes do not matter: both responses are
accepted while the assertion is valid. -/
theorem same_verdict_reordered :
    (answer .once Sample.once.conditions sampleIssued).toOption =
      (answer .once reorderedConditions sampleIssued).toOption ∧
    answer .once Sample.once.conditions sampleIssued = .ok alice := by
  have hclean : ∀ {c : ConditionsTag} (h : Fits .once c .nil), Quoteless [] (sampleCovered c) →
      Element.Definite (sampleCovered c) → (sampleSignedResponse h).Clean :=
    fun _ hquotes hdefinite => ⟨hquotes, hdefinite⟩
  refine ⟨same_verdict parsesXml_parseMarkup (by decide) (by decide)
    (sampleSignedResponse (fits_signed .once)) (sampleSignedResponse fits_reordered)
    (hclean _ (by decide +kernel) (by decide +kernel))
      (hclean _ (by decide +kernel) (by decide +kernel))
    rfl rfl rfl rfl _ _, ?_⟩
  rw [answer_eq (fits_signed .once)]
  decide +kernel

/-- An assertion that is not signed. -/
def extraAssertion : Nodes := samlNode "Assertion" [] .nil .nil

theorem fits_extra : Fits .once Sample.once.conditions extraAssertion := by decide +kernel

/-- Two responses with the same texts under their signatures, and the same attributes and status. -/
def SameSigned {libs : Libraries} {provider : SamlProvider} {base64₁ base64₂ : String}
    (r₁ : SignedResponse libs provider base64₁) (r₂ : SignedResponse libs provider base64₂) :
    Prop :=
  r₁.verified = r₂.verified ∧
    (∀ name, r₁.root.element.attributeValue name = r₂.root.element.attributeValue name) ∧
    statusCode r₁.root.element = statusCode r₂.root.element

/-- That the assertion is over, in March. -/
def expired : ResponseError := .timeValidation
  "assertion has expired: NotOnOrAfter=2026-01-01T00:00:00Z, now=2026-03-01T00:00:00Z"

/-- **One signature, two answers.**  Three pairs of responses with the same signature over the same
texts. In the first pair the time limit is an attribute, and in the other response a part of the
name of a namespace, which the canonicaliser writes without escapes.  In the second pair there are
two limits, in two namespaces; the canonicaliser sorts them, the validator takes the first.  In both
pairs one response is over in March and the other is accepted.  In the third pair one response has a
second assertion, and is refused. -/
theorem one_signature_two_answers :
    ParsesXml parseMarkup ∧
      (∃ (r₁ : SignedResponse (sampleLibraries .once) sampleProvider
            (formParameter (sampleResponse .once Sample.once.conditions .nil)))
          (r₂ : SignedResponse (sampleLibraries .once) sampleProvider
            (formParameter (sampleResponse .once quotedConditions .nil))),
        SameSigned r₁ r₂ ∧ Element.Definite r₁.covered ∧ Element.Definite r₂.covered ∧
          answer .once Sample.once.conditions sampleArrival = .error expired ∧
          answer .once quotedConditions sampleArrival = .ok alice) ∧
      (∃ (r₁ : SignedResponse (sampleLibraries .twice) sampleProvider
            (formParameter (sampleResponse .twice Sample.twice.conditions .nil)))
          (r₂ : SignedResponse (sampleLibraries .twice) sampleProvider
            (formParameter (sampleResponse .twice swappedConditions .nil))),
        SameSigned r₁ r₂ ∧ Quoteless [] r₁.covered ∧ Quoteless [] r₂.covered ∧
          answer .twice Sample.twice.conditions sampleArrival = .error expired ∧
          answer .twice swappedConditions sampleArrival = .ok alice) ∧
      ∃ (r₁ : SignedResponse (sampleLibraries .once) sampleProvider
          (formParameter (sampleResponse .once Sample.once.conditions .nil)))
        (doc₂ : Xml.Document) (root₂ : Node),
        r₁.Clean ∧
        readDocument (sampleLibraries .once)
          (formParameter (sampleResponse .once Sample.once.conditions extraAssertion)) = .ok doc₂ ∧
        responseRoot doc₂ = some root₂ ∧
        checkXmlSignature (sampleLibraries .once) doc₂
          sampleProvider.idpMetadata.signingCertificates = .ok r₁.verified ∧
        (∀ name, r₁.root.element.attributeValue name = root₂.element.attributeValue name) ∧
        statusCode r₁.root.element = statusCode root₂.element ∧
        answer .once Sample.once.conditions sampleIssued = .ok alice ∧
        validateSamlResponse (sampleLibraries .once)
          (formParameter (sampleResponse .once Sample.once.conditions extraAssertion))
          "_q" sampleProvider sampleIssued = .error .multipleAssertions := by
  have hread : readDocument (sampleLibraries .once)
      (formParameter (sampleResponse .once Sample.once.conditions extraAssertion)) =
        .ok (sampleDocument .once Sample.once.conditions extraAssertion) :=
    read_sample fits_extra ⟨trivial, trivial⟩
  have hcheck : checkXmlSignature (sampleLibraries .once)
      (sampleDocument .once Sample.once.conditions extraAssertion)
      sampleProvider.idpMetadata.signingCertificates = .ok (sampleVerified .once) :=
    check_sample fits_extra rfl
  have hselect : selectAssertion (sampleRoot .once Sample.once.conditions extraAssertion)
      (sampleSigned .once Sample.once.conditions) = .error .multipleAssertions := by decide +kernel
  have hquotes : Quoteless [] (sampleCovered Sample.once.conditions) := by decide +kernel
  have hdefinite : Element.Definite (sampleCovered Sample.once.conditions) := by decide +kernel
  have hdefinite' : Element.Definite (sampleCovered quotedConditions) := by decide +kernel
  have hquotes₁ : Quoteless [] (sampleCovered Sample.twice.conditions) := by decide +kernel
  have hquotes₂ : Quoteless [] (sampleCovered swappedConditions) := by decide +kernel
  refine ⟨parsesXml_parseMarkup,
    ⟨sampleSignedResponse (fits_signed .once), sampleSignedResponse fits_quoted,
      ⟨rfl, fun _ => rfl, rfl⟩, hdefinite, hdefinite', ?_, ?_⟩,
    ⟨sampleSignedResponse (fits_signed .twice), sampleSignedResponse fits_swapped,
      ⟨rfl, fun _ => rfl, rfl⟩, hquotes₁, hquotes₂, ?_, ?_⟩,
    ⟨sampleSignedResponse (fits_signed .once), _,
      sampleRoot .once Sample.once.conditions extraAssertion,
      ⟨hquotes, hdefinite⟩, hread, rfl, hcheck, fun _ => rfl, rfl, ?_, ?_⟩⟩
  · rw [answer_eq (fits_signed .once)]
    decide +kernel
  · rw [answer_eq fits_quoted]
    decide +kernel
  · rw [answer_eq (fits_signed .twice)]
    decide +kernel
  · rw [answer_eq fits_swapped]
    decide +kernel
  · rw [answer_eq (fits_signed .once)]
    decide +kernel
  · rw [validate_of_verified hread hcheck rfl rfl rfl, checkResponse_of rfl rfl rfl, ok_bind]
    exact congrArg (· >>= _) hselect

end Vouch.Saml
