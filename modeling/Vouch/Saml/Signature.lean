import Vouch.Domain
import Vouch.Saml.C14n
import Vouch.Store.Document

/-!
# Verifying the signature of a SAML response

The code of `services/idp/saml/signature.rs`.  A signature is looked for directly below the response
or below one of its assertions; the element its one reference names is serialised without the
signature, parsed again and canonicalised; the digest of that text and the signature over the
canonical `SignedInfo` are checked.

* `Libraries` — what the code takes from elsewhere: Base64, UTF-8, the XML parser, the digest, the
  public-key operations, the reader of timestamps.
* `findElementById` — the lookup that both the verifier and the validator use.
* `serializeNodes`, `serializeNodeExcl` — an element as XML text, without one node.  Unlike the
  canonicaliser it picks a name's prefix by its namespace alone, the first binding in scope.
* `checkXmlSignature` — the verifier, with the two canonical texts it computed; `verifyXmlSignature`
  returns the name of the signed element, as the source does.
-/

namespace Vouch.Saml

open Xml

/-- `Option::ok_or`. -/
def okOr {ε α : Type} (e : ε) : Option α → Except ε α
  | some a => .ok a
  | none => .error e

@[simp] theorem okOr_some_bind {ε α β : Type} (e : ε) (a : α) (f : α → Except ε β) :
    (okOr e (some a) >>= f) = f a := rfl

/-- What the code takes from libraries. -/
structure Libraries where
  base64Decode : String → Except String (List UInt8)
  fromUtf8 : List UInt8 → Except String String
  parseXml : String → Except String Xml.Document
  /-- The SHA-256 digest of the UTF-8 bytes of a text. -/
  sha256 : String → List UInt8
  /-- The public key of a DER certificate. -/
  publicKey : List UInt8 → Except String (List UInt8)
  verifyRsaPkcs1Sha256 : (key : List UInt8) → (message : String) → (signature : List UInt8) → Bool
  verifyEcdsaP256Sha256 : (key : List UInt8) → (message : String) → (signature : List UInt8) → Bool
  parseTimestamp : String → Except String Timestamp
  showTimestamp : Timestamp → String

/-! ## Names -/

/-- `SIG_RSA_SHA256`. -/
def sigRsaSha256 : String := "http://www.w3.org/2001/04/xmldsig-more#rsa-sha256"

/-- `SIG_ECDSA_SHA256`. -/
def sigEcdsaSha256 : String := "http://www.w3.org/2001/04/xmldsig-more#ecdsa-sha256"

/-- The namespace of XML signatures. -/
def nsDs : String := "http://www.w3.org/2000/09/xmldsig#"

/-- The namespace of exclusive canonicalization. -/
def nsEc : String := "http://www.w3.org/2001/10/xml-exc-c14n#"

/-- The namespace of SAML responses. -/
def nsSamlp : String := "urn:oasis:names:tc:SAML:2.0:protocol"

/-- The namespace of SAML assertions. -/
def nsSaml : String := "urn:oasis:names:tc:SAML:2.0:assertion"

/-- Errors of the signature verification. -/
inductive SignatureError where
  | noSignature
  | invalidReference (text : String)
  | referencedElementNotFound (id : String)
  | digestMismatch
  | signatureInvalid
  | noCertificateMatch
  | unsupportedAlgorithm (algorithm : String)
  | other (text : String)
  deriving DecidableEq, Repr

/-! ## Finding the parts -/

/-- The signature directly below a node. -/
def signatureBelow (node : Node) : Option Node :=
  node.children.find? (·.element.hasTagName nsDs "Signature")

/-- The signature directly below the root element, or directly below an assertion or response
directly below it. -/
def findSamlSignature (doc : Xml.Document) : Option Node :=
  match doc.rootElements.head? with
  | none => none
  | some root =>
    (signatureBelow root).orElse fun _ =>
      (root.children.filter fun child =>
        child.element.hasTagName nsSaml "Assertion" || child.element.hasTagName nsSamlp "Response")
        |>.findSome? signatureBelow

/-- The first element with the given `ID`, `Id` or `id`. -/
def findElementById (doc : Xml.Document) (id : String) : Option Node :=
  doc.descendants.find? fun n =>
    n.element.attributeValue "ID" = some id || n.element.attributeValue "Id" = some id ||
      n.element.attributeValue "id" = some id

/-- `str::split_whitespace`. -/
def splitWhitespace (s : String) : List String :=
  ((s.toList.splitOnP isWhitespace).filter (¬ ·.isEmpty)).map String.ofList

/-- The prefixes that an `InclusiveNamespaces` element at or below a node lists. -/
def extractInclusivePrefixes (parent : Option Node) : List String :=
  match parent with
  | none => []
  | some parent =>
    (parent.descendants.findSome? fun desc =>
      if desc.element.hasTagName nsEc "InclusiveNamespaces" then
        (desc.element.attributeValue "PrefixList").map splitWhitespace
      else none).getD []

/-- The first child element of a name, at its place. -/
def findChildElement (parent : Node) (ns name : String) : Option Node :=
  parent.children.find? (·.element.hasTagName ns name)

/-! ## The element without its signature -/

/-- The prefix of the first binding of a namespace, on the node or on its ancestors. -/
def findNsPrefix (scopes : List (List Namespace)) (uri : String) : Option String :=
  (scopes.flatten.find? (·.uri = uri)).map (·.name.getD "")

/-- The qualified name an element is serialised with. -/
def elementQname (ancestors : List (List Namespace)) (head : Head) : String :=
  let nsUri := head.tagName.ns.getD ""
  if nsUri = "" then head.tagName.name
  else
    match findNsPrefix (head.namespaces :: ancestors) nsUri with
    | some p => if p = "" then head.tagName.name else p ++ ":" ++ head.tagName.name
    | none => head.tagName.name

/-- The qualified name an attribute is serialised with. -/
def attributeQname (ancestors : List (List Namespace)) (head : Head) (attr : Attribute) : String :=
  let attrNs := attr.name.ns.getD ""
  if attrNs ≠ "" ∧ attrNs ≠ nsXml then
    match findNsPrefix (head.namespaces :: ancestors) attrNs with
    | some p => if p = "" then attr.name.name else p ++ ":" ++ attr.name.name
    | none => attr.name.name
  else if attrNs = nsXml then "xml:" ++ attr.name.name
  else attr.name.name

/-- Some nodes as XML text, without the node at `exclude`: the children of the node at `path`, from
the `i`-th on. -/
def serializeNodes (exclude : List Nat) (path : List Nat) (ancestors : List (List Namespace))
    (i : Nat) : Nodes → String
  | .nil => ""
  | .text s rest => escapeText s ++ serializeNodes exclude path ancestors (i + 1) rest
  | .misc rest => serializeNodes exclude path ancestors (i + 1) rest
  | .element head children rest =>
    let qname := elementQname ancestors head
    (if i :: path = exclude then ""
      else
        "<" ++ qname ++
          (head.namespaces.map fun ns =>
            " " ++ namespaceAttribute (ns.name.getD "") ++ "=\"" ++ escapeAttribute ns.uri ++
              "\"").foldr (· ++ ·) "" ++
          ((head.attributes.filter fun a => a.name.ns.getD "" ≠ nsXmlns).map fun a =>
            " " ++ attributeQname ancestors head a ++ "=\"" ++ escapeAttribute a.value ++
              "\"").foldr (· ++ ·) "" ++
          ">" ++
          serializeNodes exclude (i :: path) (head.namespaces :: ancestors) 0 children ++
          "</" ++ qname ++ ">") ++
      serializeNodes exclude path ancestors (i + 1) rest

/-- An element as XML text, without the node at `exclude`. -/
def serializeNodeExcl (node : Node) (exclude : List Nat) : String :=
  serializeNodes exclude node.path.tail node.ancestors (node.path.headD 0)
    (.element node.element.head node.element.children .nil)

/-- The canonical form of the signed element without the signature. -/
def c14nExcludingSignature (libs : Libraries) (signedElement sigNode : Node)
    (inclusive : List String) : Except SignatureError String := do
  let xmlWithoutSig := serializeNodeExcl signedElement sigNode.path
  let doc ← (libs.parseXml xmlWithoutSig).mapError fun e =>
    .other ("failed to reparse element for enveloped-signature c14n: " ++ e)
  let rootElem ← okOr
    (.other "reparsed element for enveloped-signature c14n has no root element")
    doc.rootElements.head?
  pure (exclusiveC14n rootElem inclusive)

/-! ## The signature value -/

/-- Checks a signature with one certificate. -/
def tryVerifyWithCert (libs : Libraries) (algorithmUri : String) (sigBytes : List UInt8)
    (message : String) (certDer : List UInt8) : Except SignatureError Unit := do
  let key ← (libs.publicKey certDer).mapError .other
  if algorithmUri = sigRsaSha256 then
    if libs.verifyRsaPkcs1Sha256 key message sigBytes then pure () else throw .signatureInvalid
  else if algorithmUri = sigEcdsaSha256 then
    if libs.verifyEcdsaP256Sha256 key message sigBytes then pure () else throw .signatureInvalid
  else throw (.unsupportedAlgorithm algorithmUri)

/-- Checks a signature with each certificate in turn, remembering the first that could not be
read. -/
def verifyWithCerts (libs : Libraries) (algorithmUri : String) (sigBytes : List UInt8)
    (signedInfo : String) (firstParseErr : Option SignatureError) :
    List (List UInt8) → Except SignatureError Unit
  | [] => .error (firstParseErr.getD .noCertificateMatch)
  | certDer :: certs =>
    match tryVerifyWithCert libs algorithmUri sigBytes signedInfo certDer with
    | .ok () => .ok ()
    | .error .signatureInvalid =>
      verifyWithCerts libs algorithmUri sigBytes signedInfo firstParseErr certs
    | .error .noCertificateMatch =>
      verifyWithCerts libs algorithmUri sigBytes signedInfo firstParseErr certs
    | .error (.other e) =>
      verifyWithCerts libs algorithmUri sigBytes signedInfo
        (firstParseErr.orElse fun _ => some (.other e)) certs
    -- the algorithm is the same for every certificate
    | .error e => .error e

/-- Checks a signature with the certificates of the provider. -/
def verifySignatureWithCerts (libs : Libraries) (algorithmUri : String) (sigBytes : List UInt8)
    (signedInfo : String) (certs : List (List UInt8)) : Except SignatureError Unit :=
  if certs.isEmpty then .error .noCertificateMatch
  else verifyWithCerts libs algorithmUri sigBytes signedInfo none certs

/-! ## Verification -/

/-- What the verification of a signature found: the `ID` of the signed element, and the two texts
that the digest and the signature are about. -/
structure Verified where
  elementId : String
  canonicalElement : String
  canonicalSignedInfo : String
  deriving DecidableEq, Repr

/-- The `ID` a reference names. -/
def referencedId (refUri : String) : Except SignatureError String :=
  if refUri = "" then
    throw (.invalidReference "empty URI (whole-document signatures are not supported)")
  else
    match refUri.toList with
    | '#' :: id =>
      if id.isEmpty then throw (.invalidReference "empty element ID after '#'")
      else pure (String.ofList id)
    | _ => throw (.invalidReference ("URI must start with '#', got: " ++ refUri))

/-- Verifies the signature of a document. -/
def checkXmlSignature (libs : Libraries) (doc : Xml.Document) (certs : List (List UInt8)) :
    Except SignatureError Verified := do
  let sigNode ← okOr .noSignature (findSamlSignature doc)
  let signedInfo ← okOr (.other "missing SignedInfo element")
    (findChildElement sigNode nsDs "SignedInfo")
  let references := signedInfo.children.filter (·.element.hasTagName nsDs "Reference")
  if 1 < references.length then
    throw (.other "multiple Reference elements in SignedInfo (expected exactly one)")
  let reference ← okOr (.other "missing Reference element") references.head?
  let refUri ← okOr (.invalidReference "URI attribute missing")
    (reference.element.attributeValue "URI")
  let elementId ← referencedId refUri
  let signedElement ← okOr (.referencedElementNotFound elementId) (findElementById doc elementId)
  -- transforms other than the two supported ones are only warned about
  let transforms := findChildElement reference nsDs "Transforms"
  let canonicalElement ←
    c14nExcludingSignature libs signedElement sigNode (extractInclusivePrefixes transforms)
  let digestValue ← okOr (.other "missing DigestValue")
    ((findChildElement reference nsDs "DigestValue").bind fun n => elementText n.element)
  let expectedDigest ← (libs.base64Decode (trimmed digestValue)).mapError fun e =>
    .other ("invalid DigestValue base64: " ++ e)
  if libs.sha256 canonicalElement ≠ expectedDigest then throw .digestMismatch
  let c14nMethod := findChildElement signedInfo nsDs "CanonicalizationMethod"
  let canonicalSignedInfo := exclusiveC14n signedInfo (extractInclusivePrefixes c14nMethod)
  let sigValue ← okOr (.other "missing SignatureValue")
    ((findChildElement sigNode nsDs "SignatureValue").bind fun n => elementText n.element)
  let sigBytes ← (libs.base64Decode
    ((splitWhitespace sigValue).foldr (· ++ ·) "")).mapError fun e =>
      .other ("invalid SignatureValue base64: " ++ e)
  let sigAlgorithm ← okOr (.other "missing SignatureMethod Algorithm")
    ((findChildElement signedInfo nsDs "SignatureMethod").bind fun n =>
      n.element.attributeValue "Algorithm")
  verifySignatureWithCerts libs sigAlgorithm sigBytes canonicalSignedInfo certs
  pure { elementId, canonicalElement, canonicalSignedInfo }

/-- Verifies the signature of a document, and returns the `ID` of the signed element. -/
def verifyXmlSignature (libs : Libraries) (doc : Xml.Document) (certs : List (List UInt8)) :
    Except SignatureError String :=
  (checkXmlSignature libs doc certs).map (·.elementId)

end Vouch.Saml
