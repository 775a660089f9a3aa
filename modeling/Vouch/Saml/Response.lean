import Vouch.Saml.Signature
import Vouch.Validity

/-!
# Validating a SAML response

The code of `services/idp/saml/response.rs`.  The document is decoded, parsed and its signature
verified; the signed element is looked up again by its `ID` and has to be the response itself or an
assertion directly below it; then the response's destination, request and status and the assertion's
issuer, audience, conditions and subject confirmation are checked, and the identity is extracted.

* `readDocument` — from the form parameter to the document.
* `checkPlacement`, `checkResponse`, `selectAssertion` — what stands between the signature and the
  assertion that is consumed: where the signed element is, the attributes and the status of the
  response, and that there is one assertion.
* `validateAssertion` — the checks of the assertion and the extraction.  It sees nothing but the
  assertion element.
* `validateSamlResponse` — the whole.
-/

namespace Vouch.Saml

open Xml

/-! ## Data -/

/-- `STATUS_SUCCESS`. -/
def statusSuccess : String := "urn:oasis:names:tc:SAML:2.0:status:Success"

/-- Clock skew that is tolerated, in seconds. -/
def clockSkewSecs : Int := 120

/-- The largest decoded response that is parsed. -/
def maxResponseBytes : Nat := 1024 * 1024

/-- `SUBJECT_BEARER`, the one method of confirmation. -/
def subjectBearer : String := "urn:oasis:names:tc:SAML:2.0:cm:bearer"

/-- What the code uses of the metadata of the identity provider. -/
structure IdpMetadata where
  entityId : String
  signingCertificates : List (List UInt8)
  deriving DecidableEq, Repr

/-- What the validation uses of a configured provider. -/
structure SamlProvider where
  idpMetadata : IdpMetadata
  spEntityId : String
  acsUrl : String
  emailAttribute : Option String
  domainAttribute : Option String
  deriving DecidableEq, Repr

/-- The identity that a response asserts. -/
structure SamlAssertion where
  email : String
  domain : Option Domain
  nameId : Option String
  nameIdFormat : Option String
  deriving DecidableEq

/-- Errors of the validation. -/
inductive ResponseError where
  | decodeFailed (text : String)
  | xmlParse (text : String)
  | signatureInvalid (e : SignatureError)
  | destinationMismatch (expected actual : String)
  | missingDestination
  | inResponseToMismatch (expected actual : String)
  | missingInResponseTo
  | missingSubjectConfirmationInResponseTo
  | statusNotSuccess (value : String)
  | timeValidation (text : String)
  | conditionNotAccepted (text : String)
  | multipleAssertions
  | noAssertion
  | issuerMismatch (expected actual : String)
  | audienceRestrictionViolation (spEntityId : String)
  | invalidSubjectConfirmationMethod (method : String)
  | noEmail
  | invalidDomain (e : DomainValidationError)
  | other (text : String)
  deriving DecidableEq, Repr

/-! ## The response -/

/-- The status code of a response. -/
def validateStatus (response : Element) : Except ResponseError Unit := do
  let status ← okOr (.other "missing Status element") (response.child nsSamlp "Status")
  let statusCode ← okOr (.other "missing StatusCode element") (status.child nsSamlp "StatusCode")
  let value ← okOr (.other "missing StatusCode Value") (statusCode.attributeValue "Value")
  if value ≠ statusSuccess then throw (.statusNotSuccess value)

/-! ## The assertion -/

/-- The issuer has to be the provider. -/
def validateIssuer (assertion : Element) (expectedEntityId : String) :
    Except ResponseError Unit := do
  let text ← okOr (.other "missing Issuer element in assertion")
    ((assertion.child nsSaml "Issuer").bind elementText)
  let issuer := trimmed text
  if issuer ≠ expectedEntityId then throw (.issuerMismatch expectedEntityId issuer)

/-- Whether an audience restriction names the service provider. -/
def restrictionAdmits (spEntityId : String) (restriction : Element) : Bool :=
  ((restriction.childrenNamed nsSaml "Audience").filterMap elementText).any
    (trimmed · = spEntityId)

/-- There has to be an audience restriction, and each has to name the service provider. -/
def validateAudienceRestriction (assertion : Element) (spEntityId : String) :
    Except ResponseError Unit := do
  let conditions ← okOr (.other "missing Conditions element for audience check")
    (assertion.child nsSaml "Conditions")
  let restrictions := conditions.childrenNamed nsSaml "AudienceRestriction"
  if restrictions.all (restrictionAdmits spEntityId) ∧ ¬ restrictions.isEmpty then pure ()
  else throw (.audienceRestrictionViolation spEntityId)

/-- Every condition has to be one that is understood, and `OneTimeUse` may stand once. -/
def checkConditions (oneTimeUse : Nat) : List Element → Except ResponseError Unit
  | [] => pure ()
  | child :: rest =>
    if child.hasTagName nsSaml "AudienceRestriction" then checkConditions oneTimeUse rest
    else if child.hasTagName nsSaml "OneTimeUse" then
      if 0 < oneTimeUse then throw (.conditionNotAccepted "more than one OneTimeUse")
      else checkConditions (oneTimeUse + 1) rest
    else throw (.conditionNotAccepted child.head.tagName.name)

/-- A SAML timestamp. -/
def parseSamlTimestamp (libs : Libraries) (s : String) : Except ResponseError Timestamp :=
  (libs.parseTimestamp s).mapError fun e =>
    .timeValidation ("invalid timestamp '" ++ s ++ "': " ++ e)

/-- The conditions, and the time window they give. -/
def validateConditions (libs : Libraries) (assertion : Element) (now : Timestamp) :
    Except ResponseError Unit := do
  let conditions ← okOr (.other "missing Conditions element (required for Web Browser SSO)")
    (assertion.child nsSaml "Conditions")
  checkConditions 0 conditions.children.elements
  match conditions.attributeValue "NotBefore" with
  | none => pure ()
  | some s =>
    let notBefore ← parseSamlTimestamp libs s
    let skewedNow := (now.checkedAddSeconds clockSkewSecs).getD now
    if skewedNow < notBefore then
      throw (.timeValidation ("assertion not yet valid: NotBefore=" ++ s ++ ", now=" ++
        libs.showTimestamp now))
  match conditions.attributeValue "NotOnOrAfter" with
  | none => pure ()
  | some s =>
    let notOnOrAfter ← parseSamlTimestamp libs s
    let skewedNow := (now.checkedAddSeconds (-clockSkewSecs)).getD now
    if notOnOrAfter ≤ skewedNow then
      throw (.timeValidation ("assertion has expired: NotOnOrAfter=" ++ s ++ ", now=" ++
        libs.showTimestamp now))

/-- One bearer confirmation of the subject. -/
def validateSingleSubjectConfirmation (libs : Libraries) (confirmation : Element)
    (expectedRequestId acsUrl : String) (now : Timestamp) : Except ResponseError Unit := do
  let method := (confirmation.attributeValue "Method").getD ""
  if method ≠ subjectBearer then throw (.invalidSubjectConfirmationMethod method)
  let confData ← okOr (.other "missing SubjectConfirmationData (required for bearer)")
    (confirmation.child nsSaml "SubjectConfirmationData")
  let recipient ← okOr (.other "missing Recipient in SubjectConfirmationData (required)")
    (confData.attributeValue "Recipient")
  if recipient ≠ acsUrl then throw (.destinationMismatch acsUrl recipient)
  let inResponseTo ← okOr .missingSubjectConfirmationInResponseTo
    (confData.attributeValue "InResponseTo")
  if inResponseTo ≠ expectedRequestId then
    throw (.inResponseToMismatch expectedRequestId inResponseTo)
  let s ← okOr
    (.timeValidation "missing NotOnOrAfter in SubjectConfirmationData (required for bearer)")
    (confData.attributeValue "NotOnOrAfter")
  let notOnOrAfter ← parseSamlTimestamp libs s
  let skewedNow := (now.checkedAddSeconds (-clockSkewSecs)).getD now
  if notOnOrAfter ≤ skewedNow then
    throw (.timeValidation ("SubjectConfirmationData expired: NotOnOrAfter=" ++ s))

/-- Succeeds with the first element that passes a check; otherwise fails as the first one did. -/
def firstOk (check : Element → Except ResponseError Unit) (firstError : Option ResponseError) :
    List Element → Except ResponseError Unit
  | [] => .error (firstError.getD (.other "no valid bearer SubjectConfirmation found"))
  | e :: rest =>
    match check e with
    | .ok () => .ok ()
    | .error err => firstOk check (firstError.orElse fun _ => some err) rest

/-- Some confirmation of the subject has to hold. -/
def validateSubjectConfirmation (libs : Libraries) (assertion : Element)
    (expectedRequestId acsUrl : String) (now : Timestamp) : Except ResponseError Unit := do
  let subject ← okOr (.other "missing Subject element (required for Web Browser SSO)")
    (assertion.child nsSaml "Subject")
  let confirmations := subject.childrenNamed nsSaml "SubjectConfirmation"
  if confirmations.isEmpty then
    throw (.other "missing SubjectConfirmation element (required for Web Browser SSO)")
  firstOk (fun c => validateSingleSubjectConfirmation libs c expectedRequestId acsUrl now) none
    confirmations

/-! ## The identity -/

/-- The `NameID` and its format; nothing if it is empty. -/
def extractNameId (assertion : Element) : Option (String × Option String) := do
  let subject ← assertion.child nsSaml "Subject"
  let node ← subject.child nsSaml "NameID"
  let text ← elementText node
  let text := trimmed text
  if text = "" then none else some (text, node.attributeValue "Format")

/-- The value of one attribute, if it has the name and is not empty. -/
def samlAttributeValue (attrName : String) (attr : Element) : Option String := do
  if attr.attributeValue "Name" = some attrName then
    let valueNode ← attr.child nsSaml "AttributeValue"
    let text ← elementText valueNode
    let text := trimmed text
    if text = "" then none else some text
  else none

/-- The first non-empty value of a SAML attribute. -/
def findSamlAttribute (assertion : Element) (attrName : String) : Option String := do
  let attrStmt ← assertion.child nsSaml "AttributeStatement"
  (attrStmt.childrenNamed nsSaml "Attribute").findSome? (samlAttributeValue attrName)

/-- The email address: the configured attribute, or the `NameID`. -/
def extractEmail (assertion : Element) (emailAttribute : Option String) :
    Except ResponseError String :=
  match emailAttribute.bind (findSamlAttribute assertion) with
  | some value => pure value
  | none => okOr .noEmail ((extractNameId assertion).map (·.1))

/-- The domain: the configured attribute, or the domain of the email address. -/
def extractDomain (assertion : Element) (domainAttribute : Option String) (email : String) :
    Except DomainValidationError (Option Domain) :=
  match (domainAttribute.bind (findSamlAttribute assertion)).orElse fun _ =>
    Email.domainOf email with
  | none => pure none
  | some raw => (Domain.parse raw).map some

/-- The checks of the assertion, and the identity it asserts. -/
def validateAssertion (libs : Libraries) (assertion : Element) (expectedRequestId : String)
    (provider : SamlProvider) (now : Timestamp) : Except ResponseError SamlAssertion := do
  validateIssuer assertion provider.idpMetadata.entityId
  validateAudienceRestriction assertion provider.spEntityId
  validateConditions libs assertion now
  validateSubjectConfirmation libs assertion expectedRequestId provider.acsUrl now
  let email ← extractEmail assertion provider.emailAttribute
  let domain ← (extractDomain assertion provider.domainAttribute email).mapError .invalidDomain
  pure
    { email
      domain
      nameId := (extractNameId assertion).map (·.1)
      nameIdFormat := (extractNameId assertion).bind (·.2) }

/-! ## The whole -/

/-- From the form parameter to the document. -/
def readDocument (libs : Libraries) (base64Response : String) :
    Except ResponseError Xml.Document := do
  let xmlBytes ← (libs.base64Decode (trimmed base64Response)).mapError .decodeFailed
  if maxResponseBytes < xmlBytes.length then
    throw (.decodeFailed ("decoded response exceeds maximum size (" ++ toString xmlBytes.length ++
      " bytes > " ++ toString maxResponseBytes ++ ")"))
  let xml ← (libs.fromUtf8 xmlBytes).mapError fun e => .decodeFailed ("invalid UTF-8: " ++ e)
  (libs.parseXml xml).mapError .xmlParse

/-- The root element, which has to be a response. -/
def responseRoot (doc : Xml.Document) : Option Node :=
  doc.rootElements.find? (·.element.hasTagName nsSamlp "Response")

/-- The signed element has to be the response, or an assertion directly below it. -/
def checkPlacement (root signedElement : Node) : Except ResponseError Unit := do
  let isResponse := signedElement.element.hasTagName nsSamlp "Response"
  let isAssertion := signedElement.element.hasTagName nsSaml "Assertion"
  if ¬ isResponse ∧ ¬ isAssertion then
    throw (.other "signed element is neither Response nor Assertion")
  if isResponse ∧ signedElement.path ≠ root.path then
    throw (.other "signed Response element does not match document root Response (XSW)")
  if isAssertion ∧ ¬ root.children.any (·.path = signedElement.path) then
    throw (.other "signed Assertion is not a direct child of Response (XSW)")

/-- The response has to be meant for this service, and to answer its request. -/
def checkResponse (response : Element) (expectedRequestId : String) (provider : SamlProvider) :
    Except ResponseError Unit := do
  let destination ← okOr .missingDestination (response.attributeValue "Destination")
  if destination ≠ provider.acsUrl then throw (.destinationMismatch provider.acsUrl destination)
  let inResponseTo ← okOr .missingInResponseTo (response.attributeValue "InResponseTo")
  if inResponseTo ≠ expectedRequestId then
    throw (.inResponseToMismatch expectedRequestId inResponseTo)
  validateStatus response

/-- The one assertion: the signed element itself, or the child of the signed response. -/
def selectAssertion (root signedElement : Node) : Except ResponseError Element := do
  let assertions := root.element.childrenNamed nsSaml "Assertion"
  if 1 < assertions.length then throw .multipleAssertions
  if signedElement.element.hasTagName nsSaml "Assertion" then pure signedElement.element
  else if signedElement.element.hasTagName nsSamlp "Response" then
    okOr .noAssertion assertions.head?
  else throw (.other "signed element is neither Response nor Assertion")

/-- Validates a SAML response, and extracts the identity it asserts. -/
def validateSamlResponse (libs : Libraries) (base64Response expectedRequestId : String)
    (provider : SamlProvider) (arrival : Timestamp) : Except ResponseError SamlAssertion := do
  let doc ← readDocument libs base64Response
  let signedId ←
    (verifyXmlSignature libs doc provider.idpMetadata.signingCertificates).mapError
      .signatureInvalid
  let signedElement ← okOr
    (.other ("signed element '" ++ signedId ++ "' not found after verification"))
    (findElementById doc signedId)
  let root ← okOr (.other "missing Response element") (responseRoot doc)
  checkPlacement root signedElement
  checkResponse root.element expectedRequestId provider
  let assertion ← selectAssertion root signedElement
  validateAssertion libs assertion expectedRequestId provider arrival

end Vouch.Saml
