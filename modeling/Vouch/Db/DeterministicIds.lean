import Mathlib.Data.List.SplitLengths
import Vouch.Db.UsedMarkers
import Vouch.Domain
import Vouch.Lib.Cursor
import Vouch.Oidc.Jwt

/-!
# Ids derived from what they name

A document that must exist only once gets an id that is computed from what it stands for, so that
two writers meet at the same primary key.  The id is a digest of a label, a NUL character and the
arguments; where there are two arguments, another NUL character stands between them.  The functions
are spread over six files, and all their ids live in the same table.

* `Meaning` — a kind of document and the arguments its id is derived from.
* `Meaning.id`, `Meaning.preimage` — the id, and the text that is digested.
* `ids_never_collide` — **no digested text has two meanings**, as long as client ids, group ids and
  issuers hold no NUL character.  Nothing is asked of the other arguments.
-/

namespace Vouch

open Cursor

/-- Where a signing key of an organization stands in its rotation. -/
inductive SigningKeyState
  | current
  | next
  | previous
  deriving DecidableEq, Repr

/-- The label of the ids of the keys in a state. -/
def SigningKeyState.label : SigningKeyState → String
  | current => "org_signing_key"
  | next => "org_signing_key_next"
  | previous => "org_signing_key_prev"

/-- The variant bits in a digit of a UUID. -/
def variantDigit (c : Char) : Char :=
  if c ∈ ['0', '4', '8', 'c'] then '8'
  else if c ∈ ['1', '5', '9', 'd'] then '9'
  else if c ∈ ['2', '6', 'a', 'e'] then 'a'
  else 'b'

/-- `Uuid::new_v8` of the first sixteen bytes of a digest, as text. -/
def uuidV8 (hex : String) : String :=
  let digits := ((hex.toList.take 32).set 12 '8').modify 16 variantDigit
  String.ofList (['-'].intercalate ([8, 4, 4, 4, 12].splitLengths digits))

section Ids

variable [Digest]

/-- The id of the organization of a domain (`db/enrollment.rs`). -/
def deterministicOrgId (domain : Domain) : String :=
  Digest.sha256Hex ("organization_domain\x00" ++ domain.text)

/-- The id of the claim on a domain (`db/organizations/domains.rs`). -/
def deterministicDomainClaimId (domain : String) : String :=
  Digest.sha256Hex ("domain_claim\x00" ++ domain)

/-- The id of the claim on a subdomain (`db/organizations/issuer.rs`). -/
def deterministicSubdomainClaimId (label : String) : String :=
  Digest.sha256Hex ("subdomain_claim\x00" ++ label)

/-- The id of a signing key of an organization. -/
def deterministicOrgKeyId (orgId : String) (alg : JwsAlgorithm) (state : SigningKeyState) :
    String :=
  Digest.sha256Hex (state.label ++ "\x00" ++ orgId ++ "\x00" ++ alg.asStr)

/-- The id of the document that makes a user a member of a group (`db/scim.rs`). -/
def deterministicGroupMemberId (groupId userId : String) : String :=
  Digest.sha256Hex ("scim_group_member\x00" ++ groupId ++ "\x00" ++ userId)

/-- The id of a user (`db/documents/user.rs`). -/
def deterministicUserId (email : Email) : String :=
  uuidV8 (Digest.sha256Hex ("user_email\x00" ++ email.text))

end Ids

/-- What a derived id stands for. -/
inductive Meaning
  | dpopJti (jti : String)
  | dpopNonce (nonce : String)
  | signatureNonce (nonce : String)
  | challengeState (stateJwt : String)
  | jwtAssertionJti (clientId jti : String)
  | organizationDomain (domain : Domain)
  | domainClaim (domain : String)
  | subdomainClaim (label : String)
  | orgSigningKey (orgId : String) (alg : JwsAlgorithm) (state : SigningKeyState)
  | scimGroupMember (groupId userId : String)
  | idpIdentity (issuer subject : String)
  | userEmail (email : Email)
  deriving DecidableEq

namespace Meaning

/-- The id of a meaning, as the server computes it. -/
def id [Digest] : Meaning → String
  | dpopJti jti => deterministicDpopJtiId jti
  | dpopNonce nonce => deterministicDpopNonceId nonce
  | signatureNonce nonce => deterministicSignatureNonceId nonce
  | challengeState stateJwt => deterministicChallengeStateId stateJwt
  | jwtAssertionJti clientId jti => deterministicJtiId jti clientId
  | organizationDomain domain => deterministicOrgId domain
  | domainClaim domain => deterministicDomainClaimId domain
  | subdomainClaim label => deterministicSubdomainClaimId label
  | orgSigningKey orgId alg state => deterministicOrgKeyId orgId alg state
  | scimGroupMember groupId userId => deterministicGroupMemberId groupId userId
  | idpIdentity issuer subject => idpIdentityIndexValue issuer subject
  | userEmail email => deterministicUserId email

/-- The label of a kind of id. -/
def label : Meaning → String
  | dpopJti _ => "dpop_jti"
  | dpopNonce _ => "dpop_nonce"
  | signatureNonce _ => "signature_nonce"
  | challengeState _ => "challenge_state"
  | jwtAssertionJti .. => "jwt_assertion_jti"
  | organizationDomain _ => "organization_domain"
  | domainClaim _ => "domain_claim"
  | subdomainClaim _ => "subdomain_claim"
  | orgSigningKey _ _ state => state.label
  | scimGroupMember .. => "scim_group_member"
  | idpIdentity .. => "idp_identity"
  | userEmail _ => "user_email"

/-- The arguments, as they stand behind the label. -/
def arguments : Meaning → String
  | dpopJti text | dpopNonce text | signatureNonce text | challengeState text => text
  | domainClaim text | subdomainClaim text => text
  | organizationDomain domain => domain.text
  | userEmail email => email.text
  | jwtAssertionJti clientId jti => clientId ++ "\x00" ++ jti
  | orgSigningKey orgId alg _ => orgId ++ "\x00" ++ alg.asStr
  | scimGroupMember groupId userId => groupId ++ "\x00" ++ userId
  | idpIdentity issuer subject => issuer ++ "\x00" ++ subject

/-- The text that is digested. -/
def preimage (m : Meaning) : String := m.label ++ "\x00" ++ m.arguments

/-- How an id is made of a digest: only that of a user is cut to a UUID. -/
def form : Meaning → String → String
  | userEmail _ => uuidV8
  | _ => fun digest => digest

theorem id_eq [Digest] (m : Meaning) : m.id = m.form (Digest.sha256Hex m.preimage) := by
  have hassoc : ∀ l x y z : String, l ++ x ++ y ++ z = l ++ (x ++ y ++ z) := by
    simp [String.append_assoc]
  cases m with
  | jwtAssertionJti => exact congrArg _ (hassoc _ _ _ _)
  | scimGroupMember => exact congrArg _ (hassoc _ _ _ _)
  | idpIdentity => exact congrArg _ (hassoc _ _ _ _)
  | orgSigningKey => exact congrArg _ (hassoc _ _ _ _)
  | _ => rfl

/-- The first of two arguments holds no NUL character. -/
def separated : Meaning → Bool
  | jwtAssertionJti clientId _ => !containsNul clientId
  | scimGroupMember groupId _ => !containsNul groupId
  | idpIdentity issuer _ => !containsNul issuer
  | _ => true

/-! ## Reading a preimage back -/

/-- Two texts with a NUL character between them are determined if the first holds none. -/
theorem pair_inj {a b c d : String} (ha : containsNul a = false) (hc : containsNul c = false)
    (h : a ++ "\x00" ++ b = c ++ "\x00" ++ d) : a = c ∧ b = d := by
  have hlist := congrArg String.toList h
  simp only [String.toList_append, List.append_assoc] at hlist
  have hnot : ∀ s : String, containsNul s = false → '\x00' ∉ s.toList := by simp [containsNul]
  obtain ⟨hfirst, hrest⟩ := append_cons_inj (hnot a ha) (hnot c hc) hlist
  exact ⟨String.toList_inj.1 hfirst, String.toList_inj.1 hrest⟩

theorem containsNul_label (m : Meaning) : containsNul m.label = false := by
  cases m with
  | orgSigningKey _ _ state => cases state <;> simp only [label, SigningKeyState.label] <;> decide
  | _ => simp only [label]; decide

/-- The label and the arguments are read off the preimage. -/
theorem preimage_inj {m m' : Meaning} (h : m.preimage = m'.preimage) :
    m.label = m'.label ∧ m.arguments = m'.arguments :=
  pair_inj m.containsNul_label m'.containsNul_label h

/-- The names of the algorithms are of the same length, so an organization's id may hold
anything. -/
theorem orgKey_inj {orgId orgId' : String} {alg alg' : JwsAlgorithm}
    (h : orgId ++ "\x00" ++ alg.asStr = orgId' ++ "\x00" ++ alg'.asStr) :
    orgId = orgId' ∧ alg = alg' := by
  have hlen : ∀ alg : JwsAlgorithm, ("\x00".toList ++ alg.asStr.toList).length = 6 := by
    intro alg
    cases alg <;> rfl
  have hlist := congrArg String.toList h
  simp only [String.toList_append, List.append_assoc] at hlist
  obtain ⟨horg, halg⟩ := List.append_inj' hlist ((hlen alg).trans (hlen alg').symm)
  refine ⟨String.toList_inj.1 horg, ?_⟩
  cases alg <;> cases alg' <;> first | rfl | exact absurd halg (by decide)

/-- A preimage has one meaning. -/
theorem eq_of_preimage_eq {m m' : Meaning} (hm : m.separated = true) (hm' : m'.separated = true)
    (h : m.preimage = m'.preimage) : m = m' := by
  obtain ⟨hlabel, hargs⟩ := preimage_inj h
  -- the labels of two kinds differ; within a kind the arguments are read off
  cases m <;> cases m' <;> simp only [label] at hlabel <;> simp only [arguments] at hargs <;>
    grind [cases SigningKeyState, cases Domain, cases Email, SigningKeyState.label,
      pair_inj, orgKey_inj, separated]

end Meaning

/-- **No digested text has two meanings.**  The text an id is the digest of determines the kind and
the arguments, and so does the digest if it has no collisions, where client ids, group ids and
issuers hold no NUL character. -/
theorem ids_never_collide [Digest] (m m' : Meaning) (hm : m.separated = true)
    (hm' : m'.separated = true) :
    m.id = m.form (Digest.sha256Hex m.preimage) ∧
      (m.preimage = m'.preimage → m = m') ∧
      (Function.Injective Digest.sha256Hex →
        Digest.sha256Hex m.preimage = Digest.sha256Hex m'.preimage → m = m') :=
  ⟨m.id_eq, Meaning.eq_of_preimage_eq hm hm',
    fun hinj h => Meaning.eq_of_preimage_eq hm hm' (hinj h)⟩

/-- Two identities of one issuer, of which one subject holds a NUL character. -/
theorem ids_never_collide_subject :
    (Meaning.idpIdentity "https://idp" "a\x00b").preimage ≠
      (Meaning.idpIdentity "https://idp" "a").preimage := by
  let digest : Digest := ⟨fun text => text⟩
  intro h
  exact absurd ((ids_never_collide (.idpIdentity "https://idp" "a\x00b")
    (.idpIdentity "https://idp" "a") (by decide) (by decide)).2.1 h) (by decide)

/-- With a NUL character in the issuer, two identities have the same digested text. -/
theorem issuer_with_separator :
    (Meaning.idpIdentity "a\x00b" "c").preimage = (Meaning.idpIdentity "a" "b\x00c").preimage ∧
      Meaning.idpIdentity "a\x00b" "c" ≠ Meaning.idpIdentity "a" "b\x00c" := by
  decide

end Vouch
