import Vouch.Db.Documents
import Vouch.Error
import Vouch.Validity

/-!
# Signed tokens

What the services read of a signed token (`crypto/jwt.rs`): its protected header, the key it embeds
and its claims.  Decoding, the signature check and the JSON are the work of third-party code;
`JwtLibrary` is the part of it that is used, with the claims type left open.
-/

namespace Vouch

/-! ## Headers and keys -/

namespace JwsAlgorithm

/-- The algorithms a FAPI 2.0 client may sign with. -/
def fapiAllowed : List JwsAlgorithm := [es256, ps256, edDsa]

/-- The algorithms any client may sign its assertions with. -/
def clientAssertionAllowed : List JwsAlgorithm := [es256, rs256, ps256, edDsa]

/-- The name of an algorithm on the wire. -/
def asStr : JwsAlgorithm → String
  | es256 => "ES256"
  | rs256 => "RS256"
  | ps256 => "PS256"
  | edDsa => "EdDSA"

end JwsAlgorithm

/-- The algorithms a client of a profile may sign its assertions with. -/
def FapiProfile.clientAssertionAlgorithms : FapiProfile → List JwsAlgorithm
  | .none => JwsAlgorithm.clientAssertionAllowed
  | .fapi2Security => JwsAlgorithm.fapiAllowed

/-- The algorithm a header names: one of ours, or another text. -/
inductive HeaderAlg
  | known (alg : JwsAlgorithm)
  | other (text : String)
  deriving DecidableEq, Repr

/-- A public key, as a header carries it. -/
inductive Jwk
  | ec (x y : String)
  | rsa (n e : String)
  | okp (x : String)
  deriving DecidableEq, Repr

/-- The protected header of a token. -/
structure JoseHeader where
  alg : HeaderAlg
  typ : Option String
  kid : Option String
  jwk : Option Jwk
  deriving DecidableEq, Repr

/-- Why a token's header was refused. -/
inductive JwsError
  | critical
  | malformed (reason : String)
  | privateKey
  deriving DecidableEq, Repr

/-- The third-party code behind signed tokens. -/
structure JwtLibrary (Key Claims : Type) where
  /-- Split a token and decode its protected header, which has no `crit` and no private key. -/
  parse : String → Except JwsError JoseHeader
  /-- The payload of a token as claims. -/
  claims : String → Option Claims
  /-- Whether the signature of a token verifies under a key. -/
  verifies : String → Key → JwsAlgorithm → Bool
  /-- Keys from their components, which may be refused. -/
  fromEcComponents : String → String → Except String Key
  fromRsaComponents : String → String → Except String Key
  fromEdComponents : String → Except String Key
  /-- The thumbprint of a key. -/
  thumbprint : Jwk → String

/-- Verify a token's signature and read its claims in one pass. -/
def JwtLibrary.decode {Key Claims : Type} (lib : JwtLibrary Key Claims) (token : String) (key : Key)
    (alg : JwsAlgorithm) : Option Claims :=
  if lib.verifies token key alg then lib.claims token else none

theorem JwtLibrary.claims_of_decode {Key Claims : Type} {lib : JwtLibrary Key Claims}
    {token : String} {key : Key} {alg : JwsAlgorithm} {c : Claims}
    (h : lib.decode token key alg = some c) : lib.claims token = some c := by
  rw [decode] at h
  split at h
  · exact h
  · cases h

end Vouch
