import Mathlib.Data.Fintype.Powerset
import Vouch.Oidc.Jwt

/-!
# Scopes

`services/oidc/scope.rs`: the scopes the server knows, and sets of them.  A request's text is split
at white space and what is not a scope is dropped; a request whose scopes were all dropped is
refused.
-/

namespace Vouch

/-- A scope. -/
inductive OAuthScope
  | openId
  | email
  deriving DecidableEq, Repr

instance : Fintype OAuthScope := ⟨{.openId, .email}, fun scope => by cases scope <;> decide⟩

namespace OAuthScope

/-- The name of a scope. -/
def asStr : OAuthScope → String
  | openId => "openid"
  | email => "email"

/-- The scope of a name. -/
def parse (s : String) : Option OAuthScope :=
  if s = "openid" then some openId else if s = "email" then some email else none

end OAuthScope

/-- `str::split_whitespace`: the non-empty pieces between white space. -/
def splitWhitespace (s : String) : List String :=
  ((s.toList.splitOnP isWhitespace).filter fun piece => !piece.isEmpty).map String.ofList

/-- A set of scopes. -/
abbrev ScopeSet := Finset OAuthScope

namespace ScopeSet

/-- The scopes of a list; names that are not known are dropped. -/
def parse (s : String) : ScopeSet := ((splitWhitespace s).filterMap OAuthScope.parse).toFinset

/-- Every scope there is. -/
def all : ScopeSet := {.openId, .email}

/-- The scopes that mean something without a user. -/
def withoutUserScopes (scopes : ScopeSet) : ScopeSet :=
  scopes.filter fun scope => scope ≠ .openId ∧ scope ≠ .email

/-- A request that named scopes has to be granted one. -/
def intoRequestedGrant (scopes : ScopeSet) : Except ServiceError ScopeSet :=
  if scopes = ∅ then
    .error (.oauth .invalidScope "None of the requested scopes can be granted")
  else
    .ok scopes

end ScopeSet

end Vouch
