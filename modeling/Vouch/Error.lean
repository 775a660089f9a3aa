import Vouch.Store.Document

/-!
# Errors of the services

`OAuthErrorCode` and `ServiceError` (`error.rs`), with the variants the modelled code reports.
-/

namespace Vouch

open ReadCommitted Interleaving

/-- The OAuth error codes that are reported. -/
inductive OAuthErrorCode
  | invalidRequest
  | invalidClient
  | invalidGrant
  | unauthorizedClient
  | invalidScope
  | invalidTarget
  | invalidAuthorizationDetails
  | invalidToken
  | accessDenied
  | serverError
  | unsupportedResponseType
  | unmetAuthenticationRequirements
  | invalidRequestUri
  | loginRequired
  | accountSelectionRequired
  | invalidDpopProof
  deriving DecidableEq, Repr

/-- What a service reports. -/
inductive ServiceError
  | oauth (code : OAuthErrorCode) (description : String)
  | notFound (what : String)
  | validation (text : String)
  | forbidden (text : String)
  | conflict (text : String)
  | api (status : Nat) (code message : String)
  /-- A guarded write found that the row had moved on. -/
  | occConflict
  | internal (text : String)
  deriving DecidableEq, Repr

end Vouch
