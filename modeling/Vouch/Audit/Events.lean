import Mathlib.Data.List.Sort
import Mathlib.Data.String.Basic
import Vouch.Validity
import Vouch.Db.Documents

/-!
# The audit log

`db/audit.rs`: audit events are rows of a table of their own.  A row is written once, with the
instant it is about and an id that is minted for it, and is never changed.

* `AuditEventKind` is the registry of event types, with the text each is stored under.
* `insertEventRaw` builds the row.  Its caller stamps `createdAt` and hands it over; the id is
  minted afterwards.
* `AuditEventFilter.selects` is the `WHERE` clause of a query apart from the cursor, and
  `queryEvents` and `queryEventsPaginated` are the queries.  Instants are compared by their whole
  seconds: a bound is cut to the text of its whole second, which every instant of that second sorts
  behind.

`queryEventsPaginated_forward` says what a forward query returns: the first rows, in the order of
their ids, of all that are selected behind the cursor, and whether there are more.
-/

namespace Vouch.Audit

/-! ## Events -/

/-- Every audit event type the server writes. -/
inductive AuditEventKind
  | loginSuccess
  | loginFailed
  | enrollment
  | logout
  | keyRegistered
  | keyRemoved
  | keyRenamed
  | deviceAuthApproved
  | keyRegistrationReplay
  | identityBound
  | identityBindRefused
  | scimOperation
  | sshCredential
  | awsCredential
  | gitHubCredential
  | tokenExchange
  | oauthTokenIssued
  | oauthTokenRevoked
  | oauthClientRegistered
  | oauthClientUpdated
  | oauthClientDeleted
  | oauthSecretAdded
  | oauthSecretRevoked
  | adminPromote
  | adminDemote
  | adminDeactivate
  | adminActivate
  | adminRevokeCredentials
  | adminRemoveUser
  | policyDenied
  | adminPolicyToggle
  | adminPolicyCreate
  | adminPolicyUpdate
  | adminPolicyDelete
  | adminCreateScimToken
  | adminDeleteScimToken
  | adminRevokeScimToken
  | orgDomainAdded
  | orgDomainVerified
  | orgDomainRemoved
  | orgDomainExpired
  | orgDomainUnverified
  | orgSubdomainClaimed
  | orgSubdomainReleased
  | orgIssuerKeyRotated
  | orgIssuerKeyRevoked
  | orgIssuerKeyEmergencyRotation
  deriving DecidableEq, Repr

namespace AuditEventKind

/-- Every kind. -/
def all : List AuditEventKind :=
  [.loginSuccess, .loginFailed, .enrollment, .logout, .keyRegistered, .keyRemoved, .keyRenamed,
   .deviceAuthApproved, .keyRegistrationReplay, .identityBound, .identityBindRefused,
   .scimOperation, .sshCredential, .awsCredential, .gitHubCredential, .tokenExchange,
   .oauthTokenIssued, .oauthTokenRevoked, .oauthClientRegistered, .oauthClientUpdated,
   .oauthClientDeleted, .oauthSecretAdded, .oauthSecretRevoked, .adminPromote, .adminDemote,
   .adminDeactivate, .adminActivate, .adminRevokeCredentials, .adminRemoveUser, .policyDenied,
   .adminPolicyToggle, .adminPolicyCreate, .adminPolicyUpdate, .adminPolicyDelete,
   .adminCreateScimToken, .adminDeleteScimToken, .adminRevokeScimToken, .orgDomainAdded,
   .orgDomainVerified, .orgDomainRemoved, .orgDomainExpired, .orgDomainUnverified,
   .orgSubdomainClaimed, .orgSubdomainReleased, .orgIssuerKeyRotated, .orgIssuerKeyRevoked,
   .orgIssuerKeyEmergencyRotation]

/-- The `event_type` text stored in the table. -/
def asStr : AuditEventKind → String
  | loginSuccess => "login_success"
  | loginFailed => "login_failed"
  | enrollment => "enrollment"
  | logout => "logout"
  | keyRegistered => "key_registered"
  | keyRemoved => "key_removed"
  | keyRenamed => "key_renamed"
  | deviceAuthApproved => "device_auth_approved"
  | keyRegistrationReplay => "key_registration_replay"
  | identityBound => "identity_bound"
  | identityBindRefused => "identity_bind_refused"
  | scimOperation => "scim_operation"
  | sshCredential => "ssh_credential"
  | awsCredential => "aws_credential"
  | gitHubCredential => "github_credential"
  | tokenExchange => "token_exchange"
  | oauthTokenIssued => "oauth_token_issued"
  | oauthTokenRevoked => "oauth_token_revoked"
  | oauthClientRegistered => "oauth_client_registered"
  | oauthClientUpdated => "oauth_client_updated"
  | oauthClientDeleted => "oauth_client_deleted"
  | oauthSecretAdded => "oauth_secret_added"
  | oauthSecretRevoked => "oauth_secret_revoked"
  | adminPromote => "admin_promote"
  | adminDemote => "admin_demote"
  | adminDeactivate => "admin_deactivate"
  | adminActivate => "admin_activate"
  | adminRevokeCredentials => "admin_revoke_credentials"
  | adminRemoveUser => "admin_remove_user"
  | policyDenied => "policy_denied"
  | adminPolicyToggle => "admin_policy_toggle"
  | adminPolicyCreate => "admin_policy_create"
  | adminPolicyUpdate => "admin_policy_update"
  | adminPolicyDelete => "admin_policy_delete"
  | adminCreateScimToken => "admin_create_scim_token"
  | adminDeleteScimToken => "admin_delete_scim_token"
  | adminRevokeScimToken => "admin_revoke_scim_token"
  | orgDomainAdded => "org_domain_added"
  | orgDomainVerified => "org_domain_verified"
  | orgDomainRemoved => "org_domain_removed"
  | orgDomainExpired => "org_domain_expired"
  | orgDomainUnverified => "org_domain_unverified"
  | orgSubdomainClaimed => "org_subdomain_claimed"
  | orgSubdomainReleased => "org_subdomain_released"
  | orgIssuerKeyRotated => "org_issuer_key_rotated"
  | orgIssuerKeyRevoked => "org_issuer_key_revoked"
  | orgIssuerKeyEmergencyRotation => "org_issuer_key_emergency_rotation"

/-- The kind that is stored under a text. -/
def fromWire (s : String) : Option AuditEventKind := all.find? fun kind => kind.asStr == s

end AuditEventKind

/-- An audit event. -/
structure AuditEvent where
  id : String
  eventType : String
  userId : Option String
  emailDomain : Option String
  emailHmac : Option String
  data : String
  createdAt : Timestamp
  deriving DecidableEq

/-- The row of an event, with the id that was minted for it. -/
def insertEventRaw (kind : AuditEventKind) (userId emailDomain emailHmac : Option String)
    (createdAt : Timestamp) (dataJson : String) (id : String) : AuditEvent where
  id := id
  eventType := kind.asStr
  userId := userId
  emailDomain := emailDomain
  emailHmac := emailHmac
  data := dataJson
  createdAt := createdAt

/-! ## Queries -/

/-- What a query asks for. -/
structure AuditEventFilter where
  eventTypes : Option (List String)
  userId : Option String
  email : Option String
  emailDomains : Option (List String)
  since : Option Timestamp
  «until» : Option Timestamp
  beforeId : Option String
  afterId : Option String
  limit : Option Nat

/-- The blind index of an address in canonical form; an address with a NUL byte has none. -/
def emailHmac (hmacIndex : String → String) (email : String) : Option String :=
  let canonical := (Email.new email).text
  if canonical.toList.contains '\x00' then none else some (hmacIndex canonical)

/-- The rows a filter selects, apart from its cursor. -/
def AuditEventFilter.selects (hmacIndex : String → String) (filter : AuditEventFilter)
    (row : AuditEvent) : Bool :=
  filter.eventTypes.all (fun types => types.contains row.eventType) &&
    filter.userId.all (fun uid => row.userId == some uid) &&
    filter.email.all (fun email =>
      (emailHmac hmacIndex email).any fun hmac => row.emailHmac == some hmac) &&
    filter.emailDomains.all (fun domains => row.emailDomain.any fun d => domains.contains d) &&
    filter.since.all (fun since => decide (since.wholeSecond ≤ row.createdAt.wholeSecond)) &&
    filter.until.all (fun bound => decide (row.createdAt.wholeSecond < bound.wholeSecond))

/-- Query the table.  A forward cursor takes precedence over a backward one. -/
def queryEvents (hmacIndex : String → String) (rows : List AuditEvent)
    (filter : AuditEventFilter) : List AuditEvent :=
  let selected : List AuditEvent := rows.filter (filter.selects hmacIndex)
  let ordered : List AuditEvent :=
    match filter.afterId with
    | some after =>
      (selected.filter fun row : AuditEvent => after < row.id).insertionSort fun a b => a.id ≤ b.id
    | none =>
      let earlier :=
        match filter.beforeId with
        | some before => selected.filter fun row : AuditEvent => row.id < before
        | none => selected
      earlier.insertionSort fun a b => b.id ≤ a.id
  match filter.limit with
  | some limit => ordered.take limit
  | none => ordered

/-- `u64::saturating_add(1)`. -/
def u64Succ (n : Nat) : Nat := Nat.min (n + 1) 18446744073709551615

/-- Query one row more than a page holds, to see whether there are more. -/
def queryEventsPaginated (hmacIndex : String → String) (rows : List AuditEvent)
    (filter : AuditEventFilter) (pageSize : Nat) : List AuditEvent × Bool :=
  let events := queryEvents hmacIndex rows { filter with limit := some (u64Succ pageSize) }
  let hasMore := decide (pageSize < events.length)
  (if hasMore then events.dropLast else events, hasMore)

/-- The rows a filter selects behind a cursor, in the order of their ids. -/
def forward (hmacIndex : String → String) (rows : List AuditEvent) (filter : AuditEventFilter)
    (after : String) : List AuditEvent :=
  ((rows.filter (filter.selects hmacIndex)).filter fun row => after < row.id).insertionSort
    fun a b => a.id ≤ b.id

variable {hmacIndex : String → String} {rows : List AuditEvent} {filter : AuditEventFilter}
  {after : String}

theorem mem_forward {row : AuditEvent} :
    row ∈ forward hmacIndex rows filter after ↔
      row ∈ rows ∧ filter.selects hmacIndex row = true ∧ after < row.id := by
  rw [forward, List.mem_insertionSort, List.mem_filter, List.mem_filter,
    decide_eq_true_eq, and_assoc]

/-- Where ids are distinct, the rows come in strictly ascending order. -/
theorem pairwise_forward (hrows : (rows.map AuditEvent.id).Nodup) :
    (forward hmacIndex rows filter after).Pairwise fun a b => a.id < b.id := by
  have hsorted : (forward hmacIndex rows filter after).Pairwise fun a b => a.id ≤ b.id :=
    List.pairwise_insertionSort _ _
  have hnodup : ((forward hmacIndex rows filter after).map AuditEvent.id).Nodup := by
    have hperm := (List.perm_insertionSort (fun a b : AuditEvent => a.id ≤ b.id)
      ((rows.filter (filter.selects hmacIndex)).filter fun row => after < row.id)).map AuditEvent.id
    refine hperm.nodup_iff.2 (hrows.sublist (List.Sublist.map _ ?_))
    exact List.filter_sublist.trans List.filter_sublist
  refine (hsorted.and (List.pairwise_map.1 hnodup)).imp ?_
  rintro a b ⟨hle, hne⟩
  exact lt_of_le_of_ne hle hne

/-- **What a forward query returns**: the first rows behind the cursor, and whether there are
more. -/
theorem queryEventsPaginated_forward {pageSize : Nat} (hafter : filter.afterId = some after)
    (hsize : pageSize < 18446744073709551615) :
    queryEventsPaginated hmacIndex rows filter pageSize =
      ((forward hmacIndex rows filter after).take pageSize,
        decide (pageSize < (forward hmacIndex rows filter after).length)) := by
  have hlimit : u64Succ pageSize = pageSize + 1 := Nat.min_eq_left (by omega)
  have hevents : queryEvents hmacIndex rows { filter with limit := some (u64Succ pageSize) } =
      (forward hmacIndex rows filter after).take (pageSize + 1) := by
    simp only [queryEvents, hafter, hlimit]
    rfl
  simp only [queryEventsPaginated, hevents, List.length_take]
  by_cases hmore : pageSize < (forward hmacIndex rows filter after).length
  · rw [if_pos (by simp; omega), List.dropLast_eq_take, List.take_take, List.length_take,
      Nat.min_eq_left (show pageSize + 1 ≤ _ from hmore), Nat.add_sub_cancel,
      Nat.min_eq_left (Nat.le_succ pageSize)]
    simp [hmore]
  · rw [if_neg (by simp; omega), List.take_of_length_le (by omega),
      List.take_of_length_le (by omega), Nat.min_eq_right (by omega)]

end Vouch.Audit
