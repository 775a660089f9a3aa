import Vouch.Db.Documents
import Vouch.Store.Ledger

/-!
# The stored GitHub link

A user's document holds the GitHub account they have linked and a refresh token of that account.
Linking writes both, revocation clears the token, and every access token the server needs is had by
exchanging the stored token at GitHub, which answers with the next one to store.  The exchange is a
round trip, so the document can have changed by the time its answer is to be written.

* `updateUserGithubIdentity`, `clearUserGithubRefreshToken`, `getUserGithubLink` and
  `updateUserGithubRefreshToken` are the four functions on the document (`db/users.rs`), and
  `getUserAccessToken` the refresh that uses the last two (`integrations/github/oauth.rs`).  GitHub
  is a parameter of the call: what it answers to each token.
* `Call.Step` is what each call may do to a document, and every call does only that, once
  (`triple_call`).
* `Issuer` is what is assumed of GitHub: a token is issued to one account and exchanged for a token
  of the same account, and none is issued twice.
* `github_link_consistent` is the result.  A token stored beside the account it belongs to stays so;
  what is stored after a revocation was never stored before it, and comes from a later link; and a
  token is rotated once, however many refreshes have read it.

At the largest row version a guarded write no longer moves it, and two refreshes that have read the
same token both write theirs (`rotated_twice_at_max_version`).
-/

namespace Vouch.GitHub

open ReadCommitted Interleaving ReadCommitted.Protocol

/-! ## The functions -/

section Functions

variable [Digest] (crypto : DocumentCrypto)

/-- What linking does to a document.  A token of another account is not kept. -/
def linkIdentity (githubId : Int) (githubLogin : String) (githubRefreshToken : Option String)
    (data : UserDoc) : UserDoc :=
  let sameAccount := data.githubId = some githubId
  { data with
    githubId := some githubId
    githubLogin := some githubLogin
    githubRefreshToken :=
      if githubRefreshToken.isSome then githubRefreshToken
      else if sameAccount then data.githubRefreshToken
      else none }

/-- Link a GitHub account to a user. -/
def updateUserGithubIdentity (userId : String) (githubId : Int) (githubLogin : String)
    (githubRefreshToken : Option String) : ExceptT StoreError (DbM Payload) Unit := do
  let found ← DocumentStore.modify crypto userId
    (linkIdentity githubId githubLogin githubRefreshToken)
  if found then pure () else throw (.message ("user not found: " ++ userId))

/-- Outcome of `updateUserGithubRefreshToken`. -/
inductive RefreshOutcome
  /-- The rotated refresh token was persisted. -/
  | written
  /-- The stored link is no longer the one the caller read. -/
  | skippedLinkChanged
  deriving DecidableEq

/-- A user's stored link, from a single read. -/
structure GitHubLink where
  githubId : Option Int
  githubRefreshToken : Option String

/-- Read the link of a user. -/
def getUserGithubLink (userId : String) : ExceptT StoreError (DbM Payload) (Option GitHubLink) := do
  let doc ← DocumentStore.get UserDoc userId
  pure (doc.map fun d => ⟨d.data.githubId, d.data.githubRefreshToken⟩)

/-- Whether the stored token is there and the one that was refreshed. -/
def sameToken : Option String → Option String → Bool
  | some stored, some refreshed => stored == refreshed
  | _, _ => false

/-- Store the rotated token, if the link is still the one that was read. -/
def rotateToken (newRefreshToken : String) (read : GitHubLink) (_now : Timestamp) (data : UserDoc) :
    Except RefreshOutcome (RefreshOutcome × UserDoc) :=
  if sameToken data.githubRefreshToken read.githubRefreshToken &&
      data.githubId == read.githubId then
    .ok (.written, { data with githubRefreshToken := some newRefreshToken })
  else
    .error .skippedLinkChanged

/-- Store a rotated token in place of the one that was refreshed. -/
def updateUserGithubRefreshToken (userId newRefreshToken : String) (read : GitHubLink) :
    ExceptT StoreError (DbM Payload) RefreshOutcome := do
  match ← DocumentStore.transition crypto userId (rotateToken newRefreshToken read) with
  | .applied o | .rejected o => pure o
  | .notFound => throw (.message ("user not found: " ++ userId))

/-- What revocation does to a document. -/
def clearToken (data : UserDoc) : UserDoc := { data with githubRefreshToken := none }

/-- Revoke the token of a user. -/
def clearUserGithubRefreshToken (userId : String) : ExceptT StoreError (DbM Payload) Unit := do
  let _ ← DocumentStore.modify crypto userId clearToken
  pure ()

/-- Why a refresh fails. -/
inductive GitHubError
  | database (e : StoreError)
  /-- The app is not configured, or GitHub refused the exchange. -/
  | gitHubApi (text : String)

/-- What GitHub answers to a refresh token. -/
structure TokenResponse where
  accessToken : String
  refreshToken : Option String

/-- A fresh access token for the user, by way of the stored refresh token. -/
def getUserAccessToken (refreshOauthToken : String → Except GitHubError TokenResponse)
    (userId : String) : ExceptT GitHubError (DbM Payload) (Option String) := do
  match ← mapError .database (getUserGithubLink userId) with
  | none => pure none
  | some linked =>
    match linked.githubRefreshToken with
    | none => pure none
    | some refreshToken =>
      let tokenResponse ← orThrow (refreshOauthToken refreshToken)
      match tokenResponse.refreshToken with
      | none => pure (some tokenResponse.accessToken)
      | some newRefreshToken =>
        let outcome ← mapError .database
          (updateUserGithubRefreshToken crypto userId newRefreshToken linked)
        if outcome = .skippedLinkChanged then pure none else pure (some tokenResponse.accessToken)

end Functions

/-! ## Calls -/

/-- A call that works on a stored link. -/
inductive Call
  | link (userId : String) (githubId : Int) (githubLogin : String)
      (githubRefreshToken : Option String)
  | revoke (userId : String)
  /-- A refresh, with what GitHub answers it. -/
  | refresh (userId : String) (refreshOauthToken : String → Except GitHubError TokenResponse)

namespace Call

/-- The program of a call.  Linking and revocation return no access token. -/
def run [Digest] (crypto : DocumentCrypto) :
    Call → ExceptT GitHubError (DbM Payload) (Option String)
  | link userId githubId githubLogin githubRefreshToken => do
    mapError .database (updateUserGithubIdentity crypto userId githubId githubLogin
      githubRefreshToken)
    pure none
  | revoke userId => do
    mapError .database (clearUserGithubRefreshToken crypto userId)
    pure none
  | refresh userId refreshOauthToken => getUserAccessToken crypto refreshOauthToken userId

/-- GitHub issues the token to the call: to be linked, or in exchange for another. -/
def Issues (t : String) : Call → Prop
  | link _ _ _ githubRefreshToken => githubRefreshToken = some t
  | revoke _ => False
  | refresh _ refreshOauthToken =>
    ∃ s response, refreshOauthToken s = .ok response ∧ response.refreshToken = some t

/-- The call links an account with a token. -/
def Supplies : Call → Prop
  | link _ _ _ githubRefreshToken => githubRefreshToken.isSome
  | _ => False

/-- The call revokes a token. -/
def IsRevocation : Call → Prop
  | revoke _ => True
  | _ => False

/-- The call refreshes a token. -/
def IsRefresh : Call → Prop
  | refresh _ _ => True
  | _ => False

/-- What a call may turn a document into. -/
def Step (data data' : UserDoc) : Call → Prop
  | link _ githubId githubLogin githubRefreshToken =>
    data' = linkIdentity githubId githubLogin githubRefreshToken data
  | revoke _ => data' = clearToken data
  | refresh _ refreshOauthToken => ∃ s response t, data.githubRefreshToken = some s ∧
      refreshOauthToken s = .ok response ∧ response.refreshToken = some t ∧
      data' = { data with githubRefreshToken := some t }

end Call

theorem eq_of_sameToken {stored refreshed : Option String} (h : sameToken stored refreshed = true) :
    stored = refreshed := by
  rw [sameToken.eq_def] at h
  split at h
  · exact congrArg some (eq_of_beq h)
  · cases h

theorem rotateToken_ok {t : String} {read : GitHubLink} {now : Timestamp} {data data' : UserDoc}
    {o : RefreshOutcome} (h : rotateToken t read now data = .ok (o, data')) :
    data.githubRefreshToken = read.githubRefreshToken ∧
      data' = { data with githubRefreshToken := some t } := by
  rw [rotateToken] at h
  split at h
  · rename_i hsame
    cases h
    exact ⟨eq_of_sameToken (Bool.and_eq_true_iff.mp hsame).1, rfl⟩
  · cases h

/-- A link that has changed is the one reason for which a rotation is not written. -/
theorem rotateToken_error {t : String} {read : GitHubLink} {now : Timestamp} {data : UserDoc}
    {o : RefreshOutcome} (h : rotateToken t read now data = .error o) :
    o = .skippedLinkChanged := by
  rw [rotateToken] at h
  split at h
  · cases h
  · cases h
    rfl

/-! ## What a step does to the token -/

section Steps

variable {call : Call} {data data' : UserDoc}

/-- A token that a call leaves stored was there before, or is one that was issued to it. -/
theorem Call.Step.issues (h : call.Step data data') {t : String}
    (ht : data'.githubRefreshToken = some t) :
    data.githubRefreshToken = some t ∨ call.Issues t := by
  cases call with
  | link userId githubId githubLogin token =>
    obtain rfl := h
    cases token with
    | some t' => exact .inr ht
    | none =>
      by_cases hsame : data.githubId = some githubId
      · simp only [linkIdentity, hsame, if_true] at ht
        exact .inl ht
      · simp only [linkIdentity, hsame, if_false] at ht
        cases ht
  | revoke userId =>
    obtain rfl := h
    cases ht
  | refresh userId refreshOauthToken =>
    obtain ⟨s, response, t', -, hex, hresponse, rfl⟩ := h
    cases ht
    exact .inr ⟨s, response, hex, hresponse⟩

/-- Where no token is stored, only a link that supplies one stores one. -/
theorem Call.Step.supplies (h : call.Step data data') (hnone : data.githubRefreshToken = none)
    (hsome : data'.githubRefreshToken ≠ none) : call.Supplies := by
  cases call with
  | link userId githubId githubLogin token =>
    obtain rfl := h
    cases token with
    | some t => rfl
    | none => simp [linkIdentity, hnone] at hsome
  | revoke userId =>
    obtain rfl := h
    exact absurd rfl hsome
  | refresh userId refreshOauthToken =>
    obtain ⟨s, response, t, hs, -⟩ := h
    rw [hnone] at hs
    cases hs

theorem Call.Step.revoked (h : call.Step data data') (hcall : call.IsRevocation) :
    data'.githubRefreshToken = none := by
  cases call with
  | link => exact hcall.elim
  | revoke =>
    obtain rfl := h
    rfl
  | refresh => exact hcall.elim

/-- A refresh leaves the token it was issued in the place of one. -/
theorem Call.Step.refreshed (h : call.Step data data') (hcall : call.IsRefresh) :
    ∃ t, data'.githubRefreshToken = some t ∧ call.Issues t := by
  cases call with
  | link => exact hcall.elim
  | revoke => exact hcall.elim
  | refresh userId refreshOauthToken =>
    obtain ⟨s, response, t, -, hex, hresponse, rfl⟩ := h
    exact ⟨t, rfl, s, response, hex, hresponse⟩

end Steps

/-! ## What is assumed of GitHub -/

/-- The user a document describes. -/
def userOf : Payload → Option UserDoc
  | .user d => some d
  | _ => none

/-- The token a row stores. -/
def storedToken (r : Option (Row Payload)) : Option String :=
  (r.bind fun row => userOf row.data).bind UserDoc.githubRefreshToken

/-- The account a row stores. -/
def storedId (r : Option (Row Payload)) : Option Int :=
  (r.bind fun row => userOf row.data).bind UserDoc.githubId

/-- The token that a row stores, if any, belongs to the account it stores. -/
def Belongs (account : String → Int) (r : Option (Row Payload)) : Prop :=
  ∀ t, storedToken r = some t → storedId r = some (account t)

/-- **What is assumed of GitHub.**  Every token is issued to an account; a link brings a token of
the account it links, and an exchange one of the same account; and no token is issued twice. -/
structure Issuer {ι : Type} (account : String → Int) (calls : ι → Call)
    (init : Table String (Row Payload)) : Prop where
  linked : ∀ i userId githubId githubLogin t,
    calls i = .link userId githubId githubLogin (some t) → account t = githubId
  exchanged : ∀ i userId refreshOauthToken s response t,
    calls i = .refresh userId refreshOauthToken →
    refreshOauthToken s = .ok response → response.refreshToken = some t → account t = account s
  issued_once : ∀ i j t, (calls i).Issues t → (calls j).Issues t → i = j
  not_issued_before : ∀ i t, (calls i).Issues t → ∀ userId,
    storedToken (init.lookup userId) ≠ some t

/-! ## Whole histories -/

section Histories

variable {ι : Type} {calls : ι → Call} {account : String → Int} {init : Table String (Row Payload)}

/-- What the threads may turn rows into. -/
def Allowed (calls : ι → Call) (i : ι) (_id : String) (old new : Option (Row Payload)) : Prop :=
  ∃ row row' data data', old = some row ∧ new = some row' ∧
    userOf row.data = some data ∧ userOf row'.data = some data' ∧ (calls i).Step data data'

/-- An allowed change is a step of the thread's call from the stored link to the stored link. -/
theorem Allowed.step {i : ι} {id : String} {old new : Option (Row Payload)}
    (h : Allowed calls i id old new) : ∃ data data', (calls i).Step data data' ∧
      storedToken old = data.githubRefreshToken ∧ storedToken new = data'.githubRefreshToken ∧
      storedId old = data.githubId ∧ storedId new = data'.githubId := by
  obtain ⟨row, row', data, data', rfl, rfl, hdata, hdata', hstep⟩ := h
  refine ⟨data, data', hstep, ?_, ?_, ?_, ?_⟩
  · rw [storedToken, Option.bind_some, hdata, Option.bind_some]
  · rw [storedToken, Option.bind_some, hdata', Option.bind_some]
  · rw [storedId, Option.bind_some, hdata, Option.bind_some]
  · rw [storedId, Option.bind_some, hdata', Option.bind_some]

/-- A step keeps a token with its account. -/
theorem belongs_step (hissuer : Issuer account calls init) {i : ι} {id : String}
    {old new : Option (Row Payload)} (h : Allowed calls i id old new) (hold : Belongs account old) :
    Belongs account new := by
  obtain ⟨data, data', hstep, htoken, htoken', hid, hid'⟩ := h.step
  intro t ht
  rw [htoken'] at ht
  rw [hid']
  rw [Belongs, htoken, hid] at hold
  cases hcall : calls i with
  | link userId githubId githubLogin token =>
    rw [hcall] at hstep
    obtain rfl := hstep
    cases token with
    | some t' =>
      cases ht
      exact congrArg some (hissuer.linked i _ _ _ _ hcall).symm
    | none =>
      by_cases hsame : data.githubId = some githubId
      · simp only [linkIdentity, hsame, if_true] at ht
        rw [← hold t ht, hsame]
        rfl
      · simp only [linkIdentity, hsame, if_false] at ht
        cases ht
  | revoke userId =>
    rw [hcall] at hstep
    obtain rfl := hstep
    cases ht
  | refresh userId refreshOauthToken =>
    rw [hcall] at hstep
    obtain ⟨s, response, t', hs, hex, hresponse, rfl⟩ := hstep
    cases ht
    rw [hissuer.exchanged i _ _ _ _ _ hcall hex hresponse]
    exact hold s hs

/-- A token that a change establishes was issued to the change's call. -/
theorem issues_of_established {c : DbChange ι Payload} (h : Allowed calls c.owner c.id c.old c.new)
    {t : String} (hold : storedToken c.old ≠ some t) (hnew : storedToken c.new = some t) :
    (calls c.owner).Issues t := by
  obtain ⟨data, data', hstep, htoken, htoken', -, -⟩ := h.step
  rw [htoken] at hold
  rw [htoken'] at hnew
  exact (hstep.issues hnew).resolve_left hold

/-- The token is stored to begin with, or after one of the changes. -/
def StoredIn (r : Option (Row Payload)) (l : List (Change ι String (Row Payload))) (t : String) :
    Prop :=
  storedToken r = some t ∨ ∃ e ∈ l, storedToken e.new = some t

/-- Where no token was stored, one that is stored later was issued to a change in between, and a
link in between has supplied one. -/
theorem supplied_since {r r' : Option (Row Payload)} {l : List (DbChange ι Payload)}
    (h : Linked r l r') (hallowed : ∀ c ∈ l, Allowed calls c.owner c.id c.old c.new)
    (hr : storedToken r = none) {t : String} (ht : storedToken r' = some t) :
    (∃ e ∈ l, (calls e.owner).Issues t) ∧ ∃ e ∈ l, (calls e.owner).Supplies := by
  constructor
  · rcases h.established_last (P := fun r => storedToken r = some t) ht with h | ⟨e, he, hold, hnew⟩
    · rw [hr] at h
      cases h
    · exact ⟨e, he, issues_of_established (hallowed e he) hold hnew⟩
  · rcases h.established_last (P := fun r => storedToken r ≠ none) (by rw [ht]; exact nofun) with
      h | ⟨e, he, hold, hnew⟩
    · exact absurd hr h
    · obtain ⟨data, data', hstep, htoken, htoken', -, -⟩ := (hallowed e he).step
      rw [htoken, not_not] at hold
      rw [htoken'] at hnew
      exact ⟨e, he, hstep.supplies hold hnew⟩

variable [DecidableEq ι]

/-- The protocol of the callers, each of whom makes one change at most. -/
abbrev linkProtocol (calls : ι → Call) (init : Table String (Row Payload)) :
    Protocol ι String (Row Payload) Timestamp :=
  seriesProtocol init (Allowed calls) fun _ l => l.length ≤ 1

variable {d : DbDurable ι Payload} {id t : String}
  {pre post : List (DbChange ι Payload)} {c c' : DbChange ι Payload}

theorem allowed_of_mem_history (hinv : (linkProtocol calls init).inv d)
    (hc : c ∈ history id d.log) : Allowed calls c.owner c.id c.old c.new :=
  hinv.1.allowed c (mem_history.mp hc).1

/-- **A token issued to a change was not stored before it.** -/
theorem not_stored_before (hissuer : Issuer account calls init)
    (hinv : (linkProtocol calls init).inv d) (hsplit : history id d.log = pre ++ post)
    (hc : c ∈ post) (ht : (calls c.owner).Issues t) : ¬ StoredIn (init.lookup id) pre t := by
  have hlinked := hinv.1.linked id
  rw [hsplit] at hlinked
  obtain ⟨m, hpre, -⟩ := hlinked.of_append
  have hinit := hissuer.not_issued_before c.owner t ht id
  -- An earlier change that stored the token was issued it, and would be the same thread's.
  have hnone : ∀ e ∈ pre, ¬ (storedToken e.old ≠ some t ∧ storedToken e.new = some t) := by
    rintro e he ⟨hold, hnew⟩
    have hmem : e ∈ history id d.log := hsplit ▸ List.mem_append_left post he
    have hissues := issues_of_established (allowed_of_mem_history hinv hmem) hold hnew
    exact once_in_history (hinv.2 c.owner) hsplit he hc (hissuer.issued_once _ _ t hissues ht) rfl
  rintro (h | ⟨e, he, hnew⟩)
  · exact hinit h
  · by_cases hold : storedToken e.old = some t
    · rcases hpre.established (P := fun r => storedToken r = some t) he
        hold with h | ⟨e', he', hest⟩
      · exact hinit h
      · exact hnone e' he' hest
    · exact hnone e he ⟨hold, hnew⟩

/-- Of two refreshes that have written, the later did not rotate the token the earlier did. -/
theorem rotated_once (hissuer : Issuer account calls init) (hinv : (linkProtocol calls init).inv d)
    (hsplit : history id d.log = pre ++ c :: post) (hc' : c' ∈ post)
    (hrefresh : (calls c.owner).IsRefresh) (hold : storedToken c.old = some t) :
    storedToken c'.old ≠ some t := by
  intro hold'
  have hlinked := hinv.1.linked id
  rw [hsplit] at hlinked
  obtain ⟨m, hpre, hcold, hpost⟩ := hlinked.of_append
  have hstored : StoredIn (init.lookup id) pre t := by
    rcases hpre.established_last (P := fun r => storedToken r = some t) (hcold ▸ hold) with
      h | ⟨e, he, -, hnew⟩
    · exact .inl h
    · exact .inr ⟨e, he, hnew⟩
  have hallowed : ∀ e ∈ c :: post, Allowed calls e.owner e.id e.old e.new := fun e he =>
    allowed_of_mem_history hinv (hsplit ▸ List.mem_append_right pre he)
  rcases hpost.established (P := fun r => storedToken r = some t) hc' hold' with
    hnew | ⟨e, he, heold, henew⟩
  · -- The earlier refresh would have been issued the token that it rotates.
    obtain ⟨data, data', hstep, -, htoken', -, -⟩ := (hallowed c List.mem_cons_self).step
    obtain ⟨t', ht', hissues⟩ := hstep.refreshed hrefresh
    rw [htoken', ht'] at hnew
    cases hnew
    exact not_stored_before hissuer hinv hsplit List.mem_cons_self hissues hstored
  · have hmem := List.mem_cons_of_mem c he
    exact not_stored_before hissuer hinv hsplit hmem
      (issues_of_established (hallowed e hmem) heold henew) hstored

end Histories

/-! ## Each call -/

section Calls

variable {ι : Type} {init : Table String (Row Payload)} {i : ι} {calls : ι → Call}
  {crypto : DocumentCrypto}

theorem allowed_rewrite [Digest] {row : Row Payload} {data data' : UserDoc} {userId : String}
    {now : Timestamp} {version : Int} (hrow : DocumentType.fromData row.data = some data)
    (hstep : (calls i).Step data data') :
    Allowed calls i userId (some row) (some (rewriteRow crypto data' now version row)) := by
  refine ⟨row, _, data, data', rfl, rfl, ?_, rfl, hstep⟩
  rw [LawfulSeal.eq_toData hrow]
  rfl

variable [DecidableEq ι]

/-- Thread `i` has put one token in the place of another. -/
def Rotated (i : ι) (userId s t : String) (d : Durable ι String (Row Payload) Timestamp) : Prop :=
  ∃ old new, Made i userId old new d ∧ storedToken old = some s ∧ storedToken new = some t

theorem stable_rotated {P : DbProtocol ι Payload} {userId s t : String} :
    P.Stable i (Rotated i userId s t) :=
  stable_exists fun _ => stable_exists fun _ => (stable_made _ _ _).and (stable_const _ i _)

/-- Thread `i` has committed nothing yet. -/
def Fresh (i : ι) (d : Durable ι String (Row Payload) Timestamp) : Prop := changesBy i d.log = []

theorem stable_fresh : (linkProtocol calls init).Stable i (Fresh i) :=
  stable_changesBy _ i fun cs => cs = []

/-- What a call leaves behind when it returns an access token: it has the token from an exchange,
and if GitHub rotated the refresh token, the rotated one was written in the place of that
exchanged. -/
def Call.Left (i : ι) (r : Option String) (d : Durable ι String (Row Payload) Timestamp) :
    Call → Prop
  | .refresh userId refreshOauthToken => ∀ a, r = some a → ∃ s response,
      refreshOauthToken s = .ok response ∧ response.accessToken = a ∧
      ∀ t, response.refreshToken = some t → Rotated i userId s t d
  | _ => True

variable [Digest]

/-- Rewriting a user as the thread's call may. -/
theorem triple_modifyUser {userId : String} {modifier : UserDoc → UserDoc}
    (hstep : ∀ data, (calls i).Step data (modifier data)) :
    (linkProtocol calls init).Triple i (Fresh i) (DocumentStore.modify crypto userId modifier)
      (fun _ _ => True) fun _ _ => True := by
  refine .bind ((triple_seriesTransition fun now now' row data a data' hdata hd => ?_).mono
    (fun _ h => h) (fun _ _ _ => trivial) fun _ _ h => h) fun r => ?_
  · cases hd
    exact ⟨allowed_rewrite hdata (hstep data), le_refl _⟩
  · cases r with
    | applied => exact .done
    | rejected r => exact r.elim
    | notFound => exact .done

theorem triple_updateUserGithubRefreshToken {userId s t : String}
    {refreshOauthToken : String → Except GitHubError TokenResponse} {response : TokenResponse}
    {read : GitHubLink} (hcall : calls i = .refresh userId refreshOauthToken)
    (hread : read.githubRefreshToken = some s) (hex : refreshOauthToken s = .ok response)
    (ht : response.refreshToken = some t) :
    (linkProtocol calls init).Triple i (Fresh i)
      (updateUserGithubRefreshToken crypto userId t read)
      (fun o d => o ≠ .skippedLinkChanged → Rotated i userId s t d) fun _ _ => True := by
  have hstored : ∀ {now data a data'}, rotateToken t read now data = .ok (a, data') →
      data.githubRefreshToken = some s ∧ data' = { data with githubRefreshToken := some t } :=
    fun hd => ⟨(rotateToken_ok hd).1.trans hread, (rotateToken_ok hd).2⟩
  refine .bind (triple_seriesTransition fun now now' row data a data' hdata hd => ?_) fun r => ?_
  · obtain ⟨hs, hdata'⟩ := hstored hd
    refine ⟨allowed_rewrite hdata ?_, le_refl _⟩
    rw [hcall]
    exact ⟨s, response, t, hs, hex, ht, hdata'⟩
  · cases r with
    | applied a =>
      refine .pure (stable_rotated.imp _) fun d h _ => ?_
      obtain ⟨now, now', row, data, data', hdata, hd, hmade⟩ := h.1 a rfl
      obtain ⟨hs, rfl⟩ := hstored hd
      refine ⟨some row, some (rewriteRow crypto { data with githubRefreshToken := some t } now'
        (nextVersion row.version) row), ?_, ?_, rfl⟩
      · rw [Made, hmade]
        exact List.mem_singleton.mpr rfl
      · rw [storedToken, Option.bind_some, LawfulSeal.eq_toData hdata]
        exact hs
    | rejected o =>
      refine .pure (stable_rotated.imp _) fun d h hne => ?_
      obtain ⟨now, data, hd⟩ := h.2 o rfl
      exact absurd (rotateToken_error hd) hne
    | notFound => exact .fail

theorem triple_getUserAccessToken {userId : String}
    {refreshOauthToken : String → Except GitHubError TokenResponse}
    (hcall : calls i = .refresh userId refreshOauthToken) :
    (linkProtocol calls init).Triple i (Fresh i)
      (getUserAccessToken crypto refreshOauthToken userId)
      (fun r d => (Call.refresh userId refreshOauthToken).Left i r d) fun _ _ => True := by
  have hleft : ∀ r, (linkProtocol calls init).Stable i
      fun d => (Call.refresh userId refreshOauthToken).Left i r d := fun r =>
    stable_forall fun a => .imp (stable_exists fun s => stable_exists fun response =>
      (stable_const _ i _).and ((stable_const _ i _).and
        (stable_forall fun t => stable_rotated.imp _))) _
  have hread : (linkProtocol calls init).Triple i (Fresh i) (getUserGithubLink userId)
      (fun _ => Fresh i) fun _ _ => True :=
    .bind ((triple_getHeld seriesProtocol_versioned stable_fresh).mono (fun _ h => h)
      (fun _ _ h => h.1) fun _ _ _ => trivial) fun _ => .pure stable_fresh fun _ h => h
  refine .bind (.mapError hread) fun r => ?_
  cases r with
  | none => exact .pure (hleft _) fun _ _ _ h => nomatch h
  | some linked =>
    simp only
    split
    · exact .pure (hleft _) fun _ _ _ h => nomatch h
    · rename_i s hs
      refine .orThrow_bind (fun _ => stable_const _ i _) (fun response hex => ?_)
        fun _ _ _ _ => trivial
      split
      · rename_i hnone
        refine .pure (hleft _) fun d _ a ha => ?_
        cases ha
        exact ⟨s, response, hex, rfl, fun t ht => absurd (hnone.symm.trans ht) nofun⟩
      · rename_i t ht
        refine .bind (.mapError (triple_updateUserGithubRefreshToken hcall hs hex ht)) fun o => ?_
        split
        · exact .pure (hleft _) fun _ _ _ h => nomatch h
        · rename_i hne
          refine .pure (hleft _) fun d h a ha => ?_
          cases ha
          refine ⟨s, response, hex, rfl, fun t' ht' => ?_⟩
          rw [ht] at ht'
          cases ht'
          exact h hne

/-- A call does to the stored links what it may, once. -/
theorem triple_call : (linkProtocol calls init).Triple i (Fresh i) ((calls i).run crypto)
    (fun r d => (calls i).Left i r d) fun _ _ => True := by
  have hrun : ∀ call : Call, calls i = call →
      (linkProtocol calls init).Triple i (Fresh i) (call.run crypto)
        (fun r d => call.Left i r d) fun _ _ => True := by
    intro call hcall
    cases call with
    | link userId githubId githubLogin token =>
      refine .bind (R := fun _ _ => True) (.mapError (.bind (triple_modifyUser ?_) fun found => ?_))
        fun _ => .done
      · intro data
        rw [hcall]
        rfl
      · cases found with
        | true => exact .done
        | false => exact .fail
    | revoke userId =>
      refine .bind (R := fun _ _ => True) (.mapError (.bind (triple_modifyUser ?_) fun _ => ?_))
        fun _ => .done
      · intro data
        rw [hcall]
        rfl
      · exact .done
    | refresh userId refreshOauthToken => exact triple_getUserAccessToken hcall
  exact hrun (calls i) rfl

end Calls

/-! ## The system -/

section System

variable {ι : Type} [DecidableEq ι] [Digest]

/-- The callers, before any of them has done anything. -/
def linkSystem (crypto : DocumentCrypto) (calls : ι → Call) (init : Table String (Row Payload))
    (clock : Timestamp) :
    Config ι (Stmt String (Row Payload)) (Stmt.Res Timestamp)
      (fun _ => Except GitHubError (Option String)) (Db ι String (Row Payload) Timestamp) where
  threads i := (calls i).run crypto
  shared := { committed := init, log := [], clock := clock, pending := ∅, reads := fun _ => [] }

variable {crypto : DocumentCrypto} {calls : ι → Call} {init : Table String (Row Payload)}
  {clock : Timestamp} {account : String → Int}
  {q : Config ι (Stmt String (Row Payload)) (Stmt.Res Timestamp)
    (fun _ => Except GitHubError (Option String)) (DbState ι Payload)}

/-- **The stored link stays consistent.**  However links, revocations and refreshes interleave:

* a token stored with the account it belongs to is so in every state;
* a token that is stored at any time after a revocation was not stored before it, so no rotation of
  such a token is either, and a link after the revocation has supplied one;
* a refresh that returns an access token has written what GitHub rotated, in the place of the token
  it had read, and no two refreshes have rotated the same token. -/
theorem github_link_consistent
    (hrun : Reaches (fun i => exec i) (fun _ o s => VersionsInRange s ∧ NotReinserted o s)
      (linkSystem crypto calls init clock) q) (hissuer : Issuer account calls init)
    (userId : String) :
    (Belongs account (init.lookup userId) → Belongs account (q.shared.committed.lookup userId)) ∧
    (∀ pre c mid rest r t, history userId q.shared.log = pre ++ c :: (mid ++ rest) →
      (calls c.owner).IsRevocation → Linked c.new mid r → storedToken r = some t →
      ¬ StoredIn (init.lookup userId) pre t ∧ ∃ e ∈ mid, (calls e.owner).Supplies) ∧
    (∀ i refreshOauthToken a, calls i = .refresh userId refreshOauthToken →
      q.threads i = .ret (.ok (some a)) → ∃ s response, refreshOauthToken s = .ok response ∧
        response.accessToken = a ∧
        ∀ t, response.refreshToken = some t → Rotated i userId s t q.shared.toDurable) ∧
    ∀ i j s t t', (calls i).IsRefresh → (calls j).IsRefresh →
      Rotated i userId s t q.shared.toDurable → Rotated j userId s t' q.shared.toDurable →
      i = j := by
  obtain ⟨hinv, hleft, -⟩ := (linkProtocol calls init).reaches_spec hrun
    ⟨Ledger.start clock, fun _ => Nat.zero_le 1⟩ (fun _ => triple_call) (fun _ => rfl) fun _ => rfl
  have hlinked := hinv.1.linked userId
  refine ⟨fun hinit => ?_, ?_, ?_, ?_⟩
  · by_contra hnot
    rcases hlinked.established_last (P := fun r => ¬ Belongs account r) hnot with h |
      ⟨e, he, hold, hnew⟩
    · exact h hinit
    · exact hnew (belongs_step hissuer (allowed_of_mem_history hinv he) (not_not.mp hold))
  · intro pre c mid rest r t hsplit hrevoked hmid ht
    have hallowed : ∀ e ∈ c :: mid, Allowed calls e.owner e.id e.old e.new := by
      intro e he
      refine hinv.1.allowed e (mem_history.mp (?_ : e ∈ history userId q.shared.log)).1
      rw [hsplit, ← List.cons_append]
      exact List.mem_append_right pre (List.mem_append_left rest he)
    have hcleared : storedToken c.new = none := by
      obtain ⟨data, data', hstep, -, htoken', -, -⟩ := (hallowed c List.mem_cons_self).step
      exact htoken'.trans (hstep.revoked hrevoked)
    obtain ⟨⟨e, he, hissues⟩, hsupplied⟩ := supplied_since hmid
      (fun e he => hallowed e (List.mem_cons_of_mem c he)) hcleared ht
    refine ⟨not_stored_before hissuer hinv hsplit ?_ hissues, hsupplied⟩
    exact List.mem_cons_of_mem c (List.mem_append_left rest he)
  · intro i refreshOauthToken a hcall hret
    have hleft := hleft i (some a) hret
    rw [hcall] at hleft
    exact hleft a rfl
  · rintro i j s t t' hi hj ⟨old, new, hmade, hold, -⟩ ⟨old', new', hmade', hold', -⟩
    have hc := mem_history.mpr ⟨hmade.mem, rfl⟩
    have hc' := mem_history.mpr ⟨hmade'.mem, rfl⟩
    by_contra hne
    -- One of the two changes comes first.
    obtain ⟨pre, post, hsplit⟩ := List.append_of_mem hc
    rw [hsplit] at hc'
    rcases List.mem_append.mp hc' with hbefore | hafter
    · obtain ⟨pre', mid, hpre⟩ := List.append_of_mem hbefore
      rw [hpre, List.append_assoc, List.cons_append] at hsplit
      exact rotated_once hissuer hinv hsplit
        (List.mem_append_right mid List.mem_cons_self) hj hold' hold
    · rcases List.mem_cons.mp hafter with heq | hafter
      · exact hne (congrArg Change.owner heq).symm
      · exact rotated_once hissuer hinv hsplit hafter hi hold hold'

end System

/-! ### Runs -/

section Run

/-- A digest for runs in which none is taken. -/
local instance linkDigest : Digest := ⟨id⟩

/-- GitHub answers the token `t0` with the next one. -/
def answers (next s : String) : Except GitHubError TokenResponse :=
  if s = "t0" then .ok ⟨"access", some next⟩ else .error (.gitHubApi "bad_refresh_token")

/-- Two refreshes, to which GitHub issues different tokens. -/
def twoRefreshes : Fin 2 → Call
  | 0 => .refresh "user" (answers "t1")
  | 1 => .refresh "user" (answers "t2")

/-- A user who has linked account 7, with the token `t0`, at some version. -/
def linkStore (version : Int) : Table String (Row Payload) :=
  AList.insert "user" { newRow plainCrypto (T := UserDoc)
    { email := ⟨"octocat@v", by decide +kernel⟩, name := none, orgId := none, orgDomain := none,
      isOrgAdmin := false, active := true, externalId := none, githubId := some 7,
      githubLogin := some "octocat", githubRefreshToken := some "t0", idpIdentities := [] } 0
    with version } ∅

theorem issues_answers {userId next t : String}
    (h : (Call.refresh userId (answers next)).Issues t) : t = next := by
  obtain ⟨s, response, hex, ht⟩ := h
  rw [answers] at hex
  split at hex
  · cases hex
    exact (Option.some.inj ht).symm
  · cases hex

theorem issuer_twoRefreshes (version : Int) :
    Issuer (fun _ => 7) twoRefreshes (linkStore version) := by
  have hissues : ∀ {i t}, (twoRefreshes i).Issues t → t = if i = 0 then "t1" else "t2" := by
    intro i t h
    match i with
    | 0 => exact issues_answers h
    | 1 => exact issues_answers h
  refine ⟨fun i userId githubId login t h => ?_, fun _ _ _ _ _ _ _ _ _ => rfl, ?_, ?_⟩
  · match i with
    | 0 => cases h
    | 1 => cases h
  · intro i j t hi hj
    have heq := (hissues hi).symm.trans (hissues hj)
    match i, j with
    | 0, 0 => rfl
    | 1, 1 => rfl
    | 0, 1 => exact absurd heq (by decide)
    | 1, 0 => exact absurd heq (by decide)
  · intro i t hi userId hstored
    have ht : t = "t0" := by
      by_cases hu : userId = "user"
      · rw [linkStore, hu, AList.lookup_insert] at hstored
        exact (Option.some.inj hstored).symm
      · rw [linkStore, AList.lookup_insert_ne hu] at hstored
        cases hstored
    rw [hissues hi] at ht
    split at ht
    · exact absurd ht (by decide)
    · exact absurd ht (by decide)

/-- A run of the two refreshes. -/
def linkRun (version : Int) (check : Stmt String (Row Payload) →
    Db (Fin 2) String (Row Payload) Timestamp → Bool) (schedule : List (Fin 2)) :=
  (linkSystem plainCrypto twoRefreshes (linkStore version) 0).run (fun i => exec i)
    (fun _ o s => check o s) (schedule.map fun i => (i, ⟨none, 0, ""⟩))

/-- At the largest version a guarded write no longer moves it: two refreshes that both read `t0` —
GitHub answers no other token — both write what they were issued, and the first of the two new
tokens is lost. -/
theorem rotated_twice_at_max_version :
    Issuer (fun _ => 7) twoRefreshes (linkStore maxVersion) ∧
    ∃ q, Reaches (fun i => exec i) (fun _ o s => NotReinserted o s)
        (linkSystem plainCrypto twoRefreshes (linkStore maxVersion) 0) q ∧
      q.threads 0 = .ret (.ok (some "access")) ∧ q.threads 1 = .ret (.ok (some "access")) ∧
      storedToken (q.shared.committed.lookup "user") = some "t2" := by
  refine ⟨issuer_twoRefreshes _, ?_⟩
  -- Thread 1 has read the document for its guarded write when thread 0 commits.
  have hrun : ((linkRun maxVersion notReinserted
      (List.replicate 3 1 ++ List.replicate 8 0 ++ List.replicate 5 1)).map fun q =>
      ((q.threads 0).result?, (q.threads 1).result?,
        storedToken (q.shared.committed.lookup "user"))) =
      some (some (.ok (some "access")), some (.ok (some "access")), some "t2") := rfl
  obtain ⟨q, hreach, hres⟩ := exists_of_run (fun _ _ _ => NotReinserted.of_check) hrun
  simp only [Prod.mk.injEq, Prog.result?_eq_some] at hres
  exact ⟨q, hreach, hres⟩

/-- The same race at the first version: one refresh has its token written, beside the account it
belongs to, and the other finds that the link has changed. -/
theorem github_link_consistent_run :
    ∃ q, Reaches (fun i => exec i) (fun _ o s => VersionsInRange s ∧ NotReinserted o s)
        (linkSystem plainCrypto twoRefreshes (linkStore 1) 0) q ∧
      q.threads 0 = .ret (.ok (some "access")) ∧ q.threads 1 = .ret (.ok none) ∧
      storedToken (q.shared.committed.lookup "user") = some "t1" ∧
      storedId (q.shared.committed.lookup "user") = some 7 := by
  have hrun : ((linkRun 1 (fun o s => versionsInRange s && notReinserted o s)
      (List.replicate 3 1 ++ List.replicate 8 0 ++ List.replicate 6 1)).map fun q =>
      ((q.threads 0).result?, (q.threads 1).result?,
        storedToken (q.shared.committed.lookup "user"))) =
      some (some (.ok (some "access")), some (.ok none), some "t1") := rfl
  obtain ⟨q, hreach, hres⟩ := exists_of_run (fun _ _ _ => regular_of_check) hrun
  simp only [Prod.mk.injEq, Prog.result?_eq_some] at hres
  have hinit : Belongs (fun _ => 7) ((linkStore 1).lookup "user") := fun _ _ => rfl
  exact ⟨q, hreach, hres.1, hres.2.1, hres.2.2,
    (github_link_consistent hreach (issuer_twoRefreshes 1) "user").1 hinit "t1" hres.2.2⟩

end Run

end Vouch.GitHub
