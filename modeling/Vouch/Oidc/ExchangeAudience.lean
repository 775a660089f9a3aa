import Vouch.Oidc.ExchangeChains

/-!
# Narrowed audiences along a chain

A token whose audience is its client's own id is accepted at every path of the deployment; any other
audience narrows it to what that audience covers.  An exchange refuses to undo this: for a narrowed
subject token no audience may be requested that names the deployment or the client, unless it is the
token's own.

Whether a token is narrowed is decided by comparing its audience with the client it was issued to,
and an exchange issues to the client that asks.  So the exception is one too many: the audience of a
narrowed token may be the id of another client, and when that client exchanges the token, keeping
its audience, the comparison succeeds.

* `Hop.rejectedAt_iff` — one exchange of a token that is rejected at a path.
* `narrowing_kept_iff` — along a chain a token that is rejected at a path stays so exactly when no
  such exchange takes place.
-/

namespace Vouch

open Result

variable {Key : Type} {lib : ExchangeLibrary Key}

/-- The deployment does not accept a token at a path. -/
def RejectedAt (url : UrlLibrary) (baseUrl : String) (path : List Char) (token : AccessToken) :
    Prop :=
  token.claims.audienceCovers url baseUrl path = false

variable {path : List Char} {token : AccessToken}

/-- A token is rejected when it is narrowed to an audience that does not cover the path. -/
theorem rejectedAt_iff {url : UrlLibrary} {baseUrl : String} :
    RejectedAt url baseUrl path token ↔ token.claims.aud ≠ token.claims.clientId ∧
      audienceCoversResource url token.claims.aud baseUrl path = false := by
  simp [RejectedAt, AccessTokenClaims.audienceCovers, AccessTokenClaims.isNarrowed]

/-- The audience an exchange gives to a rejected token: the requested one, or its own; and no other
than its own covers the path or is the client's id. -/
theorem exchangedAudience_of_rejected {url : UrlLibrary} {baseUrl clientId : String}
    {requested audience : Option String} (hrejected : RejectedAt url baseUrl path token)
    (h : token.claims.exchangedAudience url requested clientId baseUrl = .ok audience) :
    audience = some (requested.getD token.claims.aud) ∧
      audienceCoversResource url (requested.getD token.claims.aud) baseUrl path = false := by
  obtain ⟨hnarrowed, hcovers⟩ := rejectedAt_iff.1 hrejected
  have hnarrowed : (!token.claims.isNarrowed) = false := by
    simpa [AccessTokenClaims.isNarrowed] using hnarrowed
  unfold AccessTokenClaims.exchangedAudience at h
  rw [hnarrowed, if_neg (by decide)] at h
  cases requested with
  | none => exact ⟨(Except.ok.inj h).symm, hcovers⟩
  | some requested =>
    dsimp only at h
    split at h
    · cases h
    · rename_i hallowed
      refine ⟨(Except.ok.inj h).symm, ?_⟩
      rw [Option.getD_some]
      by_cases hown : requested = token.claims.aud
      · rw [hown]
        exact hcovers
      · -- Another audience does not name the deployment, so it covers none of its paths.
        by_contra hcovered
        have hnames := audienceNamesDeployment_of_covers (Bool.of_not_eq_false hcovered)
        exact hallowed ⟨hown, .inr hnames⟩

/-- The audience that a request asks for, or else the one of the token it presents. -/
def Hop.audience (hop : Hop lib) : String :=
  (hop.req.audience.or hop.req.resource).getD hop.subject.claims.aud

/-- An exchange keeps a token rejected unless it issues it to the client that the audience names. -/
theorem Hop.rejectedAt_iff (hop : Hop lib)
    (hrejected : RejectedAt lib.url hop.env.baseUrl path hop.subject) (hyields : hop.Yields token) :
    RejectedAt lib.url hop.env.baseUrl path token ↔ hop.audience ≠ hop.req.client.clientId := by
  rcases hop.passed with
    ⟨stages, params, issued, hissued, hpassed, hclaims, -, hparams⟩ | ⟨idToken, hissued, -⟩
  · obtain rfl : issued = token := Issued.accessToken.inj (hissued.symm.trans hyields)
    obtain ⟨expires, -, hnew, -⟩ := createOauthAccessToken_ok hpassed.issued
    have hexchanged := grantedAudience_ok hpassed.requested hpassed.audience
    rw [hclaims, hparams.audience, hparams.client] at hexchanged
    obtain ⟨haud, hcovers⟩ := exchangedAudience_of_rejected hrejected hexchanged
    have hissuedAud : issued.claims.aud = hop.audience := by
      rw [hnew]
      show stages.audience.getD params.client.clientId = hop.audience
      rw [haud, Option.getD_some]
      rfl
    have hissuedClient : issued.claims.clientId = hop.req.client.clientId := by
      rw [hnew, ← hparams.client]
      rfl
    rw [Vouch.rejectedAt_iff, hissuedAud, hissuedClient]
    exact and_iff_left hcovers
  · cases hissued.symm.trans hyields

/-- **Narrowing along a chain.**  Once a token is rejected at a path, all that are exchanged from it
are, exactly when no hop presents a rejected token on behalf of the very client that the issued
audience names. -/
theorem narrowing_kept_iff (baseUrl : String) (path : List Char) (hops : List (Hop lib))
    (chain : Hop.IsChain hops) (deployment : ∀ hop ∈ hops, hop.env.baseUrl = baseUrl) :
    ((∀ hop ∈ hops, ∀ token, hop.Yields token →
          RejectedAt lib.url baseUrl path hop.subject → RejectedAt lib.url baseUrl path token) ∧
        hops.Pairwise fun a b => ∀ token, b.Yields token →
          RejectedAt lib.url baseUrl path a.subject → RejectedAt lib.url baseUrl path token) ↔
      ∀ hop ∈ hops, ∀ token, hop.Yields token → RejectedAt lib.url baseUrl path hop.subject →
        hop.audience ≠ hop.req.client.clientId := by
  constructor
  · rintro ⟨hstep, -⟩ hop hmem token hyields hrejected
    have hkept := hstep hop hmem token hyields hrejected
    rw [← deployment hop hmem] at hrejected hkept
    exact (hop.rejectedAt_iff hrejected hyields).1 hkept
  · intro hcond
    have hstep : ∀ hop ∈ hops, ∀ token, hop.Yields token →
        RejectedAt lib.url baseUrl path hop.subject → RejectedAt lib.url baseUrl path token := by
      intro hop hmem token hyields hrejected
      have hother := hcond hop hmem token hyields hrejected
      rw [← deployment hop hmem] at hrejected ⊢
      exact (hop.rejectedAt_iff hrejected hyields).2 hother
    refine ⟨hstep, Chain.pairwise (R := fun x y => RejectedAt lib.url baseUrl path x →
      RejectedAt lib.url baseUrl path y) (fun hxy hyz hx => hyz (hxy hx)) chain hstep⟩

/-! ## The audience of another client -/

/-- A login, and the token narrowed to an audience that is the id of a client. -/
def audienceTokens : List AccessToken :=
  [sampleToken "login" "alice" "cli" "cli" none,
    sampleToken "narrowed" "alice" "reports" "cli" none]

/-- A token is narrowed to `reports`. -/
def narrowingHop : Hop (sampleLibrary audienceTokens) where
  env := sampleEnv audienceTokens "narrowed"
  req := sampleRequest "cli" "login" none (some "reports")
  arrival := 1000 * Timestamp.second
  subject := sampleToken "login" "alice" "cli" "cli" none
  issued := .accessToken (sampleToken "narrowed" "alice" "reports" "cli" none)
  presented := rfl
  decodes := rfl
  stored := sampleEnv_session rfl
  succeeds := by decide +kernel

/-- The client it is named after exchanges it, and asks for no audience. -/
def wideningHop : Hop (sampleLibrary audienceTokens) where
  env := sampleEnv audienceTokens "inherited"
  req := sampleRequest "reports" "narrowed" none none
  arrival := 1000 * Timestamp.second
  subject := sampleToken "narrowed" "alice" "reports" "cli" none
  issued := .accessToken (sampleToken "inherited" "alice" "reports" "reports" none)
  presented := rfl
  decodes := rfl
  stored := sampleEnv_session rfl
  succeeds := by decide +kernel

/-- The client it was issued to exchanges it instead. -/
def inheritingHop : Hop (sampleLibrary audienceTokens) where
  env := sampleEnv audienceTokens "inherited"
  req := sampleRequest "cli" "narrowed" none none
  arrival := 1000 * Timestamp.second
  subject := sampleToken "narrowed" "alice" "reports" "cli" none
  issued := .accessToken (sampleToken "inherited" "alice" "reports" "cli" none)
  presented := rfl
  decodes := rfl
  stored := sampleEnv_session rfl
  succeeds := by decide +kernel

/-- The narrowed token is rejected everywhere. -/
theorem narrowed_rejectedAt (path : List Char) :
    RejectedAt (sampleLibrary audienceTokens).url "https://vouch.example" path
      (sampleToken "narrowed" "alice" "reports" "cli" none) :=
  rejectedAt_iff.2 ⟨by decide, rfl⟩

/-- **Narrowing is undone.**  Two exchanges, the second by the client whose id is the audience: the
first token is rejected at every path, and the second at none. -/
theorem narrowing_undone :
    Hop.IsChain [narrowingHop, wideningHop] ∧
      ∀ path, RejectedAt (sampleLibrary audienceTokens).url "https://vouch.example" path
          wideningHop.subject ∧
        ¬ RejectedAt (sampleLibrary audienceTokens).url "https://vouch.example" path
          (sampleToken "inherited" "alice" "reports" "reports" none) := by
  refine ⟨List.isChain_pair.2 rfl, fun path => ⟨narrowed_rejectedAt path, fun h => ?_⟩⟩
  exact (rejectedAt_iff.1 h).1 rfl

/-- With the client that narrowed it the token stays rejected. -/
theorem narrowing_kept_userinfo :
    Hop.IsChain [narrowingHop, inheritingHop] ∧
      RejectedAt (sampleLibrary audienceTokens).url "https://vouch.example" "/oauth/userinfo".toList
        (sampleToken "inherited" "alice" "reports" "cli" none) := by
  have chain : Hop.IsChain [narrowingHop, inheritingHop] := List.isChain_pair.2 rfl
  have hkept := (narrowing_kept_iff "https://vouch.example" "/oauth/userinfo".toList
    [narrowingHop, inheritingHop] chain (by simp [narrowingHop, inheritingHop, sampleEnv])).2 ?_
  · exact ⟨chain, hkept.1 inheritingHop (by simp) _ rfl (narrowed_rejectedAt _)⟩
  · intro hop hmem token _ hrejected
    rcases List.mem_pair.1 hmem with rfl | rfl
    · exact absurd rfl (rejectedAt_iff.1 hrejected).1
    · decide

end Vouch
