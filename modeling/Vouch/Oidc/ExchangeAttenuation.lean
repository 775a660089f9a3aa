import Vouch.Oidc.ExchangeChains

/-!
# Exchanges attenuate

Whatever clients and parameters take part in a chain of exchanges, a token that comes out carries no
more authority than the one that went in.

* `Attenuates` — a later token against an earlier one: expiry, scope, authorization details, the
  purpose of the session, the assurance and the key it is bound to.
* `Issuable` — what every token that the server signs has: an expiry on a whole second and a binding
  to at most one key; and here a scope that is not empty.
* one lemma for each stage of the exchange that narrows something;
* `Hop.attenuates` — one exchange; `exchange_attenuates` — a chain, between every two tokens of it.

The expiry needs the whole seconds: the lifetime is cut to the seconds that are left, counted from
the arrival of the request, and the sum is rounded to a whole second, which before 1970 is upwards.
-/

namespace Vouch

open Result

variable {Key : Type} {lib : ExchangeLibrary Key}

/-- What a token may still have of an earlier one. -/
structure Attenuates (earlier later : AccessToken) : Prop where
  exp : later.claims.exp ≤ earlier.claims.exp
  scope : ∃ s t, earlier.claims.scope = some s ∧ later.claims.scope = some t ∧ t.Nonempty ∧ t ⊆ s
  details : AuthorizationDetails.granted later.session.authorizationDetails ⊆
    AuthorizationDetails.granted earlier.session.authorizationDetails
  purpose : later.session.sessionType = earlier.session.sessionType
  hardware : later.claims.hardwareVerified = true → earlier.claims.hardwareVerified = true
  authTime : later.claims.authTime = none
  bound : ∀ key, earlier.claims.cnf = some key → later.claims.cnf = some key

theorem Attenuates.trans {a b c : AccessToken} (hab : Attenuates a b)
    (hbc : Attenuates b c) : Attenuates a c where
  exp := hbc.exp.trans hab.exp
  scope := by
    obtain ⟨s, t, hs, ht, -, hsub⟩ := hab.scope
    obtain ⟨t', u, ht', hu, hne, hsub'⟩ := hbc.scope
    obtain rfl := Option.some.inj (ht.symm.trans ht')
    exact ⟨s, u, hs, hu, hne, hsub'.trans hsub⟩
  details := List.Subset.trans hbc.details hab.details
  purpose := hbc.purpose.trans hab.purpose
  hardware := hab.hardware ∘ hbc.hardware
  authTime := hbc.authTime
  bound := fun key h => hbc.bound key (hab.bound key h)

/-! ## Whole seconds -/

namespace Timestamp

/-- The whole seconds of a span that does not go back. -/
theorem tdiv_of_nonneg {t : Int} (h : 0 ≤ t) :
    0 ≤ Int.tdiv t 1000000000 ∧ Int.tdiv t 1000000000 * 1000000000 ≤ t := by
  rw [Int.tdiv_eq_ediv_of_nonneg h]
  omega

/-- The whole seconds of a span that goes back: rounding is towards zero. -/
theorem tdiv_of_nonpos {t : Int} (h : t ≤ 0) :
    Int.tdiv t 1000000000 ≤ 0 ∧ t ≤ Int.tdiv t 1000000000 * 1000000000 ∧
      Int.tdiv t 1000000000 * 1000000000 < t + 1000000000 := by
  have hpos : Int.tdiv t 1000000000 = -Int.tdiv (-t) 1000000000 := by
    rw [Int.neg_tdiv, Int.neg_neg]
  rw [hpos, Int.tdiv_eq_ediv_of_nonneg (by omega)]
  omega

/-- The whole seconds between two instants do not pass the later one. -/
theorem add_seconds_le {t u : Int} {n : Nat} (h : t ≤ u)
    (hn : n ≤ (Int.tdiv (u - t) 1000000000).toNat) : t + n * 1000000000 ≤ u := by
  have hdiv := tdiv_of_nonneg (Int.sub_nonneg_of_le h)
  omega

/-- An instant a timestamp can hold, on its whole second. -/
theorem wholeSecondOf_eq {t : Timestamp} (hlow : min ≤ t) (hhigh : t ≤ max) :
    t.wholeSecondOf = Int.tdiv t second * second := by
  have hrange : min ≤ (addSeconds 0 t.asSecond : Int) ∧ (addSeconds 0 t.asSecond : Int) ≤ max := by
    have hlow : (-377705023201 * 1000000000 : Int) ≤ t := hlow
    have hhigh : (253402207200 * 1000000000 + 999999999 : Int) ≥ t := hhigh
    show (-377705023201 * 1000000000 : Int) ≤ 0 + Int.tdiv t 1000000000 * 1000000000 ∧
      (0 + Int.tdiv t 1000000000 * 1000000000 : Int) ≤ 253402207200 * 1000000000 + 999999999
    rcases Int.le_total 0 t with hsign | hsign
    · have hdiv := tdiv_of_nonneg hsign
      omega
    · have hdiv := tdiv_of_nonpos hsign
      omega
  have hsome : fromSecond t.asSecond = some (addSeconds 0 t.asSecond) :=
    checkedAddSeconds_eq_some.2 ⟨rfl, hrange⟩
  rw [wholeSecondOf, hsome, Option.getD_some]
  exact Int.zero_add _

/-- Rounding does not pass a whole second. -/
theorem tdiv_mul_le {t u : Int} (h : t ≤ u) (hu : second ∣ u) :
    Int.tdiv t second * second ≤ u := by
  obtain ⟨n, rfl⟩ := hu
  have h : (t : Int) ≤ 1000000000 * n := h
  show Int.tdiv t 1000000000 * 1000000000 ≤ 1000000000 * n
  rcases Int.le_total 0 t with hsign | hsign
  · have hdiv := tdiv_of_nonneg hsign
    omega
  · have hdiv := tdiv_of_nonpos hsign
    omega

end Timestamp

/-- The lifetime ends no later than the subject token, which has not expired on arrival. -/
theorem addSeconds_capLifetime_le {sessionSecs : Nat} {exp arrival : Timestamp}
    {nbf : Option Timestamp} {expires : Timestamp}
    (haccepted : (ValidityWindow.fromClaims (some exp) nbf).acceptsOwnTokenAt arrival = true)
    (hexpires : arrival.checkedAddSeconds (capLifetimeBySubjectTtl sessionSecs exp arrival) =
      some expires) :
    expires ≤ exp := by
  obtain ⟨rfl, hlow, hhigh⟩ := Timestamp.checkedAddSeconds_eq_some.1 hexpires
  have hcap : capLifetimeBySubjectTtl sessionSecs exp arrival ≤
      (Int.tdiv (exp - arrival) Timestamp.second).toNat := Nat.min_le_right _ _
  rcases Int.le_total arrival exp with hle | hle
  · exact Timestamp.add_seconds_le hle hcap
  · -- Nothing is left, so the token ends on arrival, and had not expired by then.
    have hzero : capLifetimeBySubjectTtl sessionSecs exp arrival = 0 := by
      have hneg : Int.tdiv (exp - arrival) Timestamp.second ≤ 0 :=
        (Timestamp.tdiv_of_nonpos (Int.sub_nonpos_of_le hle)).1
      rw [Int.toNat_of_nonpos hneg] at hcap
      exact Nat.le_zero.1 hcap
    rw [hzero] at hlow hhigh ⊢
    have hself : arrival.addSeconds ((0 : Nat) : Int) = arrival := by
      show (arrival + 0 * 1000000000 : Int) = arrival
      rw [Int.zero_mul, Int.add_zero]
    rw [hself] at hlow hhigh ⊢
    have hnow : arrival.checkedAddSeconds (-0) = some arrival :=
      Timestamp.checkedAddSeconds_eq_some.2 ⟨hself.symm, hlow, hhigh⟩
    by_contra hlt
    have hexpired : (ValidityWindow.fromClaims (some exp) nbf).expiredAt arrival 0 = true := by
      rw [ValidityWindow.expiredAt, hnow]
      simpa [ValidityWindow.fromClaims] using hle
    rw [ValidityWindow.acceptsOwnTokenAt, ValidityWindow.acceptsAt, hexpired] at haccepted
    simp at haccepted

/-! ## The stages -/

/-- A scope that is not empty is narrowed to one that is not empty. -/
theorem calculateGrantedScope_ok {requested : Option String} {s : ScopeSet}
    {scope : Option ScopeSet} (hs : s.Nonempty)
    (h : calculateGrantedScope requested (some s) = .ok scope) :
    ∃ t, scope = some t ∧ t.Nonempty ∧ t ⊆ s := by
  cases requested with
  | none =>
    have h := Except.ok.inj h
    rw [if_neg hs.ne_empty] at h
    exact ⟨s, h.symm, hs, Finset.Subset.refl s⟩
  | some requested =>
    obtain ⟨granted, hgranted, h⟩ := bind_eq_ok.1 h
    rw [ScopeSet.intoRequestedGrant] at hgranted
    split at hgranted
    · cases hgranted
    · rename_i hne
      cases hgranted
      exact ⟨_, (Except.ok.inj h).symm, Finset.nonempty_iff_ne_empty.2 hne,
        Finset.inter_subset_right⟩

/-- The details are passed on, or a part of them is. -/
theorem grantedDetails_ok {json : JsonLibrary} {params : TokenExchangeParams} {session : SessionDoc}
    {details : Option JsonValue} (h : grantedDetails json params session = .ok details) :
    AuthorizationDetails.granted details ⊆
      AuthorizationDetails.granted session.authorizationDetails := by
  unfold grantedDetails at h
  split at h
  · cases h
    exact List.Subset.refl _
  · obtain ⟨requested, -, h⟩ := bind_eq_ok.1 h
    split at h
    · rename_i inherited hinherited
      split at h
      · cases h
      · rename_i hsubset
        cases h
        intro d hd
        rw [AuthorizationDetails.granted_toValue] at hd
        rw [Bool.not_eq_true', Bool.not_eq_false] at hsubset
        have hmem := AuthorizationDetails.isSubsetOf_iff.1 hsubset d (List.mem_of_mem_filter hd)
        rwa [AuthorizationDetails.granted, hinherited]
    · cases h

/-- A bound subject token stays bound to its key. -/
theorem issuedBinding_ok {params : TokenExchangeParams} {subject : AccessTokenClaims}
    {own actor : Option TokenBinding} {binding : TokenBinding} {key : CnfClaim}
    (hcnf : subject.cnf = some key) (hkey : key.key = some key)
    (hown : subjectBinding params subject = .ok own)
    (h : issuedBinding params own actor = .ok binding) : binding.cnf = some key := by
  simp only [subjectBinding, hcnf] at hown
  split at hown
  · cases hown
  · cases hconfirmed : key.confirmedBinding params.presented with
    | error e =>
      rw [hconfirmed] at hown
      cases hown
    | ok confirmed =>
      rw [hconfirmed] at hown
      cases hown
      obtain ⟨hbinding, hsome⟩ := CnfClaim.confirmedBinding_ok hconfirmed
      rw [hkey] at hbinding hsome
      obtain ⟨b, rfl⟩ := Option.isSome_iff_exists.1 (hsome rfl)
      simp only [Option.bind_some] at hbinding
      simp only [issuedBinding, Option.map_some, Option.some_or] at h
      split at h
      · rename_i hpair
        split at h
        · cases h
        · cases h
          obtain ⟨-, rfl⟩ := Prod.mk.inj (Option.some.inj hpair)
          exact hbinding
      · rename_i hpair
        cases h
        obtain ⟨-, rfl⟩ := Prod.mk.inj (Option.some.inj hpair)
        exact hbinding
      · rename_i hnone
        cases hnone

/-! ## Chains -/

/-- What the server gives a token it signs, with a scope that is not empty. -/
structure Issuable (token : AccessToken) : Prop where
  exp : Timestamp.second ∣ token.claims.exp
  scope : ∃ s, token.claims.scope = some s ∧ s.Nonempty
  cnf : ∀ key, token.claims.cnf = some key → key.key = some key

/-- The token of a grant: what `create_oauth_access_token` issues, with a scope that is not
empty. -/
structure IsGranted (lib : TokenLibrary Key) (token : AccessToken) : Prop where
  issued : ∃ env params purpose arrival,
    createOauthAccessToken lib env params purpose arrival = .ok token
  scope : ∃ s, token.claims.scope = some s ∧ s.Nonempty

theorem TokenBinding.key_of_cnf {binding : TokenBinding} {key : CnfClaim}
    (h : binding.cnf = some key) : key.key = some key := by
  cases binding with
  | dpop proof =>
    cases h
    rfl
  | mutualTls thumbprint =>
    cases h
    rfl
  | bearer => cases h

/-- Everything the server signs has an expiry on a whole second and one key. -/
theorem issuable_of_createOauthAccessToken {lib : TokenLibrary Key} {env : IssueEnv}
    {params : CreateOAuthTokenParams} {purpose : SessionPurpose} {arrival : Timestamp}
    {token : AccessToken} (h : createOauthAccessToken lib env params purpose arrival = .ok token)
    (hscope : ∃ s, token.claims.scope = some s ∧ s.Nonempty) : Issuable token := by
  obtain ⟨expires, hexpires, hclaims, -⟩ := createOauthAccessToken_ok h
  obtain ⟨-, hlow, hhigh⟩ := Timestamp.checkedAddSeconds_eq_some.1 hexpires
  refine ⟨?_, hscope, fun key hkey => ?_⟩
  · rw [hclaims]
    show Timestamp.second ∣ expires.wholeSecondOf
    rw [Timestamp.wholeSecondOf_eq hlow hhigh]
    exact Int.dvd_mul_left _ _
  · rw [hclaims] at hkey
    exact TokenBinding.key_of_cnf hkey

/-- One exchange attenuates, and what it issues is as good a subject. -/
theorem Hop.attenuates (hop : Hop lib) (hsubject : Issuable hop.subject) {token : AccessToken}
    (hyields : hop.Yields token) : Attenuates hop.subject token ∧ Issuable token := by
  rcases hop.passed with
    ⟨stages, params, issued, hissued, hpassed, hclaims, hsession, -⟩ | ⟨idToken, hissued, -⟩
  · obtain rfl : issued = token := Issued.accessToken.inj (hissued.symm.trans hyields)
    obtain ⟨expires, hexpires, hnew, hstored⟩ := createOauthAccessToken_ok hpassed.issued
    obtain ⟨-, hlow, hhigh⟩ := Timestamp.checkedAddSeconds_eq_some.1 hexpires
    obtain ⟨-, -, haccepted⟩ := decodeToken_eq_some hpassed.decoded
    have hle : expires ≤ stages.subject.exp := addSeconds_capLifetime_le haccepted hexpires
    obtain ⟨s, hs, hne⟩ := hsubject.scope
    have hgranted := hpassed.scope
    rw [hclaims, hs] at hgranted
    obtain ⟨t, ht, htne, hsub⟩ := calculateGrantedScope_ok hne hgranted
    have hscope : issued.claims.scope = some t := by
      rw [hnew]
      exact ht
    refine ⟨?_, issuable_of_createOauthAccessToken hpassed.issued ⟨t, hscope, htne⟩⟩
    exact
      { exp := by
          rw [hnew]
          show expires.wholeSecondOf ≤ hop.subject.claims.exp
          rw [Timestamp.wholeSecondOf_eq hlow hhigh]
          exact Timestamp.tdiv_mul_le (hclaims ▸ hle) hsubject.exp
        scope := ⟨s, t, hs, hscope, htne, hsub⟩
        details := by
          rw [hstored, ← hsession]
          exact grantedDetails_ok hpassed.details
        purpose := by
          rw [hstored, ← hsession]
          rfl
        hardware := by
          intro hverified
          rw [hnew] at hverified
          have hverified : stages.subject.hardwareVerification.hardwareVerified = true := hverified
          rw [← hclaims]
          by_contra hnot
          rw [AccessTokenClaims.hardwareVerification, if_neg hnot] at hverified
          cases hverified
        authTime := by
          rw [hnew]
          show stages.subject.hardwareVerification.authTime = none
          rw [AccessTokenClaims.hardwareVerification]
          split <;> rfl
        bound := by
          intro key hkey
          rw [hnew]
          exact issuedBinding_ok (hclaims ▸ hkey) (hsubject.cnf key hkey) hpassed.bound
            hpassed.binding }
  · cases hissued.symm.trans hyields

/-- **Exchanges attenuate along every chain.**  From a granted token with a scope on, whatever a hop
issues attenuates the token the hop presented, and every token presented before it. -/
theorem exchange_attenuates (hops : List (Hop lib)) (chain : Hop.IsChain hops)
    (first : ∀ hop ∈ hops.head?, IsGranted lib.toTokenLibrary hop.subject) :
    (∀ hop ∈ hops, ∀ token, hop.Yields token → Attenuates hop.subject token) ∧
      hops.Pairwise fun a b => ∀ token, b.Yields token → Attenuates a.subject token := by
  have hissuable : ∀ hop ∈ hops, Issuable hop.subject := by
    refine Chain.invariant chain (fun hop hhead => ?_)
      fun hop _ hsubject token hyields => (hop.attenuates hsubject hyields).2
    obtain ⟨⟨env, params, purpose, arrival, hissued⟩, hscope⟩ := first hop hhead
    exact issuable_of_createOauthAccessToken hissued hscope
  have hstep : ∀ hop ∈ hops, ∀ token, hop.Yields token → Attenuates hop.subject token :=
    fun hop hmem token hyields => (hop.attenuates (hissuable hop hmem) hyields).1
  exact ⟨hstep, Chain.pairwise (R := Attenuates) Attenuates.trans chain hstep⟩

/-- The grant behind the first token of the samples. -/
def sampleGrant : CreateOAuthTokenParams where
  userId := "alice"
  email := sampleUser.email.text
  authenticatorId := none
  clientId := "cli"
  scope := some (ScopeSet.parse "openid")
  binding := .bearer
  act := none
  audience := none
  maxLifetimeSecs := some 1000
  hardwareVerification := .notVerified
  authorizationDetails := none
  hardwareAaguid := none
  orgDomain := none
  sourceCodeHash := none

theorem sampleGrant_issued :
    IsGranted (sampleLibrary delegationTokens).toTokenLibrary delegatingHop.subject where
  issued := ⟨(sampleEnv delegationTokens "login").toIssueEnv, sampleGrant, .oauthAccessToken,
    1000 * Timestamp.second, by decide +kernel⟩
  scope := ⟨ScopeSet.parse "openid", rfl, .openId, by decide⟩

/-- Two exchanges, one with an actor: the last token against the first. -/
theorem exchange_attenuates_twice :
    Hop.IsChain [delegatingHop, plainHop] ∧
      IsGranted (sampleLibrary delegationTokens).toTokenLibrary delegatingHop.subject ∧
      Attenuates delegatingHop.subject
        (sampleToken "plain" "alice" "cli" "cli" none) := by
  refine ⟨delegation_isChain, sampleGrant_issued, ?_⟩
  have h := exchange_attenuates [delegatingHop, plainHop] delegation_isChain
    (fun hop hhead => by obtain rfl := Option.some.inj hhead; exact sampleGrant_issued)
  exact (List.pairwise_cons.1 h.2).1 plainHop (by simp) _ rfl

end Vouch
