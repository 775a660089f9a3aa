import Mathlib.Data.List.Basic

/-!
# The keys of the credential cache

The agent caches minted credentials under a text.  Every command builds the text itself: it joins
the kind of the credential and the arguments that determine it with colons, and an agent that was
detected adds its source at the end.  The arguments go in as they are.

* `Request`, `Request.cacheKey` — the requests the commands serve from the cache, and their keys.
* `Request.fields` — the texts a key joins; `pieces` — what colons make of them.
* `Request.shape` — the kind of a request, and how many pieces each of its texts has.
* `cacheKeys_distinguish_iff` — **two requests that need different credentials have different keys
  unless their texts have the same pieces, divided differently**.  The commands do not refuse
  colons.
-/

namespace Vouch.CacheKeys

/-- A text, as its characters. -/
abbrev Text := List Char

/-! ## The requests and their keys -/

/-- The check of a name that is signed with a request (`validate_sigv4_input`). -/
def validateSigv4Input (value : Text) : Bool :=
  value ≠ [] && !value.contains '\n' && !value.contains '\r' && !value.contains '\x00'

/-- A name that passes the check. -/
abbrev Sigv4Input := {value : Text // validateSigv4Input value = true}

/-- What a CodeArtifact token is for. -/
structure CodeArtifactTarget where
  (domain domainOwner region : Text)

/-- What Redshift credentials are for. -/
inductive RedshiftTarget
  | cluster (clusterId : Sigv4Input) (duration : Option Nat)
  | serverless (workgroup : Sigv4Input)

/-- The requests that are served from the cache.  A role is any text, since the cache is looked up
before `parse_role_arn` reads it.  `agent` is the source of a detected agent; the texts of
`AI_AGENT` are taken over verbatim. -/
inductive Request
  | role (roleArn : Text) (mgmt : Option Text) (agent : Option Text)
  | idc (applicationArn accountId permissionSet : Text)
  | codeArtifact (target : CodeArtifactTarget) (roleArn : Text) (agent : Option Text)
  | redshift (target : RedshiftTarget) (dbName : Option Sigv4Input) (region : Text)
      (roleArn : Text) (agent : Option Text)
  | kubernetes (cluster : Text) (audience : Option Text)

/-- The default duration of Redshift credentials, in seconds. -/
def defaultDurationSeconds : Nat := 900

/-- The default audience of a Kubernetes token. -/
def defaultAudience : Text := "kubernetes".toList

/-- The database of a key; a missing one is empty. -/
def dbText : Option Sigv4Input → Text
  | some name => name.1
  | none => []

/-- What an agent adds to a key: `:agent:` and its source. -/
def agentSuffix : Option Text → List Text
  | some src => ["agent".toList, src]
  | none => []

/-- The texts a key joins with colons. -/
def Request.fields : Request → List Text
  | role roleArn none agent => "aws".toList :: roleArn :: agentSuffix agent
  | role roleArn (some mgmt) agent =>
    "aws".toList :: "chain".toList :: mgmt :: roleArn :: agentSuffix agent
  | idc applicationArn accountId permissionSet =>
    ["aws".toList, "idc".toList, applicationArn, accountId, permissionSet]
  | codeArtifact target roleArn agent =>
    "codeartifact".toList :: target.domain :: target.domainOwner :: target.region :: roleArn ::
      agentSuffix agent
  | redshift (.cluster clusterId duration) dbName region roleArn agent =>
    "redshift".toList :: clusterId :: dbText dbName ::
      Nat.toDigits 10 (duration.getD defaultDurationSeconds) :: region :: roleArn ::
        agentSuffix agent
  | redshift (.serverless workgroup) dbName region roleArn agent =>
    "redshift-serverless".toList :: workgroup :: dbText dbName :: region :: roleArn ::
      agentSuffix agent
  | kubernetes cluster audience => ["k8s".toList, cluster, audience.getD defaultAudience]

/-- The cache key of a request. -/
def Request.cacheKey (r : Request) : Text := [':'].intercalate r.fields

/-- A request with its defaults filled in.  This is what the minted credential depends on. -/
def Request.resolved : Request → Request
  | redshift (.cluster clusterId duration) dbName region roleArn agent =>
    redshift (.cluster clusterId (some (duration.getD defaultDurationSeconds))) dbName
      region roleArn agent
  | kubernetes cluster audience => kubernetes cluster (some (audience.getD defaultAudience))
  | r => r

/-- The kinds of credentials. -/
inductive Kind
  | role | chain | idc | codeArtifact | cluster | serverless | kubernetes
  deriving DecidableEq, Repr

/-- The kind of a request. -/
def Request.kind : Request → Kind
  | role _ none _ => .role
  | role _ (some _) _ => .chain
  | idc .. => .idc
  | codeArtifact .. => .codeArtifact
  | redshift (.cluster ..) .. => .cluster
  | redshift (.serverless _) .. => .serverless
  | kubernetes .. => .kubernetes

/-! ## What a key joins -/

/-- The fields of texts that are joined, each of which may join fields itself. -/
def pieces (texts : List Text) : List Text := texts.flatMap (·.splitOn ':')

variable {text text' : Text} {texts texts' : List Text}

theorem splitOn_intercalate :
    ([':'].intercalate (text :: texts)).splitOn ':' = pieces (text :: texts) := by
  induction texts generalizing text with
  | nil => simp [pieces]
  | cons next texts ih =>
    rw [List.intercalate_cons_cons, List.append_assoc, List.singleton_append,
      List.splitOn_append_cons_self, ih]
    rfl

/-- The key is what joins the pieces. -/
theorem intercalate_pieces : [':'].intercalate (pieces texts) = [':'].intercalate texts := by
  cases texts with
  | nil => rfl
  | cons text texts => rw [← splitOn_intercalate, List.intercalate_splitOn]

/-- Texts are found again from their pieces, if it is known how many each of them has. -/
theorem eq_of_pieces_eq (hpieces : pieces texts = pieces texts')
    (hcounts : texts.map (fun text => (text.splitOn ':').length) =
      texts'.map fun text => (text.splitOn ':').length) : texts = texts' := by
  induction texts generalizing texts' with
  | nil => exact (List.map_eq_nil_iff.1 hcounts.symm).symm
  | cons text texts ih =>
    cases texts' with
    | nil => cases hcounts
    | cons text' texts' =>
      obtain ⟨hcount, hcounts⟩ := List.cons.inj hcounts
      rw [pieces, pieces, List.flatMap_cons, List.flatMap_cons] at hpieces
      obtain ⟨htext, htexts⟩ := List.append_inj hpieces hcount
      have heq := congrArg [':'].intercalate htext
      rw [List.intercalate_splitOn, List.intercalate_splitOn] at heq
      rw [heq, ih htexts hcounts]

/-- The kind of a request, and the number of pieces of each of its texts. -/
def Request.shape (r : Request) : Kind × List Nat :=
  (r.kind, r.fields.map fun text => (text.splitOn ':').length)

theorem toDigits_inj {m n : Nat} (h : Nat.toDigits 10 m = Nat.toDigits 10 n) : m = n := by
  simpa [Nat.ofDigitChars_toDigits] using congrArg (Nat.ofDigitChars 10 · 0) h

/-- A database name is never empty, so a missing one has a field of its own. -/
theorem dbText_inj {dbName dbName' : Option Sigv4Input} (h : dbText dbName = dbText dbName') :
    dbName = dbName' := by
  rcases dbName with _ | ⟨name, hname⟩ <;> rcases dbName' with _ | ⟨name', hname'⟩ <;> cases h
  · rfl
  · exact absurd hname' (by decide)
  · exact absurd hname (by decide)
  · rfl

theorem agentSuffix_inj {agent agent' : Option Text} (h : agentSuffix agent = agentSuffix agent') :
    agent = agent' := by
  cases agent <;> cases agent' <;> cases h <;> rfl

/-- Within a kind the fields determine the request. -/
theorem Request.resolved_eq {r r' : Request} (hkind : r.kind = r'.kind)
    (hfields : r.fields = r'.fields) : r.resolved = r'.resolved := by
  rcases r with ⟨role, _ | mgmt, agent⟩ | ⟨app, account, permissionSet⟩ | ⟨⟨_, _, _⟩, role, agent⟩ |
    ⟨⟨clusterId, duration⟩ | workgroup, dbName, region, role, agent⟩ | ⟨cluster, audience⟩ <;>
  rcases r' with ⟨role', _ | mgmt', agent'⟩ | ⟨app', account', permissionSet'⟩ |
    ⟨⟨_, _, _⟩, role', agent'⟩ |
    ⟨⟨clusterId', duration'⟩ | workgroup', dbName', region', role', agent'⟩ |
      ⟨cluster', audience'⟩ <;>
  first | (cases hkind; done) | simp only [fields, List.cons.injEq, true_and] at hfields
  case role.none.role.none =>
    obtain ⟨rfl, hagent⟩ := hfields
    rw [agentSuffix_inj hagent]
  case role.some.role.some =>
    obtain ⟨rfl, rfl, hagent⟩ := hfields
    rw [agentSuffix_inj hagent]
  case idc.idc =>
    obtain ⟨rfl, rfl, rfl, -⟩ := hfields
    rfl
  case codeArtifact.codeArtifact =>
    obtain ⟨rfl, rfl, rfl, rfl, hagent⟩ := hfields
    rw [agentSuffix_inj hagent]
  case redshift.cluster.redshift.cluster =>
    obtain ⟨hcluster, hname, hduration, rfl, rfl, hagent⟩ := hfields
    rw [Subtype.ext hcluster, dbText_inj hname, agentSuffix_inj hagent, resolved, resolved,
      toDigits_inj hduration]
  case redshift.serverless.redshift.serverless =>
    obtain ⟨hworkgroup, hname, rfl, rfl, hagent⟩ := hfields
    rw [Subtype.ext hworkgroup, dbText_inj hname, agentSuffix_inj hagent]
  case kubernetes.kubernetes =>
    obtain ⟨rfl, haudience, -⟩ := hfields
    rw [resolved, resolved, haudience]

/-- The shape is the same with the defaults filled in. -/
theorem Request.shape_resolved (r : Request) : r.resolved.shape = r.shape := by
  rcases r with ⟨_, _ | _, _⟩ | _ | _ | ⟨_ | _, _, _, _, _⟩ | _ <;> rfl

/-- **Two requests that need different credentials have different keys exactly when they are of one
kind, with as many colons in each of their texts, or the texts do not have the same pieces in
sequence.** -/
theorem cacheKeys_distinguish_iff (r r' : Request) :
    (r.cacheKey = r'.cacheKey → r.resolved = r'.resolved) ↔
      r.shape = r'.shape ∨ pieces r.fields ≠ pieces r'.fields := by
  constructor
  · intro hkeys
    refine or_iff_not_imp_right.2 fun hpieces => ?_
    have hkey : r.cacheKey = r'.cacheKey := by
      rw [Request.cacheKey, Request.cacheKey, ← intercalate_pieces, not_not.1 hpieces,
        intercalate_pieces]
    rw [← r.shape_resolved, hkeys hkey, r'.shape_resolved]
  · intro hshape hkey
    have hsplit : ∀ r : Request, pieces r.fields = r.cacheKey.splitOn ':' := by
      rintro (⟨_, _ | _, _⟩ | _ | _ | ⟨_ | _, _, _, _, _⟩ | _) <;> exact splitOn_intercalate.symm
    have hpieces : pieces r.fields = pieces r'.fields := by rw [hsplit, hsplit, hkey]
    obtain ⟨hkind, hcounts⟩ := Prod.ext_iff.1 (hshape.resolve_right (not_not.2 hpieces))
    exact Request.resolved_eq hkind (eq_of_pieces_eq hpieces hcounts)

/-- A token for the audience `a:b` is handed out for the audience `b`, and the credentials an agent
got for a role are handed out for the role whose name ends with the agent's suffix. -/
theorem confused_by_a_colon :
    (Request.kubernetes "prod".toList (some "a:b".toList)).cacheKey =
        (Request.kubernetes "prod:a".toList (some "b".toList)).cacheKey ∧
      (Request.kubernetes "prod".toList (some "a:b".toList)).resolved ≠
        (Request.kubernetes "prod:a".toList (some "b".toList)).resolved ∧
      (Request.role "arn:aws:iam::1:role/R".toList none (some "x".toList)).cacheKey =
        (Request.role "arn:aws:iam::1:role/R:agent:x".toList none none).cacheKey := by
  refine ⟨by decide, ?_, by decide⟩
  simp [Request.resolved]

end Vouch.CacheKeys
