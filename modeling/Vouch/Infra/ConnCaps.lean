import Mathlib.Data.Finmap
import Vouch.Lib.IpAddr

/-!
# Connection caps

How many connections may be open at once, in all and for one client (`infra/conn_caps.rs`).  A
connection first takes a permit of the pool its listener draws from, and then a slot for its client;
both are given back when they are dropped, in whatever order connections end.

* `ClientBucket` — what a client is counted under (`infra/rate_limit.rs`): an IPv4 address, or the
  /64 of an IPv6 address.  `bucket_mapped` and `bucket_v6` say which addresses share one.
* `ConnCaps.admitPeer`, `ConnCaps.release`, `ConnCaps.reserve` — the code.
* `Listeners` — the caps together with the permits and slots that have not been dropped; `Event` is
  what can happen to them.
* `Exact` — the invariant: **the counters are the numbers of live slots**, which is `exact_step` for
  one event and `exact_run` for all.
* `connection_caps_exact` — with it, who is refused and who has to wait.

The counters are kept under a lock, so the order of events is all there is to concurrent
connections. The port of a peer plays no part and is left out.
-/

set_option autoImplicit false

namespace Vouch

open Net

/-! ## Buckets -/

/-- `PREFIX_64`. -/
def prefix64 : BitVec 128 := 0xFFFFFFFFFFFFFFFF0000000000000000#128

/-- The client a connection is counted under. -/
structure ClientBucket where
  ip : IpAddr
  deriving DecidableEq

/-- `ClientBucket::from`. -/
def ClientBucket.ofIp (ip : IpAddr) : ClientBucket :=
  match ip.toCanonical with
  | .v4 bits => ⟨.v4 bits⟩
  | .v6 bits => ⟨.v6 (bits &&& prefix64)⟩

/-- An IPv4-mapped address, `::ffff:a.b.c.d`. -/
def isMapped (bits : BitVec 128) : Prop := bits >>> 32 = 0xffff#128

instance (bits : BitVec 128) : Decidable (isMapped bits) := inferInstanceAs (Decidable (_ = _))

variable {a b : BitVec 128}

theorem toCanonical_toCanonical (ip : IpAddr) : ip.toCanonical.toCanonical = ip.toCanonical := by
  cases ip with
  | v4 bits => rfl
  | v6 bits =>
    rw [IpAddr.toCanonical]
    split
    · rfl
    · rename_i h
      rw [IpAddr.toCanonical, if_neg h]

theorem ofIp_toCanonical (ip : IpAddr) :
    ClientBucket.ofIp ip.toCanonical = ClientBucket.ofIp ip := by
  rw [ClientBucket.ofIp, toCanonical_toCanonical, ClientBucket.ofIp]

/-- A mapped address shares the bucket of its IPv4 address. -/
theorem bucket_mapped (h : isMapped a) :
    ClientBucket.ofIp (.v6 a) = ClientBucket.ofIp (.v4 (a.setWidth 32)) := by
  have hcanonical : (IpAddr.v6 a).toCanonical = .v4 (a.setWidth 32) := if_pos h
  rw [ClientBucket.ofIp, hcanonical]
  rfl

theorem ofIp_v6 (h : ¬ isMapped a) : ClientBucket.ofIp (.v6 a) = ⟨.v6 (a &&& prefix64)⟩ := by
  have hcanonical : (IpAddr.v6 a).toCanonical = .v6 a := if_neg h
  rw [ClientBucket.ofIp, hcanonical]

theorem getLsbD_and_prefix64 (a : BitVec 128) {i : Nat} (hi : i < 128) :
    (a &&& prefix64).getLsbD i = (decide (64 ≤ i) && a.getLsbD i) := by
  have hmask : prefix64 = BitVec.allOnes 128 <<< 64 := by decide
  rw [hmask, BitVec.getLsbD_and, BitVec.getLsbD_shiftLeft, BitVec.getLsbD_allOnes]
  by_cases h : i < 64
  · simp [h]
  · simp [hi, show i - 64 < 128 by omega, Nat.not_lt.mp h]

/-- Other IPv6 addresses share a bucket exactly when their first 64 bits agree. -/
theorem bucket_v6 (ha : ¬ isMapped a) (hb : ¬ isMapped b) :
    ClientBucket.ofIp (.v6 a) = ClientBucket.ofIp (.v6 b) ↔ a >>> 64 = b >>> 64 := by
  rw [ofIp_v6 ha, ofIp_v6 hb, ClientBucket.mk.injEq, IpAddr.v6.injEq]
  constructor
  · intro h
    refine BitVec.eq_of_getLsbD_eq fun i hi => ?_
    rw [BitVec.getLsbD_ushiftRight, BitVec.getLsbD_ushiftRight]
    by_cases hlt : 64 + i < 128
    · have hbit := congrArg (BitVec.getLsbD · (64 + i)) h
      simpa [getLsbD_and_prefix64 _ hlt] using hbit
    · rw [BitVec.getLsbD_of_ge _ _ (Nat.not_lt.mp hlt),
        BitVec.getLsbD_of_ge _ _ (Nat.not_lt.mp hlt)]
  · intro h
    refine BitVec.eq_of_getLsbD_eq fun i hi => ?_
    rw [getLsbD_and_prefix64 _ hi, getLsbD_and_prefix64 _ hi]
    by_cases hle : 64 ≤ i
    · have hbit := congrArg (BitVec.getLsbD · (i - 64)) h
      simpa [hle, show 64 + (i - 64) = i by omega] using hbit
    · simp [hle]

/-! ## The code -/

/-- The listener that accepted a connection. -/
inductive ListenerRole
  | app
  | mtls
  | redirect
  deriving DecidableEq

/-- `tcp_peer_can_be_proxy`: TLS ends at the mTLS listener, so the peer there is the client. -/
def ListenerRole.tcpPeerCanBeProxy : ListenerRole → Bool
  | .app | .redirect => true
  | .mtls => false

/-- The peer of a connection: as TCP has it, a proxy whose PROXY header names no client, or the
client that the header names. -/
inductive Peer
  | tcp (addr : IpAddr)
  | proxy (addr : IpAddr)
  | header (addr : IpAddr)

/-- The address of a peer, without its port. -/
def Peer.addr : Peer → IpAddr
  | .tcp addr | .proxy addr | .header addr => addr

/-- `Peer::can_be_proxy`. -/
def Peer.canBeProxy (role : ListenerRole) : Peer → Bool
  | .tcp _ => role.tcpPeerCanBeProxy
  | .proxy _ => true
  | .header _ => false

/-- The two pools of permits. -/
inductive Pool
  | total
  | redirectTotal
  deriving DecidableEq

/-- The pool a listener draws from. -/
def ListenerRole.pool : ListenerRole → Pool
  | .app | .mtls => .total
  | .redirect => .redirectTotal

/-- `ConnCapConfig`. -/
structure ConnCapConfig where
  maxTotal : UInt32
  maxPerIp : UInt32

/-- The size of a pool; 256 is `REDIRECT_MAX_TOTAL`. -/
def ConnCapConfig.permits (config : ConnCapConfig) : Pool → Nat
  | .total => config.maxTotal.toNat
  | .redirectTotal => 256

/-- `ConnCaps`, with the permits that are left in the pools. -/
structure ConnCaps where
  permits : Pool → Nat
  perIp : Finmap fun _ : ClientBucket => Nat
  maxPerIp : UInt32
  exempt : List IpNet

/-- `TotalSlot`: a permit, by the pool it goes back to. -/
structure TotalSlot where
  pool : Pool
  deriving DecidableEq

/-- `ClientSlot`: the bucket it counts for; none for an exempt peer. -/
structure ClientSlot where
  key : Option ClientBucket
  deriving DecidableEq

/-- `entry(key).or_insert(0)`. -/
def orInsert (counts : Finmap fun _ : ClientBucket => Nat) (key : ClientBucket) :
    Finmap fun _ : ClientBucket => Nat :=
  if key ∈ counts then counts else counts.insert key 0

/-- `u32::saturating_add(1)`. -/
def saturatingAddOne (count : Nat) : Nat := if count < 4294967295 then count + 1 else count

namespace ConnCaps

/-- `ConnCaps::new`. -/
def new (config : ConnCapConfig) (exempt : List IpNet) : ConnCaps where
  permits := config.permits
  perIp := ∅
  maxPerIp := config.maxPerIp
  exempt

/-- `ConnCaps::reserve`; `none` while it waits for a permit. -/
def reserve (caps : ConnCaps) (role : ListenerRole) : Option (TotalSlot × ConnCaps) :=
  if caps.permits role.pool = 0 then none
  else some (⟨role.pool⟩,
    { caps with permits := Function.update caps.permits role.pool (caps.permits role.pool - 1) })

/-- A peer that can be a proxy and is in the trusted networks. -/
def isExempt (exempt : List IpNet) (peer : Peer) (role : ListenerRole) : Bool :=
  peer.canBeProxy role && exempt.any fun net => net.contains peer.addr.toCanonical

/-- `ConnCaps::admit`. -/
def admitPeer (caps : ConnCaps) (peer : Peer) (role : ListenerRole) :
    Option ClientSlot × ConnCaps :=
  if isExempt caps.exempt peer role then (some ⟨none⟩, caps)
  else
    let key := ClientBucket.ofIp peer.addr.toCanonical
    let counts := orInsert caps.perIp key
    let count := (counts.lookup key).getD 0
    if caps.maxPerIp.toNat ≤ count then
      (none, { caps with perIp := if count = 0 then counts.erase key else counts })
    else (some ⟨some key⟩, { caps with perIp := counts.insert key (saturatingAddOne count) })

/-- `ConnCaps::release`. -/
def release (caps : ConnCaps) (key : ClientBucket) : ConnCaps :=
  match caps.perIp.lookup key with
  | some count =>
    { caps with
      perIp := if count - 1 = 0 then caps.perIp.erase key else caps.perIp.insert key (count - 1) }
  | none => caps

end ConnCaps

/-- The permit goes back to its pool. -/
def TotalSlot.drop (slot : TotalSlot) (caps : ConnCaps) : ConnCaps :=
  { caps with permits := Function.update caps.permits slot.pool (caps.permits slot.pool + 1) }

/-- `ClientSlot::drop`. -/
def ClientSlot.drop (slot : ClientSlot) (caps : ConnCaps) : ConnCaps :=
  match slot.key with
  | some key => caps.release key
  | none => caps

/-! ## All listeners -/

/-- The caps, and what was handed out and has not been dropped. -/
structure Listeners where
  caps : ConnCaps
  totalSlots : List TotalSlot
  clientSlots : List ClientSlot

/-- What can happen: a listener asks for a permit, a peer arrives, and either ends. -/
inductive Event
  | reserve (role : ListenerRole)
  | arrive (peer : Peer) (role : ListenerRole)
  | dropTotal (slot : TotalSlot)
  | dropClient (slot : ClientSlot)

namespace Listeners

/-- One event.  Only what is held can be dropped, and once. -/
def step (s : Listeners) : Event → Listeners
  | .reserve role =>
    match s.caps.reserve role with
    | some (slot, caps) => { s with caps, totalSlots := slot :: s.totalSlots }
    | none => s
  | .arrive peer role =>
    match s.caps.admitPeer peer role with
    | (some slot, caps) => { s with caps, clientSlots := slot :: s.clientSlots }
    | (none, caps) => { s with caps }
  | .dropTotal slot =>
    if slot ∈ s.totalSlots then
      { s with caps := slot.drop s.caps, totalSlots := s.totalSlots.erase slot }
    else s
  | .dropClient slot =>
    if slot ∈ s.clientSlots then
      { s with caps := slot.drop s.caps, clientSlots := s.clientSlots.erase slot }
    else s

/-- All events so far. -/
def run (config : ConnCapConfig) (exempt : List IpNet) (events : List Event) : Listeners :=
  events.foldl step ⟨.new config exempt, [], []⟩

/-- The live slots that count for a bucket. -/
def live (s : Listeners) (key : ClientBucket) : Nat := s.clientSlots.count ⟨some key⟩

/-- The permits that are held. -/
def held (s : Listeners) (pool : Pool) : Nat := s.totalSlots.count ⟨pool⟩

end Listeners

/-- The counters are the numbers of live slots, and the permits left are those not held. -/
structure Exact (config : ConnCapConfig) (exempt : List IpNet) (s : Listeners) : Prop where
  maxPerIp : s.caps.maxPerIp = config.maxPerIp
  exempt : s.caps.exempt = exempt
  permits : ∀ pool, s.caps.permits pool + s.held pool = config.permits pool
  counter : ∀ key, s.caps.perIp.lookup key = if s.live key = 0 then none else some (s.live key)
  live_le : ∀ key, s.live key ≤ config.maxPerIp.toNat

variable {config : ConnCapConfig} {exempt : List IpNet} {s : Listeners}

/-- Asking for a counter leaves none of the others changed. -/
theorem lookup_orInsert (counts : Finmap fun _ : ClientBucket => Nat) (key key' : ClientBucket) :
    (orInsert counts key).lookup key' =
      if key' = key then some ((counts.lookup key).getD 0) else counts.lookup key' := by
  rw [orInsert]
  split
  · rename_i hmem
    obtain ⟨count, hcount⟩ := Finmap.mem_iff.mp hmem
    split
    · rename_i heq
      rw [heq, hcount, Option.getD_some]
    · rfl
  · rename_i hnot
    split
    · rename_i heq
      rw [heq, Finmap.lookup_insert, Finmap.lookup_eq_none.mpr hnot, Option.getD_none]
    · rename_i hne
      rw [Finmap.lookup_insert_of_ne _ hne]

namespace Exact

variable (h : Exact config exempt s)
include h

theorem lookup_getD (key : ClientBucket) : (s.caps.perIp.lookup key).getD 0 = s.live key := by
  rw [h.counter]
  split
  · rename_i hzero
    rw [hzero, Option.getD_none]
  · rw [Option.getD_some]

/-- A counter that is asked for and not raised: what was not there is taken out again. -/
theorem orInsert_refused (key : ClientBucket) :
    (if s.live key = 0 then (orInsert s.caps.perIp key).erase key else orInsert s.caps.perIp key) =
      s.caps.perIp := by
  have hcounter := h.counter key
  refine Finmap.ext_lookup fun key' => ?_
  by_cases hzero : s.live key = 0
  · rw [if_pos hzero]
    by_cases heq : key' = key
    · rw [heq, Finmap.lookup_erase, hcounter, if_pos hzero]
    · rw [Finmap.lookup_erase_ne heq, lookup_orInsert, if_neg heq]
  · rw [if_neg hzero, lookup_orInsert]
    split
    · rename_i heq
      rw [heq, h.lookup_getD, hcounter, if_neg hzero]
    · rfl

/-- What the code does with a peer, in terms of the live slots: a refusal changes nothing. -/
theorem admit_eq (peer : Peer) (role : ListenerRole) :
    s.caps.admitPeer peer role =
      if ConnCaps.isExempt exempt peer role then (some ⟨none⟩, s.caps)
      else if config.maxPerIp.toNat ≤ s.live (.ofIp peer.addr) then (none, s.caps)
      else (some ⟨some (.ofIp peer.addr)⟩, { s.caps with
        perIp := s.caps.perIp.insert (.ofIp peer.addr) (s.live (.ofIp peer.addr) + 1) }) := by
  have hcount : ∀ key, ((orInsert s.caps.perIp key).lookup key).getD 0 = s.live key := by
    intro key
    rw [lookup_orInsert, if_pos rfl, Option.getD_some, h.lookup_getD]
  have hinsert : ∀ key n, (orInsert s.caps.perIp key).insert key n = s.caps.perIp.insert key n := by
    intro key n
    refine Finmap.ext_lookup fun key' => ?_
    by_cases heq : key' = key
    · rw [heq, Finmap.lookup_insert, Finmap.lookup_insert]
    · rw [Finmap.lookup_insert_of_ne _ heq, Finmap.lookup_insert_of_ne _ heq, lookup_orInsert,
        if_neg heq]
  rw [ConnCaps.admitPeer, ofIp_toCanonical, ← h.exempt, ← h.maxPerIp]
  simp only [hcount, h.orInsert_refused, hinsert]
  split
  · rfl
  · split
    · rfl
    · have hmax := s.caps.maxPerIp.toNat_lt
      rw [saturatingAddOne, if_pos (by omega)]

/-- Slots that count for no bucket come and go. -/
theorem uncounted {slots : List ClientSlot} (hslots : ∀ key, slots.count ⟨some key⟩ = s.live key) :
    Exact config exempt { s with clientSlots := slots } where
  maxPerIp := h.maxPerIp
  exempt := h.exempt
  permits := h.permits
  counter key := by
    rw [h.counter, ← hslots]
    rfl
  live_le key := (hslots key).trans_le (h.live_le key)

/-- One counter is set, as the live slots for it change. -/
theorem recount {slots : List ClientSlot} {key : ClientBucket} {n : Nat}
    (hn : n ≤ config.maxPerIp.toNat) (hkey : slots.count ⟨some key⟩ = n)
    (hother : ∀ key' ≠ key, slots.count ⟨some key'⟩ = s.live key') :
    Exact config exempt { s with
      caps := { s.caps with
        perIp := if n = 0 then s.caps.perIp.erase key else s.caps.perIp.insert key n }
      clientSlots := slots } where
  maxPerIp := h.maxPerIp
  exempt := h.exempt
  permits := h.permits
  counter key' := by
    by_cases heq : key' = key
    · subst heq
      simp only [Listeners.live, hkey]
      split
      · rw [Finmap.lookup_erase]
      · rw [Finmap.lookup_insert]
    · refine Eq.trans ?_ ((h.counter key').trans (by rw [← hother key' heq]; rfl))
      dsimp only
      split
      · exact Finmap.lookup_erase_ne heq
      · exact Finmap.lookup_insert_of_ne _ heq
  live_le key' := by
    by_cases heq : key' = key
    · exact heq ▸ hkey.trans_le hn
    · exact (hother key' heq).trans_le (h.live_le key')

/-! ### One event -/

theorem reserve (role : ListenerRole) : Exact config exempt (s.step (.reserve role)) := by
  rw [Listeners.step, ConnCaps.reserve]
  split
  · rename_i hsome
    split at hsome
    · cases hsome
    · obtain ⟨rfl, rfl⟩ := Prod.mk.inj (Option.some.inj hsome)
      refine ⟨h.maxPerIp, h.exempt, fun pool => ?_, h.counter, h.live_le⟩
      have hpool := h.permits pool
      simp only [Listeners.held, Function.update_apply, List.count_cons, beq_iff_eq,
        TotalSlot.mk.injEq] at hpool ⊢
      grind
  · exact h

theorem dropTotal (slot : TotalSlot) : Exact config exempt (s.step (.dropTotal slot)) := by
  rw [Listeners.step]
  split
  · rename_i hmem
    refine ⟨h.maxPerIp, h.exempt, fun pool => ?_, h.counter, h.live_le⟩
    have hpool := h.permits pool
    have hpos := List.count_pos_iff.mpr hmem
    obtain ⟨pool'⟩ := slot
    simp only [Listeners.held, TotalSlot.drop, Function.update_apply, List.count_erase, beq_iff_eq,
      TotalSlot.mk.injEq] at hpool ⊢
    grind
  · exact h

theorem arrive (peer : Peer) (role : ListenerRole) :
    Exact config exempt (s.step (.arrive peer role)) := by
  rw [Listeners.step, h.admit_eq]
  by_cases hexempt : ConnCaps.isExempt exempt peer role = true
  · rw [if_pos hexempt]
    exact h.uncounted fun key => List.count_cons_of_ne (by simp)
  · rw [if_neg hexempt]
    by_cases hfull : config.maxPerIp.toNat ≤ s.live (.ofIp peer.addr)
    · rw [if_pos hfull]
      exact h
    · rw [if_neg hfull]
      exact h.recount (Nat.not_le.mp hfull) List.count_cons_self
        fun key' hne => List.count_cons_of_ne (by simpa using hne.symm)

theorem dropClient (slot : ClientSlot) : Exact config exempt (s.step (.dropClient slot)) := by
  rw [Listeners.step]
  split
  · rename_i hmem
    obtain ⟨_ | key⟩ := slot
    · exact h.uncounted fun key => List.count_erase_of_ne (by simp)
    · have hpos : s.live key ≠ 0 := (List.count_pos_iff.mpr hmem).ne'
      have hle := h.live_le key
      have hlookup := h.counter key
      rw [if_neg hpos] at hlookup
      simp only [ClientSlot.drop, ConnCaps.release, hlookup]
      exact h.recount (n := s.live key - 1) (by omega) List.count_erase_self
        fun key' hne => List.count_erase_of_ne (by simpa using hne)
  · exact h

end Exact

theorem exact_step (h : Exact config exempt s) (event : Event) :
    Exact config exempt (s.step event) := by
  cases event with
  | reserve role => exact h.reserve role
  | arrive peer role => exact h.arrive peer role
  | dropTotal slot => exact h.dropTotal slot
  | dropClient slot => exact h.dropClient slot

theorem exact_run (config : ConnCapConfig) (exempt : List IpNet) (events : List Event) :
    Exact config exempt (.run config exempt events) := by
  have hstart : Exact config exempt ⟨.new config exempt, [], []⟩ :=
    ⟨rfl, rfl, fun _ => rfl, fun _ => rfl, fun _ => Nat.zero_le _⟩
  rw [Listeners.run]
  generalize (⟨.new config exempt, [], []⟩ : Listeners) = s at hstart ⊢
  induction events generalizing s with
  | nil => exact hstart
  | cons event events ih => exact ih _ (exact_step hstart event)

/-- **The caps are exact.**  After any events, the counter of a bucket is the number of live slots
for it, which is at most the cap, and none is kept at zero; a peer that is not exempt is given a
slot for its bucket, and refused exactly when that is full, and a listener waits exactly when all
permits of its pool are held.  An IPv4-mapped address is counted as its IPv4 address; other IPv6
addresses are counted together exactly when they agree in their first 64 bits. -/
theorem connection_caps_exact (config : ConnCapConfig) (exempt : List IpNet) (events : List Event) :
    (∀ key, ((Listeners.run config exempt events).caps.perIp.lookup key).getD 0 =
        (Listeners.run config exempt events).live key ∧
      (Listeners.run config exempt events).live key ≤ config.maxPerIp.toNat ∧
      (Listeners.run config exempt events).caps.perIp.lookup key ≠ some 0) ∧
    (∀ peer role, ((Listeners.run config exempt events).caps.admitPeer peer role).1 =
      if ConnCaps.isExempt exempt peer role then some ⟨none⟩
      else if (Listeners.run config exempt events).live (.ofIp peer.addr) = config.maxPerIp.toNat
        then none
      else some ⟨some (.ofIp peer.addr)⟩) ∧
    (∀ role, (Listeners.run config exempt events).caps.reserve role = none ↔
      (Listeners.run config exempt events).held role.pool = config.permits role.pool) ∧
    (∀ a, isMapped a → ClientBucket.ofIp (.v6 a) = .ofIp (.v4 (a.setWidth 32))) ∧
    ∀ a b, ¬ isMapped a → ¬ isMapped b →
      (ClientBucket.ofIp (.v6 a) = .ofIp (.v6 b) ↔ a >>> 64 = b >>> 64) := by
  have h := exact_run config exempt events
  generalize Listeners.run config exempt events = s at h ⊢
  refine ⟨fun key => ⟨h.lookup_getD key, h.live_le key, ?_⟩, fun peer role => ?_, fun role => ?_,
    fun _ => bucket_mapped, fun _ _ => bucket_v6⟩
  · rw [h.counter]
    split
    · simp
    · rename_i hne
      simpa using hne
  · have hle := h.live_le (.ofIp peer.addr)
    rw [h.admit_eq]
    split
    · rfl
    · split
      · rename_i hfull
        rw [if_pos (Nat.le_antisymm hle hfull)]
      · rename_i hfree
        rw [if_neg (Nat.ne_of_lt (Nat.not_le.mp hfree))]
  · have hpool := h.permits role.pool
    rw [ConnCaps.reserve]
    split
    · simp only [true_iff]
      omega
    · simp only [reduceCtorEq, false_iff]
      omega

end Vouch
