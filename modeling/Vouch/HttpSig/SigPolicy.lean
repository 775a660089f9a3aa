import Mathlib.Data.List.Forall2

/-!
# Which requests have to be signed

The signature policy of the `/v1` routes (`sig_policy.rs`).  The command line asks it about the
concrete path of a request, the server's middleware about the template of the route that was
matched; a path within `/v1` has to be signed unless it matches one of five public routes.

* `pathMatches`, `requiresSignature` — the two functions of the source, on texts.
* `Segment`, `pathOf` — a path as its segments, none of them empty and none with a slash in it.  On
  such paths matching is a relation between lists of segments (`pathMatches_pathOf_iff`), and the
  rest of the file is about those.
* `Template.Instance` — the concrete paths of a route.
* `Covers` — a public route has a parameter wherever a template has one.  This is what would make a
  template public: **the policy exempts a template together with all its requests exactly when some
  public route covers it** (`exemption_agrees_iff`), whereas the code asks for less, since a
  parameter of the template is taken to match any word of a public route.
-/

namespace Vouch.SigPolicy

/-! ## The policy -/

/-- `PUBLIC_V1_PATHS`. -/
def publicV1Paths : List (List Char) :=
  ["/v1/auth/status".toList, "/v1/credentials/ssh/ca".toList, "/v1/credentials/ssh/krl".toList,
    "/v1/credentials/ssh/krl/{serial}".toList, "/v1/credentials/github/status".toList]

/-- A segment in braces. -/
def isBraceToken (s : List Char) : Bool := s.head? == some '{' && s.getLast? == some '}'

/-- The segments of an absolute path. -/
def segmentsOf (path : List Char) : List (List Char) := (path.splitOn '/').drop 1

/-- Whether two segments match: they are equal, or one of them is in braces. -/
def segmentMatches (p i : List Char) : Bool := isBraceToken p || isBraceToken i || p == i

/-- `path_matches`. -/
def pathMatches (pattern input : List Char) : Bool :=
  if pattern.isEmpty || input.isEmpty || pattern.getLast? == some '/' ||
    input.getLast? == some '/' then
    false
  else
    let patSegs := segmentsOf pattern
    let inpSegs := segmentsOf input
    if patSegs.any List.isEmpty || inpSegs.any List.isEmpty then false
    else if patSegs.length ≠ inpSegs.length then false
    else (patSegs.zip inpSegs).all fun s => segmentMatches s.1 s.2

/-- `requires_signature`. -/
def requiresSignature (path : List Char) : Bool :=
  -- Only `/v1` is in scope.
  if path != "/v1".toList && !("/v1/".toList.isPrefixOf path) then false
  else !publicV1Paths.any fun exempt => pathMatches exempt path

/-! ## Paths as segments -/

/-- A segment of a path. -/
@[ext] structure Segment where
  text : List Char
  ne_nil : text ≠ []
  no_slash : '/' ∉ text

namespace Segment

instance : DecidableEq Segment := fun a b => decidable_of_iff (a.text = b.text) Segment.ext_iff.symm

/-- Whether the segment is a parameter. -/
def IsParam (s : Segment) : Prop := isBraceToken s.text = true

instance (s : Segment) : Decidable s.IsParam :=
  inferInstanceAs (Decidable (isBraceToken s.text = true))

end Segment

/-- The path with some segments. -/
def pathOf (segs : List Segment) : List Char := ['/'].intercalate ([] :: segs.map Segment.text)

theorem splitOn_pathOf (segs : List Segment) :
    (pathOf segs).splitOn '/' = [] :: segs.map Segment.text := by
  refine List.splitOn_intercalate '/' (fun l hl => ?_) (by simp)
  rcases List.mem_cons.1 hl with rfl | hl
  · simp
  · obtain ⟨s, -, rfl⟩ := List.mem_map.1 hl
    exact s.no_slash

@[simp] theorem segmentsOf_pathOf (segs : List Segment) :
    segmentsOf (pathOf segs) = segs.map Segment.text := by
  rw [segmentsOf, splitOn_pathOf, List.drop_one, List.tail_cons]

theorem pathOf_ne_nil {segs : List Segment} (h : segs ≠ []) : pathOf segs ≠ [] := by
  intro hnil
  have hsplit := splitOn_pathOf segs
  rw [hnil] at hsplit
  exact h (List.map_eq_nil_iff.1 (List.cons.inj hsplit).2.symm)

theorem getLast?_pathOf {segs : List Segment} (h : segs ≠ []) :
    (pathOf segs).getLast? ≠ some '/' := by
  intro hlast
  -- A slash at the end would leave an empty last segment.
  obtain ⟨front, hfront⟩ := List.getLast?_eq_some_iff.1 hlast
  have hsplit := splitOn_pathOf segs
  rw [hfront, List.splitOn, List.splitOnP_append_cons _ _ (by simp)] at hsplit
  have hmem : [] ∈ segs.map Segment.text := by
    have hlast := congrArg List.getLast? hsplit
    have hne : segs.map Segment.text ≠ [] := by simpa using h
    rw [List.splitOnP_nil, List.getLast?_concat, List.getLast?_cons, Option.some.injEq,
      List.getLast?_eq_some_getLast hne, Option.getD_some] at hlast
    rw [hlast]
    exact List.getLast_mem hne
  obtain ⟨s, -, hs⟩ := List.mem_map.1 hmem
  exact s.ne_nil hs

theorem any_isEmpty_segments (segs : List Segment) :
    (segs.map Segment.text).any List.isEmpty = false := by
  rw [List.any_eq_false]
  intro l hl
  obtain ⟨s, -, rfl⟩ := List.mem_map.1 hl
  simpa using s.ne_nil

theorem zip_all_iff {α β : Type} (r : α → β → Bool) (xs : List α) (ys : List β) :
    xs.length = ys.length ∧ ((xs.zip ys).all fun s => r s.1 s.2) = true ↔
      List.Forall₂ (fun x y => r x y = true) xs ys := by
  rw [List.forall₂_iff_zip, List.all_eq_true]
  refine and_congr_right fun _ => ⟨fun h a b hab => h (a, b) hab, fun h x hx => h hx⟩

/-- **On paths of segments, matching is segment by segment.** -/
theorem pathMatches_pathOf_iff {pat inp : List Segment} (hpat : pat ≠ []) (hinp : inp ≠ []) :
    pathMatches (pathOf pat) (pathOf inp) = true ↔
      List.Forall₂ (fun p i => p.IsParam ∨ i.IsParam ∨ p = i) pat inp := by
  have hne : ((pathOf pat).isEmpty || (pathOf inp).isEmpty || (pathOf pat).getLast? == some '/' ||
      (pathOf inp).getLast? == some '/') = false := by
    simp [pathOf_ne_nil hpat, pathOf_ne_nil hinp, getLast?_pathOf hpat, getLast?_pathOf hinp]
  have hseg : ∀ p i : Segment,
      segmentMatches p.text i.text = true ↔ p.IsParam ∨ i.IsParam ∨ p = i := by
    intro p i
    simp [segmentMatches, Segment.IsParam, Segment.ext_iff, or_assoc]
  unfold pathMatches
  rw [hne, if_neg (by simp)]
  simp only [segmentsOf_pathOf, any_isEmpty_segments, Bool.or_false, Bool.false_eq_true, if_false]
  rw [ite_eq_iff]
  simp only [Bool.false_eq_true, and_false, false_or, not_not]
  rw [zip_all_iff, List.forall₂_map_left_iff, List.forall₂_map_right_iff]
  constructor
  · exact fun h => h.imp fun p i => (hseg p i).1
  · exact fun h => h.imp fun p i => (hseg p i).2

/-! ## Templates -/

/-- The segment `v1`. -/
def v1 : Segment := ⟨"v1".toList, by decide, by decide⟩

/-- A route template within `/v1`: the segments after it. -/
structure Template where
  rest : List Segment

namespace Template

/-- All segments of a template. -/
def segments (t : Template) : List Segment := v1 :: t.rest

/-- The text of a template. -/
def path (t : Template) : List Char := pathOf t.segments

/-- What a segment of a template may stand for in a request: any segment that is not in braces for a
parameter, and otherwise itself. -/
def Fills (s c : Segment) : Prop := ¬ c.IsParam ∧ (s.IsParam ∨ c = s)

/-- A concrete path of the route: a segment for each parameter. -/
def Instance (t : Template) (p : List Char) : Prop :=
  ∃ cs, List.Forall₂ Fills t.segments cs ∧ p = pathOf cs

end Template

/-- The public routes, as segments. -/
def publicRoutes : List (List Segment) :=
  [[v1, ⟨"auth".toList, by decide, by decide⟩, ⟨"status".toList, by decide, by decide⟩],
    [v1, ⟨"credentials".toList, by decide, by decide⟩, ⟨"ssh".toList, by decide, by decide⟩,
      ⟨"ca".toList, by decide, by decide⟩],
    [v1, ⟨"credentials".toList, by decide, by decide⟩, ⟨"ssh".toList, by decide, by decide⟩,
      ⟨"krl".toList, by decide, by decide⟩],
    [v1, ⟨"credentials".toList, by decide, by decide⟩, ⟨"ssh".toList, by decide, by decide⟩,
      ⟨"krl".toList, by decide, by decide⟩, ⟨"{serial}".toList, by decide, by decide⟩],
    [v1, ⟨"credentials".toList, by decide, by decide⟩, ⟨"github".toList, by decide, by decide⟩,
      ⟨"status".toList, by decide, by decide⟩]]

theorem publicV1Paths_eq : publicV1Paths = publicRoutes.map pathOf := by decide

theorem ne_nil_of_mem_publicRoutes {exempt : List Segment} (h : exempt ∈ publicRoutes) :
    exempt ≠ [] := by
  revert exempt
  decide

/-- A public route has a parameter wherever a template has one, and the same words elsewhere. -/
def Covers (exempt segs : List Segment) : Prop :=
  List.Forall₂ (fun p s => p.IsParam ∨ ¬ s.IsParam ∧ p = s) exempt segs

/-- Within `/v1`, what needs no signature matches a public route. -/
theorem requiresSignature_eq_false_iff (rest : List Segment) :
    requiresSignature (pathOf (v1 :: rest)) = false ↔
      ∃ exempt ∈ publicRoutes,
        List.Forall₂ (fun p i => p.IsParam ∨ i.IsParam ∨ p = i) exempt (v1 :: rest) := by
  have hscope : (pathOf (v1 :: rest) != "/v1".toList &&
      !("/v1/".toList.isPrefixOf (pathOf (v1 :: rest)))) = false := by
    cases rest with
    | nil => decide
    | cons s rest => simp [pathOf, v1, List.intercalate, List.isPrefixOf]
  rw [requiresSignature, hscope, if_neg (by simp), Bool.not_eq_false',
    publicV1Paths_eq, List.any_map, List.any_eq_true]
  refine exists_congr fun exempt => and_congr_right fun hexempt => ?_
  exact pathMatches_pathOf_iff (ne_nil_of_mem_publicRoutes hexempt) (by simp)

/-! ## Templates and their requests -/

namespace Template

/-- The first segment of every request of a route is `v1`. -/
theorem Instance.exists_rest {t : Template} {p : List Char} (h : t.Instance p) :
    ∃ rest, List.Forall₂ Fills t.rest rest ∧ p = pathOf (v1 :: rest) := by
  obtain ⟨cs, hfills, rfl⟩ := h
  rw [segments, List.forall₂_cons_left_iff] at hfills
  obtain ⟨c, rest, ⟨-, hc⟩, hrest, rfl⟩ := hfills
  have hv1 : ¬ v1.IsParam := by decide
  exact ⟨rest, hrest, by rw [hc.resolve_left hv1]⟩

/-- A segment that no public route has. -/
def fresh : Segment := ⟨"-".toList, by decide, by decide⟩

theorem fresh_not_mem {exempt : List Segment} (h : exempt ∈ publicRoutes) : fresh ∉ exempt := by
  revert exempt
  decide

/-- A segment of the request that shows that nothing but a parameter covers a parameter. -/
def fill (s : Segment) : Segment := if s.IsParam then fresh else s

theorem fills_fill (s : Segment) : Fills s (fill s) := by
  unfold fill
  split
  · rename_i hs
    exact ⟨by decide, .inl hs⟩
  · rename_i hs
    exact ⟨hs, .inr rfl⟩

/-- The request of a route whose parameters are all filled with the fresh segment. -/
def freshRequest (t : Template) : List Char := pathOf (v1 :: t.rest.map fill)

theorem instance_freshRequest (t : Template) : t.Instance t.freshRequest := by
  refine ⟨v1 :: t.rest.map fill, .cons ⟨by decide, .inr rfl⟩ ?_, rfl⟩
  rw [List.forall₂_map_right_iff, List.forall₂_same]
  exact fun s _ => fills_fill s

/-- A route that is covered has public requests only. -/
theorem requiresSignature_of_covers {t : Template} {exempt : List Segment}
    (hexempt : exempt ∈ publicRoutes) (h : Covers exempt t.segments) {p : List Char}
    (hp : t.Instance p) : requiresSignature p = false := by
  obtain ⟨rest, hrest, rfl⟩ := hp.exists_rest
  refine (requiresSignature_eq_false_iff rest).2 ⟨exempt, hexempt, ?_⟩
  have hfills : List.Forall₂ Fills t.segments (v1 :: rest) :=
    .cons ⟨by decide, .inr rfl⟩ hrest
  generalize v1 :: rest = cs at hfills
  unfold Covers at h
  generalize t.segments = segs at h hfills
  clear hexempt
  induction h generalizing cs with
  | nil =>
    cases hfills
    exact .nil
  | cons hps _ ih =>
    obtain ⟨c, cs', ⟨hc, hsc⟩, hrest', rfl⟩ := List.forall₂_cons_left_iff.1 hfills
    refine .cons ?_ (ih cs' hrest')
    rcases hps with hp | ⟨hs, rfl⟩
    · exact .inl hp
    · exact .inr (.inr (hsc.resolve_left hs).symm)

/-- A public request in fresh segments shows a public route that covers its template. -/
theorem covers_of_freshRequest {t : Template} (h : requiresSignature t.freshRequest = false) :
    ∃ exempt ∈ publicRoutes, Covers exempt t.segments := by
  obtain ⟨exempt, hexempt, hmatch⟩ := (requiresSignature_eq_false_iff _).1 h
  refine ⟨exempt, hexempt, ?_⟩
  have hfresh := fresh_not_mem hexempt
  have hsegs : v1 :: t.rest.map fill = t.segments.map fill := rfl
  rw [hsegs, List.forall₂_map_right_iff] at hmatch
  unfold Covers
  generalize t.segments = segs at hmatch
  clear hexempt hsegs h
  induction hmatch with
  | nil => exact .nil
  | @cons p s ps ss hps _ ih =>
    rw [List.mem_cons, not_or] at hfresh
    refine .cons ?_ (ih hfresh.2)
    rcases hps with hp | hs | heq
    · exact .inl hp
    · exact absurd hs (fills_fill s).1
    · unfold fill at heq
      split at heq
      · exact absurd heq.symm hfresh.1
      · rename_i hs
        exact .inr ⟨hs, heq⟩

end Template

/-- **The policy exempts no route whose requests it wants signed, exactly where some public route
covers the exempted template.** -/
theorem exemption_agrees_iff (t : Template) :
    (requiresSignature t.path = false → ∀ p, t.Instance p → requiresSignature p = false) ↔
      (requiresSignature t.path = false → ∃ exempt ∈ publicRoutes, Covers exempt t.segments) := by
  constructor
  · intro h ht
    exact Template.covers_of_freshRequest (h ht _ t.instance_freshRequest)
  · intro h ht p hp
    obtain ⟨exempt, hexempt, hcovers⟩ := h ht
    exact Template.requiresSignature_of_covers hexempt hcovers hp

/-- The server lets every request of a route `/v1/auth/{action}` through unsigned, since the
parameter matches the last word of `/v1/auth/status`; its request `/v1/auth/logout` has to be
signed. -/
theorem unsigned_action :
    requiresSignature "/v1/auth/{action}".toList = false ∧
      requiresSignature "/v1/auth/logout".toList = true ∧
      ∃ t : Template, t.path = "/v1/auth/{action}".toList ∧
        t.Instance "/v1/auth/logout".toList := by
  refine ⟨by decide, by decide, ⟨[⟨"auth".toList, by decide, by decide⟩,
    ⟨"{action}".toList, by decide, by decide⟩]⟩, by decide, ?_⟩
  refine ⟨[v1, ⟨"auth".toList, by decide, by decide⟩, ⟨"logout".toList, by decide, by decide⟩], ?_,
    by decide⟩
  exact .cons ⟨by decide, .inr rfl⟩
    (.cons ⟨by decide, .inr rfl⟩ (.cons ⟨by decide, .inl (by decide)⟩ .nil))

end Vouch.SigPolicy
