import GasSamples.Analysis.VaultSearch

/-!
# What the vault search depends on

The sweeps that a search records are all that it asks the world: another world that answers
them alike makes no difference.  The count of the layers makes none either, once a vault was
found, as long as it is not lowered.  Both are one argument about the two loops: a round
that ends on the way to the result is the same round in the other search.
-/

set_option autoImplicit false

namespace GasSamples.Analysis

open Reactive GasSamples.Model GasSamples.Program GasSamples.Program.CommitCheck

variable {K : Type} [Field K]

/-- The search in another world, with another count of the layers. -/
def elsewhere (x : VaultSearch K) (world : SphereTrace K) (count : K) : VaultSearch K :=
  { x with world := world, settings := { x.settings with horizontalTraceCount := count } }

/-- The world answers the sweeps as the world of the search does. -/
def AnswersAlike (x : VaultSearch K) (world : SphereTrace K) (sweeps : List (Sweep K)) : Prop :=
  ∀ s ∈ sweeps, world s.start s.stop s.radius = trace x s

section Answers

variable {x : VaultSearch K} {world : SphereTrace K} {count : K} {ss ts : List (Sweep K)}
  {s : Sweep K}

omit [Field K] in
/-- Worlds that answer a list of sweeps alike answer its first part alike. -/
theorem AnswersAlike.left (h : AnswersAlike x world (ss ++ ts)) : AnswersAlike x world ss :=
  fun s hs => h s (List.mem_append_left ts hs)

omit [Field K] in
/-- The sweep that was made last has the same answer elsewhere. -/
theorem AnswersAlike.trace_eq (h : AnswersAlike x world (ss ++ [s])) :
    trace (elsewhere x world count) s = trace x s :=
  h s (List.mem_append_right ss (List.mem_singleton.mpr rfl))

end Answers

variable [LinearOrder K] [SquareRoot K] (x : VaultSearch K) (world : SphereTrace K) (count : K)

/-! ## The horizontal loop -/

/-- A layer that was hit is the one below the counter, which is within the count. -/
def CountsLayers (s : HorizontalScan K) : Prop :=
  s.jumpToLocationIdx ≠ -1 →
    s.jumpToLocationIdx = (s.i : ℤ) - 1 ∧ (s.i : K) < x.settings.horizontalTraceCount

/-- A layer that was hit leaves the counter within the count. -/
def StopsWithin (s : HorizontalScan K) : Prop :=
  s.jumpToLocationIdx ≠ -1 → (s.i : K) < x.settings.horizontalTraceCount

/-- The sweeps at the end of a round. -/
def sweepsOf (outcome : HorizontalScan K ⊕ HorizontalScan K) : List (Sweep K) :=
  Sum.elim HorizontalScan.sweeps HorizontalScan.sweeps outcome

/-- A layer was hit, or the loop goes on within the count. -/
def FindsLayer : HorizontalScan K ⊕ HorizontalScan K → Prop
  | .inl s => s.jumpToLocationIdx ≠ -1 ∨ (s.i : K) < x.settings.horizontalTraceCount
  | .inr s => s.jumpToLocationIdx ≠ -1

/-- The answers were alike, and with another count a layer is found. -/
def OnTheWay (outcome : HorizontalScan K ⊕ HorizontalScan K) : Prop :=
  AnswersAlike x world (sweepsOf outcome) ∧
    (count = x.settings.horizontalTraceCount ∨ FindsLayer x outcome)

section Horizontal

variable {x} {world} {count} {s : HorizontalScan K}

/-- Below the count, the body sweeps the layer of its index. -/
theorem sweepsOf_horizontalBody (hi : (s.i : K) < x.settings.horizontalTraceCount) :
    sweepsOf (horizontalBody x s) = s.sweeps ++ [layer x s.i] := by
  unfold horizontalBody
  simp only [if_pos hi]
  split
  · split
    · rfl
    · split <;> rfl
  · split <;> rfl

variable [IsStrictOrderedRing K]

/-- The body keeps the index of a layer that was hit below its counter, or stops within the
count. -/
theorem countsLayers_horizontalBody (h : CountsLayers x s) :
    Sum.elim (CountsLayers x) (StopsWithin x) (horizontalBody x s) := by
  unfold horizontalBody
  by_cases hi : (s.i : K) < x.settings.horizontalTraceCount
  · simp only [if_pos hi]
    cases trace x (layer x s.i) with
    | none =>
      by_cases hidx : s.jumpToLocationIdx ≠ -1
      · simp only [if_pos hidx, Sum.elim_inr]
        exact fun _ => hi
      · simp only [if_neg hidx, Sum.elim_inl]
        exact fun hne => absurd hne hidx
    | some traceHit =>
      by_cases hfirst : s.jumpToLocationIdx = -1 ∧ (s.i : K) < x.settings.horizontalTraceCount - 1
      · simp only [if_pos hfirst, Sum.elim_inl]
        intro _
        have hbelow := hfirst.2
        refine ⟨by push_cast; omega, ?_⟩
        push_cast
        linarith
      · simp only [if_neg hfirst]
        by_cases hlast : s.jumpToLocationIdx = (s.i : ℤ) - 1
        · simp only [if_pos hlast, Sum.elim_inr]
          exact fun _ => hi
        · simp only [if_neg hlast, Sum.elim_inl]
          exact fun hne => absurd (h hne).1 hlast
  · simp only [if_neg hi, Sum.elim_inr]
    exact fun hne => (h hne).2

/-- A hit that finds a layer is not one of the topmost layer. -/
theorem below_of_findsLayer (hi : (s.i : K) < x.settings.horizontalTraceCount)
    (hnone : s.jumpToLocationIdx = -1) {traceHit : FHitResult K}
    (hhit : trace x (layer x s.i) = some traceHit) (h : FindsLayer x (horizontalBody x s)) :
    (s.i : K) < x.settings.horizontalTraceCount - 1 := by
  by_contra htop
  have hcond : ¬ (s.jumpToLocationIdx = -1 ∧ (s.i : K) < x.settings.horizontalTraceCount - 1) :=
    fun hfirst => htop hfirst.2
  unfold horizontalBody at h
  simp only [if_pos hi, hhit, if_neg hcond] at h
  by_cases hlast : s.jumpToLocationIdx = (s.i : ℤ) - 1
  · simp only [if_pos hlast, FindsLayer] at h
    exact h hnone
  · simp only [if_neg hlast, FindsLayer] at h
    have hnext := h.resolve_left (fun hne => hne hnone)
    push_cast at hnext
    exact htop (by linarith)

variable (hcount : x.settings.horizontalTraceCount ≤ count)
include hcount

/-- A round on the way to the result is the same round elsewhere. -/
theorem horizontalBody_elsewhere (h : CountsLayers x s)
    (hlive : OnTheWay x world count (horizontalBody x s)) :
    OnTheWay x world count (.inl s) ∧
      horizontalBody (elsewhere x world count) s = horizontalBody x s := by
  obtain ⟨hanswers, hfinds⟩ := hlive
  by_cases hi : (s.i : K) < x.settings.horizontalTraceCount
  · have hi' : (s.i : K) < (elsewhere x world count).settings.horizontalTraceCount :=
      lt_of_lt_of_le hi hcount
    rw [sweepsOf_horizontalBody hi] at hanswers
    have htrace : trace (elsewhere x world count) (layer (elsewhere x world count) s.i) =
        trace x (layer x s.i) := hanswers.trace_eq
    refine ⟨⟨hanswers.left, Or.inr (Or.inr hi)⟩, ?_⟩
    cases hhit : trace x (layer x s.i) with
    | none =>
      unfold horizontalBody
      simp only [if_pos hi, if_pos hi', htrace, hhit]
      rfl
    | some traceHit =>
      -- the two counts agree on whether the layer is a first one
      have hcond : (s.jumpToLocationIdx = -1 ∧
            (s.i : K) < (elsewhere x world count).settings.horizontalTraceCount - 1) ↔
          (s.jumpToLocationIdx = -1 ∧ (s.i : K) < x.settings.horizontalTraceCount - 1) := by
        refine and_congr_right fun hnone => ?_
        rcases hfinds with rfl | hfinds
        · rfl
        · have hbelow := below_of_findsLayer hi hnone hhit hfinds
          refine iff_of_true ?_ hbelow
          exact lt_of_lt_of_le hbelow (sub_le_sub_right hcount 1)
      unfold horizontalBody
      simp only [if_pos hi, if_pos hi', htrace, hhit, hcond]
      rfl
  · have hexits : horizontalBody x s = .inr s := by
      unfold horizontalBody
      rw [if_neg hi]
    rw [hexits] at hanswers hfinds ⊢
    rcases hfinds with rfl | hne
    · refine ⟨⟨hanswers, Or.inl rfl⟩, ?_⟩
      unfold horizontalBody
      exact if_neg hi
    · exact absurd (h hne).2 hi

omit [IsStrictOrderedRing K] in
/-- What follows the horizontal loop does not depend on the count, as long as the counter is
within it. -/
theorem afterHorizontal_elsewhere (h : StopsWithin x s) :
    afterHorizontal (elsewhere x world count) s = afterHorizontal x s := by
  unfold afterHorizontal
  by_cases hnone : s.jumpToLocationIdx = -1
  · rw [if_pos hnone, if_pos hnone]
    rfl
  · have hi := h hnone
    have hne : (s.i : K) ≠ x.settings.horizontalTraceCount := ne_of_lt hi
    have hne' : (s.i : K) ≠ (elsewhere x world count).settings.horizontalTraceCount :=
      ne_of_lt (lt_of_lt_of_le hi hcount)
    simp only [if_neg hnone, if_neg hne, if_neg hne']
    rfl

omit hcount [IsStrictOrderedRing K] in
/-- The vertical part starts after a hit. -/
theorem findsLayer_of_afterHorizontal {v : VerticalStart K} (h : afterHorizontal x s = .inr v) :
    s.jumpToLocationIdx ≠ -1 ∧ v.sweeps = s.sweeps := by
  unfold afterHorizontal at h
  by_cases hnone : s.jumpToLocationIdx = -1
  · rw [if_pos hnone] at h
    exact absurd h (by simp)
  · simp only [if_neg hnone] at h
    split at h
    · exact absurd h (by simp)
    · obtain rfl := Sum.inr.inj h
      exact ⟨hnone, rfl⟩

omit hcount [IsStrictOrderedRing K] in
/-- A search that ends before its vertical part fails. -/
theorem failed_of_afterHorizontal {r : SearchResult K} (h : afterHorizontal x s = .inl r) :
    r.passed = false ∧ r.sweeps = s.sweeps := by
  unfold afterHorizontal at h
  by_cases hnone : s.jumpToLocationIdx = -1
  · rw [if_pos hnone] at h
    obtain rfl := Sum.inl.inj h
    exact ⟨rfl, rfl⟩
  · simp only [if_neg hnone] at h
    split at h
    · obtain rfl := Sum.inl.inj h
      exact ⟨rfl, rfl⟩
    · exact absurd h (by simp)

/-- The way to the end of the horizontal loop is the same elsewhere. -/
theorem horizontalLoop_elsewhere {fuel : ℕ}
    (h : loop (horizontalBody x) fuel (horizontalInit x) = some s)
    (hlive : OnTheWay x world count (.inr s)) :
    (loop (horizontalBody (elsewhere x world count)) fuel
        (horizontalInit (elsewhere x world count))).map
          (afterHorizontal (elsewhere x world count)) = some (afterHorizontal x s) := by
  have hinit : CountsLayers x (horizontalInit x) := fun hne => absurd rfl hne
  have hwithin : StopsWithin x s :=
    inv_of_loop (Sum.elim (CountsLayers x) (StopsWithin x))
      (fun _ hs => countsLayers_horizontalBody hs) hinit h
  have hsame := (loop_of_live (horizontalBody (elsewhere x world count))
    (Sum.elim (CountsLayers x) (StopsWithin x)) (OnTheWay x world count)
    (fun _ hs => countsLayers_horizontalBody hs)
    (fun _ hs hlive => horizontalBody_elsewhere hcount hs hlive) hinit h hlive).1
  have hstart : horizontalInit (elsewhere x world count) = horizontalInit x := rfl
  rw [hstart, hsame, Option.map_some, afterHorizontal_elsewhere hcount hwithin]

end Horizontal

/-! ## The vertical loop -/

section Vertical

variable {x} {world} {v : VerticalStart K}

/-- The answers to the vertical sweeps were alike. -/
def ProbesAlike (x : VaultSearch K) (world : SphereTrace K)
    (outcome : VerticalScan K ⊕ VerticalScan K) : Prop :=
  AnswersAlike x world (Sum.elim VerticalScan.sweeps VerticalScan.sweeps outcome)

omit [SquareRoot K] in
/-- Where the answers are alike up to the next state, the body runs alike. -/
theorem verticalBody_elsewhere {s : VerticalScan K}
    (hlive : ProbesAlike x world (verticalBody x v s)) :
    ProbesAlike x world (.inl s) ∧
      verticalBody (elsewhere x world count) v s = verticalBody x v s := by
  have hreached : verticalTraceCount (elsewhere x world count) v = verticalTraceCount x v := rfl
  by_cases hi : (verticalTraceCount x v).atLeast s.i = true
  · have hanswers : AnswersAlike x world (s.sweeps ++ [probe x v s.i]) := by
      unfold ProbesAlike verticalBody at hlive
      simp only [if_pos hi] at hlive
      split at hlive
      · exact hlive
      · split at hlive <;> exact hlive
    have htrace : trace (elsewhere x world count) (probe (elsewhere x world count) v s.i) =
        trace x (probe x v s.i) := hanswers.trace_eq
    refine ⟨hanswers.left, ?_⟩
    unfold verticalBody
    simp only [hreached, if_pos hi, htrace]
    rfl
  · have hexits : verticalBody x v s = .inr s := by
      unfold verticalBody
      rw [if_neg hi]
    rw [hexits] at hlive ⊢
    refine ⟨hlive, ?_⟩
    unfold verticalBody
    rw [hreached, if_neg hi]

omit [LinearOrder K] [SquareRoot K] in
/-- Where the answers are alike in the end, what follows the loop runs alike. -/
theorem afterVertical_elsewhere {s : VerticalScan K}
    (hanswers : AnswersAlike x world (afterVertical x s).sweeps) :
    AnswersAlike x world s.sweeps ∧
      afterVertical (elsewhere x world count) s = afterVertical x s := by
  cases hset : s.jumpOverLocationSet with
  | false =>
    unfold afterVertical at hanswers ⊢
    simp only [hset, Bool.not_false, if_true] at hanswers ⊢
    exact ⟨hanswers, trivial⟩
  | true =>
    have hlast : AnswersAlike x world (s.sweeps ++ [refinement x s.jumpOverLocation]) := by
      unfold afterVertical at hanswers
      simp only [hset, Bool.not_true, Bool.false_eq_true, if_false] at hanswers
      split at hanswers <;> exact hanswers
    have htrace : trace (elsewhere x world count)
        (refinement (elsewhere x world count) s.jumpOverLocation) =
          trace x (refinement x s.jumpOverLocation) := hlast.trace_eq
    refine ⟨hlast.left, ?_⟩
    unfold afterVertical
    simp only [hset, Bool.not_true, Bool.false_eq_true, if_false, htrace]
    rfl

omit [SquareRoot K] in
/-- The vertical part is the same elsewhere, and its answers up to its start were alike. -/
theorem searchDown_elsewhere {fuel : ℕ} {r : SearchResult K} (h : searchDown x v fuel = some r)
    (hanswers : AnswersAlike x world r.sweeps) :
    searchDown (elsewhere x world count) v fuel = some r ∧ AnswersAlike x world v.sweeps := by
  obtain ⟨s, hloop, rfl⟩ := Option.map_eq_some_iff.mp h
  obtain ⟨hscan, hafter⟩ := afterVertical_elsewhere count hanswers
  obtain ⟨hsame, hstart⟩ := loop_of_live (verticalBody (elsewhere x world count) v)
    (fun _ => True) (ProbesAlike x world) (fun _ _ => trivial)
    (fun _ _ hlive => verticalBody_elsewhere count hlive) trivial hloop hscan
  have hinit : verticalInit (elsewhere x world count) v = verticalInit x v := rfl
  refine ⟨?_, hstart⟩
  unfold searchDown
  rw [hinit, hsame, Option.map_some, hafter]

end Vertical

/-- The search up to its vertical part is the same elsewhere. -/
theorem searchForward_elsewhere [IsStrictOrderedRing K] {fuel : ℕ}
    {searched : SearchResult K ⊕ VerticalStart K} (h : searchForward x fuel = some searched)
    (hanswers : AnswersAlike x world
      (Sum.elim SearchResult.sweeps VerticalStart.sweeps searched))
    (hle : x.settings.horizontalTraceCount ≤ count)
    (hcount : count = x.settings.horizontalTraceCount ∨ ∃ v, searched = .inr v) :
    searchForward (elsewhere x world count) fuel = some searched := by
  have hsuper : (elsewhere x world count).superCommitCheck = x.superCommitCheck := rfl
  have hvalid : (elsewhere x world count).characterValid = x.characterValid := rfl
  unfold searchForward at h ⊢
  rw [hsuper, hvalid]
  by_cases hrefused : (!x.superCommitCheck) = true
  · rw [if_pos hrefused] at h ⊢
    exact h
  · by_cases hnobody : (!x.characterValid) = true
    · rw [if_neg hrefused, if_pos hnobody] at h ⊢
      exact h
    · rw [if_neg hrefused, if_neg hnobody] at h ⊢
      obtain ⟨s, hloop, rfl⟩ := Option.map_eq_some_iff.mp h
      apply horizontalLoop_elsewhere hle hloop
      cases hafter : afterHorizontal x s with
      | inl r =>
        rw [hafter, Sum.elim_inl, (failed_of_afterHorizontal hafter).2] at hanswers
        rw [hafter] at hcount
        have hsame := hcount.resolve_right fun ⟨_, hv⟩ => absurd hv (by simp)
        exact ⟨hanswers, Or.inl hsame⟩
      | inr v =>
        obtain ⟨hfound, hsweeps⟩ := findsLayer_of_afterHorizontal hafter
        rw [hafter, Sum.elim_inr, hsweeps] at hanswers
        exact ⟨hanswers, Or.inr hfound⟩

/-- A search that returns from its first part has failed. -/
theorem failed_of_searchForward {fuel : ℕ} {r : SearchResult K}
    (h : searchForward x fuel = some (.inl r)) : r.passed = false := by
  unfold searchForward at h
  split at h
  · obtain rfl := Sum.inl.inj (Option.some.inj h)
    rfl
  · split at h
    · obtain rfl := Sum.inl.inj (Option.some.inj h)
      rfl
    · obtain ⟨s, -, hafter⟩ := Option.map_eq_some_iff.mp h
      exact (failed_of_afterHorizontal hafter).1

/-- **A search depends on the answers to its own sweeps only, and a vault that was found on
no higher layer.**  For every world, pose and setting and at every fuel: a search with a
result has the same result, with the same sweeps, in every other world that answers these
sweeps alike; and if it passed, also with any higher count of the layers.
SOURCE: AG_VaultOverAbility.cpp:19-152 -/
theorem commitCheck_elsewhere [IsStrictOrderedRing K] (fuel : ℕ) (r : SearchResult K)
    (h : commitCheck x fuel = some r) (hanswers : AnswersAlike x world r.sweeps)
    (hcount : count = x.settings.horizontalTraceCount ∨
      x.settings.horizontalTraceCount ≤ count ∧ r.passed = true) :
    commitCheck (elsewhere x world count) fuel = some r := by
  have hle : x.settings.horizontalTraceCount ≤ count :=
    hcount.elim (fun heq => le_of_eq heq.symm) And.left
  obtain ⟨searched, hforward, hrest⟩ := Option.bind_eq_some_iff.mp h
  unfold commitCheck
  cases searched with
  | inl result =>
    obtain rfl : result = r := Option.some.inj hrest
    have hsame := hcount.resolve_right fun hpassed =>
      absurd hpassed.2 (by simp [failed_of_searchForward x hforward])
    rw [searchForward_elsewhere x world count hforward hanswers hle (Or.inl hsame)]
    rfl
  | inr v =>
    obtain ⟨hdown, hstart⟩ := searchDown_elsewhere count hrest hanswers
    rw [searchForward_elsewhere x world count hforward hstart hle (Or.inr ⟨v, rfl⟩)]
    exact hdown

/-- The low wall, with a tower behind the character and a ceiling over the second layer. -/
def lowWallAndTower : SphereTrace ℚ := fun start stop radius =>
  if start.x < 0 ∨ 60 ≤ start.z then some ⟨start, start, ⟨-1, 0, 0⟩⟩
  else lowWall start stop radius

/-- The vault over the low wall is found beside the tower too, and with twelve layers. -/
theorem commitCheck_elsewhere_tower :
    ∃ r, commitCheck (searchIn (.default ℚ) lowWall) 10 = some r ∧
      commitCheck (elsewhere (searchIn (.default ℚ) lowWall) lowWallAndTower 12) 10 = some r := by
  have hsome : (commitCheck (searchIn (.default ℚ) lowWall) 10).isSome = true := by
    decide +kernel
  have hresult : ∀ r ∈ commitCheck (searchIn (.default ℚ) lowWall) 10,
      (∀ s ∈ r.sweeps, lowWallAndTower s.start s.stop s.radius =
        trace (searchIn (.default ℚ) lowWall) s) ∧ r.passed = true := by
    decide +kernel
  obtain ⟨r, hr⟩ := Option.isSome_iff_exists.mp hsome
  obtain ⟨hanswers, hpassed⟩ := hresult r hr
  exact ⟨r, hr, commitCheck_elsewhere _ lowWallAndTower 12 10 r hr hanswers
    (Or.inr ⟨by decide +kernel, hpassed⟩)⟩

/-- With one layer less than the first hit needs, the vault is not found. -/
example : ((commitCheck (elsewhere (searchIn (.default ℚ) lowWall) lowWall 1) 10).map
    fun r => r.passed) = some false := by
  decide +kernel

end GasSamples.Analysis
