import GasSamples.Analysis.VaultSearch
import GasSamples.Analysis.VaultOverAbility

/-!
# What the targets of a vault depend on

The search keeps its two targets in members of the ability.  Two searches are compared
here that start with different values in these members, left there by earlier searches:
they agree up to the vertical part, and the vertical part decides.
-/

set_option autoImplicit false

namespace GasSamples.Analysis

open Reactive GasSamples.Model GasSamples.Program GasSamples.Program.CommitCheck

variable {K : Type}

/-- Two results agree on the answer and, when it is yes, on the two targets. -/
structure SameTargets (r r' : SearchResult K) : Prop where
  passed : r.passed = r'.passed
  targets : r.passed = true →
    r.jumpToLocation = r'.jumpToLocation ∧ r.jumpOverLocation = r'.jumpOverLocation

/-- Two failures have the same targets, none. -/
theorem sameTargets_of_failed {r r' : SearchResult K} (hr : r.passed = false)
    (hr' : r'.passed = false) : SameTargets r r' :=
  ⟨hr.trans hr'.symm, fun hpassed => absurd (hr.symm.trans hpassed) (by simp)⟩

/-- Two results that pass have the same targets exactly if each of the two is the same. -/
theorem sameTargets_iff_of_passed {r r' : SearchResult K} {p q p' q' : FVector K}
    (hr : r.toCommitResult = ⟨true, p, q⟩) (hr' : r'.toCommitResult = ⟨true, p', q'⟩) :
    SameTargets r r' ↔ p = p' ∧ q = q' := by
  have hpassed : r.passed = true := congrArg CommitResult.passed hr
  have hpassed' : r'.passed = true := congrArg CommitResult.passed hr'
  have hto : r.jumpToLocation = p := congrArg CommitResult.jumpToLocation hr
  have hto' : r'.jumpToLocation = p' := congrArg CommitResult.jumpToLocation hr'
  have hover : r.jumpOverLocation = q := congrArg CommitResult.jumpOverLocation hr
  have hover' : r'.jumpOverLocation = q' := congrArg CommitResult.jumpOverLocation hr'
  constructor
  · intro h
    have htargets := h.targets hpassed
    rw [hto, hto', hover, hover'] at htargets
    exact htargets
  · rintro ⟨rfl, rfl⟩
    exact ⟨hpassed.trans hpassed'.symm, fun _ => ⟨hto.trans hto'.symm, hover.trans hover'.symm⟩⟩

/-! ## What an attempt registers -/

section Attempt

variable {E C : Type} [DecidableEq C]

/-- The warp targets after an attempt to vault with a given result of the search. -/
def registeredTargets (c : VaultOverClass E C) (env : VaultActivation K)
    (w : GASCharacter K E C) (r : SearchResult K) : String → Option (FMotionWarpingTarget K) :=
  (VaultOverAbility.tryActivateAbility c { env with commit := r.toCommitResult } w).2.warpTargets

variable (c : VaultOverClass E C) (env : VaultActivation K) (w : GASCharacter K E C)

/-- After a failed commit the warp targets are those from before, or without the two. -/
theorem activateAbility_warpTargets_of_failed (h : env.commit.passed = false) :
    (VaultOverAbility.activateAbility c env (VaultOverAbility.preActivate w)).warpTargets =
      if w.avatarValid then Function.update (Function.update w.warpTargets "JumpToLocation" none)
        "JumpOverLocation" none
      else w.warpTargets := by
  rw [activateAbility_of_failed c env w h]
  cases hv : w.avatarValid with
  | true =>
    rw [vaultEnd_warpTargets c (by rw [committing_avatarValid, hv]), committing_warpTargets]
    rfl
  | false =>
    simp only [VaultOverAbility.endAbility, committing_avatarValid, hv, Bool.not_false, if_true,
      committing_warpTargets, Bool.false_eq_true, if_false]

/-- Results with the same targets register the same warp targets. -/
theorem SameTargets.registeredTargets_eq {r r' : SearchResult K} (h : SameTargets r r') :
    registeredTargets c env w r = registeredTargets c env w r' := by
  unfold registeredTargets VaultOverAbility.tryActivateAbility
  by_cases hrefused : (w.vault.ability.isActive || !env.canActivate) = true
  · simp only [hrefused, if_true]
  · simp only [hrefused, Bool.false_eq_true, if_false]
    cases hpassed : r.passed with
    | true =>
      have htargets := h.targets hpassed
      have hresult : r.toCommitResult = r'.toCommitResult := by
        have hpassed' := h.passed
        cases hr : r.toCommitResult
        cases hr' : r'.toCommitResult
        simp_all
      rw [hresult]
    | false =>
      have hfailed : r'.passed = false := h.passed.symm.trans hpassed
      rw [activateAbility_warpTargets_of_failed c _ w hpassed,
        activateAbility_warpTargets_of_failed c _ w hfailed]

end Attempt

/-! ## Targets left over -/

section LeftOver

variable [Field K] [LinearOrder K] [SquareRoot K] (x : VaultSearch K)

/-- The same search, with other values left in the members. -/
def withLeftOver (jumpTo jumpOver : FVector K) : VaultSearch K :=
  { x with jumpToLocation := jumpTo, jumpOverLocation := jumpOver }

/-- The search passes at its second probe, and its first one finds nothing: then nothing
was written to `JumpOverLocation` before the last sweep. -/
def LandsUnwritten : Prop :=
  ∃ k hit, ReachesVertical x k hit ∧ trace x (probe x (verticalStart x k hit) 0) = none ∧
    FirstMiss x (verticalStart x k hit) 1

variable {x} {k m : ℕ} {hit : FHitResult K} {p q p' q' : FVector K}

/-- Whether the search gets to the vertical part does not depend on what was left over. -/
theorem reachesVertical_withLeftOver :
    ReachesVertical (withLeftOver x p q) k hit ↔ ReachesVertical x k hit :=
  ⟨fun h => ⟨⟨h.ready.1, h.ready.2⟩, ⟨h.first.hits, h.first.misses, h.first.below⟩, h.room⟩,
    fun h => ⟨⟨h.ready.1, h.ready.2⟩, ⟨h.first.hits, h.first.misses, h.first.below⟩, h.room⟩⟩

omit [SquareRoot K] in
/-- The first miss does not depend on what was left over. -/
theorem firstMiss_withLeftOver {v : VerticalStart K} :
    FirstMiss (withLeftOver x p q) v m ↔ FirstMiss x v m :=
  ⟨fun h => ⟨h.pos, h.reached, h.misses, h.hits⟩, fun h => ⟨h.pos, h.reached, h.misses, h.hits⟩⟩

omit [LinearOrder K] [SquareRoot K] in
/-- Once a probe hits, the edge does not depend on what was left over. -/
theorem edge_withLeftOver_of_hit {v : VerticalStart K}
    (hhit : (trace x (probe x v m)).isSome = true) :
    edge (withLeftOver x p q) v (m + 1) = edge (withLeftOver x p' q') v (m + 1) := by
  obtain ⟨hit, htrace⟩ := Option.isSome_iff_exists.mp hhit
  have htrace' : ∀ a b, trace (withLeftOver x a b) (probe (withLeftOver x a b) v m) = some hit :=
    fun _ _ => htrace
  simp only [edge, htrace', Option.map_some, Option.getD_some]

omit [SquareRoot K] in
/-- Unless both of the first two probes find nothing, what was left over is overwritten. -/
theorem edge_withLeftOver {v : VerticalStart K} (hmiss : FirstMiss x v m)
    (hwritten : m = 1 → (trace x (probe x v 0)).isSome = true) :
    edge (withLeftOver x p q) v m = edge (withLeftOver x p' q') v m := by
  obtain ⟨n, rfl⟩ : ∃ n, m = n + 1 := ⟨m - 1, by have hpos := hmiss.pos; omega⟩
  by_cases hzero : n = 0
  · subst hzero
    exact edge_withLeftOver_of_hit (hwritten rfl)
  · exact edge_withLeftOver_of_hit (hmiss.hits n (by omega) (by omega))

omit [LinearOrder K] [SquareRoot K] in
/-- If the first probe finds nothing, what was left over is still there at the second. -/
theorem edge_one_withLeftOver {v : VerticalStart K} (hnone : trace x (probe x v 0) = none) :
    edge (withLeftOver x p q) v 1 = q := by
  have htrace : trace (withLeftOver x p q) (probe (withLeftOver x p q) v 0) = none := hnone
  simp only [edge, htrace, Option.map_none, Option.getD_none]
  rfl

variable [FloorRing K]

/-- After a first miss only the edge depends on what was left over. -/
theorem commitResult_withLeftOver {r : SearchResult K} (h : Outcome (withLeftOver x p q) r)
    (hreach : ReachesVertical x k hit) (hmiss : FirstMiss x (verticalStart x k hit) m) :
    r.toCommitResult = ⟨true, landing x (verticalStart x k hit),
      refined x (edge (withLeftOver x p q) (verticalStart x k hit) m)⟩ :=
  h.commitResult_of_firstMiss (reachesVertical_withLeftOver.mpr hreach)
    (firstMiss_withLeftOver.mpr hmiss)

/-- Without a first miss in the vertical part the search fails, whatever was left over. -/
theorem passed_withLeftOver {r : SearchResult K} (h : Outcome (withLeftOver x p q) r)
    (hnone : ∀ k hit m, ReachesVertical x k hit → ¬ FirstMiss x (verticalStart x k hit) m) :
    r.passed = false :=
  h.passed_of_noMiss fun k hit m hreach hmiss =>
    hnone k hit m (reachesVertical_withLeftOver.mp hreach) (firstMiss_withLeftOver.mp hmiss)

/-- Two results of the same search, with different values left over. -/
theorem sameTargets_withLeftOver_iff {r r' : SearchResult K}
    (hr : Outcome (withLeftOver x p q) r) (hr' : Outcome (withLeftOver x p' q') r') :
    SameTargets r r' ↔ (LandsUnwritten x → refined x q = refined x q') := by
  by_cases hlands : ∃ k hit m, ReachesVertical x k hit ∧ FirstMiss x (verticalStart x k hit) m
  · obtain ⟨k, hit, m, hreach, hmiss⟩ := hlands
    rw [sameTargets_iff_of_passed (commitResult_withLeftOver hr hreach hmiss)
      (commitResult_withLeftOver hr' hreach hmiss), and_iff_right rfl]
    by_cases hunwritten : LandsUnwritten x
    · obtain ⟨k', hit', hreach', hnone, hone⟩ := id hunwritten
      obtain ⟨rfl, rfl⟩ := hreach.first.unique hreach'.first
      obtain rfl := hmiss.unique hone
      rw [edge_one_withLeftOver hnone, edge_one_withLeftOver hnone, imp_iff_right hunwritten]
    · have hwritten : m = 1 → (trace x (probe x (verticalStart x k hit) 0)).isSome = true := by
        rintro rfl
        by_contra hnone
        exact hunwritten ⟨k, hit, hreach, by simpa using hnone, hmiss⟩
      have hedge : edge (withLeftOver x p q) (verticalStart x k hit) m =
          edge (withLeftOver x p' q') (verticalStart x k hit) m :=
        edge_withLeftOver hmiss hwritten
      rw [hedge]
      exact iff_of_true rfl fun h => absurd h hunwritten
  · have hnone : ∀ k hit m, ReachesVertical x k hit →
        ¬ FirstMiss x (verticalStart x k hit) m :=
      fun k hit m hreach hmiss => hlands ⟨k, hit, m, hreach, hmiss⟩
    refine iff_of_true (sameTargets_of_failed (passed_withLeftOver hr hnone)
      (passed_withLeftOver hr' hnone)) ?_
    rintro ⟨k, hit, hreach, -, hone⟩
    exact absurd hone (hnone k hit 1 hreach)

variable [IsStrictOrderedRing K]

/-- **A vault uses targets left over by an earlier attempt exactly if it lands before
anything was written.**  For every world, pose and setting with a non-zero step of the
vertical sweeps, and every two pairs of values left in the two members: both searches
return, with one answer and, when it is yes, with the same targets, and every attempt
registers the same warp targets with the one as with the other, if and only if the search
does not pass with its second probe the first to find nothing after a first one that found
nothing, or the last sweeps back from the two values of `JumpOverLocation` end at the same
point.
SOURCE: AG_VaultOverAbility.cpp:106-152, 154-196 -/
theorem targets_fresh_iff (E C : Type) [DecidableEq C] (x : VaultSearch K)
    (hstep : x.settings.verticalTraceStep ≠ 0) (p q p' q' : FVector K) :
    (∃ r r', Returns (commitCheck (withLeftOver x p q)) r ∧
      Returns (commitCheck (withLeftOver x p' q')) r' ∧ SameTargets r r' ∧
      ∀ (c : VaultOverClass E C) (env : VaultActivation K) (w : GASCharacter K E C),
        registeredTargets c env w r = registeredTargets c env w r') ↔
      (LandsUnwritten x → refined x q = refined x q') := by
  obtain ⟨r, hr, houtcome⟩ := commitCheck_outcome_of_step (x := withLeftOver x p q) hstep
  obtain ⟨r', hr', houtcome'⟩ := commitCheck_outcome_of_step (x := withLeftOver x p' q') hstep
  rw [← sameTargets_withLeftOver_iff houtcome houtcome']
  constructor
  · rintro ⟨s, s', hs, hs', hsame, -⟩
    rw [hr.unique hs, hr'.unique hs']
    exact hsame
  · intro hsame
    exact ⟨r, r', hr, hr', hsame, fun c env w => hsame.registeredTargets_eq c env w⟩

end LeftOver

/-- At the low wall nothing left over is used. -/
theorem targets_fresh_lowWall :
    ∃ r r', Returns (commitCheck (withLeftOver (searchIn (.default ℚ) lowWall)
        ⟨0, 0, 0⟩ ⟨0, 0, 0⟩)) r ∧
      Returns (commitCheck (withLeftOver (searchIn (.default ℚ) lowWall)
        ⟨7, 7, 7⟩ ⟨9, 9, 9⟩)) r' ∧ SameTargets r r' ∧
      ∀ (c : VaultOverClass ℕ ℕ) (env : VaultActivation ℚ) (w : GASCharacter ℚ ℕ ℕ),
        registeredTargets c env w r = registeredTargets c env w r' := by
  refine (targets_fresh_iff ℕ ℕ (searchIn (.default ℚ) lowWall) (by decide +kernel)
    ⟨0, 0, 0⟩ ⟨0, 0, 0⟩ ⟨7, 7, 7⟩ ⟨9, 9, 9⟩).mpr ?_
  -- the first probe hits the top of the wall
  rintro ⟨k, hit, hreach, hnone, -⟩
  have hfirst := firstLayer_lowWall (.default ℚ) (by decide +kernel) (by decide +kernel)
  obtain ⟨rfl, rfl⟩ := hfirst.unique hreach.first
  exact absurd hnone (by decide +kernel)

/-- A wall at 100, lower than the second layer, and with nothing below any probe. -/
def thinWall : SphereTrace ℚ := fun start stop _ =>
  if start.z = 0 ∧ start.x < stop.x then some ⟨⟨100, 0, 0⟩, ⟨100, 0, 0⟩, ⟨-1, 0, 0⟩⟩
  else none

/-- Over the thin wall the search passes with the edge of an earlier attempt. -/
theorem not_targets_fresh_thinWall :
    ¬ ∃ r r', Returns (commitCheck (withLeftOver (searchIn (.default ℚ) thinWall)
        ⟨0, 0, 0⟩ ⟨0, 0, 0⟩)) r ∧
      Returns (commitCheck (withLeftOver (searchIn (.default ℚ) thinWall)
        ⟨0, 0, 0⟩ ⟨900, 0, 0⟩)) r' ∧ SameTargets r r' := by
  rintro ⟨r, r', hr, hr', hsame⟩
  rw [sameTargets_withLeftOver_iff (Outcome.of_returns hr) (Outcome.of_returns hr')] at hsame
  have hfirst : FirstLayer (searchIn (.default ℚ) thinWall) 0
      ⟨⟨100, 0, 0⟩, ⟨100, 0, 0⟩, ⟨-1, 0, 0⟩⟩ :=
    ⟨by decide +kernel, fun j hj => absurd hj (Nat.not_lt_zero j), by decide +kernel⟩
  have hreach : ReachesVertical (searchIn (.default ℚ) thinWall) 0
      ⟨⟨100, 0, 0⟩, ⟨100, 0, 0⟩, ⟨-1, 0, 0⟩⟩ := ⟨⟨rfl, rfl⟩, hfirst, by decide +kernel⟩
  have hedges := hsame ⟨0, _, hreach, by decide +kernel, Nat.le_refl 1, by decide +kernel,
    by decide +kernel, fun j hj hless => absurd hless (by omega)⟩
  exact absurd hedges (by decide +kernel)

end GasSamples.Analysis
