import GasSamples.Analysis.VaultReach
import GasSamples.Analysis.TraversalResidue

/-!
# The search in the runs of the traversal

In the runs of the traversal a commit may come out in any way.  Here it comes out as
`CommitCheck` says, in some world: each attempt to vault makes the search from where the
character stands then.  Much may happen while the vault goes on, and the search is not
made again; so the warp targets of a running vault go back to the one attempt that started
it, and lie within reach of where that attempt was made.
-/

set_option autoImplicit false

namespace GasSamples.Analysis

open Reactive GasSamples.Model GasSamples.Program GasSamples.Program.CommitCheck

variable {K E C : Type} [Field K] [LinearOrder K] [SquareRoot K]

/-- `x` is a search that the character makes from where it stands, upright and in a world whose
hits are on the segments swept and touched by the sphere there; it returns `r`, and the commit
of the attempt is what it returns. -/
structure SearchOf (settings : VaultTraceSettings K) (w : GASCharacter K E C)
    (env : VaultActivation K) (x : VaultSearch K) (r : SearchResult K) : Prop where
  from_here : ∃ superCommitCheck upVector world,
    x = searchFrom settings superCommitCheck upVector world w
  upright : UprightSearch x
  touches : TouchesWhatItHits x.world
  returns : Returns (commitCheck x) r
  commit : env.commit = r.toCommitResult

/-- An attempt that is entered commits as a search says. -/
def Searches (settings : VaultTraceSettings K) (w : GASCharacter K E C) :
    AttemptEvent K → Prop
  | .vault (.activate env) => entersVault w env = true → ∃ x r, SearchOf settings w env x r
  | .vault .montageFinished => True
  | .vault .cancel => True
  | .wallRun _ => True
  | .jump _ => True
  | .other => True

/-- `e` is an attempt to vault from `w₀` whose search passed; the two warp targets of `w` are
what that search returned, with the rotation of `w₀`, and in reach from there if both were
written. -/
def TargetsFrom (settings : VaultTraceSettings K) (w₀ : GASCharacter K E C) (e : AttemptEvent K)
    (w : GASCharacter K E C) : Prop :=
  ∃ env, e = .vault (.activate env) ∧ (∃ x r, SearchOf settings w₀ env x r) ∧
    ∀ x r, SearchOf settings w₀ env x r → r.passed = true ∧
      w.warpTargets "JumpToLocation" = some ⟨r.jumpToLocation, w₀.actorRotation⟩ ∧
      w.warpTargets "JumpOverLocation" = some ⟨r.jumpOverLocation, w₀.actorRotation⟩ ∧
      (¬ LandsUnwritten x → ∃ k hit D M, FirstLayer x k hit ∧ Corridor x k hit D M ∧ D ≤ M ∧
        TargetsInReach x k D M r)

section Vault

variable [DecidableEq C] (c : VaultOverClass E C) {w : GASCharacter K E C}

omit [Field K] [LinearOrder K] [SquareRoot K] in
/-- The warp targets of a vault that begins are the members, with the actor's rotation. -/
theorem beginVault_warpTargets (hv : w.avatarValid = true) :
    (VaultOverAbility.beginVault c w).warpTargets "JumpToLocation" =
        some ⟨w.vault.jumpToLocation, w.actorRotation⟩ ∧
      (VaultOverAbility.beginVault c w).warpTargets "JumpOverLocation" =
        some ⟨w.vault.jumpOverLocation, w.actorRotation⟩ := by
  have hname : ("JumpToLocation" : String) ≠ "JumpOverLocation" := by decide
  simp only [VaultOverAbility.beginVault, hv, Bool.not_true, Bool.false_eq_true, if_false]
  constructor
  · simp only [GASCharacter.addOrUpdateWarpTarget, Function.update_of_ne hname,
      Function.update_self]
    rfl
  · simp only [GASCharacter.addOrUpdateWarpTarget, Function.update_self]
    rfl

omit [Field K] [LinearOrder K] [SquareRoot K] in
/-- A vault that starts registers the locations of its commit. -/
theorem warpTargets_starts (hv : w.avatarValid = true) {env : VaultActivation K}
    (hs : startsVault w (.activate env) = true) :
    (vaultStep c w (.activate env)).warpTargets "JumpToLocation" =
        some ⟨env.commit.jumpToLocation, w.actorRotation⟩ ∧
      (vaultStep c w (.activate env)).warpTargets "JumpOverLocation" =
        some ⟨env.commit.jumpOverLocation, w.actorRotation⟩ := by
  simp only [startsVault, Bool.and_eq_true] at hs
  obtain ⟨hentered, hpassed, hplays⟩ := hs
  have hv' : (committing c env w).avatarValid = true := hv
  rw [vaultStep_activate, if_pos hentered, activateAbility_of_passed c env w hpassed]
  simp only [hplays, if_true]
  exact beginVault_warpTargets c hv'

end Vault

section Runs

variable [DecidableEq C] [DecidableEq E] (c : TraversalClasses E C)
  {settings : VaultTraceSettings K} {w₀ w : GASCharacter K E C} {e : AttemptEvent K}

omit [SquareRoot K] in
/-- An event after which the vault is active has started it, or has left its part alone. -/
theorem active_after_attempt (hw : VaultSettled w)
    (hactive : (attemptStep c w e).vault.ability.isActive = true) :
    (∃ env, e = .vault (.activate env) ∧ startsVault w (.activate env) = true) ∨
      vaultPart (attemptStep c w e) = vaultPart w := by
  obtain ⟨hv, hcount, -⟩ := hw
  cases e with
  | vault e =>
    by_cases hs : startsVault w e = true
    · cases e with
      | activate env => exact Or.inl ⟨env, rfl, hs⟩
      | montageFinished => exact absurd hs (by simp [startsVault])
      | cancel => exact absurd hs (by simp [startsVault])
    · by_cases he : endsVault w e = true
      · have hended := vaultStep_ends c.vault hv hcount he
        rw [AbilityInstance.isActive_eq_true] at hactive
        exact absurd hended.activeCount (Nat.ne_of_gt hactive)
      · have hidle := vaultStep_idle c.vault (by simpa using hs) (by simpa using he)
        exact Or.inr (congrArg vaultPart hidle)
  | wallRun e => exact Or.inr (vaultPart_wallRunStep c.wallRun w e)
  | jump env => exact Or.inr (parts_jump c.jump env w).1
  | other => exact Or.inr rfl

omit [DecidableEq C] [DecidableEq E] in
/-- Whoever leaves the part of the vault alone keeps its targets. -/
theorem TargetsFrom.congr {w' : GASCharacter K E C} (h : TargetsFrom settings w₀ e w)
    (hpart : vaultPart w' = vaultPart w) : TargetsFrom settings w₀ e w' := by
  simp only [vaultPart, Prod.mk.injEq] at hpart
  unfold TargetsFrom
  rw [hpart.2.1]
  exact h

variable [IsStrictOrderedRing K] [FloorRing K]

/-- An attempt that starts a vault has searched for its targets. -/
theorem targetsFrom_start (hlength : 0 ≤ settings.horizontalTraceLenght)
    (hheight : 0 ≤ settings.horizontalTraceStep) (hradius : 0 ≤ settings.horizontalTraceRadius)
    (hstep : 0 < settings.verticalTraceStep) (hv : w.avatarValid = true)
    {env : VaultActivation K} (hs : startsVault w (.activate env) = true)
    (hsearch : Searches settings w (.vault (.activate env))) :
    TargetsFrom settings w (.vault (.activate env))
      (attemptStep c w (.vault (.activate env))) := by
  obtain ⟨hto, hover⟩ := warpTargets_starts c.vault hv hs
  simp only [startsVault, Bool.and_eq_true] at hs
  obtain ⟨hentered, hpassed, -⟩ := hs
  refine ⟨env, rfl, hsearch hentered, fun x r hx => ?_⟩
  obtain ⟨superCommitCheck, upVector, world, rfl⟩ := hx.from_here
  rw [hx.commit] at hto hover hpassed
  refine ⟨hpassed, hto, hover, fun hwritten => ?_⟩
  exact (Outcome.of_returns hx.returns).inReach hpassed hwritten hx.upright hx.touches hlength
    hheight hradius hstep

/-- **A running vault goes to where its own search found something.**  For every setting with
a non-negative length, step and radius of the layers and a positive step of the vertical
sweeps, and every run of jump presses over any list of abilities, capsule hits, ticks, moves,
montage callbacks and cancels in which each attempt to vault commits as `CommitCheck` returns,
with the character upright and in a world of its own that is touched where it hits: while the
vault is active, also after single attempts, the run contains the attempt that started it, the
vault has been active since, and the two warp targets are what the search of that attempt
returned, in reach from where it was made unless nothing was written to the second one.
SOURCE: AG_VaultOverAbility.cpp:19-196, AG_CharacterMovementComponent.cpp:16-31 -/
theorem runningVault_targets (settings : VaultTraceSettings K)
    (hlength : 0 ≤ settings.horizontalTraceLenght) (hheight : 0 ≤ settings.horizontalTraceStep)
    (hradius : 0 ≤ settings.horizontalTraceRadius) (hstep : 0 < settings.verticalTraceStep)
    (w : GASCharacter K E C) (hw : Settled w) (hinactive : w.vault.ability.isActive = false)
    (es : List (TraversalEvent K))
    (hes : EveryStep (attemptStep c) (Searches settings) w (attempts c w es))
    (pre : List (AttemptEvent K)) (hpre : pre <+: attempts c w es)
    (hactive : (run (attemptStep c) w pre).vault.ability.isActive = true) :
    ∃ before e after, pre = before ++ e :: after ∧
      (run (attemptStep c) w before).vault.ability.isActive = false ∧
      Always (attemptStep c) (fun w => w.vault.ability.isActive = true)
        (attemptStep c (run (attemptStep c) w before) e) after ∧
      TargetsFrom settings (run (attemptStep c) w before) e (run (attemptStep c) w pre) := by
  have hsteps : EveryStep (attemptStep c) (fun w e => QuietAttempt e ∧ Searches settings w e) w
      pre := by
    obtain ⟨rest, hrest⟩ := hpre
    have hquiet : ∀ e ∈ pre, QuietAttempt e := fun e he =>
      quiet_attempts c e (hrest ▸ List.mem_append_left rest he)
    rw [← hrest, everyStep_append] at hes
    exact hes.1.imp fun w e he hsearch => ⟨hquiet e he, hsearch⟩
  have hstart : ∀ (w : GASCharacter K E C) e, QuietAttempt e ∧ Searches settings w e → Settled w →
      ¬ w.vault.ability.isActive = true → (attemptStep c w e).vault.ability.isActive = true →
      TargetsFrom settings w e (attemptStep c w e) := by
    intro w e he hw hbefore hafter
    rcases active_after_attempt c hw.1 hafter with ⟨env, rfl, hs⟩ | hpart
    · exact targetsFrom_start c hlength hheight hradius hstep hw.1.1 hs he.2
    · have hvault : (attemptStep c w e).vault = w.vault := congrArg Prod.fst hpart
      rw [hvault] at hafter
      exact absurd hafter hbefore
  have hkeep : ∀ (w₀ : GASCharacter K E C) e₀ (w : GASCharacter K E C) e,
      QuietAttempt e ∧ Searches settings w e → Settled w →
      w.vault.ability.isActive = true → (attemptStep c w e).vault.ability.isActive = true →
      TargetsFrom settings w₀ e₀ w → TargetsFrom settings w₀ e₀ (attemptStep c w e) := by
    intro w₀ e₀ w e he hw hbefore hafter htargets
    rcases active_after_attempt c hw.1 hafter with ⟨env, rfl, hs⟩ | hpart
    · -- an active vault is not started again
      simp only [startsVault, entersVault, hbefore, Bool.not_true, Bool.false_and] at hs
      exact absurd hs (by simp)
    · exact htargets.congr hpart
  have hbefore : ¬ w.vault.ability.isActive = true := by
    rw [hinactive]
    exact Bool.false_ne_true
  obtain ⟨before, e, after, rfl, hout, hsince, htargets⟩ := phase_start Settled
    (fun w e he hw => settled_attemptStep c hw he.1) hstart hkeep hw hbefore hsteps hactive
  exact ⟨before, e, after, rfl, Bool.eq_false_of_not_eq_true hout, hsince, htargets⟩

end Runs

/-- An attempt to vault onto the ledge, with what the search returns there. -/
def ledgeAttempt : VaultActivation ℚ :=
  ⟨true, fun _ => .added, fun _ => .added, ⟨true, ⟨100, 0, 0⟩, ⟨160, 0, 0⟩⟩, true⟩

/-- A vault, during which the character is moved and turned, and hits something. -/
def movedDuringVault : List (TraversalEvent ℚ) :=
  [.jumpPress [.vault ledgeAttempt], .moved ⟨80, 0, 20⟩ ⟨0, 1, 0⟩ ⟨-1, 0, 0⟩,
    .capsuleHit (hitAttempt openSpace) .added]

/-- After the vault onto the ledge was started, and the character was moved and turned, the
targets are still those of the search at the start. -/
theorem runningVault_targets_movedDuringVault :
    ∃ before e after, attempts traversals walkingCharacter movedDuringVault = before ++ e :: after ∧
      (run (attemptStep traversals) walkingCharacter before).vault.ability.isActive = false ∧
      Always (attemptStep traversals) (fun w => w.vault.ability.isActive = true)
        (attemptStep traversals (run (attemptStep traversals) walkingCharacter before) e) after ∧
      TargetsFrom (.default ℚ) (run (attemptStep traversals) walkingCharacter before) e
        (run (attemptStep traversals) walkingCharacter
          (attempts traversals walkingCharacter movedDuringVault)) := by
  have hresting : Resting walkingCharacter := ⟨rfl, rfl, rfl, rfl, rfl, by decide, rfl, rfl, rfl⟩
  have hsearch : (commitCheck (searchFrom (.default ℚ) true ⟨0, 0, 1⟩ ledge walkingCharacter)
      8).map (fun r => (r.passed, r.jumpToLocation, r.jumpOverLocation)) =
        some (true, ⟨100, 0, 0⟩, ⟨160, 0, 0⟩) := by
    decide +kernel
  obtain ⟨r, hr, hvalues⟩ := Option.map_eq_some_iff.mp hsearch
  have hcommit : ledgeAttempt.commit = r.toCommitResult := by
    obtain ⟨⟨passed, jumpTo, jumpOver⟩, sweeps⟩ := r
    simp only [Prod.mk.injEq] at hvalues
    obtain ⟨rfl, rfl, rfl⟩ := hvalues
    rfl
  refine runningVault_targets traversals (.default ℚ) (by decide +kernel) (by decide +kernel)
    (by decide +kernel) (by decide +kernel) walkingCharacter hresting.settled rfl movedDuringVault
    ⟨fun _ => ⟨searchFrom (.default ℚ) true ⟨0, 0, 1⟩ ledge walkingCharacter, r,
      ⟨true, ⟨0, 0, 1⟩, ledge, rfl⟩, ⟨rfl, rfl, by decide +kernel⟩, touchesWhatItHits_ledge,
      commitCheck_returns hr, hcommit⟩, trivial, trivial, trivial⟩ _ (List.prefix_refl _)
    (by decide +kernel)

end GasSamples.Analysis
