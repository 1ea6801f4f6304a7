import GasSamples.Reactive.Run
import GasSamples.Model.WallRunSession
import GasSamples.Program.WallRunAbility
import GasSamples.Analysis.BaseGameplayAbility

/-!
# The wall-run ability follows the session machine

`sessionOf` forgets everything but the session.  Each event of the ability is one event
of the session machine or none (`wallRunView`), and `follows_wallRunStep` says that the
ability follows it.

The calls out of the task are handled by `CallsEnd`: such a call either leaves the
session alone or ends it.  Calls compose (`CallsEnd.comp`) because ending a session twice
is ending it once.
-/

set_option autoImplicit false

namespace GasSamples.Analysis

open Reactive GasSamples.Model GasSamples.Program

variable {K E C : Type}

/-- The session of a character. -/
def sessionOf (w : GASCharacter K E C) : Session K where
  movement := w.movement
  running := w.wallRun.liveTask.map fun t => ⟨t.id, t.side⟩
  tasksCreated := w.tasksCreated
  taskLog := w.taskLog

/-- The ability is active while its task is live. -/
def WallRunSettled (w : GASCharacter K E C) : Prop :=
  w.wallRun.ability.activeCount = if (sessionOf w).running.isSome then 1 else 0

/-- The ability is active while its task is live, and the task has accepted a wall. -/
def OnWall (w : GASCharacter K E C) : Prop :=
  WallRunSettled w ∧ ∀ r, (sessionOf w).running = some r → r.side.isSome = true

/-- What the wall run leaves alone. -/
def SameVault (w w' : GASCharacter K E C) : Prop :=
  w'.vault = w.vault ∧ w'.avatarValid = w.avatarValid

/-- Two calls that leave the vault alone, one after the other. -/
theorem SameVault.trans {w w' w'' : GASCharacter K E C} (h : SameVault w w')
    (h' : SameVault w' w'') : SameVault w w'' :=
  ⟨h'.1.trans h.1, h'.2.trans h.2⟩

/-! ## Reading the session -/

/-- Nothing runs in the session exactly if no task is live. -/
theorem sessionOf_running_eq_none {w : GASCharacter K E C} :
    (sessionOf w).running = none ↔ w.wallRun.liveTask = none := by
  simp [sessionOf]

/-- An inactive ability without a live task is settled, and on no wall. -/
theorem onWall_idle {w : GASCharacter K E C} (hinactive : w.wallRun.ability.activeCount = 0)
    (hidle : w.wallRun.liveTask = none) : OnWall w := by
  have hrun : (sessionOf w).running = none := sessionOf_running_eq_none.mpr hidle
  refine ⟨?_, fun r hr => absurd (hrun.symm.trans hr) (by simp)⟩
  unfold WallRunSettled
  rw [hrun, hinactive]
  rfl

/-- In a settled character the ability is active exactly if a task runs. -/
theorem WallRunSettled.isActive {w : GASCharacter K E C} (h : WallRunSettled w) :
    w.wallRun.ability.isActive = (sessionOf w).running.isSome := by
  unfold WallRunSettled at h
  cases hr : (sessionOf w).running <;> simp [AbilityInstance.isActive, h, hr]

/-- A live task is the one that `WallRunTickTask` points to, and it is not finished. -/
theorem liveTask_eq_some {s : WallRunState} {t : WallRunTask} :
    s.liveTask = some t ↔ s.wallRunTickTask = some t ∧ t.finished = false := by
  simp [WallRunState.liveTask, Option.filter_eq_some_iff]

/-- Accepting a side is accepting a wall in the session. -/
theorem sessionOf_accept (side : WallSide) (w : GASCharacter K E C) :
    sessionOf (TickWallRun.accept side w) = (sessionOf w).accepted side := by
  simp only [sessionOf, TickWallRun.accept, TickWallRun.updateTask, Session.accepted,
    WallRunState.liveTask]
  congr 1
  cases w.wallRun.wallRunTickTask with
  | none => rfl
  | some t => cases hf : t.finished <;> simp [Option.filter, hf]

section Ending

variable [Field K]

/-- Ending the task ends the session. -/
theorem sessionOf_endTask (w : GASCharacter K E C) :
    sessionOf (TickWallRun.endTask w) = (sessionOf w).ended := by
  cases hl : w.wallRun.liveTask with
  | none =>
    have hnone : (sessionOf w).running = none := sessionOf_running_eq_none.mpr hl
    rw [Session.ended_of_none hnone]
    simp only [TickWallRun.endTask, hl]
  | some t =>
    obtain ⟨ht, hf⟩ := liveTask_eq_some.mp hl
    simp only [TickWallRun.endTask, TickWallRun.onDestroy, TickWallRun.updateTask,
      TickWallRun.writeMovement, sessionOf, Session.ended, hl, Option.map_some]
    simp [WallRunState.liveTask, ht, Session.destroyLog]

/-- Ending the task leaves the vault alone. -/
theorem sameVault_endTask (w : GASCharacter K E C) : SameVault w (TickWallRun.endTask w) := by
  unfold TickWallRun.endTask
  split <;> exact ⟨rfl, rfl⟩

/-- Ending the task leaves the ability's instance as it is. -/
@[simp] theorem endTask_ability (w : GASCharacter K E C) :
    (TickWallRun.endTask w).wallRun.ability = w.wallRun.ability := by
  unfold TickWallRun.endTask
  split <;> rfl

/-- Attaching to a wall attaches the session. -/
theorem sessionOf_attach (task : ℕ) (hit : FHitResult K) (w : GASCharacter K E C) :
    sessionOf (TickWallRun.attach task hit w) = (sessionOf w).attached task := by
  simp [sessionOf, TickWallRun.attach, TickWallRun.writeMovement, TickWallRun.setActorLocation,
    Session.attached, Session.attachLog]

/-- A tick of the live task steers the session. -/
theorem sessionOf_steer {t : WallRunTask} {w : GASCharacter K E C}
    (ht : w.wallRun.liveTask = some t) (left : Bool) (hit : FHitResult K) :
    sessionOf (TickWallRun.steer t.id left hit w) =
      (sessionOf w).steered (TickWallRun.wallRunVelocity left hit) hit.impactPoint
        hit.impactNormal := by
  simp [sessionOf, TickWallRun.steer, TickWallRun.writeMovement, Session.steered,
    Session.steerLog, ht]

end Ending

/-! ## Calls that may end the ability -/

section Calls

variable [Field K]

/-- What a call that ends the ability, or does not, does to the session. -/
structure CallsEnd (ends : Bool) (f : GASCharacter K E C → GASCharacter K E C) : Prop where
  session : ∀ w, WallRunSettled w →
    sessionOf (f w) = if ends then (sessionOf w).ended else sessionOf w
  settled : ∀ w, WallRunSettled w → WallRunSettled (f w)
  sameVault : ∀ w, SameVault w (f w)

/-- Two calls, one after the other, end the session if one of them does. -/
theorem CallsEnd.comp {e e' : Bool} {f g : GASCharacter K E C → GASCharacter K E C}
    (hf : CallsEnd e f) (hg : CallsEnd e' g) : CallsEnd (e || e') fun w => g (f w) where
  session w hw := by
    rw [hg.session _ (hf.settled w hw), hf.session w hw]
    cases e <;> cases e' <;> simp
  settled w hw := hg.settled _ (hf.settled w hw)
  sameVault w := (hf.sameVault w).trans (hg.sameVault _)

/-- A call that is made or not. -/
theorem CallsEnd.ite {f : GASCharacter K E C → GASCharacter K E C} (hf : CallsEnd true f)
    (made : Bool) : CallsEnd made fun w => if made then f w else w := by
  cases made with
  | false => exact ⟨fun _ _ => rfl, fun _ h => h, fun _ => ⟨rfl, rfl⟩⟩
  | true => exact hf

/-- A change of the active effects. -/
theorem callsEnd_asc (f : GASCharacter K E C → AbilitySystem E) :
    CallsEnd false fun w : GASCharacter K E C => { w with asc := f w } :=
  ⟨fun _ _ => rfl, fun _ h => h, fun _ => ⟨rfl, rfl⟩⟩

variable [DecidableEq E] (c : WallRunClass E)

/-- The end of the ability ends the session. -/
theorem sessionOf_endAbility (w : GASCharacter K E C) :
    sessionOf (WallRunAbility.endAbility c w) = (sessionOf w).ended :=
  sessionOf_endTask w

/-- The end of the ability ends one activation. -/
theorem wallRunEnd_activeCount (w : GASCharacter K E C) :
    (WallRunAbility.endAbility c w).wallRun.ability.activeCount =
      w.wallRun.ability.activeCount - 1 := by
  simp [WallRunAbility.endAbility, WallRunAbility.setBaseState, WallRunAbility.baseState,
    WallRunAbility.removeSideEffects]

/-- `EndAbility` ends the session. -/
theorem callsEnd_endAbility : CallsEnd true (WallRunAbility.endAbility (K := K) (C := C) c) where
  session w _ := sessionOf_endAbility c w
  settled w hw := by
    unfold WallRunSettled at hw ⊢
    rw [sessionOf_endAbility, wallRunEnd_activeCount, hw, Session.ended_running]
    cases (sessionOf w).running <;> rfl
  sameVault w := sameVault_endTask w

/-- The application of the side effect ends the ability. -/
def sideEffectEnds (effect : Option E) (call : ApplyCall) : Bool :=
  effect.isSome && decide (call.outcome ≠ .invalidSpec) && call.ends

/-- The application of a side effect ends the session if the script says so. -/
theorem callsEnd_apply (effect : Option E) (call : ApplyCall) :
    CallsEnd (sideEffectEnds effect call) fun w : GASCharacter K E C =>
      (AGASCharacter.applyGameplayEffectToSelf (WallRunAbility.endAbility c) effect call w).2 := by
  cases effect with
  | none => exact ⟨fun _ _ => rfl, fun _ h => h, fun _ => ⟨rfl, rfl⟩⟩
  | some effect =>
    by_cases hspec : call.outcome = .invalidSpec
    · simp only [AGASCharacter.applyGameplayEffectToSelf, hspec, if_true, sideEffectEnds]
      exact ⟨fun _ _ => rfl, fun _ h => h, fun _ => ⟨rfl, rfl⟩⟩
    · have hbefore := (callsEnd_endAbility (K := K) (C := C) c).ite call.endsBefore
      have hafter := (callsEnd_endAbility (K := K) (C := C) c).ite call.endsAfter
      have happly := callsEnd_asc fun w : GASCharacter K E C =>
        (w.asc.applyGameplayEffectSpecToSelf effect call.outcome).2
      have h := (hbefore.comp happly).comp hafter
      simpa [AGASCharacter.applyGameplayEffectToSelf, hspec, sideEffectEnds, ApplyCall.ends]
        using h

/-- The landing ends the session if one of its calls does. -/
theorem callsEnd_landed (superEnds removalEnds : Bool) :
    CallsEnd (superEnds || removalEnds) (AGASCharacter.landed (K := K) (C := C)
      (WallRunAbility.endAbility c) c.inAirTags superEnds removalEnds) := by
  have hsuper := (callsEnd_endAbility (K := K) (C := C) c).ite superEnds
  have hremoval := (callsEnd_endAbility (K := K) (C := C) c).ite removalEnds
  have hair := callsEnd_asc fun w : GASCharacter K E C =>
    w.asc.removeActiveEffectsWithTags c.inAirTags
  have h := (hsuper.comp hair).comp hremoval
  rw [Bool.or_false] at h
  exact h

/-- The class of the side effect. -/
def sideClass : WallSide → Option E
  | .left => c.wallRunLeftSideEffectClass
  | .right => c.wallRunRightSideEffectClass

/-- Some call out of a task that found a wall on this side ends the ability. -/
def callbacksEnd (callbacks : TaskCallbacks) (side : WallSide) : Bool :=
  (sideEffectEnds (sideClass c side) callbacks.sideEffect || callbacks.listenerEnds) ||
    (callbacks.superLandedEnds || callbacks.removalEnds)

omit [DecidableEq E] in
/-- Quiet callbacks end nothing. -/
theorem callbacksEnd_quiet (outcome : ApplyOutcome) (side : WallSide) :
    callbacksEnd c (.quiet outcome) side = false := by
  simp [callbacksEnd, sideEffectEnds, TaskCallbacks.quiet, ApplyCall.quiet, ApplyCall.ends]

/-- The callbacks end the session if the script says so. -/
theorem callsEnd_callbacks (callbacks : TaskCallbacks) (side : WallSide) :
    CallsEnd (callbacksEnd c callbacks side) fun w : GASCharacter K E C =>
      (WallRunAbility.delegates c callbacks).landed
        ((WallRunAbility.delegates c callbacks).onWallSideDetermened
          (decide (side = .left)) w) := by
  have hlistener := (callsEnd_endAbility (K := K) (C := C) c).ite callbacks.listenerEnds
  have hside : CallsEnd (sideEffectEnds (sideClass c side) callbacks.sideEffect ||
      callbacks.listenerEnds) (WallRunAbility.onWallSideDetermened (K := K) (C := C) c callbacks
        (decide (side = .left))) := by
    have happly := callsEnd_apply (K := K) (C := C) c (sideClass c side) callbacks.sideEffect
    have h := happly.comp hlistener
    cases side <;> exact h
  exact hside.comp (callsEnd_landed c callbacks.superLandedEnds callbacks.removalEnds)

omit c in
/-- What relates an end of the ability to an end of the ability, and a change of the effects to
itself, relates the calls out of a task to those out of another one. -/
theorem callbacks_related {R : (GASCharacter K E C → GASCharacter K E C) →
      (GASCharacter K E C → GASCharacter K E C) → Prop}
    (hid : R id id) (hcomp : ∀ f f' h h', R f f' → R h h' → R (h ∘ f) (h' ∘ f'))
    (hasc : ∀ change : AbilitySystem E → AbilitySystem E,
      R (fun w => { w with asc := change w.asc }) fun w => { w with asc := change w.asc })
    {c c' : WallRunClass E} (hend : R (WallRunAbility.endAbility c) (WallRunAbility.endAbility c'))
    (hair : c'.inAirTags = c.inAirTags) {leftSide leftSide' : Bool}
    (hside : (if leftSide' then c'.wallRunLeftSideEffectClass else c'.wallRunRightSideEffectClass) =
      if leftSide then c.wallRunLeftSideEffectClass else c.wallRunRightSideEffectClass)
    (callbacks : TaskCallbacks) :
    R (fun w => (WallRunAbility.delegates c callbacks).landed
        ((WallRunAbility.delegates c callbacks).onWallSideDetermened leftSide w))
      (fun w => (WallRunAbility.delegates c' callbacks).landed
        ((WallRunAbility.delegates c' callbacks).onWallSideDetermened leftSide' w)) := by
  have hmade : ∀ made : Bool, R (fun w => if made then WallRunAbility.endAbility c w else w)
      (fun w => if made then WallRunAbility.endAbility c' w else w) := by
    intro made
    cases made with
    | false => exact hid
    | true => exact hend
  have happly : ∀ effect : Option E,
      R (fun w => (AGASCharacter.applyGameplayEffectToSelf (WallRunAbility.endAbility c) effect
          callbacks.sideEffect w).2)
        (fun w => (AGASCharacter.applyGameplayEffectToSelf (WallRunAbility.endAbility c') effect
          callbacks.sideEffect w).2) := by
    intro effect
    cases effect with
    | none => exact hid
    | some effect =>
      unfold AGASCharacter.applyGameplayEffectToSelf
      by_cases hspec : callbacks.sideEffect.outcome = .invalidSpec
      · simp only [if_pos hspec]
        exact hid
      · simp only [if_neg hspec]
        have happlied := hasc fun asc => (asc.applyGameplayEffectSpecToSelf effect
          callbacks.sideEffect.outcome).2
        exact hcomp _ _ _ _ (hcomp _ _ _ _ (hmade callbacks.sideEffect.endsBefore) happlied)
          (hmade callbacks.sideEffect.endsAfter)
  have hdetermined := hcomp _ _ _ _ (happly (if leftSide then c.wallRunLeftSideEffectClass
    else c.wallRunRightSideEffectClass)) (hmade callbacks.listenerEnds)
  have hremoved := hasc fun asc => asc.removeActiveEffectsWithTags c.inAirTags
  have hlanded := hcomp _ _ _ _ (hcomp _ _ _ _ (hmade callbacks.superLandedEnds) hremoved)
    (hmade callbacks.removalEnds)
  unfold WallRunAbility.delegates WallRunAbility.onWallSideDetermened
  simp only [hside, hair]
  exact hcomp _ _ _ _ hdetermined hlanded

omit c in
/-- What holds of an end of the ability, of a change of the effects, and of one call after
another holds of the calls out of a task. -/
theorem callbacks_of_parts {P : (GASCharacter K E C → GASCharacter K E C) → Prop} (hid : P id)
    (hcomp : ∀ f g, P f → P g → P (g ∘ f))
    (hasc : ∀ change : AbilitySystem E → AbilitySystem E,
      P fun w => { w with asc := change w.asc })
    {c : WallRunClass E} (hend : P (WallRunAbility.endAbility c)) (callbacks : TaskCallbacks)
    (leftSide : Bool) :
    P fun w => (WallRunAbility.delegates c callbacks).landed
      ((WallRunAbility.delegates c callbacks).onWallSideDetermened leftSide w) := by
  have hside : (if leftSide then c.wallRunLeftSideEffectClass else c.wallRunRightSideEffectClass) =
      if leftSide then c.wallRunLeftSideEffectClass else c.wallRunRightSideEffectClass := rfl
  exact callbacks_related (R := fun f _ => P f) hid (fun f _ g _ hf hg => hcomp f g hf hg) hasc
    hend rfl hside callbacks

omit [DecidableEq E] c in
/-- The end of a body that found no wall does what its parts do. -/
theorem semiconj_finish {F : GASCharacter K E C → GASCharacter K E C}
    (hend : Function.Semiconj F TickWallRun.endTask TickWallRun.endTask)
    (hactive : ∀ w, (F w).wallRun.ability.isActive = w.wallRun.ability.isActive)
    {onFinished onFinished' : GASCharacter K E C → GASCharacter K E C}
    (h : Function.Semiconj F onFinished onFinished') :
    Function.Semiconj F (TickWallRun.finish onFinished) (TickWallRun.finish onFinished') := by
  intro w
  unfold TickWallRun.finish
  rw [hend, hactive]
  split
  · rw [h w]
  · rfl

end Calls

/-! ## The search for a wall -/

section Search

variable [Field K] [LinearOrder K] [IsStrictOrderedRing K]

/-- The trace from the character over some length in a direction. -/
def traceTo (lineTrace : LineTrace K) (w : GASCharacter K E C) (length : K)
    (direction : FVector K) : Option (FHitResult K) :=
  lineTrace w.actorLocation (w.actorLocation + length • direction)

omit [IsStrictOrderedRing K] in
/-- The search gives up if something is ahead, and else takes the hit to the left if it
passes its test, and then the one to the right. -/
theorem findRunnableWall_eq (lineTrace : LineTrace K) (w : GASCharacter K E C) :
    TickWallRun.findRunnableWall lineTrace w =
      if (traceTo lineTrace w (w.capsuleRadius + 30) w.forwardVector).isSome then none
      else (((traceTo lineTrace w (w.capsuleRadius + 30) (-w.rightVector)).filter fun hit =>
          decide (FVector.dotProduct hit.impactNormal w.rightVector > 3 / 10)).map
            (Prod.mk WallSide.left)).or
        (((traceTo lineTrace w (w.capsuleRadius + 30) w.rightVector).filter fun hit =>
          decide (FVector.dotProduct hit.impactNormal (-w.rightVector) > 3 / 10)).map
            (Prod.mk WallSide.right)) := by
  have htest : ∀ (trace : Option (FHitResult K)) (side : WallSide) (v : FVector K),
      (trace.filter fun hit => decide (FVector.dotProduct hit.impactNormal v > 3 / 10)).map
          (Prod.mk side) =
        trace.bind fun hit =>
          if FVector.dotProduct hit.impactNormal v > 3 / 10 then some (side, hit) else none := by
    intro trace side v
    cases trace with
    | none => rfl
    | some hit =>
      by_cases hdot : FVector.dotProduct hit.impactNormal v > 3 / 10
      · simp [Option.filter, hdot]
      · simp [Option.filter, hdot]
  rw [htest, htest]
  unfold TickWallRun.findRunnableWall traceTo
  simp only []
  generalize lineTrace w.actorLocation
    (w.actorLocation + (w.capsuleRadius + 30) • w.rightVector) = right
  cases lineTrace w.actorLocation
      (w.actorLocation + (w.capsuleRadius + 30) • w.forwardVector) with
  | some ahead => rfl
  | none =>
    cases lineTrace w.actorLocation
        (w.actorLocation + (w.capsuleRadius + 30) • -w.rightVector) with
    | none => cases right <;> rfl
    | some left =>
      by_cases hdot : FVector.dotProduct left.impactNormal w.rightVector > 3 / 10
      · simp [hdot]
      · -- the left hit is refused: the right trace decides
        cases right <;> simp [hdot]

omit [IsStrictOrderedRing K] in
/-- The search finds a wall exactly if nothing is ahead and the trace to the left passes its
test or, failing that, the one to the right. -/
theorem findRunnableWall_eq_some_iff {lineTrace : LineTrace K} {w : GASCharacter K E C}
    {side : WallSide} {hit : FHitResult K} :
    TickWallRun.findRunnableWall lineTrace w = some (side, hit) ↔
      traceTo lineTrace w (w.capsuleRadius + 30) w.forwardVector = none ∧
      ((side = .left ∧ traceTo lineTrace w (w.capsuleRadius + 30) (-w.rightVector) = some hit ∧
          FVector.dotProduct hit.impactNormal w.rightVector > 3 / 10) ∨
        (side = .right ∧
          (∀ hit', traceTo lineTrace w (w.capsuleRadius + 30) (-w.rightVector) = some hit' →
            ¬ FVector.dotProduct hit'.impactNormal w.rightVector > 3 / 10) ∧
          traceTo lineTrace w (w.capsuleRadius + 30) w.rightVector = some hit ∧
          FVector.dotProduct hit.impactNormal (-w.rightVector) > 3 / 10)) := by
  rw [findRunnableWall_eq]
  cases traceTo lineTrace w (w.capsuleRadius + 30) w.forwardVector with
  | some ahead => simp
  | none =>
    simp only [Option.isSome_none, Bool.false_eq_true, if_false, true_and,
      Option.or_eq_some_iff, Option.map_eq_some_iff, Option.filter_eq_some_iff,
      Option.map_eq_none_iff, Option.filter_eq_none_iff, decide_eq_true_eq, Prod.mk.injEq]
    constructor
    · rintro (⟨hit', ⟨htrace, hdot⟩, rfl, rfl⟩ | ⟨hrefused, hit', ⟨htrace, hdot⟩, rfl, rfl⟩)
      · exact Or.inl ⟨rfl, htrace, hdot⟩
      · exact Or.inr ⟨rfl, hrefused, htrace, hdot⟩
    · rintro (⟨rfl, htrace, hdot⟩ | ⟨rfl, hrefused, htrace, hdot⟩)
      · exact Or.inl ⟨hit, ⟨htrace, hdot⟩, rfl, rfl⟩
      · exact Or.inr ⟨hrefused, hit, ⟨htrace, hdot⟩, rfl, rfl⟩

omit [IsStrictOrderedRing K] in
/-- The accepted hit passed the test of the trace that was accepted. -/
theorem dotProduct_of_found {lineTrace : LineTrace K} {w : GASCharacter K E C} {side : WallSide}
    {hit : FHitResult K} (h : TickWallRun.findRunnableWall lineTrace w = some (side, hit)) :
    (side = .left ∧ FVector.dotProduct hit.impactNormal w.rightVector > 3 / 10) ∨
      (side = .right ∧ FVector.dotProduct hit.impactNormal (-w.rightVector) > 3 / 10) := by
  obtain ⟨-, ⟨hside, -, hdot⟩ | ⟨hside, -, -, hdot⟩⟩ := findRunnableWall_eq_some_iff.mp h
  · exact Or.inl ⟨hside, hdot⟩
  · exact Or.inr ⟨hside, hdot⟩

/-- The side test of the accepted hit names the trace that was accepted. -/
theorem isWallOnTheLeft_of_found {lineTrace : LineTrace K} {w : GASCharacter K E C}
    {side : WallSide} {hit : FHitResult K}
    (h : TickWallRun.findRunnableWall lineTrace w = some (side, hit)) :
    TickWallRun.isWallOnTheLeft w hit = decide (side = .left) := by
  have hpos : (0 : K) < 3 / 10 := by positivity
  rcases dotProduct_of_found h with ⟨rfl, hdot⟩ | ⟨rfl, hdot⟩
  · rw [FVector.dotProduct_comm] at hdot
    have hgt : FVector.dotProduct w.rightVector hit.impactNormal > 0 := lt_trans hpos hdot
    simp [TickWallRun.isWallOnTheLeft, hgt]
  · rw [FVector.dotProduct_neg, FVector.dotProduct_comm] at hdot
    have hneg : ¬ FVector.dotProduct w.rightVector hit.impactNormal > 0 := by
      intro hgt
      linarith
    simp [TickWallRun.isWallOnTheLeft, hneg]

end Search

/-! ## The step -/

section Step

variable [DecidableEq E] [Field K] [LinearOrder K] (c : WallRunClass E)

/-- An attempt is entered: `TryActivateAbility` gets as far as `ActivateAbility`. -/
def entersWallRun (w : GASCharacter K E C) (env : WallRunActivation K) : Bool :=
  !w.wallRun.ability.isActive && WallRunAbility.canActivateAbility env.superCanActivate w

/-- The event of the session machine that an event of the ability stands for. -/
def wallRunView (w : GASCharacter K E C) : WallRunEvent K → Option (SessionEvent K)
  | .activate env callbacks =>
    if entersWallRun w env then
      match TickWallRun.findRunnableWall env.lineTrace w with
      | none => some .failed
      | some (side, _) => some (.started side (callbacksEnd c callbacks side))
    else none
  | .tick lineTrace =>
    if (sessionOf w).running.isSome then
      match TickWallRun.findRunnableWall lineTrace w with
      | none => some .ended
      | some (side, hit) => some (.steered side
          (TickWallRun.wallRunVelocity (TickWallRun.isWallOnTheLeft w hit) hit) hit.impactPoint
          hit.impactNormal)
    else none
  | .cancel => if (sessionOf w).running.isSome then some .ended else none
  | .moved _ _ _ => none

/-- The character as the task finds it when it is activated: the base class has applied
its effects, and the task was created. -/
def searching (env : WallRunActivation K) (w : GASCharacter K E C) : GASCharacter K E C :=
  WallRunAbility.createWallRunTask (WallRunAbility.setBaseState (WallRunAbility.preActivate w)
    (BaseGameplayAbility.activateAbility c.base (.quiet env.start env.remove)
      (WallRunAbility.baseState (WallRunAbility.preActivate w))))

omit [DecidableEq E] [LinearOrder K] [Field K] in
/-- The search for a wall has begun a session. -/
theorem sessionOf_searching (env : WallRunActivation K) (w : GASCharacter K E C) :
    sessionOf (searching c env w) = (sessionOf w).begun := by
  simp [sessionOf, searching, WallRunAbility.createWallRunTask, WallRunState.liveTask,
    Session.begun, WallRunAbility.setBaseState, WallRunAbility.preActivate]

omit [DecidableEq E] [LinearOrder K] [Field K] in
/-- While it searches, an ability that was inactive is settled. -/
theorem settled_searching (env : WallRunActivation K) {w : GASCharacter K E C}
    (hw : w.wallRun.ability.activeCount = 0) : WallRunSettled (searching c env w) := by
  have hcount : (searching c env w).wallRun.ability.activeCount = 1 := by
    have h := activateAbility_quiet_activeCount (c := c.base) env.start env.remove
      (WallRunAbility.baseState (WallRunAbility.preActivate w))
    have hpre : (WallRunAbility.baseState (WallRunAbility.preActivate w)).ability.activeCount
        = 1 := by
      simp [WallRunAbility.baseState, WallRunAbility.preActivate, AbilityInstance.preActivate, hw]
    rw [hpre] at h
    exact h
  unfold WallRunSettled
  rw [hcount, sessionOf_searching]
  rfl

/-- A character that has come from `w` by what the session machine does to it. -/
structure Follows (w : GASCharacter K E C) (s : Session K) (w' : GASCharacter K E C) : Prop where
  session : sessionOf w' = s
  settled : WallRunSettled w'
  sameVault : SameVault w w'

omit [LinearOrder K] in
/-- The end of the ability follows the end of the session. -/
theorem follows_endAbility {w : GASCharacter K E C} (hw : WallRunSettled w) :
    Follows w (sessionOf w).ended (WallRunAbility.endAbility c w) where
  session := sessionOf_endAbility c w
  settled := (callsEnd_endAbility c).settled w hw
  sameVault := (callsEnd_endAbility c).sameVault w

omit [LinearOrder K] in
/-- A body that found no wall ends the ability: the broadcast of `OnFinished` does, and
`EndTask` finds the task finished. -/
theorem finish_eq_endAbility {w : GASCharacter K E C} (hw : WallRunSettled w)
    (hrun : (sessionOf w).running.isSome = true) :
    TickWallRun.finish (WallRunAbility.endAbility c) w = WallRunAbility.endAbility c w := by
  have hnone : (WallRunAbility.endAbility c w).wallRun.liveTask = none := by
    rw [← sessionOf_running_eq_none, sessionOf_endAbility, Session.ended_running]
  simp only [TickWallRun.finish, hw.isActive, hrun, if_true, TickWallRun.endTask, hnone]

/-- The activation of the ability is that of a new task, after the super class. -/
theorem activateAbility_eq_activate (env : WallRunActivation K) (callbacks : TaskCallbacks)
    (w : GASCharacter K E C) :
    WallRunAbility.activateAbility c env callbacks (WallRunAbility.preActivate w) =
      TickWallRun.activate (WallRunAbility.delegates c callbacks) env.lineTrace w.tasksCreated
        (searching c env w) := rfl

omit [DecidableEq E] in
/-- The task searches from where the character was before the attempt. -/
theorem findRunnableWall_searching (env : WallRunActivation K) (w : GASCharacter K E C) :
    TickWallRun.findRunnableWall env.lineTrace (searching c env w) =
      TickWallRun.findRunnableWall env.lineTrace w := rfl

/-- An attempt that is entered. -/
theorem follows_activateAbility [IsStrictOrderedRing K] (env : WallRunActivation K)
    (callbacks : TaskCallbacks) {w : GASCharacter K E C}
    (hidle : w.wallRun.ability.activeCount = 0) :
    Follows w (match TickWallRun.findRunnableWall env.lineTrace w with
        | none => sessionStep (sessionOf w) .failed
        | some (side, _) =>
          sessionStep (sessionOf w) (.started side (callbacksEnd c callbacks side)))
      (WallRunAbility.activateAbility c env callbacks (WallRunAbility.preActivate w)) := by
  have hsettled := settled_searching c env hidle
  have hsession := sessionOf_searching c env w
  rw [activateAbility_eq_activate]
  unfold TickWallRun.activate
  rw [findRunnableWall_searching]
  cases hfound : TickWallRun.findRunnableWall env.lineTrace w with
  | none =>
    have hrun : (sessionOf (searching c env w)).running.isSome = true := by
      rw [hsession]
      rfl
    have h := follows_endAbility c hsettled
    have hfinish : TickWallRun.finish (WallRunAbility.delegates c callbacks).onFinished
        (searching c env w) = WallRunAbility.endAbility c (searching c env w) :=
      finish_eq_endAbility c hsettled hrun
    rw [hsession] at h
    simp only [hfinish]
    exact ⟨h.session, h.settled, h.sameVault⟩
  | some found =>
    obtain ⟨side, hit⟩ := found
    -- the side test is made on the character the search was made on
    rw [← findRunnableWall_searching c env w] at hfound
    have hleft := isWallOnTheLeft_of_found hfound
    have haccept := sessionOf_accept side (searching c env w)
    have hsettled' : WallRunSettled (TickWallRun.accept side (searching c env w)) := by
      unfold WallRunSettled
      rw [haccept, Session.accepted, Option.isSome_map]
      exact hsettled
    have hcalls := callsEnd_callbacks (K := K) (C := C) c callbacks side
    simp only [hleft]
    refine ⟨?_, ?_, ?_⟩
    · rw [sessionOf_attach, hcalls.session _ hsettled', haccept, hsession]
      rfl
    · have h := hcalls.settled _ hsettled'
      unfold WallRunSettled at h ⊢
      rw [sessionOf_attach]
      exact h
    · exact hcalls.sameVault (TickWallRun.accept side (searching c env w))

/-- A tick of a running session. -/
theorem follows_tick [IsStrictOrderedRing K] (lineTrace : LineTrace K) {w : GASCharacter K E C}
    (hw : WallRunSettled w) (hrun : (sessionOf w).running.isSome = true) :
    Follows w (match TickWallRun.findRunnableWall lineTrace w with
        | none => sessionStep (sessionOf w) .ended
        | some (side, hit) => sessionStep (sessionOf w) (.steered side
            (TickWallRun.wallRunVelocity (TickWallRun.isWallOnTheLeft w hit) hit) hit.impactPoint
            hit.impactNormal))
      (WallRunAbility.tick c lineTrace w) := by
  obtain ⟨t, ht⟩ : ∃ t, w.wallRun.liveTask = some t := by
    rw [← Option.isSome_iff_exists]
    simpa [sessionOf] using hrun
  simp only [WallRunAbility.tick, ht, TickWallRun.tickTask]
  cases hfound : TickWallRun.findRunnableWall lineTrace w with
  | none =>
    simp only [finish_eq_endAbility c hw hrun]
    exact follows_endAbility c hw
  | some found =>
    obtain ⟨side, hit⟩ := found
    have haccept := sessionOf_accept side w
    obtain ⟨t', ht', hid⟩ : ∃ t', (TickWallRun.accept side w).wallRun.liveTask = some t' ∧
        t'.id = t.id := by
      obtain ⟨htask, hf⟩ := liveTask_eq_some.mp ht
      refine ⟨{ t with side := some side }, liveTask_eq_some.mpr ⟨?_, hf⟩, rfl⟩
      simp [TickWallRun.accept, TickWallRun.updateTask, htask]
    have hsteer := sessionOf_steer ht' (TickWallRun.isWallOnTheLeft w hit) hit
    rw [hid, haccept] at hsteer
    refine ⟨hsteer, ?_, rfl, rfl⟩
    have hcount : (TickWallRun.steer t.id (TickWallRun.isWallOnTheLeft w hit) hit
        (TickWallRun.accept side w)).wallRun.ability = w.wallRun.ability := rfl
    unfold WallRunSettled at hw ⊢
    rw [hsteer, hcount, Session.steered_running, Session.accepted_running, Option.isSome_map]
    exact hw

/-- An attempt activates the ability if it gets to it. -/
theorem wallRunStep_activate (w : GASCharacter K E C) (env : WallRunActivation K)
    (callbacks : TaskCallbacks) :
    wallRunStep c w (.activate env callbacks) =
      if entersWallRun w env then
        WallRunAbility.activateAbility c env callbacks (WallRunAbility.preActivate w)
      else w := by
  cases ha : w.wallRun.ability.isActive <;>
    cases hcan : WallRunAbility.canActivateAbility env.superCanActivate w <;>
    simp [wallRunStep, WallRunAbility.tryActivateAbility, entersWallRun, ha, hcan]

omit [DecidableEq E] [Field K] [LinearOrder K] in
/-- An attempt gets to an inactive ability only. -/
theorem activeCount_eq_zero_of_enters {w : GASCharacter K E C} {env : WallRunActivation K}
    (h : entersWallRun w env = true) : w.wallRun.ability.activeCount = 0 := by
  simp only [entersWallRun, Bool.and_eq_true, Bool.not_eq_true'] at h
  simpa using h.1

/-- **The ability follows the session machine.** -/
theorem follows_wallRunStep [IsStrictOrderedRing K] {w : GASCharacter K E C}
    (hw : WallRunSettled w) (e : WallRunEvent K) :
    Follows w (run sessionStep (sessionOf w) (wallRunView c w e).toList) (wallRunStep c w e) := by
  have hidle : Follows w (sessionOf w) w := ⟨rfl, hw, rfl, rfl⟩
  cases e with
  | activate env callbacks =>
    rw [wallRunStep_activate]
    cases hentered : entersWallRun w env with
    | false => simpa [wallRunView, hentered] using hidle
    | true =>
      have hcount := activeCount_eq_zero_of_enters hentered
      have h := follows_activateAbility c env callbacks hcount
      simp only [wallRunView, hentered, if_true]
      cases hfound : TickWallRun.findRunnableWall env.lineTrace w with
      | none => simpa [hfound] using h
      | some found => simpa [hfound] using h
  | tick lineTrace =>
    simp only [wallRunStep, wallRunView]
    cases hrun : (sessionOf w).running with
    | none =>
      have hlive := sessionOf_running_eq_none.mp hrun
      simpa [WallRunAbility.tick, hlive] using hidle
    | some r =>
      have h := follows_tick c lineTrace hw (by simp [hrun])
      cases hfound : TickWallRun.findRunnableWall lineTrace w with
      | none => simpa [hfound] using h
      | some found => simpa [hfound] using h
  | cancel =>
    simp only [wallRunStep, WallRunAbility.cancelAbility, wallRunView, hw.isActive]
    cases hrun : (sessionOf w).running with
    | none => simpa using hidle
    | some r => simpa [sessionStep] using follows_endAbility c hw
  | moved location forward right => exact ⟨rfl, hw, rfl, rfl⟩

/-! ## Which events end a session -/

/-- An attempt that is entered and finds no runnable wall. -/
def attemptFails (w : GASCharacter K E C) : WallRunEvent K → Bool
  | .activate env _ =>
    entersWallRun w env && (TickWallRun.findRunnableWall env.lineTrace w).isNone
  | .tick _ => false
  | .cancel => false
  | .moved _ _ _ => false

/-- The event destroys a wall-run task: a failed attempt, a tick that loses the wall, or
an end of the active ability. -/
def destroysTask (w : GASCharacter K E C) : WallRunEvent K → Bool
  | .activate env callbacks => attemptFails w (.activate env callbacks)
  | .tick lineTrace =>
    (sessionOf w).running.isSome && (TickWallRun.findRunnableWall lineTrace w).isNone
  | .cancel => (sessionOf w).running.isSome
  | .moved _ _ _ => false

/-- An attempt that is entered and finds a runnable wall. -/
def startsWallRun (w : GASCharacter K E C) : WallRunEvent K → Bool
  | .activate env _ =>
    entersWallRun w env && (TickWallRun.findRunnableWall env.lineTrace w).isSome
  | .tick _ => false
  | .cancel => false
  | .moved _ _ _ => false

/-- Nothing ends the ability from inside a call out of its task. -/
def QuietEvent : WallRunEvent K → Prop
  | .activate _ callbacks => ∃ outcome, callbacks = .quiet outcome
  | .tick _ => True
  | .cancel => True
  | .moved _ _ _ => True

variable [IsStrictOrderedRing K] {w : GASCharacter K E C} (hw : WallRunSettled w)
include hw

omit [IsStrictOrderedRing K] in
/-- An event that destroys a task is an end of the ability: of the running session, or of
the one that was begun for the failed attempt. -/
theorem wallRunStep_destroys {e : WallRunEvent K} (he : destroysTask w e = true) :
    ∃ w₀ : GASCharacter K E C, (sessionOf w₀).running.isSome = true ∧
      w₀.movement = w.movement ∧ wallRunStep c w e = WallRunAbility.endAbility c w₀ := by
  cases e with
  | activate env callbacks =>
    simp only [destroysTask, attemptFails, Bool.and_eq_true, Option.isNone_iff_eq_none] at he
    have hsettled := settled_searching c env (activeCount_eq_zero_of_enters he.1)
    have hrun : (sessionOf (searching c env w)).running.isSome = true := by
      rw [sessionOf_searching]
      rfl
    refine ⟨searching c env w, hrun, rfl, ?_⟩
    rw [wallRunStep_activate, if_pos he.1, activateAbility_eq_activate]
    simp only [TickWallRun.activate, findRunnableWall_searching, he.2]
    exact finish_eq_endAbility c hsettled hrun
  | tick lineTrace =>
    simp only [destroysTask, Bool.and_eq_true, Option.isNone_iff_eq_none] at he
    obtain ⟨t, ht⟩ : ∃ t, w.wallRun.liveTask = some t := by
      rw [← Option.isSome_iff_exists]
      simpa [sessionOf] using he.1
    refine ⟨w, he.1, rfl, ?_⟩
    simp only [wallRunStep, WallRunAbility.tick, ht, TickWallRun.tickTask, he.2]
    exact finish_eq_endAbility c hw he.1
  | cancel =>
    simp only [destroysTask] at he
    refine ⟨w, he, rfl, ?_⟩
    simp only [wallRunStep, WallRunAbility.cancelAbility, hw.isActive, he, if_true]
  | moved location forward right => exact absurd he (by simp [destroysTask])

omit [IsStrictOrderedRing K] in
/-- An event that destroys a task ends a session with the movement as it was. -/
theorem session_destroys {e : WallRunEvent K} (he : destroysTask w e = true) :
    ∃ s : Session K, s.running.isSome = true ∧ s.movement = w.movement ∧
      sessionOf (wallRunStep c w e) = s.ended := by
  obtain ⟨w₀, hrun, hmovement, hstep⟩ := wallRunStep_destroys c hw he
  rw [hstep]
  exact ⟨sessionOf w₀, hrun, hmovement, sessionOf_endAbility c w₀⟩

/-- A start that nothing interrupts leaves a session running. -/
theorem session_starts {e : WallRunEvent K} (hq : QuietEvent e) (he : startsWallRun w e = true) :
    ∃ side, (sessionOf (wallRunStep c w e)).running = some ⟨w.tasksCreated, some side⟩ ∧
      (sessionOf (wallRunStep c w e)).movement =
        { w.movement with movementMode := .flying, gravityScale := wallRunGravityScale K } := by
  have h := (follows_wallRunStep c hw e).session
  cases e with
  | activate env callbacks =>
    obtain ⟨outcome, rfl⟩ := hq
    simp only [startsWallRun, Bool.and_eq_true] at he
    obtain ⟨hentered, hfound⟩ := he
    obtain ⟨⟨side, hit⟩, hfound⟩ := Option.isSome_iff_exists.mp hfound
    simp only [wallRunView, hentered, hfound, if_true, callbacksEnd_quiet] at h
    rw [h]
    exact ⟨side, rfl, rfl⟩
  | tick lineTrace => exact absurd he (by simp [startsWallRun])
  | cancel => exact absurd he (by simp [startsWallRun])
  | moved location forward right => exact absurd he (by simp [startsWallRun])

/-- Any other event leaves the session as it is, or steers it. -/
theorem session_continues {e : WallRunEvent K} (hd : destroysTask w e = false)
    (hs : startsWallRun w e = false) :
    sessionOf (wallRunStep c w e) = sessionOf w ∨
      ∃ side velocity origin normal, (sessionOf w).running.isSome = true ∧
        sessionOf (wallRunStep c w e) =
          ((sessionOf w).accepted side).steered velocity origin normal := by
  have h := (follows_wallRunStep c hw e).session
  cases e with
  | activate env callbacks =>
    have hentered : entersWallRun w env = false := by
      cases hentered : entersWallRun w env with
      | false => rfl
      | true =>
        cases hfound : TickWallRun.findRunnableWall env.lineTrace w <;>
          simp [destroysTask, attemptFails, startsWallRun, hentered, hfound] at hd hs
    simp only [wallRunView, hentered] at h
    exact Or.inl h
  | tick lineTrace =>
    cases hrun : (sessionOf w).running.isSome with
    | false =>
      simp only [wallRunView, hrun] at h
      exact Or.inl h
    | true =>
      simp only [destroysTask, hrun, Bool.true_and] at hd
      obtain ⟨⟨side, hit⟩, hfound⟩ := Option.isSome_iff_exists.mp (by simpa using hd)
      simp only [wallRunView, hrun, hfound, if_true] at h
      exact Or.inr ⟨side, _, _, _, rfl, h⟩
  | cancel =>
    simp only [destroysTask] at hd
    simp only [wallRunView, hd] at h
    exact Or.inl h
  | moved location forward right => exact Or.inl h

omit hw in
/-- A quiet event leaves every wall run on its wall. -/
theorem onWall_step (hw : OnWall w) {e : WallRunEvent K}
    (hq : QuietEvent e) : OnWall (wallRunStep c w e) := by
  refine ⟨(follows_wallRunStep c hw.1 e).settled, ?_⟩
  intro r hr
  by_cases hd : destroysTask w e = true
  · obtain ⟨s, -, -, hsession⟩ := session_destroys c hw.1 hd
    rw [hsession, Session.ended_running] at hr
    exact absurd hr (by simp)
  · by_cases hs : startsWallRun w e = true
    · obtain ⟨side, hrun, -⟩ := session_starts c hw.1 hq hs
      rw [hrun] at hr
      rw [← Option.some.inj hr]
      rfl
    · rcases session_continues c hw.1 (by simpa using hd) (by simpa using hs) with
        hsame | ⟨side, v, o, n, -, hsteered⟩
      · rw [hsame] at hr
        exact hw.2 r hr
      · rw [hsteered, Session.steered_running, Session.accepted_running] at hr
        obtain ⟨r', -, rfl⟩ := Option.map_eq_some_iff.mp hr
        rfl

end Step

/-! ## A character and two surroundings -/

/-- A falling character that has used none of its abilities. -/
def fallingCharacter : GASCharacter ℚ ℕ ℕ := .spawned .falling 1 fun _ => .block

/-- A wall along X, at 50 units to the left of the origin. -/
def wallOnTheLeft : LineTrace ℚ := fun start stop =>
  if stop.y ≤ -50 ∧ -50 ≤ start.y then
    some ⟨⟨start.x, -50, start.z⟩, ⟨start.x, -50, start.z⟩, ⟨0, 1, 0⟩⟩
  else none

/-- Nothing to trace. -/
def openSpace : LineTrace ℚ := fun _ _ => none

/-- A wall run with side effects 1 and 2. -/
def wallRunWithSides : WallRunClass ℕ := ⟨[], [], some 1, some 2, fun _ => false⟩

/-- An attempt to run along what the traces find. -/
def wallRunAttempt (lineTrace : LineTrace ℚ) (callbacks : TaskCallbacks) : WallRunEvent ℚ :=
  .activate ⟨true, fun _ => .added, fun _ => .added, lineTrace⟩ callbacks

end GasSamples.Analysis
