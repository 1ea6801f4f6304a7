import GasSamples.Analysis.WallRunAbility

/-!
# The side effect and the wall

The side handler runs once, in `Activate`; a tick accepts whichever wall the search finds
and leaves the effects alone.  So the active side effect matches the accepted wall exactly
as long as no tick changes sides.
-/

set_option autoImplicit false

namespace GasSamples.Analysis

open Reactive GasSamples.Model GasSamples.Program

/-! ## The active side effects -/

section Effects

variable {K E C : Type} [DecidableEq E] (c : WallRunClass E)

/-- The class is one of the two side effects. -/
def isSideEffect (effect : E) : Bool :=
  decide (some effect = c.wallRunLeftSideEffectClass) ||
    decide (some effect = c.wallRunRightSideEffectClass)

/-- The side effects that are active, each as often as it is. -/
def sideEffects (asc : AbilitySystem E) : List E := asc.values.filter (isSideEffect c)

/-- The effect class of a side is a side effect. -/
theorem isSideEffect_of_sideClass {side : WallSide} {effect : E}
    (h : sideClass c side = some effect) : isSideEffect c effect = true := by
  cases side <;> simp_all [isSideEffect, sideClass]

omit [DecidableEq E] in
/-- A sweep filters the active effects. -/
theorem values_keepWhere (asc : AbilitySystem E) (p : E → Bool) :
    (asc.keepWhere fun q => p q.2).values = asc.values.filter p := by
  simp only [HandleStore.values, HandleStore.keepWhere_live, List.filter_map]
  rfl

/-- Removing by source effect leaves no effect of the class. -/
theorem not_mem_removeBySource {asc : AbilitySystem E} {effect : E} :
    effect ∉ (asc.removeActiveGameplayEffectBySourceEffect (some effect)).values := by
  simp only [AbilitySystem.removeActiveGameplayEffectBySourceEffect,
    values_keepWhere asc (· != effect)]
  simp

/-- What is active after a removal by source was active before. -/
theorem mem_of_mem_removeBySource {asc : AbilitySystem E} {source : Option E} {effect : E}
    (h : effect ∈ (asc.removeActiveGameplayEffectBySourceEffect source).values) :
    effect ∈ asc.values := by
  cases source with
  | none => exact h
  | some s =>
    simp only [AbilitySystem.removeActiveGameplayEffectBySourceEffect,
      values_keepWhere asc (· != s)] at h
    exact List.mem_of_mem_filter h

omit [DecidableEq E] in
/-- What is active after `EndAbility` was active before. -/
theorem mem_of_mem_endAbility {b : AbilityClass E} {s : BaseState E} {effect : E}
    (h : effect ∈ (BaseGameplayAbility.endAbility b s).asc.values) : effect ∈ s.asc.values := by
  cases hb : b.instancingPolicy.isInstantiated with
  | false => simpa [BaseGameplayAbility.endAbility, hb] using h
  | true =>
    rw [endAbility_asc hb, HandleStore.values, HandleStore.removeAll_live] at h
    obtain ⟨p, hp, rfl⟩ := List.mem_map.mp h
    exact List.mem_map_of_mem (List.mem_of_mem_filter hp)

/-- `EndAbility` removes both side effects. -/
theorem sideEffects_endAbility [Field K] (w : GASCharacter K E C) :
    sideEffects c (WallRunAbility.endAbility c w).asc = [] := by
  unfold sideEffects
  rw [List.filter_eq_nil_iff]
  intro effect heffect hside
  have hremoved :
      effect ∈ (WallRunAbility.removeSideEffects c (TickWallRun.endTask w)).asc.values :=
    mem_of_mem_endAbility heffect
  simp only [WallRunAbility.removeSideEffects] at hremoved
  simp only [isSideEffect, Bool.or_eq_true, decide_eq_true_eq] at hside
  rcases hside with hleft | hright
  · rw [← hleft] at hremoved
    exact not_mem_removeBySource (mem_of_mem_removeBySource hremoved)
  · rw [← hright] at hremoved
    exact not_mem_removeBySource hremoved

/-- The application of a side effect and the landing that follows add this one. -/
theorem sideEffects_landed
    (hair : ∀ effect, isSideEffect c effect = true → c.inAirTags effect = false)
    (asc : AbilitySystem E) {effect : E} (hside : isSideEffect c effect = true) :
    sideEffects c ((asc.applyGameplayEffectSpecToSelf effect .added).2.removeActiveEffectsWithTags
      c.inAirTags) = sideEffects c asc ++ [effect] := by
  have hvalues : (asc.applyGameplayEffectSpecToSelf effect .added).2.values =
      asc.values ++ [effect] := by
    simp [HandleStore.values, apply_live]
  have hfilter : ∀ e ∈ asc.values ++ [effect],
      (isSideEffect c e && !c.inAirTags e) = isSideEffect c e := by
    intro e _
    cases hs : isSideEffect c e with
    | false => rfl
    | true => simp [hair e hs]
  unfold sideEffects AbilitySystem.removeActiveEffectsWithTags
  rw [values_keepWhere _ (fun e => !c.inAirTags e), hvalues, List.filter_filter,
    List.filter_congr hfilter, List.filter_append]
  simp [hside]

/-- The side effects that the two lists of the ability add in this attempt. -/
def listedSideEffects (env : WallRunActivation K) : List E :=
  ((BaseGameplayAbility.entries c.ongoingEffectsToApplyOnStart
      fun i => .quiet (env.start i)).filterMap addedEffect ++
    (BaseGameplayAbility.entries c.ongoingEffectsToRemoveOnEnd
      fun i => .quiet (env.remove i)).filterMap addedEffect).filter (isSideEffect c)

/-- The search for a wall adds the side effects that the base class lists, and no others. -/
theorem sideEffects_searching (env : WallRunActivation K) (w : GASCharacter K E C) :
    sideEffects c (searching c env w).asc = sideEffects c w.asc ++ listedSideEffects c env := by
  have h := activateAbility_quiet_values (c := c.base) rfl env.start env.remove
    (WallRunAbility.baseState (WallRunAbility.preActivate w))
  have hasc : (searching c env w).asc.values = w.asc.values ++ _ ++ _ := h
  unfold sideEffects listedSideEffects
  rw [hasc, List.append_assoc, List.filter_append]
  rfl

end Effects

/-! ## Runs -/

variable {K E C : Type} [DecidableEq E] [Field K] [LinearOrder K]

omit [LinearOrder K] [Field K] in
/-- While a wall run is on a wall, exactly one side effect is active, the one for the
side of the wall accepted last; while the ability is inactive, none is. -/
def SideEffectMatches (c : WallRunClass E) (w : GASCharacter K E C) : Prop :=
  (∀ r side, (sessionOf w).running = some r → r.side = some side →
      sideEffects c w.asc = (sideClass c side).toList) ∧
    (w.wallRun.ability.activeCount = 0 → sideEffects c w.asc = [])

/-- An attempt that finds its wall meets no side effect in the lists of the ability, and
a tick accepts a wall whose side has the side effect of the wall accepted before. -/
def SideKept (c : WallRunClass E) (w : GASCharacter K E C) : WallRunEvent K → Prop
  | .activate env callbacks =>
    startsWallRun w (.activate env callbacks) = true → listedSideEffects c env = []
  | .tick lineTrace => ∀ r side hit, (sessionOf w).running = some r →
      TickWallRun.findRunnableWall lineTrace w = some (side, hit) →
      r.side.bind (sideClass c) = sideClass c side
  | .cancel => True
  | .moved _ _ _ => True

/-- The side effect is applied and added, and nothing ends the ability meanwhile. -/
def SideEffectAdded : WallRunEvent K → Prop
  | .activate _ callbacks => callbacks = .quiet .added
  | .tick _ => True
  | .cancel => True
  | .moved _ _ _ => True

omit [Field K] [LinearOrder K] [DecidableEq E] in
/-- An event that adds its side effect is quiet. -/
theorem quietEvent_of_added {e : WallRunEvent K} (h : SideEffectAdded e) : QuietEvent e := by
  cases e with
  | activate env callbacks => exact ⟨.added, h⟩
  | tick lineTrace => trivial
  | cancel => trivial
  | moved location forward right => trivial

variable [IsStrictOrderedRing K] (c : WallRunClass E)

omit [IsStrictOrderedRing K] in
/-- An event that destroys the task leaves no side effect. -/
theorem matches_of_destroys {w : GASCharacter K E C} (hw : WallRunSettled w)
    {e : WallRunEvent K} (he : destroysTask w e = true) :
    SideEffectMatches c (wallRunStep c w e) := by
  obtain ⟨w₀, -, -, hstep⟩ := wallRunStep_destroys c hw he
  rw [hstep]
  refine ⟨?_, fun _ => sideEffects_endAbility c w₀⟩
  intro r side hr
  rw [sessionOf_endAbility, Session.ended_running] at hr
  exact absurd hr (by simp)

/-- The side effects after a start are those of the lists and the one of the wall. -/
theorem sideEffects_starts (hnonnull : ∀ side, (sideClass c side).isSome = true)
    (hair : ∀ effect, isSideEffect c effect = true → c.inAirTags effect = false)
    {w : GASCharacter K E C} {env : WallRunActivation K} (hentered : entersWallRun w env = true)
    {side : WallSide} {hit : FHitResult K}
    (hfound : TickWallRun.findRunnableWall env.lineTrace w = some (side, hit)) :
    sideEffects c (wallRunStep c w (.activate env (.quiet .added))).asc =
      sideEffects c w.asc ++ listedSideEffects c env ++ (sideClass c side).toList := by
  obtain ⟨effect, heffect⟩ := Option.isSome_iff_exists.mp (hnonnull side)
  have hleft : TickWallRun.isWallOnTheLeft (searching c env w) hit = decide (side = .left) :=
    isWallOnTheLeft_of_found hfound
  have hasc : (wallRunStep c w (.activate env (.quiet .added))).asc =
      ((searching c env w).asc.applyGameplayEffectSpecToSelf effect
        .added).2.removeActiveEffectsWithTags c.inAirTags := by
    rw [wallRunStep_activate, if_pos hentered, activateAbility_eq_activate]
    simp only [TickWallRun.activate, findRunnableWall_searching, hfound, hleft]
    cases side <;> simp only [sideClass] at heffect <;>
      simp [TickWallRun.attach, TickWallRun.writeMovement, TickWallRun.setActorLocation,
        TickWallRun.accept, TickWallRun.updateTask, WallRunAbility.delegates,
        WallRunAbility.onWallSideDetermened, AGASCharacter.landed,
        AGASCharacter.applyGameplayEffectToSelf, TaskCallbacks.quiet, ApplyCall.quiet, heffect]
  rw [hasc, sideEffects_landed c hair _ (isSideEffect_of_sideClass c heffect),
    sideEffects_searching, heffect]
  rfl

section Step

variable (hnonnull : ∀ side, (sideClass c side).isSome = true)
  (hair : ∀ effect, isSideEffect c effect = true → c.inAirTags effect = false)
  {w : GASCharacter K E C} (hw : OnWall w) (hmatches : SideEffectMatches c w)
include hnonnull hw hmatches

include hair in
/-- A start: the lists must not bring a side effect of their own. -/
theorem sideEffectMatches_start_iff {env : WallRunActivation K}
    (hentered : entersWallRun w env = true) {side : WallSide} {hit : FHitResult K}
    (hfound : TickWallRun.findRunnableWall env.lineTrace w = some (side, hit)) :
    SideEffectMatches c (wallRunStep c w (.activate env (.quiet .added))) ↔
      listedSideEffects c env = [] := by
  have heffects := sideEffects_starts c hnonnull hair hentered hfound
  rw [hmatches.2 (activeCount_eq_zero_of_enters hentered), List.nil_append] at heffects
  have hfollows := follows_wallRunStep c hw.1 (.activate env (.quiet .added))
  have hsession := hfollows.session
  simp only [wallRunView, hentered, hfound, if_true, callbacksEnd_quiet] at hsession
  have hrun : (sessionOf (wallRunStep c w (.activate env (.quiet .added)))).running =
      some ⟨w.tasksCreated, some side⟩ := by
    rw [hsession]
    rfl
  have hactive : (wallRunStep c w (.activate env (.quiet .added))).wallRun.ability.activeCount
      = 1 := by
    rw [hfollows.settled, hrun]
    rfl
  unfold SideEffectMatches
  rw [hrun, hactive, heffects]
  constructor
  · rintro ⟨h, -⟩
    simpa using h _ side rfl rfl
  · intro h
    refine ⟨?_, fun habs => absurd habs (by omega)⟩
    intro r side' hr hside
    obtain rfl := Option.some.inj hr
    rw [← Option.some.inj hside, h, List.nil_append]

/-- A tick that accepts a wall: its side must have the side effect that is active. -/
theorem sideEffectMatches_tick_iff {r : RunningSession} (hrun : (sessionOf w).running = some r)
    {lineTrace : LineTrace K} {side : WallSide} {hit : FHitResult K}
    (hfound : TickWallRun.findRunnableWall lineTrace w = some (side, hit)) :
    SideEffectMatches c (wallRunStep c w (.tick lineTrace)) ↔
      r.side.bind (sideClass c) = sideClass c side := by
  obtain ⟨before, hbefore⟩ := Option.isSome_iff_exists.mp (hw.2 r hrun)
  obtain ⟨old, hold⟩ := Option.isSome_iff_exists.mp (hnonnull before)
  obtain ⟨new, hnew⟩ := Option.isSome_iff_exists.mp (hnonnull side)
  have hfollows := follows_wallRunStep c hw.1 (.tick lineTrace)
  have hsession := hfollows.session
  simp only [wallRunView, hrun, hfound, Option.isSome_some, if_true] at hsession
  have hrun' : (sessionOf (wallRunStep c w (.tick lineTrace))).running =
      some ⟨r.task, some side⟩ := by
    rw [hsession]
    simp [sessionStep, hrun]
  have hactive : (wallRunStep c w (.tick lineTrace)).wallRun.ability.activeCount = 1 := by
    rw [hfollows.settled, hrun']
    rfl
  -- a tick that finds a wall adds and removes no effect
  have hasc : (wallRunStep c w (.tick lineTrace)).asc = w.asc := by
    obtain ⟨t, ht⟩ : ∃ t, w.wallRun.liveTask = some t := by
      rw [← Option.isSome_iff_exists]
      simpa [sessionOf] using congrArg Option.isSome hrun
    simp only [wallRunStep, WallRunAbility.tick, ht, TickWallRun.tickTask, hfound]
    rfl
  have heffects := hmatches.1 r before hrun hbefore
  unfold SideEffectMatches
  rw [hrun', hactive, hasc, heffects, hbefore, Option.bind_some, hold]
  constructor
  · rintro ⟨h, -⟩
    have hclass := h _ side rfl rfl
    rw [hnew] at hclass ⊢
    simpa using hclass
  · intro h
    refine ⟨?_, fun habs => absurd habs (by omega)⟩
    intro r' side' hr hside
    obtain rfl := Option.some.inj hr
    rw [← Option.some.inj hside, ← h]

include hair in
/-- One event, from a state with the property. -/
theorem sideEffectMatches_step_iff {e : WallRunEvent K} (ha : SideEffectAdded e) :
    SideEffectMatches c (wallRunStep c w e) ↔ SideKept c w e := by
  cases e with
  | activate env callbacks =>
    cases ha
    cases hentered : entersWallRun w env with
    | false =>
      rw [wallRunStep_activate, hentered]
      simp [SideKept, startsWallRun, hentered, hmatches]
    | true =>
      cases hfound : TickWallRun.findRunnableWall env.lineTrace w with
      | none =>
        -- no wall: the task is destroyed at once, and the ability ended
        have hd : destroysTask w (.activate env (.quiet .added)) = true := by
          simp [destroysTask, attemptFails, hentered, hfound]
        simp [SideKept, startsWallRun, hfound, matches_of_destroys c hw.1 hd]
      | some found =>
        rw [sideEffectMatches_start_iff c hnonnull hair hw hmatches hentered hfound]
        simp [SideKept, startsWallRun, hentered, hfound]
  | tick lineTrace =>
    cases hrun : (sessionOf w).running with
    | none =>
      have hlive := sessionOf_running_eq_none.mp hrun
      simp [wallRunStep, WallRunAbility.tick, hlive, SideKept, hrun, hmatches]
    | some r =>
      cases hfound : TickWallRun.findRunnableWall lineTrace w with
      | none =>
        have hd : destroysTask w (.tick lineTrace) = true := by
          simp [destroysTask, hrun, hfound]
        simp [SideKept, hfound, matches_of_destroys c hw.1 hd]
      | some found =>
        obtain ⟨side, hit⟩ := found
        rw [sideEffectMatches_tick_iff c hnonnull hw hmatches hrun hfound]
        constructor
        · intro h r' side' hit' hr' hfound'
          obtain rfl := Option.some.inj (hrun.symm.trans hr')
          obtain ⟨rfl, rfl⟩ := Prod.mk.inj (Option.some.inj (hfound.symm.trans hfound'))
          exact h
        · intro h
          exact h r side hit hrun hfound
  | cancel =>
    refine ⟨fun _ => trivial, fun _ => ?_⟩
    cases hrun : (sessionOf w).running.isSome with
    | true => exact matches_of_destroys c hw.1 hrun
    | false =>
      simp only [wallRunStep, WallRunAbility.cancelAbility, hw.1.isActive, hrun]
      exact hmatches
  | moved location forward right => exact ⟨fun _ => trivial, fun _ => hmatches⟩

end Step

/-- **The side effect matches the wall exactly while no tick changes sides.**  For every
run of the wall-run ability whose side effects are not null, do not match `InAirTags` and
are added when they are applied, from a character without a running session or an active
side effect: in every state exactly one side effect is active while a session is on a
wall, the one for the side accepted last, and none while the ability is inactive, if and
only if no start finds a side effect in the ability's own lists and every tick accepts a
wall whose side has the same side effect as the wall before.
SOURCE: AG_Task_TickWallRun.cpp:10-133, AG_WallRunAbility.cpp:76-109,
GASCharacter.cpp:99-112 -/
theorem sideEffectMatches_iff (hnonnull : ∀ side, (sideClass c side).isSome = true)
    (hair : ∀ effect, isSideEffect c effect = true → c.inAirTags effect = false)
    (w : GASCharacter K E C) (hinactive : w.wallRun.ability.activeCount = 0)
    (hidle : w.wallRun.liveTask = none) (hnone : sideEffects c w.asc = [])
    (es : List (WallRunEvent K)) (hadded : ∀ e ∈ es, SideEffectAdded e) :
    Always (wallRunStep c) (SideEffectMatches c) w es ↔
      EveryStep (wallRunStep c) (SideKept c) w es := by
  have hrun : (sessionOf w).running = none := sessionOf_running_eq_none.mpr hidle
  have hwall : OnWall w := onWall_idle hinactive hidle
  have hmatches : SideEffectMatches c w :=
    ⟨fun r side hr => absurd (hrun.symm.trans hr) (by simp), fun _ => hnone⟩
  exact always_iff_everyStep_on OnWall SideEffectAdded
    (fun w e ha hw hm => sideEffectMatches_step_iff c hnonnull hair hw hm ha)
    (fun w e ha hw _ _ => onWall_step c hw (quietEvent_of_added ha)) hwall hmatches hadded

/-- A wall along X, at 50 units to the right of the origin. -/
def wallOnTheRight : LineTrace ℚ := fun start stop =>
  if start.y ≤ 50 ∧ 50 ≤ stop.y then
    some ⟨⟨start.x, 50, start.z⟩, ⟨start.x, 50, start.z⟩, ⟨0, -1, 0⟩⟩
  else none

/-- A wall run that stays on the left wall until it is cancelled. -/
theorem sideEffectMatches_leftWall :
    Always (wallRunStep wallRunWithSides) (SideEffectMatches wallRunWithSides) fallingCharacter
      [wallRunAttempt wallOnTheLeft (.quiet .added), .tick wallOnTheLeft, .cancel] := by
  refine (sideEffectMatches_iff wallRunWithSides ?_ (fun _ _ => rfl)
    fallingCharacter rfl rfl rfl _ ?_).mpr ?_
  · intro side
    cases side <;> rfl
  · intro e he
    simp only [List.mem_cons, List.not_mem_nil, or_false] at he
    rcases he with rfl | rfl | rfl
    · rfl
    · trivial
    · trivial
  · have hstart : (sessionOf (wallRunStep wallRunWithSides fallingCharacter
        (wallRunAttempt wallOnTheLeft (.quiet .added)))).running = some ⟨0, some .left⟩ := by
      decide +kernel
    have hleft : (TickWallRun.findRunnableWall wallOnTheLeft (wallRunStep wallRunWithSides
        fallingCharacter (wallRunAttempt wallOnTheLeft (.quiet .added)))).map Prod.fst =
          some .left := by
      decide +kernel
    refine ⟨fun _ => rfl, ?_, trivial, trivial⟩
    intro r side hit hr hfound
    rw [hfound] at hleft
    obtain rfl : side = .left := Option.some.inj hleft
    rw [← Option.some.inj (hstart.symm.trans hr)]
    rfl

/-- A tick that finds a wall on the right, after a start on the left. -/
theorem not_sideEffectMatches_otherWall :
    ¬ Always (wallRunStep wallRunWithSides) (SideEffectMatches wallRunWithSides) fallingCharacter
      [wallRunAttempt wallOnTheLeft (.quiet .added), .tick wallOnTheRight] := by
  intro h
  have hside : (sessionOf (run (wallRunStep wallRunWithSides) fallingCharacter
      [wallRunAttempt wallOnTheLeft (.quiet .added), .tick wallOnTheRight])).running =
      some ⟨0, some .right⟩ := by decide +kernel
  have heffects := h.last.1 _ .right hside rfl
  exact absurd heffects (by decide +kernel)

end GasSamples.Analysis
