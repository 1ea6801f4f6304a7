import GasSamples.Reactive.Run
import GasSamples.Program.CrouchAbility
import GasSamples.Analysis.BaseGameplayAbility

/-!
# The crouch request and the input

`CanActivateAbility` refuses a press while the character is still crouched, and nothing
tries again later: a press that comes between a release and the standing up is lost.  In
every state the request goes back to a press, since the last release, that found the
character standing; with every press made while standing it follows the input.
-/

set_option autoImplicit false

namespace GasSamples.Analysis

open Reactive GasSamples.Model GasSamples.Program GasSamples.Program.CrouchAbility

variable {E : Type} (c : CrouchClass E)

/-- The request is set while the input is held, and clear while it is not. -/
def RequestFollowsInput (w : CrouchingCharacter E) : Prop := w.bWantsToCrouch = w.held

/-- The ability is active while the request is set. -/
def CrouchSettled (w : CrouchingCharacter E) : Prop :=
  w.crouch.activeCount = if w.bWantsToCrouch then 1 else 0

/-- The input is pressed while the character is not crouched, unless it is held already. -/
def PressedStanding (w : CrouchingCharacter E) : CrouchEvent → Prop
  | .started _ _ => w.held = false → w.bIsCrouched = false
  | .completed => True
  | .movementUpdate _ => True
  | .roomChanged _ => True

/-! ## The functions -/

/-- The ability is active exactly while the character wants to crouch. -/
theorem CrouchSettled.isActive {w : CrouchingCharacter E} (h : CrouchSettled w) :
    w.crouch.isActive = w.bWantsToCrouch := by
  unfold CrouchSettled at h
  cases hr : w.bWantsToCrouch <;> simp [AbilityInstance.isActive, h, hr]

/-- A character with the request clear and the ability inactive is settled. -/
theorem crouchSettled_inactive {w : CrouchingCharacter E}
    (hinactive : w.crouch.activeCount = 0)
    (hclear : w.bWantsToCrouch = false) : CrouchSettled w := by
  unfold CrouchSettled
  rw [hclear, hinactive]
  rfl

/-- An activation while standing makes the ability active and sets the request. -/
theorem activateAbility_standing (start remove : ℕ → ApplyOutcome) {w : CrouchingCharacter E}
    (hcrouched : w.bIsCrouched = false) :
    (activateAbility c start remove (preActivate w)).bWantsToCrouch = true ∧
      (activateAbility c start remove (preActivate w)).crouch.activeCount =
        w.crouch.activeCount + 1 ∧
      (activateAbility c start remove (preActivate w)).held = w.held := by
  have hquiet := activateAbility_quiet_activeCount (c := c.base) start remove
    (baseState (preActivate w))
  have hcan : canCrouch (setBaseState (preActivate w)
      (BaseGameplayAbility.activateAbility c.base (.quiet start remove)
        (baseState (preActivate w)))) = true := by
    simp [canCrouch, setBaseState, preActivate, hcrouched]
  unfold CrouchAbility.activateAbility crouch
  rw [if_pos hcan]
  exact ⟨rfl, hquiet, rfl⟩

/-- An end clears the request. -/
theorem crouchEnd_keeps {w : CrouchingCharacter E} (hcount : w.crouch.activeCount ≤ 1) :
    (endAbility c w).bWantsToCrouch = false ∧ (endAbility c w).crouch.activeCount = 0 ∧
      (endAbility c w).held = w.held := by
  refine ⟨rfl, ?_, rfl⟩
  have hend := endAbility_activeCount (baseState (unCrouch w)) c.base
  have hbase : (baseState (unCrouch w)).ability.activeCount = w.crouch.activeCount := rfl
  rw [hbase] at hend
  have hzero : w.crouch.activeCount - 1 = 0 := by omega
  rw [hzero] at hend
  exact hend

/-- A movement update touches neither the request nor the input nor the ability. -/
theorem movementUpdate_keeps [DecidableEq E] (outcome : ApplyOutcome) (w : CrouchingCharacter E) :
    (movementUpdate c outcome w).bWantsToCrouch = w.bWantsToCrouch ∧
      (movementUpdate c outcome w).crouch = w.crouch ∧
      (movementUpdate c outcome w).held = w.held := by
  unfold movementUpdate
  split
  · unfold onStartCrouch
    split
    · exact ⟨rfl, rfl, rfl⟩
    · split <;> exact ⟨rfl, rfl, rfl⟩
  · split
    · unfold onEndCrouch
      split <;> exact ⟨rfl, rfl, rfl⟩
    · exact ⟨rfl, rfl, rfl⟩

/-! ## The step -/

section Step

variable [DecidableEq E] {w : CrouchingCharacter E} (hw : CrouchSettled w)
include hw

/-- A press that finds the ability inactive and the character crouched is lost; any other
press leaves the request set. -/
theorem started_keeps (start remove : ℕ → ApplyOutcome) :
    (crouchStep c w (.started start remove)).held = true ∧
      (crouchStep c w (.started start remove)).bWantsToCrouch =
        (w.bWantsToCrouch || !w.bIsCrouched) ∧
      CrouchSettled (crouchStep c w (.started start remove)) := by
  have hactive : ({ w with held := true } : CrouchingCharacter E).crouch.isActive =
      w.bWantsToCrouch := hw.isActive
  have hcan : canActivateAbility true { w with held := true } = !w.bIsCrouched := rfl
  simp only [crouchStep, onCrouchStarted, tryActivateAbility, hactive, hcan, Bool.not_not]
  by_cases hrefused : (w.bWantsToCrouch || w.bIsCrouched) = true
  · rw [if_pos hrefused]
    refine ⟨rfl, ?_, hw⟩
    -- the ability is active already, or `CanCrouch` fails
    obtain hwants | hcrouched : w.bWantsToCrouch = true ∨ w.bIsCrouched = true := by
      simpa using hrefused
    · rw [hwants, Bool.true_or]
    · rw [hcrouched, Bool.not_true, Bool.or_false]
  · rw [if_neg hrefused]
    obtain ⟨hwants, hcrouched⟩ : w.bWantsToCrouch = false ∧ w.bIsCrouched = false := by
      simpa using hrefused
    obtain ⟨hset, hcount, hheld⟩ := activateAbility_standing c start remove
      (w := { w with held := true }) hcrouched
    refine ⟨hheld, ?_, ?_⟩
    · rw [hset, hcrouched, Bool.not_false, Bool.or_true]
    · unfold CrouchSettled at hw ⊢
      rw [hset, hcount]
      simp [hw, hwants]

/-- A release clears the request. -/
theorem completed_keeps :
    (crouchStep c w .completed).held = false ∧
      (crouchStep c w .completed).bWantsToCrouch = false ∧
      CrouchSettled (crouchStep c w .completed) := by
  have hactive : ({ w with held := false } : CrouchingCharacter E).crouch.isActive =
      w.bWantsToCrouch := hw.isActive
  simp only [crouchStep, onCrouchEnded, hactive]
  by_cases hwants : w.bWantsToCrouch = true
  · rw [if_pos hwants]
    have hcount : ({ w with held := false } : CrouchingCharacter E).crouch.activeCount ≤ 1 := by
      unfold CrouchSettled at hw
      rw [if_pos hwants] at hw
      exact Nat.le_of_eq hw
    obtain ⟨hclear, hinactive, hheld⟩ := crouchEnd_keeps c hcount
    refine ⟨hheld, hclear, ?_⟩
    unfold CrouchSettled
    rw [hclear, hinactive]
    rfl
  · rw [if_neg hwants]
    exact ⟨rfl, by simpa using hwants, hw⟩

/-- Every event keeps the ability and the request in step. -/
theorem crouchSettled_step (e : CrouchEvent) : CrouchSettled (crouchStep c w e) := by
  cases e with
  | started start remove => exact (started_keeps c hw start remove).2.2
  | completed => exact (completed_keeps c hw).2.2
  | movementUpdate outcome =>
    obtain ⟨hwants, hability, -⟩ := movementUpdate_keeps c outcome w
    unfold CrouchSettled at hw ⊢
    simp only [crouchStep, hwants, hability]
    exact hw
  | roomChanged roomToStand => exact hw

/-- One event, from a state with the property. -/
theorem requestFollowsInput_step_iff (h : RequestFollowsInput w) (e : CrouchEvent) :
    RequestFollowsInput (crouchStep c w e) ↔ PressedStanding w e := by
  unfold RequestFollowsInput at h ⊢
  cases e with
  | started start remove =>
    obtain ⟨hheld, hwants, -⟩ := started_keeps c hw start remove
    rw [hheld, hwants, h]
    unfold PressedStanding
    cases w.held <;> cases w.bIsCrouched <;> simp
  | completed =>
    obtain ⟨hheld, hwants, -⟩ := completed_keeps c hw
    rw [hheld, hwants]
    simp [PressedStanding]
  | movementUpdate outcome =>
    obtain ⟨hwants, -, hheld⟩ := movementUpdate_keeps c outcome w
    simp only [crouchStep, hwants, hheld, h, PressedStanding]
  | roomChanged roomToStand => simp [crouchStep, h, PressedStanding]

omit hw in
/-- **The request follows the input exactly if every press is made while standing.**  For
every interleaving of presses, releases, movement updates and changes of the room to
stand up, from a character with the input released, the request clear and the ability
inactive: in every state the request is set if and only if the input is held, exactly if
whenever the input is pressed, without being held already, the character is not crouched.
SOURCE: AG_CrouchAbility.cpp:14-45, GASCharacter.cpp:140-163, 344-356 -/
theorem requestFollowsInput_iff (w : CrouchingCharacter E)
    (hinactive : w.crouch.activeCount = 0) (hclear : w.bWantsToCrouch = false)
    (hreleased : w.held = false) (es : List CrouchEvent) :
    Always (crouchStep c) RequestFollowsInput w es ↔
      EveryStep (crouchStep c) PressedStanding w es :=
  always_iff_everyStep CrouchSettled
    (fun _ e hw h => requestFollowsInput_step_iff c hw h e)
    (fun _ e hw _ _ => crouchSettled_step c hw e)
    (crouchSettled_inactive hinactive hclear) (hclear.trans hreleased.symm) es

/-! ## The press that the request goes back to -/

/-- Some press since the last release found the character not crouched. -/
def AcceptedPress (w : CrouchingCharacter E) (es : List CrouchEvent) : Prop :=
  ∃ before start remove after, es = before ++ .started start remove :: after ∧
    .completed ∉ after ∧ (run (crouchStep c) w before).bIsCrouched = false

omit hw in
/-- The last event is a release, or it is the press itself, or it comes after it. -/
theorem acceptedPress_append (es : List CrouchEvent) (e : CrouchEvent) :
    AcceptedPress c w (es ++ [e]) ↔
      e ≠ .completed ∧ (AcceptedPress c w es ∨
        (∃ start remove, e = .started start remove) ∧
          (run (crouchStep c) w es).bIsCrouched = false) := by
  constructor
  · rintro ⟨before, start, remove, after, heq, hafter, hstanding⟩
    rcases List.eq_nil_or_concat after with rfl | ⟨after', e', rfl⟩
    · obtain ⟨rfl, he⟩ := List.append_inj' heq rfl
      have he' : e = .started start remove := List.singleton_inj.mp he
      subst he'
      exact ⟨by simp, Or.inr ⟨⟨start, remove, rfl⟩, hstanding⟩⟩
    · rw [List.concat_eq_append, ← List.cons_append, ← List.append_assoc] at heq
      obtain ⟨rfl, he⟩ := List.append_inj' heq rfl
      have he' : e = e' := List.singleton_inj.mp he
      subst he'
      simp only [List.concat_eq_append, List.mem_append, List.mem_singleton, not_or] at hafter
      exact ⟨fun h => hafter.2 h.symm, Or.inl ⟨before, start, remove, after', rfl, hafter.1,
        hstanding⟩⟩
  · rintro ⟨hne, ⟨before, start, remove, after, rfl, hafter, hstanding⟩ |
      ⟨⟨start, remove, rfl⟩, hstanding⟩⟩
    · refine ⟨before, start, remove, after ++ [e], by simp, ?_, hstanding⟩
      simp only [List.mem_append, List.mem_singleton, not_or]
      exact ⟨hafter, fun h => hne h.symm⟩
    · exact ⟨es, start, remove, [], rfl, List.not_mem_nil, hstanding⟩

/-- The request is set exactly after a press, since the last release, that found the
character standing. -/
theorem wantsToCrouch_iff_acceptedPress (hclear : w.bWantsToCrouch = false)
    (es : List CrouchEvent) :
    (run (crouchStep c) w es).bWantsToCrouch = true ↔ AcceptedPress c w es := by
  induction es using List.reverseRecOn with
  | nil => simp [AcceptedPress, hclear]
  | append_singleton es e ih =>
    have hsettled : CrouchSettled (run (crouchStep c) w es) :=
      (always_of_invariant CrouchSettled (fun _ e hw => crouchSettled_step c hw e) hw es).last
    rw [acceptedPress_append, ← ih, run_append, run_cons, run_nil]
    cases e with
    | started start remove =>
      obtain ⟨-, hwants, -⟩ := started_keeps c hsettled start remove
      rw [hwants]
      simp
    | completed =>
      obtain ⟨-, hwants, -⟩ := completed_keeps c hsettled
      rw [hwants]
      simp
    | movementUpdate outcome =>
      obtain ⟨hwants, -, -⟩ := movementUpdate_keeps c outcome (run (crouchStep c) w es)
      simp [crouchStep, hwants]
    | roomChanged roomToStand => simp [crouchStep]

/-- The request is set only while the input is held. -/
theorem held_of_wantsToCrouch_step (h : w.bWantsToCrouch = true → w.held = true)
    (e : CrouchEvent) :
    (crouchStep c w e).bWantsToCrouch = true → (crouchStep c w e).held = true := by
  cases e with
  | started start remove => exact fun _ => (started_keeps c hw start remove).1
  | completed =>
    rw [(completed_keeps c hw).2.1]
    simp
  | movementUpdate outcome =>
    obtain ⟨hwants, -, hheld⟩ := movementUpdate_keeps c outcome w
    simp only [crouchStep, hwants, hheld]
    exact h
  | roomChanged roomToStand => exact h

omit hw in
/-- **The request goes back to an accepted press.**  After every interleaving of presses,
releases, movement updates and changes of the room to stand up, from a character with the
request clear and the ability inactive: while the input is not held the request is clear,
and while it is held the request is set exactly if some press since the last release found
the character not crouched, as `CanActivateAbility` demands.
SOURCE: AG_CrouchAbility.cpp:14-45, GASCharacter.cpp:140-163, 344-356 -/
theorem request_acceptedPress (w : CrouchingCharacter E)
    (hinactive : w.crouch.activeCount = 0) (hclear : w.bWantsToCrouch = false)
    (es : List CrouchEvent) :
    ((run (crouchStep c) w es).held = false →
        (run (crouchStep c) w es).bWantsToCrouch = false) ∧
      ((run (crouchStep c) w es).held = true →
        ((run (crouchStep c) w es).bWantsToCrouch = true ↔ AcceptedPress c w es)) := by
  have hsettled := crouchSettled_inactive hinactive hclear
  refine ⟨fun hreleased => ?_, fun _ => wantsToCrouch_iff_acceptedPress c hsettled hclear es⟩
  have hheld := (always_of_invariant
    (fun w => CrouchSettled w ∧ (w.bWantsToCrouch = true → w.held = true))
    (fun _ e h => ⟨crouchSettled_step c h.1 e, held_of_wantsToCrouch_step c h.1 h.2 e⟩)
    ⟨hsettled, by simp [hclear]⟩ es).last.2
  by_contra hset
  rw [hheld (by simpa using hset)] at hreleased
  exact absurd hreleased (by decide)

end Step

/-- A crouch without effects of its own. -/
def plainCrouch : CrouchClass ℕ := ⟨[], [], some 0⟩

/-- A character that stands, with room above and the input released. -/
def standingCharacter : CrouchingCharacter ℕ where
  asc := HandleStore.empty
  crouch := .fresh
  bWantsToCrouch := false
  bIsCrouched := false
  roomToStand := true
  held := false

/-- A press, the crouching, the loss of the room above, the release and a second press. -/
def pressUnderCeiling : List CrouchEvent :=
  [.started (fun _ => .added) fun _ => .added, .movementUpdate .added, .roomChanged false,
    .completed, .started (fun _ => .added) fun _ => .added]

/-- While the input is held after the second press, under the ceiling, the request goes
back to an accepted press. -/
theorem request_acceptedPress_underCeiling :
    (run (crouchStep plainCrouch) standingCharacter pressUnderCeiling).bWantsToCrouch = true ↔
      AcceptedPress plainCrouch standingCharacter pressUnderCeiling :=
  (request_acceptedPress plainCrouch standingCharacter rfl rfl pressUnderCeiling).2 (by decide)

/-- Held after the second press, without the request. -/
theorem not_requestFollowsInput_pressUnderCeiling :
    ¬ Always (crouchStep plainCrouch) RequestFollowsInput standingCharacter
        pressUnderCeiling := by
  intro h
  have hfollows : (run (crouchStep plainCrouch) standingCharacter
      pressUnderCeiling).bWantsToCrouch = (run (crouchStep plainCrouch) standingCharacter
      pressUnderCeiling).held := h.last
  exact absurd hfollows (by decide)

end GasSamples.Analysis
