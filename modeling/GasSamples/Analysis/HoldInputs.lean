import GasSamples.Analysis.StateTags

/-!
# Abilities behind held inputs

Crouch and sprint are bound to hold: Started activates every ability that has all the tags
of the input, Completed cancels every ability that has any of them.  An ability is therefore
as active as the presses and releases that match its own tags make it, whatever happens to
the others, and an ability that only inputs activate has effects only while one is held.
-/

set_option autoImplicit false

namespace GasSamples.Analysis

open Reactive GasSamples.Model GasSamples.Program GasSamples.Program.BaseGameplayAbility

/-- The inputs that are bound to hold. -/
inductive HoldInput
  | crouch
  | sprint
deriving DecidableEq

/-- The granted specs, the tags that each of them has, parents included, and the tags of the
inputs.
SOURCE: GASCharacter.h:162-169 -/
structure InputTags (ι T : Type) where
  specs : List ι
  hasTag : ι → T → Bool
  crouchTags : List T
  sprintTags : List T

/-- One press: whether `CanActivateAbility` of each ability passes, and what happens in its
activation. -/
structure PressAttempts (ι : Type) where
  canActivate : ι → Bool
  script : ι → ActivationScript

/-- The component, and the inputs that are held. -/
structure HoldingCharacter (ι E : Type) where
  component : SharedComponent ι E
  held : HoldInput → Bool

/-- What happens to the character, or to its component through others. -/
inductive HoldEvent (ι E : Type)
  | started (input : HoldInput) (a : PressAttempts ι)
  | completed (input : HoldInput)
  | other (e : ComponentEvent ι E)

variable {ι E T : Type}

namespace InputTags

/-- The tags of an input. -/
def tagsOf (t : InputTags ι T) : HoldInput → List T
  | .crouch => t.crouchTags
  | .sprint => t.sprintTags

variable [DecidableEq ι] (c : ι → AbilityClass E) (t : InputTags ι T)

/-- One attempt of `TryActivateAbilitiesByTag`. -/
def attempt (a : PressAttempts ι) (s : SharedComponent ι E) (i : ι) : SharedComponent ι E :=
  if a.canActivate i then componentStep c s (.activate i (a.script i)) else s

/-- `TryActivateAbilitiesByTag`: the abilities that have all the tags are tried one after the
other, and none for an empty container. -/
def tryActivateAbilitiesByTag (tags : List T) (a : PressAttempts ι)
    (s : SharedComponent ι E) : SharedComponent ι E :=
  if tags.isEmpty then s
  else run (attempt c a) s (t.specs.filter fun i => tags.all (t.hasTag i))

/-- One cancel of `CancelAbilities`: of an active ability that has any of the tags. -/
def cancel (tags : List T) (s : SharedComponent ι E) (i : ι) : SharedComponent ι E :=
  if tags.any (t.hasTag i) && (s.abilities i).isActive then componentStep c s (.endAbility i)
  else s

/-- `CancelAbilities`. -/
def cancelAbilities (tags : List T) (s : SharedComponent ι E) : SharedComponent ι E :=
  run (cancel c t tags) s t.specs

/-- `OnCrouchStarted`.
SOURCE: GASCharacter.cpp:344-349 -/
def onCrouchStarted (a : PressAttempts ι) (s : SharedComponent ι E) : SharedComponent ι E :=
  tryActivateAbilitiesByTag c t t.crouchTags a s

/-- `OnCrouchEnded`.
SOURCE: GASCharacter.cpp:351-356 -/
def onCrouchEnded (s : SharedComponent ι E) : SharedComponent ι E :=
  cancelAbilities c t t.crouchTags s

/-- `OnSprintStarted`.
SOURCE: GASCharacter.cpp:358-363 -/
def onSprintStarted (a : PressAttempts ι) (s : SharedComponent ι E) : SharedComponent ι E :=
  tryActivateAbilitiesByTag c t t.sprintTags a s

/-- `OnSprintEnded`.
SOURCE: GASCharacter.cpp:365-370 -/
def onSprintEnded (s : SharedComponent ι E) : SharedComponent ι E :=
  cancelAbilities c t t.sprintTags s

/-- The handler that `SetupPlayerInputComponent` binds to Started.
SOURCE: GASCharacter.cpp:256-284 -/
def onStarted (input : HoldInput) (a : PressAttempts ι) (s : SharedComponent ι E) :
    SharedComponent ι E :=
  match input with
  | .crouch => onCrouchStarted c t a s
  | .sprint => onSprintStarted c t a s

/-- The handler that it binds to Completed.
SOURCE: GASCharacter.cpp:256-284 -/
def onCompleted (input : HoldInput) (s : SharedComponent ι E) : SharedComponent ι E :=
  match input with
  | .crouch => onCrouchEnded c t s
  | .sprint => onSprintEnded c t s

/-- Pressing an input tries the abilities of its tags. -/
theorem onStarted_eq (input : HoldInput) (a : PressAttempts ι) (s : SharedComponent ι E) :
    onStarted c t input a s = tryActivateAbilitiesByTag c t (t.tagsOf input) a s := by
  cases input <;> rfl

/-- Releasing an input cancels the abilities of its tags. -/
theorem onCompleted_eq (input : HoldInput) (s : SharedComponent ι E) :
    onCompleted c t input s = cancelAbilities c t (t.tagsOf input) s := by
  cases input <;> rfl

end InputTags

/-- One event. -/
def holdStep [DecidableEq ι] (c : ι → AbilityClass E) (t : InputTags ι T)
    (s : HoldingCharacter ι E) : HoldEvent ι E → HoldingCharacter ι E
  | .started input a =>
    ⟨t.onStarted c input a s.component, Function.update s.held input true⟩
  | .completed input => ⟨t.onCompleted c input s.component, Function.update s.held input false⟩
  | .other e => { s with component := componentStep c s.component e }

/-! ## One ability on its own -/

/-- A press of the input tries to activate the ability. -/
def activatesOn (t : InputTags ι T) (input : HoldInput) (i : ι) : Bool :=
  !(t.tagsOf input).isEmpty && (t.tagsOf input).all (t.hasTag i)

/-- A release of the input cancels the ability. -/
def cancelsOn (t : InputTags ι T) (input : HoldInput) (i : ι) : Bool :=
  (t.tagsOf input).any (t.hasTag i)

/-- An activation that is entered leaves the ability active. -/
def staysActive (c : AbilityClass E) (a : ActivationScript) : Bool :=
  decide (activationEndCount c a = 0)

section Activity

variable [DecidableEq ι] (c : ι → AbilityClass E) (t : InputTags ι T) (i : ι)

/-- Whether the ability is active after an event of the component. -/
def activityStep (active : Bool) : ComponentEvent ι E → Bool
  | .activate j a => active || (decide (j = i) && staysActive (c i) a)
  | .endAbility j => active && !decide (j = i)
  | .applied _ _ => active
  | .removed _ => active

/-- Whether the ability is active after an event, by its own tags alone. -/
def holdActivityStep (active : Bool) : HoldEvent ι E → Bool
  | .started input a =>
    active || (activatesOn t input i && (a.canActivate i && staysActive (c i) (a.script i)))
  | .completed input => active && !cancelsOn t input i
  | .other e => activityStep c i active e

end Activity

section Single

variable [DecidableEq ι] {c : ι → AbilityClass E} {s : SharedComponent ι E}

/-- No ability is running more than once. -/
def RunsOnce (s : SharedComponent ι E) : Prop := ∀ i, s.running i ≤ 1

omit [DecidableEq ι] in
/-- Abilities that have just been granted run at most once. -/
theorem runsOnce_of_granted (hs : s.Granted) : RunsOnce s := by
  intro i
  simp only [SharedComponent.running, hs i]
  exact Nat.zero_le 1

variable (hc : ∀ i, (c i).instancingPolicy.isInstantiated = true)
include hc

/-- Instances of instanced abilities run at most once after every event. -/
theorem RunsOnce.step (h : RunsOnce s) (e : ComponentEvent ι E) :
    RunsOnce (componentStep c s e) := by
  intro i
  rw [running_componentStep]
  have hi := h i
  cases e with
  | activate j a =>
    simp only [runningAfter]
    split
    · exact hi
    · rename_i hrefuses
      simp only [refuses, hc j, Bool.true_and, decide_eq_true_eq] at hrefuses
      by_cases hij : i = j
      · subst hij
        rw [Function.update_self]
        omega
      · rw [Function.update_of_ne hij]
        exact hi
  | endAbility j =>
    simp only [runningAfter]
    by_cases hij : i = j
    · subst hij
      rw [Function.update_self]
      omega
    · rw [Function.update_of_ne hij]
      exact hi
  | applied effect outcome => exact hi
  | removed kept => exact hi

/-- **The step lemma**: an event changes the activity of an ability as if there were no
other. -/
theorem isActive_componentStep (h : RunsOnce s) (i : ι) (e : ComponentEvent ι E) :
    ((componentStep c s e).abilities i).isActive =
      activityStep c i (s.abilities i).isActive e := by
  have hi := h i
  have hbefore : (s.abilities i).isActive = true ↔ 0 < s.running i :=
    AbilityInstance.isActive_eq_true _
  have hafter : ((componentStep c s e).abilities i).isActive = true ↔
      0 < runningAfter c s.running e i := by
    rw [← running_componentStep]
    exact AbilityInstance.isActive_eq_true _
  rw [Bool.eq_iff_iff, hafter]
  cases e with
  | activate j a =>
    simp only [runningAfter, activityStep, staysActive, Bool.or_eq_true, Bool.and_eq_true,
      decide_eq_true_eq, hbefore]
    by_cases hij : j = i
    · subst hij
      by_cases hrunning : 0 < s.running j
      · have hrefuses : refuses (c j) (s.running j) = true := by
          simp [refuses, hc j, hrunning]
        rw [if_pos hrefuses]
        exact iff_of_true hrunning (Or.inl hrunning)
      · have hrefuses : ¬ refuses (c j) (s.running j) = true := by
          simp [refuses, hrunning]
        have hzero : s.running j = 0 := by omega
        rw [if_neg hrefuses, Function.update_self, hzero]
        simp only [true_and, Nat.lt_irrefl, false_or]
        omega
    · split
      · simp [hij]
      · simp [hij, Function.update_of_ne (Ne.symm hij)]
  | endAbility j =>
    simp only [runningAfter, activityStep, Bool.and_eq_true, Bool.not_eq_true',
      decide_eq_false_iff_not, hbefore]
    by_cases hij : j = i
    · subst hij
      have hzero : s.running j - 1 = 0 := by omega
      rw [Function.update_self, hzero]
      simp
    · rw [Function.update_of_ne (Ne.symm hij)]
      simp [hij]
  | applied effect outcome => exact hbefore.symm
  | removed kept => exact hbefore.symm

/-- The attempts of one press. -/
theorem isActive_attempts (a : PressAttempts ι) (i : ι) (l : List ι) (h : RunsOnce s) :
    RunsOnce (run (InputTags.attempt c a) s l) ∧
      ((run (InputTags.attempt c a) s l).abilities i).isActive =
        ((s.abilities i).isActive || (decide (i ∈ l) &&
          (a.canActivate i && staysActive (c i) (a.script i)))) := by
  induction l generalizing s with
  | nil => simpa using h
  | cons j l ih =>
    have hnext : RunsOnce (InputTags.attempt c a s j) := by
      unfold InputTags.attempt
      split
      · exact h.step hc _
      · exact h
    have hone : ((InputTags.attempt c a s j).abilities i).isActive =
        ((s.abilities i).isActive || (decide (j = i) &&
          (a.canActivate i && staysActive (c i) (a.script i)))) := by
      unfold InputTags.attempt
      by_cases hcan : a.canActivate j = true
      · rw [if_pos hcan, isActive_componentStep hc h]
        by_cases hij : j = i
        · subst hij
          simp [activityStep, hcan]
        · simp [activityStep, hij]
      · rw [if_neg hcan]
        by_cases hij : j = i
        · subst hij
          simp [hcan]
        · simp [hij]
    obtain ⟨honce, hrest⟩ := ih hnext
    refine ⟨honce, ?_⟩
    rw [run_cons, hrest, hone]
    by_cases hij : j = i
    · subst hij
      cases a.canActivate j && staysActive (c j) (a.script j) <;> simp
    · simp [hij, Ne.symm hij]

/-- The cancels of one release. -/
theorem isActive_cancels (t : InputTags ι T) (tags : List T) (i : ι) (l : List ι)
    (h : RunsOnce s) :
    RunsOnce (run (InputTags.cancel c t tags) s l) ∧
      ((run (InputTags.cancel c t tags) s l).abilities i).isActive =
        ((s.abilities i).isActive && !(decide (i ∈ l) && tags.any (t.hasTag i))) := by
  induction l generalizing s with
  | nil => simpa using h
  | cons j l ih =>
    have hnext : RunsOnce (InputTags.cancel c t tags s j) := by
      unfold InputTags.cancel
      split
      · exact h.step hc _
      · exact h
    have hone : ((InputTags.cancel c t tags s j).abilities i).isActive =
        ((s.abilities i).isActive && !(decide (j = i) && tags.any (t.hasTag i))) := by
      unfold InputTags.cancel
      by_cases hij : j = i
      · subst hij
        by_cases hcancels : (tags.any (t.hasTag j) && (s.abilities j).isActive) = true
        · rw [if_pos hcancels, isActive_componentStep hc h]
          simp only [Bool.and_eq_true] at hcancels
          simp [activityStep, hcancels.1]
        · rw [if_neg hcancels]
          simp only [Bool.and_eq_true, not_and, Bool.not_eq_true] at hcancels
          cases htag : tags.any (t.hasTag j) with
          | false => simp
          | true => simp [hcancels htag]
      · split
        · rw [isActive_componentStep hc h]
          simp [activityStep, hij]
        · simp [hij]
    obtain ⟨honce, hrest⟩ := ih hnext
    refine ⟨honce, ?_⟩
    rw [run_cons, hrest, hone]
    by_cases hij : j = i
    · subst hij
      cases tags.any (t.hasTag j) <;> simp
    · simp [hij, Ne.symm hij]

end Single

/-! ## The inputs -/

/-- Every ability of the family is instanced per actor. -/
def AllInstancedPerActor (c : ι → AbilityClass E) : Prop :=
  ∀ i, (c i).instancingPolicy = .instancedPerActor

/-- Such abilities are instanced. -/
theorem AllInstancedPerActor.isInstantiated {c : ι → AbilityClass E}
    (hc : AllInstancedPerActor c) (i : ι) : (c i).instancingPolicy.isInstantiated = true := by
  rw [hc i]
  rfl

section Inputs

variable [DecidableEq ι] {c : ι → AbilityClass E} {t : InputTags ι T}
  {s : HoldingCharacter ι E} (hc : AllInstancedPerActor c)
  (hspecs : ∀ i, i ∈ t.specs)
include hc hspecs

/-- An event changes the activity of an ability as its inputs say. -/
theorem isActive_holdStep (h : RunsOnce s.component) (i : ι) (e : HoldEvent ι E) :
    RunsOnce (holdStep c t s e).component ∧
      ((holdStep c t s e).component.abilities i).isActive =
        holdActivityStep c t i (s.component.abilities i).isActive e := by
  cases e with
  | started input a =>
    simp only [holdStep, InputTags.onStarted_eq, InputTags.tryActivateAbilitiesByTag,
      holdActivityStep, activatesOn]
    by_cases hempty : (t.tagsOf input).isEmpty = true
    · rw [if_pos hempty, hempty]
      exact ⟨h, by simp⟩
    · rw [if_neg hempty]
      obtain ⟨honce, hactive⟩ := isActive_attempts hc.isInstantiated a i
        (t.specs.filter fun i => (t.tagsOf input).all (t.hasTag i)) h
      refine ⟨honce, ?_⟩
      rw [hactive]
      simp only [List.mem_filter, hspecs i, true_and, hempty, Bool.not_false, Bool.true_and,
        Bool.decide_eq_true]
  | completed input =>
    simp only [holdStep, InputTags.onCompleted_eq, InputTags.cancelAbilities,
      holdActivityStep, cancelsOn]
    obtain ⟨honce, hactive⟩ := isActive_cancels hc.isInstantiated t (t.tagsOf input) i t.specs h
    refine ⟨honce, ?_⟩
    rw [hactive]
    simp only [hspecs i, decide_true, Bool.true_and]
  | other e => exact ⟨h.step hc.isInstantiated e, isActive_componentStep hc.isInstantiated h i e⟩

/-- **An ability behind held inputs is as active as its own tags say.**  For every family of
abilities instanced per actor with any tags and effect lists, and every tags of the two inputs:
in every run, from abilities that were never activated, of presses with any outcomes and any
ends from inside the activations, releases, and events that others cause, whether an ability
is active is what the presses with all their tags on it and the releases with any of them
make it, and what others do to the other abilities makes no difference.
SOURCE: GASCharacter.cpp:256-284, 344-370, AG_BaseGameplayAbility.cpp:9-69 -/
theorem activity_of_inputs (hs : s.component.Granted) (i : ι) (es : List (HoldEvent ι E)) :
    ((run (holdStep c t) s es).component.abilities i).isActive =
      run (holdActivityStep c t i) false es := by
  have hrun : ∀ (s : HoldingCharacter ι E), RunsOnce s.component →
      ((run (holdStep c t) s es).component.abilities i).isActive =
        run (holdActivityStep c t i) (s.component.abilities i).isActive es := by
    induction es with
    | nil => exact fun _ _ => rfl
    | cons e es ih =>
      intro s h
      obtain ⟨honce, hactive⟩ := isActive_holdStep hc hspecs h i e
      rw [run_cons, run_cons, ih _ honce, hactive]
  have hidle : (s.component.abilities i).isActive = false := by
    rw [hs i]
    rfl
  rw [hrun s (runsOnce_of_granted hs), hidle]

end Inputs

/-! ## Effects and inputs -/

/-- No activation is ended from inside, and only inputs activate. -/
def OnlyInputsActivate (c : ι → AbilityClass E) : HoldEvent ι E → Prop
  | .started _ a => ∀ i, staysActive (c i) (a.script i) = true
  | .completed _ => True
  | .other (.activate _ _) => False
  | .other _ => True

/-- Some input with all its tags on the ability is held. -/
def IsHeldFor (t : InputTags ι T) (s : HoldingCharacter ι E) (i : ι) : Prop :=
  ∃ input, s.held input = true ∧ activatesOn t input i = true

/-- A release cancels what the press activates. -/
theorem cancelsOn_of_activatesOn {t : InputTags ι T} {input : HoldInput} {i : ι}
    (h : activatesOn t input i = true) : cancelsOn t input i = true := by
  unfold activatesOn at h
  unfold cancelsOn
  cases htags : t.tagsOf input with
  | nil => simp [htags] at h
  | cons tag tags =>
    simp only [htags, List.all_cons, Bool.and_eq_true] at h
    simp [h.2.1]

section Held

variable [DecidableEq ι] {c : ι → AbilityClass E} {t : InputTags ι T}
  {s : HoldingCharacter ι E} {i : ι} {e : HoldEvent ι E}

/-- An ability that is active after an event is so because of an input that is held. -/
theorem isHeldFor_step (he : OnlyInputsActivate c e) {active : Bool}
    (h : active = true → IsHeldFor t s i) (hactive : holdActivityStep c t i active e = true) :
    IsHeldFor t (holdStep c t s e) i := by
  cases e with
  | started input a =>
    simp only [holdActivityStep, Bool.or_eq_true, Bool.and_eq_true] at hactive
    rcases hactive with hbefore | ⟨hpress, -⟩
    · obtain ⟨other, hheld, hother⟩ := h hbefore
      refine ⟨other, ?_, hother⟩
      simp only [holdStep]
      by_cases heq : other = input
      · rw [heq, Function.update_self]
      · rw [Function.update_of_ne heq]
        exact hheld
    · refine ⟨input, ?_, hpress⟩
      simp only [holdStep, Function.update_self]
  | completed input =>
    simp only [holdActivityStep, Bool.and_eq_true, Bool.not_eq_true'] at hactive
    obtain ⟨other, hheld, hother⟩ := h hactive.1
    -- the input that is released does not have all its tags on the ability
    have hne : other ≠ input := by
      rintro rfl
      rw [cancelsOn_of_activatesOn hother] at hactive
      exact absurd hactive.2 (by simp)
    refine ⟨other, ?_, hother⟩
    simp only [holdStep, Function.update_of_ne hne]
    exact hheld
  | other e =>
    cases e with
    | activate j a => exact he.elim
    | endAbility j =>
      simp only [holdActivityStep, activityStep, Bool.and_eq_true] at hactive
      exact h hactive.1
    | applied effect outcome => exact h hactive
    | removed kept => exact h hactive

variable [Fintype ι]

/-- The component is accounted for, and an idle ability owns nothing. -/
structure HoldsNothingIdle (c : ι → AbilityClass E) (s : SharedComponent ι E) : Prop where
  separate : s.holdings.Separate
  idle : IdleOwnsNothing c s.ledger

/-- Where every activation ends later, what is inactive has no effects after an event. -/
theorem HoldsNothingIdle.step {s : SharedComponent ι E} (h : HoldsNothingIdle c s)
    {e : ComponentEvent ι E} (he : EndsLater c e) : HoldsNothingIdle c (componentStep c s e) := by
  refine ⟨separate_componentStep h.separate e, ?_⟩
  rw [ledger_componentStep h.separate]
  exact h.idle.step he

/-- An input leaves inactive abilities without effects. -/
theorem HoldsNothingIdle.holdStep (h : HoldsNothingIdle c s.component)
    (he : OnlyInputsActivate c e) : HoldsNothingIdle c (holdStep c t s e).component := by
  cases e with
  | started input a =>
    simp only [Analysis.holdStep, InputTags.onStarted_eq, InputTags.tryActivateAbilitiesByTag]
    split
    · exact h
    · refine inv_run (HoldsNothingIdle c) (fun _ => True) ?_ h fun _ _ => trivial
      intro s i _ hs
      unfold InputTags.attempt
      split
      · refine hs.step ?_
        exact fun _ => of_decide_eq_true (he i)
      · exact hs
  | completed input =>
    simp only [Analysis.holdStep, InputTags.onCompleted_eq, InputTags.cancelAbilities]
    refine inv_run (HoldsNothingIdle c) (fun _ => True) ?_ h fun _ _ => trivial
    intro s i _ hs
    unfold InputTags.cancel
    split
    · exact hs.step trivial
    · exact hs
  | other e =>
    cases e with
    | activate j a => exact he.elim
    | endAbility j => exact h.step (e := .endAbility j) trivial
    | applied effect outcome => exact h.step (e := .applied effect outcome) trivial
    | removed kept => exact h.step (e := .removed kept) trivial

end Held

/-- **Effects of an ability behind held inputs are there only while one is held.**  For
every family of abilities instanced per actor with any tags and effect lists, and every tags
of the two inputs: in every run, from abilities that were never activated, of presses,
releases, and ends, applications and removals by others, in which no activation is ended from
inside: in every state, unless an input with all its tags on the ability is held, the ability
is inactive and none of the effects that it would remove is active; and the effects of all
abilities and of nobody are all that is active.
SOURCE: GASCharacter.cpp:256-284, 344-370, AG_BaseGameplayAbility.cpp:9-69 -/
theorem effects_whileHeld [DecidableEq ι] [Fintype ι] (c : ι → AbilityClass E)
    (hc : AllInstancedPerActor c) (t : InputTags ι T)
    (hspecs : ∀ i, i ∈ t.specs) (s : HoldingCharacter ι E) (hs : s.component.Granted)
    (es : List (HoldEvent ι E)) (hes : ∀ e ∈ es, OnlyInputsActivate c e) :
    Always (holdStep c t) (fun s =>
      (∀ i, ¬ IsHeldFor t s i → (s.component.abilities i).isActive = false ∧
        s.component.ledger.bag.owned i = 0) ∧
      s.component.ledger.bag.total = (s.component.asc.values : Multiset E)) s es := by
  have hinit : HoldsNothingIdle c s.component :=
    ⟨separate_of_granted hs, idleOwnsNothing_of_granted c hs⟩
  have hinactive : ∀ i, (s.component.abilities i).isActive = true → IsHeldFor t s i := by
    intro i hactive
    rw [hs i] at hactive
    exact absurd hactive (by decide)
  have hkept : Always (holdStep c t) (fun s => HoldsNothingIdle c s.component ∧
      RunsOnce s.component ∧
        ∀ i, (s.component.abilities i).isActive = true → IsHeldFor t s i) s es := by
    refine always_of_invariant_on _ (OnlyInputsActivate c) ?_
      ⟨hinit, runsOnce_of_granted hs, hinactive⟩ hes
    rintro s e he ⟨hidle, honce, hheld⟩
    refine ⟨hidle.holdStep he, fun i => ?_, fun i hactive => ?_⟩
    · exact (isActive_holdStep hc hspecs honce i e).1 i
    · rw [(isActive_holdStep hc hspecs honce i e).2] at hactive
      exact isHeldFor_step he (hheld i) hactive
  intro pre hpre
  obtain ⟨hidle, -, hheld⟩ := hkept pre hpre
  refine ⟨fun i hnot => ?_, Holdings.total_bag hidle.separate⟩
  have hfalse : ((run (holdStep c t) s pre).component.abilities i).isActive = false := by
    rw [← Bool.not_eq_true]
    exact fun hactive => hnot (hheld i hactive)
  refine ⟨hfalse, hidle.idle i fun _ => ?_⟩
  exact (AbilityInstance.isActive_eq_false _).mp hfalse

/-! ## Two abilities behind two inputs -/

/-- The first of the two abilities is the sprint, the second one the crouch; both have the
tag 2, which the crouch input does not ask for. -/
def sprintAndCrouch : InputTags Bool ℕ where
  specs := [true, false]
  hasTag
    | true, tag => tag == 1 || tag == 2
    | false, tag => tag == 0 || tag == 2
  crouchTags := [0]
  sprintTags := [1, 2]

/-- The two abilities on a new component, with no input held. -/
def idleHands : HoldingCharacter Bool ℕ := ⟨newComponent, fun _ => false⟩

/-- A press whose activations add their effects. -/
def firmPress : PressAttempts Bool where
  canActivate _ := true
  script _ := .quiet (fun _ => .added) fun _ => .added

/-- Both inputs are pressed, the crouch is ended by others, the sprint input is released. -/
def crouchAndSprint : List (HoldEvent Bool ℕ) :=
  [.started .crouch firmPress, .started .sprint firmPress, .other (.endAbility false),
    .started .crouch firmPress, .completed .sprint]

/-- Two inputs held in turn: what is not held for has no effects. -/
theorem effects_whileHeld_crouchAndSprint :
    Always (holdStep twoAbilities sprintAndCrouch) (fun s =>
      (∀ i, ¬ IsHeldFor sprintAndCrouch s i → (s.component.abilities i).isActive = false ∧
        s.component.ledger.bag.owned i = 0) ∧
      s.component.ledger.bag.total = (s.component.asc.values : Multiset ℕ)) idleHands
      crouchAndSprint := by
  have hstays : ∀ i, staysActive (twoAbilities i) (firmPress.script i) = true := by
    intro i
    cases i <;> decide
  refine effects_whileHeld twoAbilities (fun i => by cases i <;> rfl) sprintAndCrouch
    (fun i => by cases i <;> decide) idleHands (fun _ => rfl) crouchAndSprint ?_
  intro e he
  simp only [crouchAndSprint, List.mem_cons, List.not_mem_nil, or_false] at he
  rcases he with rfl | rfl | rfl | rfl | rfl
  · exact hstays
  · exact hstays
  · trivial
  · exact hstays
  · trivial

/-- The release of the sprint ends the crouch too, for the tag that both have. -/
theorem activity_of_inputs_crouchAndSprint :
    ((run (holdStep twoAbilities sprintAndCrouch) idleHands crouchAndSprint).component.abilities
      false).isActive =
        run (holdActivityStep twoAbilities sprintAndCrouch false) false crouchAndSprint :=
  activity_of_inputs (fun i => by cases i <;> rfl) (fun i => by cases i <;> decide)
    (fun _ => rfl) false crouchAndSprint

example : run (holdActivityStep twoAbilities sprintAndCrouch false) false crouchAndSprint =
    false := by
  decide

end GasSamples.Analysis
