import GasSamples.Analysis.ModeOwnership
import GasSamples.Analysis.StateTags
import GasSamples.Analysis.WallRunGeometry

/-!
# The effects of the traversal abilities

The vault, the wall run and the jump share the component of the character, so each of
their events is a run of events of the component (`componentOf_attemptStep`).  What is
known of abilities that share a component then holds of the character: `WallRunStateTag`
is there exactly while the wall run is active, and the jump, which reads the tag and not
the ability, may be made in the air exactly then.
-/

set_option autoImplicit false

namespace GasSamples.Analysis

open Reactive GasSamples.Model GasSamples.Program

/-- The native traversal abilities. -/
inductive NativeAbility
  | vault
  | wallRun
  | jump
deriving DecidableEq

instance : Fintype NativeAbility where
  elems := {.vault, .wallRun, .jump}
  complete i := by cases i <;> simp

section Component

variable {K E C : Type}

/-- Their classes. -/
def nativeClasses (c : TraversalClasses E C) : NativeAbility → AbilityClass E
  | .vault => c.vault.base
  | .wallRun => c.wallRun.base
  | .jump => c.jump.base

/-- Their instances. -/
def nativeInstances (w : GASCharacter K E C) : NativeAbility → AbilityInstance
  | .vault => w.vault.ability
  | .wallRun => w.wallRun.ability
  | .jump => w.jump

/-- The component of a character, with the native traversal abilities. -/
def componentOf (w : GASCharacter K E C) : SharedComponent NativeAbility E :=
  ⟨w.asc, nativeInstances w⟩

/-- Two characters with the same component. -/
theorem componentOf_eq {w : GASCharacter K E C} {s : SharedComponent NativeAbility E}
    (hasc : w.asc = s.asc) (hvault : w.vault.ability = s.abilities .vault)
    (hwallRun : w.wallRun.ability = s.abilities .wallRun)
    (hjump : w.jump = s.abilities .jump) : componentOf w = s := by
  obtain ⟨asc, abilities⟩ := s
  unfold componentOf
  congr 1
  funext i
  cases i with
  | vault => exact hvault
  | wallRun => exact hwallRun
  | jump => exact hjump

end Component

/-! ## The events of the component -/

section Events

variable {K E C : Type} [DecidableEq E] [Field K] [LinearOrder K]

/-- The end of a wall run. -/
def wallRunEndEvents (c : WallRunClass E) : List (ComponentEvent NativeAbility E) :=
  removeClass c.wallRunLeftSideEffectClass ++ removeClass c.wallRunRightSideEffectClass ++
    [.endAbility .wallRun]

/-- What a wall that was found does to the component: the side effect is applied, and
`Landed` removes the effects that match `InAirTags`. -/
def wallFoundEvents (c : WallRunClass E) (side : WallSide) (outcome : ApplyOutcome) :
    List (ComponentEvent NativeAbility E) :=
  applyClass (sideClass c side) outcome ++ [.removed fun effect => !c.inAirTags effect]

/-- What an event of the vault does to the component. -/
def vaultEvents (w : GASCharacter K E C) : VaultEvent K → List (ComponentEvent NativeAbility E)
  | .activate env =>
    if entersVault w env then
      .activate .vault (.quiet env.start env.remove) ::
        if env.commit.passed && env.montagePlays then [] else [.endAbility .vault]
    else []
  | .montageFinished => if w.vault.ability.isActive then [.endAbility .vault] else []
  | .cancel => if w.vault.ability.isActive then [.endAbility .vault] else []

/-- What an event of the wall run does to the component. -/
def wallRunEvents (c : WallRunClass E) (w : GASCharacter K E C) :
    WallRunEvent K → List (ComponentEvent NativeAbility E)
  | .activate env callbacks =>
    if entersWallRun w env then
      .activate .wallRun (.quiet env.start env.remove) ::
        match TickWallRun.findRunnableWall env.lineTrace w with
        | none => wallRunEndEvents c
        | some (side, _) => wallFoundEvents c side callbacks.sideEffect.outcome
    else []
  | .tick lineTrace =>
    if destroysTask w (.tick lineTrace) then wallRunEndEvents c else []
  | .cancel => if destroysTask w .cancel then wallRunEndEvents c else []
  | .moved _ _ _ => []

/-- What an attempt to jump does to the component.  Without authority or a prediction key
the ability becomes active and applies nothing. -/
def jumpEvents (c : JumpClass E) (w : GASCharacter K E C) (env : JumpActivation) :
    List (ComponentEvent NativeAbility E) :=
  if JumpAbility.canActivateAbility c env w then
    [.activate .jump (.quiet
      (if env.hasAuthorityOrPredictionKey then env.start else fun _ => .rejected)
      fun _ => .rejected)]
  else []

/-- What an event of one ability does to the component. -/
def componentEvents (c : TraversalClasses E C) (w : GASCharacter K E C) :
    AttemptEvent K → List (ComponentEvent NativeAbility E)
  | .vault e => vaultEvents w e
  | .wallRun e => wallRunEvents c.wallRun w e
  | .jump env => jumpEvents c.jump w env
  | .other => []

end Events

/-! ## The simulation -/

section Simulation

variable {K E C : Type} [DecidableEq C] [DecidableEq E] (c : TraversalClasses E C)
  (w : GASCharacter K E C)

omit [DecidableEq E] in
/-- `EndAbility` of the vault, of a valid character. -/
theorem componentOf_vaultEnd (hv : w.avatarValid = true) :
    componentOf (VaultOverAbility.endAbility c.vault w) =
      componentStep (nativeClasses c) (componentOf w) (.endAbility .vault) := by
  have hbase := vaultEnd_baseState c.vault hv
  have hasc := congrArg BaseState.asc hbase
  have hability := congrArg BaseState.ability hbase
  apply componentOf_eq
  · exact hasc
  · exact hability
  · rw [vaultEnd_wallRun]
    rfl
  · rw [vaultEnd_jump]
    rfl

omit [DecidableEq C] [DecidableEq E] in
/-- The base part of a vault activation. -/
theorem componentOf_committing {env : VaultActivation K} (hentered : entersVault w env = true) :
    componentOf (committing c.vault env w) =
      componentStep (nativeClasses c) (componentOf w)
        (.activate .vault (.quiet env.start env.remove)) := by
  simp only [entersVault, Bool.and_eq_true, Bool.not_eq_true'] at hentered
  have hrefuses : refuses (nativeClasses c .vault) ((componentOf w).running .vault) = false := by
    simp only [refuses, Bool.and_eq_false_iff]
    exact Or.inr hentered.1
  simp only [componentStep, activateInstance_base, hrefuses, Bool.false_eq_true, if_false]
  apply componentOf_eq <;> rfl

omit [DecidableEq E] in
/-- The start of a vault leaves the component to its super class. -/
theorem componentOf_beginVault :
    componentOf (VaultOverAbility.beginVault c.vault w) = componentOf w := by
  unfold VaultOverAbility.beginVault
  split <;> rfl

omit [DecidableEq E] in
/-- A step of the vault is its events on the shared component. -/
theorem componentOf_vaultStep (hv : w.avatarValid = true) (e : VaultEvent K) :
    componentOf (vaultStep c.vault w e) =
      run (componentStep (nativeClasses c)) (componentOf w) (vaultEvents w e) := by
  cases e with
  | activate env =>
    rw [vaultStep_activate]
    simp only [vaultEvents]
    by_cases hentered : entersVault w env = true
    · simp only [hentered, if_true, run_cons, ← componentOf_committing c w hentered]
      have hv' : (committing c.vault env w).avatarValid = true := hv
      by_cases hpassed : env.commit.passed = true
      · rw [activateAbility_of_passed c.vault env w hpassed]
        simp only [hpassed, Bool.true_and]
        by_cases hplays : env.montagePlays = true
        · simp only [hplays, if_true, run_nil]
          exact componentOf_beginVault c _
        · simp only [hplays, Bool.false_eq_true, if_false, run_cons, run_nil]
          rw [componentOf_vaultEnd c _ (by simpa using hv)]
          have hbegun := componentOf_beginVault c (committing c.vault env w)
          show componentStep _ (componentOf (VaultOverAbility.beginVault c.vault
            (committing c.vault env w))) _ = _
          rw [hbegun]
      · have hfailed : env.commit.passed = false := by simpa using hpassed
        rw [activateAbility_of_failed c.vault env w hfailed]
        simp only [hfailed, Bool.false_and, Bool.false_eq_true, if_false, run_cons, run_nil]
        exact componentOf_vaultEnd c _ hv'
    · simp only [hentered, Bool.false_eq_true, if_false, run_nil]
  | montageFinished =>
    simp only [vaultStep, VaultOverAbility.onMontageFinished, vaultEvents]
    split
    · exact componentOf_vaultEnd c w hv
    · rfl
  | cancel =>
    simp only [vaultStep, VaultOverAbility.cancelAbility, vaultEvents]
    split
    · exact componentOf_vaultEnd c w hv
    · rfl

omit [DecidableEq C] [DecidableEq E] in
/-- Applications that are all refused leave the component alone. -/
theorem foldl_rejected (k : AbilityClass E) (effects : List (Option E)) (b : BaseState E) :
    (BaseGameplayAbility.entries effects fun _ => .quiet .rejected).foldl
      (BaseGameplayAbility.applyEffect k false) b = b := by
  unfold BaseGameplayAbility.entries
  induction effects.zipIdx generalizing b with
  | nil => rfl
  | cons p ps ih =>
    have hentry : BaseGameplayAbility.applyEffect k false b (p.1, .quiet .rejected) = b := by
      cases p.1 <;> rfl
    rw [List.map_cons, List.foldl_cons, hentry]
    exact ih b

omit [DecidableEq C] [DecidableEq E] in
/-- An attempt of the jump is its events on the shared component. -/
theorem componentOf_jumpStep (env : JumpActivation) :
    componentOf (JumpAbility.tryActivateAbility c.jump env w).2 =
      run (componentStep (nativeClasses c)) (componentOf w) (jumpEvents c.jump w env) := by
  unfold JumpAbility.tryActivateAbility jumpEvents
  by_cases hcan : JumpAbility.canActivateAbility c.jump env w = true
  · simp only [hcan, if_true, run_cons, run_nil, componentStep]
    have hrefuses : refuses (nativeClasses c .jump) ((componentOf w).running .jump) = false := rfl
    rw [activateInstance_base, hrefuses]
    simp only [Bool.false_eq_true, if_false]
    unfold JumpAbility.activateAbility
    by_cases hauth : env.hasAuthorityOrPredictionKey = true
    · simp only [hauth, if_true]
      split
      · apply componentOf_eq <;> rfl
      · apply componentOf_eq <;> rfl
    · simp only [hauth, Bool.false_eq_true, if_false]
      have hnothing : BaseGameplayAbility.activateAbility c.jump.base
          (.quiet (fun _ => .rejected) fun _ => .rejected)
          (BaseGameplayAbility.preActivate ((componentOf w).base .jump)) =
            BaseGameplayAbility.preActivate ((componentOf w).base .jump) :=
        foldl_rejected c.jump.base c.jump.ongoingEffectsToApplyOnStart _
      show _ = (componentOf w).setBase .jump (BaseGameplayAbility.activateAbility c.jump.base _ _)
      rw [hnothing]
      apply componentOf_eq <;> rfl
  · simp only [hcan, Bool.false_eq_true, if_false, run_nil]

omit [DecidableEq C] in
/-- A removal by class is an event of other parties on the shared component. -/
theorem componentOf_removeClass (effect : Option E) :
    componentOf { w with asc := w.asc.removeActiveGameplayEffectBySourceEffect effect } =
      run (componentStep (nativeClasses c)) (componentOf w) (removeClass effect) := by
  cases effect <;> rfl

variable [Field K]

omit [DecidableEq C] in
/-- `EndAbility` of the wall run. -/
theorem componentOf_wallRunEnd :
    componentOf (WallRunAbility.endAbility c.wallRun w) =
      run (componentStep (nativeClasses c)) (componentOf w) (wallRunEndEvents c.wallRun) := by
  have htask : componentOf (TickWallRun.endTask w) = componentOf w := by
    unfold TickWallRun.endTask
    split <;> rfl
  unfold wallRunEndEvents
  rw [run_append, run_append, ← htask, ← componentOf_removeClass c, ← componentOf_removeClass c,
    run_cons, run_nil]
  apply componentOf_eq <;> rfl

variable [LinearOrder K]

omit [DecidableEq C] [DecidableEq E] [Field K] [LinearOrder K] in
/-- The base part of a wall-run activation. -/
theorem componentOf_searching {env : WallRunActivation K}
    (hentered : entersWallRun w env = true) :
    componentOf (searching c.wallRun env w) =
      componentStep (nativeClasses c) (componentOf w)
        (.activate .wallRun (.quiet env.start env.remove)) := by
  simp only [entersWallRun, Bool.and_eq_true, Bool.not_eq_true'] at hentered
  have hrefuses : refuses (nativeClasses c .wallRun) ((componentOf w).running .wallRun) =
      false := by
    simp only [refuses, Bool.and_eq_false_iff]
    exact Or.inr hentered.1
  simp only [componentStep, activateInstance_base, hrefuses, Bool.false_eq_true, if_false]
  apply componentOf_eq <;> rfl

omit [DecidableEq C] [LinearOrder K] in
/-- The calls out of a task that found a wall. -/
theorem componentOf_wallFound (side : WallSide) (outcome : ApplyOutcome) :
    componentOf ((WallRunAbility.delegates c.wallRun (.quiet outcome)).landed
        ((WallRunAbility.delegates c.wallRun (.quiet outcome)).onWallSideDetermened
          (decide (side = .left)) w)) =
      run (componentStep (nativeClasses c)) (componentOf w)
        (wallFoundEvents c.wallRun side outcome) := by
  have happly : ∀ effect : Option E, componentOf (AGASCharacter.applyGameplayEffectToSelf
      (WallRunAbility.endAbility c.wallRun) effect (.quiet outcome) w).2 =
        run (componentStep (nativeClasses c)) (componentOf w)
          (applyClass effect outcome) := by
    intro effect
    cases effect with
    | none => rfl
    | some effect =>
      unfold AGASCharacter.applyGameplayEffectToSelf applyClass
      have hquiet : (ApplyCall.quiet outcome).outcome = outcome := rfl
      simp only [hquiet]
      by_cases hspec : outcome = .invalidSpec
      · simp only [if_pos hspec, run_nil]
      · simp only [if_neg hspec]
        rfl
  unfold wallFoundEvents
  rw [run_append, ← happly]
  cases side <;> (apply componentOf_eq <;> rfl)

omit [DecidableEq C] in
/-- A quiet step of the wall run is its events on the shared component. -/
theorem componentOf_wallRunStep [IsStrictOrderedRing K] (hw : WallRunSettled w)
    {e : WallRunEvent K} (hq : QuietEvent e) :
    componentOf (wallRunStep c.wallRun w e) =
      run (componentStep (nativeClasses c)) (componentOf w) (wallRunEvents c.wallRun w e) := by
  cases e with
  | activate env callbacks =>
    obtain ⟨outcome, rfl⟩ := hq
    rw [wallRunStep_activate]
    simp only [wallRunEvents]
    by_cases hentered : entersWallRun w env = true
    · simp only [hentered, if_true, run_cons, ← componentOf_searching c w hentered]
      have hsettled := settled_searching c.wallRun env (activeCount_eq_zero_of_enters hentered)
      have hsearch := findRunnableWall_searching c.wallRun env w
      rw [activateAbility_eq_activate]
      unfold TickWallRun.activate
      rw [hsearch]
      cases hfound : TickWallRun.findRunnableWall env.lineTrace w with
      | none =>
        have hrun : (sessionOf (searching c.wallRun env w)).running.isSome = true := by
          rw [sessionOf_searching]
          rfl
        have hfinish : TickWallRun.finish
            (WallRunAbility.delegates c.wallRun (.quiet outcome)).onFinished
            (searching c.wallRun env w) =
              WallRunAbility.endAbility c.wallRun (searching c.wallRun env w) :=
          finish_eq_endAbility c.wallRun hsettled hrun
        simp only [hfinish]
        exact componentOf_wallRunEnd c _
      | some found =>
        obtain ⟨side, hit⟩ := found
        rw [← hsearch] at hfound
        simp only [isWallOnTheLeft_of_found hfound]
        have hcalls := componentOf_wallFound c
          (TickWallRun.accept side (searching c.wallRun env w)) side outcome
        exact hcalls
    · simp only [hentered, Bool.false_eq_true, if_false, run_nil]
  | tick lineTrace =>
    simp only [wallRunEvents]
    by_cases hd : destroysTask w (.tick lineTrace) = true
    · simp only [destroysTask, Bool.and_eq_true, Option.isNone_iff_eq_none] at hd
      obtain ⟨t, ht⟩ : ∃ t, w.wallRun.liveTask = some t := by
        rw [← Option.isSome_iff_exists]
        simpa [sessionOf] using hd.1
      have hd' : destroysTask w (.tick lineTrace) = true := by
        simp [destroysTask, hd.1, hd.2]
      simp only [hd', if_true, wallRunStep, WallRunAbility.tick, ht, TickWallRun.tickTask, hd.2]
      rw [finish_eq_endAbility c.wallRun hw hd.1]
      exact componentOf_wallRunEnd c w
    · -- a tick that finds the wall steers, or there is no task to tick
      simp only [hd, Bool.false_eq_true, if_false, run_nil, wallRunStep, WallRunAbility.tick]
      cases hlive : w.wallRun.liveTask with
      | none => rfl
      | some t =>
        have hrun : (sessionOf w).running.isSome = true := by
          simp [sessionOf, hlive]
        cases hfound : TickWallRun.findRunnableWall lineTrace w with
        | none => exact absurd hd (by simp [destroysTask, hrun, hfound])
        | some found =>
          obtain ⟨side, hit⟩ := found
          simp only [TickWallRun.tickTask, hfound]
          rfl
  | cancel =>
    simp only [wallRunEvents, wallRunStep, WallRunAbility.cancelAbility, hw.isActive,
      destroysTask]
    by_cases hrun : (sessionOf w).running.isSome = true
    · simp only [hrun, if_true]
      exact componentOf_wallRunEnd c w
    · simp only [hrun, Bool.false_eq_true, if_false, run_nil]
  | moved location forward right => rfl

/-- **Each event of one ability is a run of events of the component.** -/
theorem componentOf_attemptStep [IsStrictOrderedRing K] (hw : Settled w) {e : AttemptEvent K}
    (hq : QuietAttempt e) :
    componentOf (attemptStep c w e) =
      run (componentStep (nativeClasses c)) (componentOf w) (componentEvents c w e) := by
  cases e with
  | vault e => exact componentOf_vaultStep c w hw.1.1 e
  | wallRun e => exact componentOf_wallRunStep c w hw.2.1 hq
  | jump env => exact componentOf_jumpStep c w env
  | other => rfl

end Simulation

/-! ## The attempts of a run -/

section Possible

variable {K E C : Type}

/-- The attempts that an event of the character may stand for. -/
def possibleAttempts : TraversalEvent K → List (AttemptEvent K)
  | .jumpPress attempts => attempts.map attemptEvent
  | .capsuleHit env sideEffect => [.wallRun (.activate env (.quiet sideEffect))]
  | .tick lineTrace => [.wallRun (.tick lineTrace)]
  | .montageFinished => [.vault .montageFinished]
  | .cancelVault => [.vault .cancel]
  | .cancelWallRun => [.wallRun .cancel]
  | .moved location forward right => [.wallRun (.moved location forward right)]

variable [DecidableEq C] [DecidableEq E] [Field K] [LinearOrder K] (c : TraversalClasses E C)

/-- A jump press makes no attempts but those on its list. -/
theorem attemptsMade_subset (w : GASCharacter K E C) (as : List (TraversalAttempt K)) :
    attemptsMade c w as ⊆ as.map attemptEvent := by
  induction as generalizing w with
  | nil => exact List.Subset.refl _
  | cons attempt as ih =>
    intro e he
    simp only [attemptsMade, List.mem_cons] at he
    rcases he with rfl | he
    · exact List.mem_cons_self
    · split at he
      · exact absurd he List.not_mem_nil
      · exact List.mem_cons_of_mem _ (ih _ he)

/-- Every attempt of a run belongs to an event of it. -/
theorem exists_of_mem_attempts {w : GASCharacter K E C} {es : List (TraversalEvent K)}
    {e : AttemptEvent K} (he : e ∈ attempts c w es) :
    ∃ event ∈ es, e ∈ possibleAttempts event := by
  induction es generalizing w with
  | nil => exact absurd he List.not_mem_nil
  | cons event es ih =>
    rcases List.mem_append.mp he with he | he
    · refine ⟨event, List.mem_cons_self, ?_⟩
      cases event with
      | jumpPress as => exact attemptsMade_subset c w as he
      | capsuleHit env sideEffect => exact he
      | tick lineTrace => exact he
      | montageFinished => exact he
      | cancelVault => exact he
      | cancelWallRun => exact he
      | moved location forward right => exact he
    · obtain ⟨event', hmem, he'⟩ := ih he
      exact ⟨event', List.mem_cons_of_mem _ hmem, he'⟩

end Possible

/-! ## The ledger of the character -/

section Ledger

variable {K E C : Type} [DecidableEq C] [DecidableEq E] [Field K] [LinearOrder K]
  [IsStrictOrderedRing K] (c : TraversalClasses E C)

omit [DecidableEq C] [DecidableEq E] [Field K] [LinearOrder K] [IsStrictOrderedRing K] in
/-- A quiet activation ends nothing from inside. -/
theorem activationEndCount_quiet (k : AbilityClass E) (start remove : ℕ → ApplyOutcome) :
    activationEndCount k (.quiet start remove) = 0 := by
  have hlist : ∀ (effects : List (Option E)) (outcome : ℕ → ApplyOutcome),
      ((BaseGameplayAbility.entries effects fun i => .quiet (outcome i)).map entryEndCount).sum =
        0 := by
    intro effects outcome
    apply List.sum_eq_zero
    intro n hn
    obtain ⟨⟨effect, call⟩, hentry, rfl⟩ := List.mem_map.mp hn
    have hends := entries_quiet hentry
    cases effect with
    | none => rfl
    | some effect =>
      simp only [ApplyCall.ends, Bool.or_eq_false_iff] at hends
      simp [entryEndCount, hends.1, hends.2]
  unfold activationEndCount ActivationScript.quiet
  simp [hlist]

omit [DecidableEq C] [Field K] [LinearOrder K] [IsStrictOrderedRing K] in
/-- The events of the component that an event of one ability may have: activations that
are not ended from inside, ends, applications of a side effect, and removals of a side
effect or of what matches `InAirTags`. -/
def ArisesFrom (e : AttemptEvent K) : ComponentEvent NativeAbility E → Prop
  | .activate i a => ∃ start remove, a = .quiet start remove ∧ (i = .wallRun →
      ∃ env callbacks, e = .wallRun (.activate env callbacks) ∧ remove = env.remove)
  | .endAbility _ => True
  | .applied effect _ => ∃ side, sideClass c.wallRun side = some effect
  | .removed kept =>
    (∃ side effect, sideClass c.wallRun side = some effect ∧ kept = fun other => other != effect) ∨
      kept = fun effect => !c.wallRun.inAirTags effect

omit [DecidableEq C] [Field K] [LinearOrder K] [IsStrictOrderedRing K] in
/-- The events of the end of a wall run arise from any attempt. -/
theorem arises_wallRunEnd {e : AttemptEvent K} {d : ComponentEvent NativeAbility E}
    (hd : d ∈ wallRunEndEvents c.wallRun) : ArisesFrom c e d := by
  have hclass : ∀ side, d ∈ removeClass (sideClass c.wallRun side) → ArisesFrom c e d := by
    intro side hmem
    cases heffect : sideClass c.wallRun side with
    | none =>
      rw [heffect] at hmem
      exact absurd hmem List.not_mem_nil
    | some effect =>
      rw [heffect] at hmem
      rw [List.mem_singleton.mp hmem]
      exact Or.inl ⟨side, effect, heffect, rfl⟩
  rcases List.mem_append.mp hd with hsides | hend
  · rcases List.mem_append.mp hsides with hleft | hright
    · exact hclass .left hleft
    · exact hclass .right hright
  · rw [List.mem_singleton.mp hend]
    trivial

omit [DecidableEq C] [DecidableEq E] [Field K] [LinearOrder K] [IsStrictOrderedRing K] in
/-- The events of a wall that is found arise from any attempt. -/
theorem arises_wallFound [DecidableEq E] {e : AttemptEvent K}
    {d : ComponentEvent NativeAbility E} {side : WallSide} {outcome : ApplyOutcome}
    (hd : d ∈ wallFoundEvents c.wallRun side outcome) : ArisesFrom c e d := by
  rcases List.mem_append.mp hd with hside | hair
  · cases heffect : sideClass c.wallRun side with
    | none =>
      rw [heffect] at hside
      exact absurd hside List.not_mem_nil
    | some effect =>
      rw [heffect] at hside
      unfold applyClass at hside
      simp only [] at hside
      split at hside
      · exact absurd hside List.not_mem_nil
      · rw [List.mem_singleton.mp hside]
        exact ⟨side, heffect⟩
  · rw [List.mem_singleton.mp hair]
    exact Or.inr rfl

omit [DecidableEq C] [IsStrictOrderedRing K] in
/-- Every event of an attempt on the component arises from it. -/
theorem arises_of_mem_componentEvents {w : GASCharacter K E C} {e : AttemptEvent K}
    {d : ComponentEvent NativeAbility E} (hd : d ∈ componentEvents c w e) :
    ArisesFrom c e d := by
  cases e with
  | vault e =>
    cases e with
    | activate env =>
      simp only [componentEvents, vaultEvents] at hd
      split at hd
      · rcases List.mem_cons.mp hd with rfl | hend
        · exact ⟨env.start, env.remove, rfl, fun h => absurd h (by decide)⟩
        · split at hend
          · exact absurd hend List.not_mem_nil
          · rw [List.mem_singleton.mp hend]
            trivial
      · exact absurd hd List.not_mem_nil
    | montageFinished =>
      simp only [componentEvents, vaultEvents] at hd
      split at hd
      · rw [List.mem_singleton.mp hd]
        trivial
      · exact absurd hd List.not_mem_nil
    | cancel =>
      simp only [componentEvents, vaultEvents] at hd
      split at hd
      · rw [List.mem_singleton.mp hd]
        trivial
      · exact absurd hd List.not_mem_nil
  | wallRun e =>
    cases e with
    | activate env callbacks =>
      simp only [componentEvents, wallRunEvents] at hd
      split at hd
      · rcases List.mem_cons.mp hd with rfl | hrest
        · exact ⟨env.start, env.remove, rfl, fun _ => ⟨env, callbacks, rfl, rfl⟩⟩
        · cases hfound : TickWallRun.findRunnableWall env.lineTrace w with
          | none =>
            rw [hfound] at hrest
            exact arises_wallRunEnd c hrest
          | some found =>
            rw [hfound] at hrest
            exact arises_wallFound c hrest
      · exact absurd hd List.not_mem_nil
    | tick lineTrace =>
      simp only [componentEvents, wallRunEvents] at hd
      split at hd
      · exact arises_wallRunEnd c hd
      · exact absurd hd List.not_mem_nil
    | cancel =>
      simp only [componentEvents, wallRunEvents] at hd
      split at hd
      · exact arises_wallRunEnd c hd
      · exact absurd hd List.not_mem_nil
    | moved location forward right => exact absurd hd List.not_mem_nil
  | jump env =>
    simp only [componentEvents, jumpEvents] at hd
    split at hd
    · rw [List.mem_singleton.mp hd]
      exact ⟨_, _, rfl, fun h => absurd h (by decide)⟩
    · exact absurd hd List.not_mem_nil
  | other => exact absurd hd List.not_mem_nil

omit [DecidableEq C] [Field K] [LinearOrder K] [IsStrictOrderedRing K] in
/-- No activation of the three abilities is ended from inside. -/
theorem endsLater_of_arises {e : AttemptEvent K} {d : ComponentEvent NativeAbility E}
    (hd : ArisesFrom c e d) : EndsLater (nativeClasses c) d := by
  cases d with
  | activate i a =>
    obtain ⟨start, remove, rfl, -⟩ := hd
    exact fun _ => activationEndCount_quiet _ start remove
  | endAbility i => trivial
  | applied effect outcome => trivial
  | removed kept => trivial

/-- The events of the component that the events of a run stand for. -/
def componentRun (w : GASCharacter K E C) (es : List (TraversalEvent K)) :
    List (ComponentEvent NativeAbility E) :=
  viewRun (attemptStep c) (componentEvents c) w (attempts c w es)

omit [IsStrictOrderedRing K] in
/-- A run of the system is a run of its attempts. -/
theorem traversalRun_eq (w : GASCharacter K E C) (es : List (TraversalEvent K)) :
    run (traversalStep c) w es = run (attemptStep c) w (attempts c w es) := by
  induction es generalizing w with
  | nil => rfl
  | cons e es ih =>
    rw [run_cons, ih, traversalStep_eq_run, attempts, attempts, viewRun, run_append,
      traversalStep_eq_run]

/-- A character on which no native traversal ability is active or was ever activated. -/
structure Idle (w : GASCharacter K E C) : Prop where
  avatarValid : w.avatarValid = true
  granted : (componentOf w).Granted
  noTask : w.wallRun.liveTask = none

omit [DecidableEq C] [DecidableEq E] [Field K] [LinearOrder K] [IsStrictOrderedRing K] in
/-- An idle character is settled. -/
theorem Idle.settled {w : GASCharacter K E C} (h : Idle w) : Settled w := by
  have hvault : w.vault.ability = .fresh := h.granted .vault
  have hwallRun : w.wallRun.ability = .fresh := h.granted .wallRun
  refine ⟨⟨h.avatarValid, ?_, ?_⟩, onWall_idle ?_ h.noTask⟩
  · rw [hvault]
    exact Nat.zero_le 1
  · rw [hvault]
    exact fun hpos => absurd hpos (Nat.lt_irrefl 0)
  · rw [hwallRun]
    rfl

/-- **The traversal abilities follow the effect ledger.**  For every run of jump presses
over any list of abilities, capsule hits, ticks, montage callbacks and cancels, from an idle
character, in which nothing ends an ability from inside its activation or callbacks: the
effects that the vault, the wall run and the jump hold and those that nobody holds are what
the ledger says, the ledger accounts for all active effects, and in every state an inactive
vault and an inactive wall run hold none, and the jump never holds one.
SOURCE: AG_BaseGameplayAbility.cpp:9-69, AG_VaultOverAbility.cpp:154-235,
AG_WallRunAbility.cpp:54-109, AG_JumpAbility.cpp:36-52, GASCharacter.cpp:99-138 -/
theorem traversal_refines_ledger (w : GASCharacter K E C) (hw : Idle w)
    (es : List (TraversalEvent K)) :
    (componentOf (run (traversalStep c) w es)).ledger =
        run (ledgerStep (nativeClasses c)) (componentOf w).ledger (componentRun c w es) ∧
      Always (traversalStep c) (fun w =>
        (componentOf w).ledger.bag.total = (w.asc.values : Multiset E) ∧
          IdleOwnsNothing (nativeClasses c) (componentOf w).ledger) w es := by
  have hview : ∀ (w : GASCharacter K E C) e, QuietAttempt e → Settled w →
      componentOf (attemptStep c w e) =
        run (componentStep (nativeClasses c)) (componentOf w) (componentEvents c w e) :=
    fun w e hq hw => componentOf_attemptStep c w hw hq
  have hkeep : ∀ (w : GASCharacter K E C) e, QuietAttempt e → Settled w →
      Settled (attemptStep c w e) := fun w e hq hw => settled_attemptStep c hw hq
  have hsep := separate_of_granted hw.granted
  have hquiet : ∀ e ∈ attempts c w es, QuietAttempt e := quiet_attempts c
  refine ⟨?_, always_of_viewRun (attemptsOf c) (traversalStep_eq_run c) ?_⟩
  · rw [traversalRun_eq, abs_run Settled QuietAttempt hview hkeep hw.settled hquiet]
    exact ledger_run hsep _
  · have hlater : ∀ d ∈ componentRun c w es, EndsLater (nativeClasses c) d :=
      forall_mem_viewRun Settled QuietAttempt
        (fun w e _ _ d hd => endsLater_of_arises c (arises_of_mem_componentEvents c hd)) hkeep
        hw.settled hquiet
    have hkept := always_ledger (IdleOwnsNothing (nativeClasses c)) (EndsLater (nativeClasses c))
      (fun _ _ he h => h.step he) hsep (idleOwnsNothing_of_granted (nativeClasses c) hw.granted)
      hlater
    have hcomponent : Always (componentStep (nativeClasses c)) (fun s =>
        s.ledger.bag.total = (s.asc.values : Multiset E) ∧
          IdleOwnsNothing (nativeClasses c) s.ledger) (componentOf w) (componentRun c w es) :=
      fun pre hpre => ⟨Holdings.total_bag (hkept pre hpre).1, (hkept pre hpre).2⟩
    exact always_of_abs Settled QuietAttempt hview hkeep hw.settled hquiet hcomponent

/-! ## Jumping in the air -/

omit [DecidableEq C] [DecidableEq E] [Field K] [LinearOrder K] [IsStrictOrderedRing K] in
/-- Effects that grant `WallRunStateTag` are in no list but the second one of the wall run,
and match neither a side effect nor `InAirTags`. -/
structure WallRunTag : Prop where
  state : StateTagOf (nativeClasses c) .wallRun c.jump.wallRunStateTag
  side : ∀ side effect, sideClass c.wallRun side = some effect →
    c.jump.wallRunStateTag effect = false
  air : ∀ effect, c.jump.wallRunStateTag effect = true → c.wallRun.inAirTags effect = false

omit [DecidableEq C] [DecidableEq E] [Field K] [LinearOrder K] [IsStrictOrderedRing K] in
/-- If this is an attempt to run along a wall, the base class adds `WallRunStateTag`. -/
def AddsWallRunTag : AttemptEvent K → Prop
  | .wallRun (.activate env _) => AddsTag c.jump.wallRunStateTag
      (BaseGameplayAbility.entries c.wallRun.ongoingEffectsToRemoveOnEnd
        fun i => .quiet (env.remove i))
  | _ => True

omit [DecidableEq C] [Field K] [LinearOrder K] [IsStrictOrderedRing K] in
/-- What arises from an attempt leaves the tag of the wall run to the wall run. -/
theorem leavesTag_of_arises (hc : WallRunTag c) {e : AttemptEvent K} (he : AddsWallRunTag c e)
    {d : ComponentEvent NativeAbility E} (hd : ArisesFrom c e d) :
    LeavesTag (nativeClasses c) .wallRun c.jump.wallRunStateTag d := by
  cases d with
  | activate i a =>
    obtain ⟨start, remove, rfl, hwall⟩ := hd
    intro hi
    obtain ⟨env, callbacks, rfl, rfl⟩ := hwall hi
    exact ⟨activationEndCount_quiet _ start env.remove, he⟩
  | endAbility i => trivial
  | applied effect outcome =>
    obtain ⟨side, hside⟩ := hd
    exact fun _ => hc.side side effect hside
  | removed kept =>
    intro effect hgrants
    rcases hd with ⟨side, other, hside, rfl⟩ | rfl
    · -- the class that is removed does not grant the tag
      simp only [bne_iff_ne, ne_eq]
      rintro rfl
      rw [hc.side side effect hside] at hgrants
      exact absurd hgrants (by simp)
    · simp [hc.air effect hgrants]

/-- The jump may be made in the air exactly during a wall run. -/
def JumpsDuringWallRun (w : GASCharacter K E C) : Prop :=
  ∀ env, JumpAbility.canActivateAbility c.jump env w =
    (env.superCanActivate &&
      (env.canJump || (env.isJumpAllowed && w.wallRun.ability.isActive)))

omit [DecidableEq C] [DecidableEq E] [Field K] [LinearOrder K] [IsStrictOrderedRing K] in
/-- Where the tag tells the wall run, the answer of the jump does. -/
theorem jumpsDuringWallRun_of_tag {w : GASCharacter K E C}
    (h : w.asc.hasMatchingGameplayTag c.jump.wallRunStateTag = true ↔
      w.wallRun.ability.isActive = true) : JumpsDuringWallRun c w := by
  intro env
  have htag : w.asc.hasMatchingGameplayTag c.jump.wallRunStateTag = w.wallRun.ability.isActive :=
    Bool.eq_iff_iff.mpr h
  unfold JumpAbility.canActivateAbility
  cases hsuper : env.superCanActivate with
  | false => simp
  | true => simp [htag]

/-- **A jump that the engine refuses is made exactly during a wall run.**  Let
`WallRunStateTag` be granted by effects of the second list of the wall run only, which match
neither its side effects nor `InAirTags`.  Then in every run of jump presses over any list of
abilities, capsule hits, ticks, montage callbacks and cancels from an idle character, in
which each attempt to run along a wall adds such an effect and nothing ends an ability from
inside: after every single attempt and in every state, `CanActivateAbility` of the jump
passes if the super class allows it and `CanJump` does, or, where `CanJump` refuses,
`IsJumpAllowed` does and the wall run is active.
SOURCE: AG_JumpAbility.cpp:17-34, AG_BaseGameplayAbility.cpp:9-69, AG_WallRunAbility.cpp:54-109,
AG_CharacterMovementComponent.cpp:16-31, GASCharacter.cpp:131-138 -/
theorem airJump_iff_wallRun (hc : WallRunTag c) (w : GASCharacter K E C) (hw : Idle w)
    (hnone : w.asc.hasMatchingGameplayTag c.jump.wallRunStateTag = false)
    (es : List (TraversalEvent K))
    (hes : ∀ event ∈ es, ∀ e ∈ possibleAttempts event, AddsWallRunTag c e) :
    Always (attemptStep c) (JumpsDuringWallRun c) w (attempts c w es) ∧
      Always (traversalStep c) (JumpsDuringWallRun c) w es := by
  have hview : ∀ (w : GASCharacter K E C) e, QuietAttempt e ∧ AddsWallRunTag c e → Settled w →
      componentOf (attemptStep c w e) =
        run (componentStep (nativeClasses c)) (componentOf w) (componentEvents c w e) :=
    fun w e he hw => componentOf_attemptStep c w hw he.1
  have hkeep : ∀ (w : GASCharacter K E C) e, QuietAttempt e ∧ AddsWallRunTag c e → Settled w →
      Settled (attemptStep c w e) := fun w e he hw => settled_attemptStep c hw he.1
  have hevents : ∀ e ∈ attempts c w es, QuietAttempt e ∧ AddsWallRunTag c e := by
    intro e he
    obtain ⟨event, hevent, hpossible⟩ := exists_of_mem_attempts c he
    exact ⟨quiet_attempts c e he, hes event hevent e hpossible⟩
  have hleaves : ∀ d ∈ viewRun (attemptStep c) (componentEvents c) w (attempts c w es),
      LeavesTag (nativeClasses c) .wallRun c.jump.wallRunStateTag d :=
    forall_mem_viewRun Settled (fun e => QuietAttempt e ∧ AddsWallRunTag c e)
      (fun w e he _ d hd => leavesTag_of_arises c hc he.2 (arises_of_mem_componentEvents c hd))
      hkeep hw.settled hevents
  have htag := always_ledger (TagLedger .wallRun c.jump.wallRunStateTag)
    (LeavesTag (nativeClasses c) .wallRun c.jump.wallRunStateTag)
    (fun _ _ he h => h.step hc.state he) (separate_of_granted hw.granted)
    (tagLedger_of_granted hw.granted hnone) hleaves
  have hattempts : Always (attemptStep c) (JumpsDuringWallRun c) w (attempts c w es) := by
    have habs := always_of_abs Settled (fun e => QuietAttempt e ∧ AddsWallRunTag c e) hview hkeep
      hw.settled hevents htag
    intro pre hpre
    obtain ⟨hsep, hledger⟩ := habs pre hpre
    exact jumpsDuringWallRun_of_tag c (hledger.tag_iff hsep)
  exact ⟨hattempts, always_of_viewRun (attemptsOf c) (traversalStep_eq_run c) hattempts⟩

end Ledger

/-! ## A run -/

/-- A vault, a wall run that grants the state tag through effect 3, and a jump that reads
it. -/
def taggedTraversals : TraversalClasses ℕ ℕ :=
  ⟨⟨[some 4], [], [0]⟩, ⟨[some 3], [], some 1, some 2, fun effect => effect = 5⟩,
    ⟨[], [], fun effect => effect = 3⟩⟩

/-- A vault, and a wall run that is left by a jump. -/
def vaultThenWallRun : List (TraversalEvent ℚ) :=
  [.jumpPress [.vault passingAttempt], .montageFinished,
    .capsuleHit (hitAttempt wallOnTheLeft) .added,
    .jumpPress [.jump ⟨true, false, true, true, fun _ => .added, true⟩], .cancelWallRun]

/-- The falling character is idle. -/
theorem idle_fallingCharacter : Idle fallingCharacter :=
  ⟨rfl, fun i => by cases i <;> rfl, rfl⟩

/-- The character that falls has no effect, and is idle. -/
theorem traversal_refines_ledger_vaultThenWallRun :
    (componentOf (run (traversalStep taggedTraversals) fallingCharacter vaultThenWallRun)).ledger =
        run (ledgerStep (nativeClasses taggedTraversals)) (componentOf fallingCharacter).ledger
          (componentRun taggedTraversals fallingCharacter vaultThenWallRun) ∧
      Always (traversalStep taggedTraversals) (fun w =>
        (componentOf w).ledger.bag.total = (w.asc.values : Multiset ℕ) ∧
          IdleOwnsNothing (nativeClasses taggedTraversals) (componentOf w).ledger)
        fallingCharacter vaultThenWallRun :=
  traversal_refines_ledger taggedTraversals fallingCharacter idle_fallingCharacter
    vaultThenWallRun

/-- A run with a vault and a wall run in the air. -/
theorem airJump_vaultThenWallRun :
    Always (attemptStep taggedTraversals) (JumpsDuringWallRun taggedTraversals) fallingCharacter
        (attempts taggedTraversals fallingCharacter vaultThenWallRun) ∧
      Always (traversalStep taggedTraversals) (JumpsDuringWallRun taggedTraversals)
        fallingCharacter vaultThenWallRun := by
  refine airJump_iff_wallRun taggedTraversals ⟨⟨rfl, ?_, ?_⟩, ?_, ?_⟩ fallingCharacter
    idle_fallingCharacter rfl vaultThenWallRun ?_
  · intro j
    cases j <;> simp [taggedTraversals, nativeClasses, VaultOverClass.base, WallRunClass.base,
      JumpClass.base]
  · intro j
    cases j <;> simp [taggedTraversals, nativeClasses, VaultOverClass.base, WallRunClass.base,
      JumpClass.base]
  · intro side
    cases side <;> simp [taggedTraversals, sideClass]
  · intro effect heffect
    simp only [taggedTraversals, decide_eq_true_eq] at heffect
    subst heffect
    rfl
  · intro event hevent e he
    simp only [vaultThenWallRun, List.mem_cons, List.not_mem_nil, or_false] at hevent
    rcases hevent with rfl | rfl | rfl | rfl | rfl
    · rw [List.mem_singleton.mp he]
      trivial
    · rw [List.mem_singleton.mp he]
      trivial
    · rw [List.mem_singleton.mp he]
      exact ⟨_, List.mem_cons_self, 3, rfl, rfl⟩
    · rw [List.mem_singleton.mp he]
      trivial
    · rw [List.mem_singleton.mp he]
      trivial

end GasSamples.Analysis
