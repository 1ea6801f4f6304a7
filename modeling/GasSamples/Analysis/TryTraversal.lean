import GasSamples.Reactive.RunUntil
import GasSamples.Analysis.FailedCommit
import GasSamples.Analysis.ModeOwnership

/-!
# What `TryTraversal` reports

`TryTraversal` takes a spec that is active after the attempt for a committed traversal.
That is right for a vault, which ends itself when its commit fails, and wrong for a jump,
which does not.  A refused attempt ends nothing either, so an ability that was active
before the call may still be active when a later one commits.
-/

set_option autoImplicit false

namespace GasSamples.Analysis

open Reactive GasSamples.Model GasSamples.Program GasSamples.Program.CharacterMovement

variable {K E C : Type}

/-- The attempts of the native abilities: of a vault whose montage plays once it has
committed, or of a jump with authority or a prediction key. -/
def NativeAttempt : TraversalAttempt K → Prop
  | .vault env => env.commit.passed = true → env.montagePlays = true
  | .wallRun _ _ => False
  | .jump env => env.hasAuthorityOrPredictionKey = true
  | .other _ _ => False

/-- The commit that the attempt meets passes. -/
def commits : TraversalAttempt K → Bool
  | .vault env => env.commit.passed
  | .wallRun _ _ => false
  | .jump env => env.commitPasses
  | .other _ _ => false

/-- Two attempts are of one ability. -/
def sameAbility : TraversalAttempt K → TraversalAttempt K → Bool
  | .vault _, .vault _ => true
  | .wallRun _ _, .wallRun _ _ => true
  | .jump _, .jump _ => true
  | _, _ => false

variable [DecidableEq C] [DecidableEq E] [Field K] [LinearOrder K] (c : TraversalClasses E C)

/-- The character after one attempt. -/
def tryStep (w : GASCharacter K E C) (a : TraversalAttempt K) : GASCharacter K E C :=
  (tryActivateAbilityByClass c w a).2

/-- The test of the loop: activated, and active after the attempt. -/
def accepts (w : GASCharacter K E C) (a : TraversalAttempt K) : Bool :=
  (tryActivateAbilityByClass c w a).1 && isActive (tryStep c w a) a

/-- The attempt is activated, and its commit passes. -/
def Committed (w : GASCharacter K E C) (a : TraversalAttempt K) : Prop :=
  (tryActivateAbilityByClass c w a).1 = true ∧ commits a = true

/-- The attempt is activated, and its commit fails. -/
def FailsCommit (w : GASCharacter K E C) (a : TraversalAttempt K) : Prop :=
  (tryActivateAbilityByClass c w a).1 = true ∧ commits a = false

/-- The attempts that `TryTraversal` makes. -/
def made (w : GASCharacter K E C) (as : List (TraversalAttempt K)) : List (TraversalAttempt K) :=
  taken (tryStep c) (accepts c) w as

/-- The loop is the run up to the first attempt that passes its test. -/
theorem tryTraversal_eq (w : GASCharacter K E C) (as : List (TraversalAttempt K)) :
    tryTraversal c w as =
      (accepted (tryStep c) (accepts c) w as, run (tryStep c) w (made c w as)) := by
  induction as generalizing w with
  | nil => rfl
  | cons a as ih =>
    cases ha : accepts c w a with
    | true =>
      simp only [made, taken_cons_of_accepts ha, accepted, ha, Bool.true_or, run_cons, run_nil]
      unfold tryTraversal
      exact if_pos ha
    | false =>
      simp only [made, taken_cons_of_refuses ha, accepted, ha, Bool.false_or, run_cons]
      rw [← made, ← ih]
      exact if_neg (ne_true_of_eq_false ha)

/-- `TryTraversal` reports a committed traversal: it returns true exactly if some attempt it
made was activated and committed; and then that attempt is the earliest such one and the
last one made, and every ability tried before, whether it was refused or failed to commit,
is inactive, after the attempt and, if it is not the one reported, when the call returns. -/
structure ReportsCommitted (w : GASCharacter K E C) (as : List (TraversalAttempt K)) : Prop where
  reported : (tryTraversal c w as).1 = true ↔
    ∃ pre a post, made c w as = pre ++ a :: post ∧ Committed c (run (tryStep c) w pre) a
  earliest : (tryTraversal c w as).1 = true → ∃ pre a, made c w as = pre ++ [a] ∧
    Committed c (run (tryStep c) w pre) a ∧
    EveryStep (tryStep c) (fun w b => ¬ Committed c w b) w pre ∧
    EveryStep (tryStep c) (fun w' b => isActive (tryStep c w' b) b = false ∧
      (sameAbility a b = false → isActive (tryTraversal c w as).2 b = false)) w pre

/-- If the attempt fails to commit, it is one of a vault, and the avatar is valid. -/
def FailsOnlyVault (w : GASCharacter K E C) (a : TraversalAttempt K) : Prop :=
  FailsCommit c w a → w.avatarValid = true ∧ ∃ env, a = .vault env

/-- If an attempt commits, no ability tried before it was active when the call began. -/
def IdleBeforeCommit (w : GASCharacter K E C) (as : List (TraversalAttempt K)) : Prop :=
  ∀ pre a, made c w as = pre ++ [a] → Committed c (run (tryStep c) w pre) a →
    ∀ b ∈ pre, isActive w b = false

/-! ## One attempt -/

section Attempt

variable {w : GASCharacter K E C} {a : TraversalAttempt K}

/-- An attempt of a vault that is activated finds it inactive. -/
theorem activated_vault {env : VaultActivation K}
    (h : (tryActivateAbilityByClass c w (.vault env)).1 = true) :
    w.vault.ability.activeCount = 0 ∧ tryStep c w (.vault env) =
      VaultOverAbility.activateAbility c.vault env (VaultOverAbility.preActivate w) := by
  simp only [tryStep, tryActivateAbilityByClass, VaultOverAbility.tryActivateAbility] at h ⊢
  by_cases hrefused : (w.vault.ability.isActive || !env.canActivate) = true
  · rw [if_pos hrefused] at h
    exact absurd h (by simp)
  · rw [if_neg hrefused]
    simp only [Bool.or_eq_true, not_or, Bool.not_eq_true, AbilityInstance.isActive_eq_false]
      at hrefused
    exact ⟨hrefused.1, rfl⟩

/-- A vault that fails its commit ends itself, if the avatar is valid. -/
theorem isActive_vault_of_fails {env : VaultActivation K} (h : FailsCommit c w (.vault env)) :
    isActive (tryStep c w (.vault env)) (.vault env) = !w.avatarValid := by
  obtain ⟨hidle, hstep⟩ := activated_vault c h.1
  rw [hstep, activateAbility_of_failed c.vault env w h.2]
  cases hv : w.avatarValid with
  | true =>
    have hcount := vaultEnd_activeCount c.vault (w := committing c.vault env w) hv
    rw [committing_activeCount, hidle] at hcount
    simp [isActive, hcount]
  | false =>
    have hability := vaultEnd_ability_of_invalid c.vault (w := committing c.vault env w) hv
    simp [isActive, hability]

/-- A vault that commits and plays its montage is active. -/
theorem isActive_vault_of_committed {env : VaultActivation K}
    (h : Committed c w (.vault env)) (hplays : env.montagePlays = true) :
    isActive (tryStep c w (.vault env)) (.vault env) = true := by
  obtain ⟨-, hstep⟩ := activated_vault c h.1
  rw [hstep, activateAbility_of_passed c.vault env w h.2]
  simp [isActive, hplays]

/-- A jump that is activated is active, whether it commits or not. -/
theorem isActive_jump {env : JumpActivation}
    (h : (tryActivateAbilityByClass c w (.jump env)).1 = true) :
    isActive (tryStep c w (.jump env)) (.jump env) = true := by
  simp only [tryStep, tryActivateAbilityByClass, JumpAbility.tryActivateAbility] at h ⊢
  by_cases hcan : JumpAbility.canActivateAbility c.jump env w = true
  · simp [isActive, hcan, jump_activeCount]
  · rw [if_neg hcan] at h
    exact absurd h (by simp)

/-- A refused attempt does not pass the test of the loop. -/
theorem accepts_of_refused (h : ¬ (tryActivateAbilityByClass c w a).1 = true) :
    accepts c w a = false := by
  unfold accepts
  rw [Bool.eq_false_of_not_eq_true h, Bool.false_and]

/-- After an activation, the call accepts exactly if the spec is active. -/
theorem accepts_of_activated (h : (tryActivateAbilityByClass c w a).1 = true) :
    accepts c w a = isActive (tryStep c w a) a := by
  unfold accepts
  rw [h, Bool.true_and]

/-- A committed attempt passes the test of the loop. -/
theorem accepts_of_committed (hnative : NativeAttempt a) (h : Committed c w a) :
    accepts c w a = true := by
  rw [accepts_of_activated c h.1]
  cases a with
  | vault env => exact isActive_vault_of_committed c h (hnative h.2)
  | wallRun env sideEffect => exact hnative.elim
  | jump env => exact isActive_jump c h.1
  | other activated active => exact hnative.elim

/-- An attempt that failed to commit passes the test of the loop exactly if it is not one of
a vault that ends itself. -/
theorem accepts_of_fails (hnative : NativeAttempt a) (h : FailsCommit c w a) :
    accepts c w a = false ↔ FailsOnlyVault c w a := by
  rw [accepts_of_activated c h.1]
  cases a with
  | vault env =>
    rw [isActive_vault_of_fails c h, Bool.not_eq_false']
    exact ⟨fun hv _ => ⟨hv, env, rfl⟩, fun honly => (honly h).1⟩
  | wallRun env sideEffect => exact hnative.elim
  | jump env =>
    rw [isActive_jump c h.1]
    apply iff_of_false (by decide)
    intro honly
    obtain ⟨-, env', heq⟩ := honly h
    exact absurd heq (by simp)
  | other activated active => exact hnative.elim

/-- An activation commits or fails its commit. -/
theorem committed_or_fails (h : (tryActivateAbilityByClass c w a).1 = true) :
    Committed c w a ∨ FailsCommit c w a := by
  cases hcommits : commits a with
  | true => exact Or.inl ⟨h, hcommits⟩
  | false => exact Or.inr ⟨h, hcommits⟩

/-- An attempt that passes the test of the loop and meets the condition has committed. -/
theorem committed_of_accepts (hnative : NativeAttempt a) (honly : FailsOnlyVault c w a)
    (h : accepts c w a = true) : Committed c w a := by
  by_cases hactivated : (tryActivateAbilityByClass c w a).1 = true
  · rcases committed_or_fails c hactivated with hcommitted | hfails
    · exact hcommitted
    · rw [(accepts_of_fails c hnative hfails).mpr honly] at h
      exact absurd h (by decide)
  · rw [accepts_of_refused c hactivated] at h
    exact absurd h (by decide)

/-- A refused attempt meets the condition, and did not commit. -/
theorem failsOnlyVault_of_refuses (hnative : NativeAttempt a) (h : accepts c w a = false) :
    FailsOnlyVault c w a ∧ ¬ Committed c w a := by
  constructor
  · intro hfails
    exact (accepts_of_fails c hnative hfails).mp h hfails
  · intro hcommitted
    rw [accepts_of_committed c hnative hcommitted] at h
    exact absurd h (by decide)

/-- An attempt of the one native ability leaves the other one as active as it was. -/
theorem isActive_other {b : TraversalAttempt K} (ha : NativeAttempt a) (hb : NativeAttempt b)
    (hother : sameAbility a b = false) : isActive (tryStep c w a) b = isActive w b := by
  cases a with
  | vault env =>
    cases b with
    | vault env' => exact absurd hother (by simp [sameAbility])
    | wallRun env' sideEffect => exact hb.elim
    | jump env' =>
      have hjump : (tryStep c w (.vault env)).jump = w.jump :=
        vaultStep_activate_jump c.vault w env
      simp only [isActive, hjump]
    | other activated active => exact hb.elim
  | wallRun env sideEffect => exact ha.elim
  | jump env =>
    cases b with
    | vault env' =>
      have hvault : (tryStep c w (.jump env)).vault = w.vault := (jump_keeps c.jump env w).1.1
      simp only [isActive, hvault]
    | wallRun env' sideEffect => exact hb.elim
    | jump env' => exact absurd hother (by simp [sameAbility])
    | other activated active => exact hb.elim
  | other activated active => exact ha.elim

omit [DecidableEq C] [DecidableEq E] [Field K] [LinearOrder K] in
/-- Whether an ability is active does not depend on the attempt of it. -/
theorem isActive_congr {b : TraversalAttempt K} (ha : NativeAttempt a)
    (hsame : sameAbility a b = true) : isActive w b = isActive w a := by
  cases a with
  | vault env => cases b <;> first | rfl | exact absurd hsame (by simp [sameAbility])
  | wallRun env sideEffect => exact ha.elim
  | jump env => cases b <;> first | rfl | exact absurd hsame (by simp [sameAbility])
  | other activated active => exact ha.elim

/-- An attempt that is not activated changes nothing. -/
theorem tryStep_of_not_activated (ha : NativeAttempt a)
    (h : ¬ (tryActivateAbilityByClass c w a).1 = true) : tryStep c w a = w := by
  cases a with
  | vault env =>
    simp only [tryStep, tryActivateAbilityByClass, VaultOverAbility.tryActivateAbility] at h ⊢
    split at h
    · rename_i hrefused
      rw [if_pos hrefused]
    · exact absurd rfl h
  | wallRun env sideEffect => exact ha.elim
  | jump env =>
    simp only [tryStep, tryActivateAbilityByClass, JumpAbility.tryActivateAbility] at h ⊢
    split at h
    · exact absurd rfl h
    · rename_i hrefused
      rw [if_neg hrefused]
  | other activated active => exact ha.elim

/-- An attempt that does not pass the test of the loop leaves its own ability as active as it
was: it was not activated, or it is a vault that was idle and has ended itself. -/
theorem isActive_own_of_refuses (ha : NativeAttempt a) (h : accepts c w a = false) :
    isActive (tryStep c w a) a = isActive w a := by
  by_cases hactivated : (tryActivateAbilityByClass c w a).1 = true
  · rw [accepts_of_activated c hactivated] at h
    cases a with
    | vault env =>
      have hidle := (activated_vault c hactivated).1
      rw [h]
      simp [isActive, hidle]
    | wallRun env sideEffect => exact ha.elim
    | jump env =>
      rw [isActive_jump c hactivated] at h
      exact absurd h (by decide)
    | other activated active => exact ha.elim
  · rw [tryStep_of_not_activated c ha hactivated]

/-- An attempt that does not pass the test of the loop leaves every native ability as active
as it was. -/
theorem isActive_of_refuses {b : TraversalAttempt K} (ha : NativeAttempt a)
    (hb : NativeAttempt b) (h : accepts c w a = false) :
    isActive (tryStep c w a) b = isActive w b := by
  cases hsame : sameAbility a b with
  | false => exact isActive_other c ha hb hsame
  | true => rw [isActive_congr ha hsame, isActive_congr ha hsame, isActive_own_of_refuses c ha h]

end Attempt

/-! ## The call -/

section Call

variable {w : GASCharacter K E C} {as : List (TraversalAttempt K)}

/-- After attempts that do not pass the test every native ability is as active as it was. -/
theorem isActive_run_of_refuses {b : TraversalAttempt K} (hb : NativeAttempt b)
    (hnative : ∀ a ∈ as, NativeAttempt a)
    (hrefused : EveryStep (tryStep c) (fun w a => accepts c w a = false) w as) :
    isActive (run (tryStep c) w as) b = isActive w b := by
  induction as generalizing w with
  | nil => rfl
  | cons a as ih =>
    rw [run_cons, ih (fun b hb => hnative b (List.mem_cons_of_mem _ hb)) hrefused.2]
    exact isActive_of_refuses c (hnative a List.mem_cons_self) hb hrefused.1

/-- Of attempts that do not pass the test, each finds and leaves its ability as active as the
first one found it. -/
theorem everyStep_isActive_of_refuses (hnative : ∀ a ∈ as, NativeAttempt a)
    (hrefused : EveryStep (tryStep c) (fun w a => accepts c w a = false) w as) :
    EveryStep (tryStep c) (fun w' b => isActive (tryStep c w' b) b = isActive w b) w as := by
  induction as generalizing w with
  | nil => trivial
  | cons a as ih =>
    have ha := hnative a List.mem_cons_self
    have hrest : ∀ b ∈ as, NativeAttempt b := fun b hb => hnative b (List.mem_cons_of_mem _ hb)
    refine ⟨isActive_own_of_refuses c ha hrefused.1, (ih hrest hrefused.2).imp ?_⟩
    intro w' b hb h
    rw [h, isActive_of_refuses c ha (hrest b hb) hrefused.1]

/-- The attempts before the one that stopped the loop are inactive, each after itself and, if
it is of the other ability, in the end, exactly if they were when the call began. -/
theorem inactive_iff {pre : List (TraversalAttempt K)} {a : TraversalAttempt K}
    (ha : NativeAttempt a) (hpre : ∀ b ∈ pre, NativeAttempt b)
    (hrefused : EveryStep (tryStep c) (fun w a => accepts c w a = false) w pre) :
    EveryStep (tryStep c) (fun w' b => isActive (tryStep c w' b) b = false ∧
        (sameAbility a b = false →
          isActive (tryStep c (run (tryStep c) w pre) a) b = false)) w pre ↔
      ∀ b ∈ pre, isActive w b = false := by
  have hkept := everyStep_isActive_of_refuses c hpre hrefused
  constructor
  · intro h
    refine everyStep_const.mp ((everyStep_and.mpr ⟨hkept, h⟩).imp ?_)
    rintro w' b - ⟨hsame, hinactive, -⟩
    rw [← hsame, hinactive]
  · intro h
    refine hkept.imp fun w' b hb hsame => ⟨hsame.trans (h b hb), fun hother => ?_⟩
    rw [isActive_other c ha (hpre b hb) hother,
      isActive_run_of_refuses c (hpre b hb) hpre hrefused, h b hb]

/-- Where no attempt passes the test, none has committed, and the answer is right. -/
theorem reportsCommitted_of_not_accepted (hnative : ∀ a ∈ as, NativeAttempt a)
    (haccepted : accepted (tryStep c) (accepts c) w as = false) :
    ReportsCommitted c w as ∧
      EveryStep (tryStep c) (FailsOnlyVault c) w (made c w as) ∧ IdleBeforeCommit c w as := by
  have hreturn : (tryTraversal c w as).1 = false := by rw [tryTraversal_eq, haccepted]
  obtain ⟨hmade, hrefused⟩ := taken_of_not_accepted haccepted
  have hnone : ∀ pre a post, made c w as = pre ++ a :: post →
      ¬ Committed c (run (tryStep c) w pre) a := by
    intro pre a post hsplit
    rw [made, hmade] at hsplit
    rw [hsplit, everyStep_append, everyStep_cons] at hrefused
    have ha : NativeAttempt a := hnative a (by rw [hsplit]; simp)
    exact (failsOnlyVault_of_refuses c ha hrefused.2.1).2
  refine ⟨⟨?_, ?_⟩, ?_, ?_⟩
  · rw [hreturn]
    apply iff_of_false (by decide)
    rintro ⟨pre, a, post, hsplit, hcommitted⟩
    exact hnone pre a post hsplit hcommitted
  · intro htrue
    rw [hreturn] at htrue
    exact absurd htrue (by decide)
  · rw [made, hmade]
    exact hrefused.imp fun w a ha h => (failsOnlyVault_of_refuses c (hnative a ha) h).1
  · intro pre a hsplit hcommitted
    exact absurd hcommitted (hnone pre a [] hsplit)

/-- Where an attempt passes the test, the answer is right exactly if that attempt has
committed and the ones before it found their abilities inactive. -/
theorem reportsCommitted_iff_of_accepted (hnative : ∀ a ∈ as, NativeAttempt a)
    (haccepted : accepted (tryStep c) (accepts c) w as = true) :
    ReportsCommitted c w as ↔
      EveryStep (tryStep c) (FailsOnlyVault c) w (made c w as) ∧ IdleBeforeCommit c w as := by
  have hreturn : (tryTraversal c w as).1 = true := by rw [tryTraversal_eq, haccepted]
  obtain ⟨pre, a, post, hsplit, hmade, haccepts, hrefused⟩ := taken_of_accepted haccepted
  have ha : NativeAttempt a := hnative a (by rw [hsplit]; simp)
  have hpre : ∀ b ∈ pre, NativeAttempt b := fun b hb => hnative b (by rw [hsplit]; simp [hb])
  have hlast : (tryTraversal c w as).2 = tryStep c (run (tryStep c) w pre) a := by
    rw [tryTraversal_eq, made, hmade, run_append]
    rfl
  have hinactive := inactive_iff c ha hpre hrefused
  constructor
  · intro h
    -- the attempt that stopped the loop is the one that committed
    obtain ⟨pre', a', hmade', hcommitted, -, hidle⟩ := h.earliest hreturn
    rw [made, hmade] at hmade'
    obtain ⟨rfl, hsingle⟩ := List.append_inj' hmade' rfl
    obtain rfl := List.singleton_inj.mp hsingle
    rw [hlast] at hidle
    constructor
    · rw [made, hmade, everyStep_append, everyStep_cons]
      refine ⟨hrefused.imp fun w b hb hrefuses =>
        (failsOnlyVault_of_refuses c (hpre b hb) hrefuses).1, ?_, trivial⟩
      intro hfails
      exact absurd (hcommitted.2.symm.trans hfails.2) (by decide)
    · intro pre' a' hmade' _
      rw [made, hmade] at hmade'
      obtain ⟨rfl, -⟩ := List.append_inj' hmade' rfl
      exact hinactive.mp hidle
  · rintro ⟨hcondition, hidle⟩
    rw [made, hmade, everyStep_append, everyStep_cons] at hcondition
    have hcommitted := committed_of_accepts c ha hcondition.2.1 haccepts
    refine ⟨iff_of_true hreturn ⟨pre, a, [], by rw [made, hmade], hcommitted⟩, fun _ => ?_⟩
    refine ⟨pre, a, by rw [made, hmade], hcommitted, ?_, ?_⟩
    · exact hrefused.imp fun w b hb h => (failsOnlyVault_of_refuses c (hpre b hb) h).2
    · rw [hlast]
      exact hinactive.mpr (hidle pre a (by rw [made, hmade]) hcommitted)

/-- **`TryTraversal` reports exactly a committed traversal exactly if no attempt it makes is
a jump that fails to commit and none of the abilities it passes over was active.**  For every
list of native vault and jump abilities, every state and every outcome of the attempts: the
answer is as `ReportsCommitted` has it, if and only if each attempt that is made and fails to
commit is one of the vault, with a valid avatar, and, if one commits, the abilities tried
before were inactive when the call began.
SOURCE: AG_CharacterMovementComponent.cpp:16-31, AG_JumpAbility.cpp:36-52,
AG_VaultOverAbility.cpp:154-164 -/
theorem reportsCommitted_iff (w : GASCharacter K E C) (as : List (TraversalAttempt K))
    (hnative : ∀ a ∈ as, NativeAttempt a) :
    ReportsCommitted c w as ↔
      EveryStep (tryStep c) (FailsOnlyVault c) w (made c w as) ∧ IdleBeforeCommit c w as := by
  cases haccepted : accepted (tryStep c) (accepts c) w as with
  | false =>
    obtain ⟨hreports, hcondition⟩ := reportsCommitted_of_not_accepted c hnative haccepted
    exact iff_of_true hreports hcondition
  | true => exact reportsCommitted_iff_of_accepted c hnative haccepted

end Call

/-- The vault without effects, and the jump. -/
def vaultAndJump : TraversalClasses ℕ ℕ :=
  ⟨⟨[], [], []⟩, ⟨[], [], none, none, fun _ => false⟩, ⟨[], [], fun _ => false⟩⟩

/-- A jump that commits. -/
def passingJump : JumpActivation := ⟨true, true, true, true, fun _ => .added, true⟩

/-- With nothing to vault over, the jump that follows is reported. -/
theorem reportsCommitted_vaultThenJump :
    ReportsCommitted vaultAndJump walkingCharacter [.vault failingAttempt, .jump passingJump] := by
  refine (reportsCommitted_iff vaultAndJump walkingCharacter
    [.vault failingAttempt, .jump passingJump] ?_).mpr ⟨?_, ?_⟩
  · intro a ha
    simp only [List.mem_cons, List.not_mem_nil, or_false] at ha
    rcases ha with rfl | rfl
    · exact fun _ => rfl
    · exact rfl
  · exact ⟨fun _ => ⟨rfl, _, rfl⟩, fun hfails => absurd hfails.2 (by decide), trivial⟩
  · intro pre a hmade _
    have hboth : made vaultAndJump walkingCharacter [.vault failingAttempt, .jump passingJump] =
        [.vault failingAttempt] ++ [.jump passingJump] := rfl
    rw [hboth] at hmade
    obtain ⟨rfl, -⟩ := List.append_inj' hmade rfl
    intro b hb
    rw [List.mem_singleton.mp hb]
    rfl

/-- A jump that fails to commit is reported, and the vault behind it is not tried. -/
theorem not_reportsCommitted_failingJump :
    ¬ ReportsCommitted vaultAndJump walkingCharacter
      [.jump failingJump, .vault failingAttempt] := by
  intro h
  obtain ⟨pre, a, hmade, hcommitted, -⟩ := h.earliest rfl
  have hfirst : made vaultAndJump walkingCharacter [.jump failingJump, .vault failingAttempt] =
      [] ++ [.jump failingJump] := rfl
  rw [hfirst] at hmade
  obtain ⟨rfl, hlast⟩ := List.append_inj' hmade rfl
  obtain rfl := List.singleton_inj.mp hlast
  exact absurd hcommitted.2 (by decide)

end GasSamples.Analysis
