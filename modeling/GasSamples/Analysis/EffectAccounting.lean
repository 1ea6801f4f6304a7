import GasSamples.Analysis.EffectLifetime

/-!
# Whose effects `EndAbility` removes

Beside the ability and the component a run keeps accounts: for every handle the component
has issued one line in a ledger, which says who had the effect applied.  The ability does
so from its two lists, in activations that are counted; everybody else is `other`.

`endAbility_settles` is about activations during which the ability is not ended.  Each
call of `EndAbility` then removes, of the active effects, exactly those whose line says
that the last activation applied them from `OngoingEffectsToRemoveOnEnd`.  `Balanced` is
the invariant: among the active effects these are the ones whose handle is stored.
-/

set_option autoImplicit false

namespace GasSamples.Analysis

open Reactive GasSamples.Model GasSamples.Program GasSamples.Program.BaseGameplayAbility

variable {E : Type}

/-- Who had an effect applied: the ability, in one of its activations and from one of its
two lists, or another party. -/
inductive AppliedBy
  | onStart (activation : ℕ)
  | removeOnEnd (activation : ℕ)
  | other
deriving DecidableEq

/-- The event enters an activation; an ability that is active refuses it. -/
def enters (s : BaseState E) : AbilityEvent E → Bool
  | .activate _ => !s.ability.isActive
  | _ => false

/-- The lines that the applications of one event add, in the order in which their handles
are issued; `n` is the number of the activation that it enters, if it does. -/
def newLines (c : AbilityClass E) (s : BaseState E) (n : ℕ) : AbilityEvent E → List AppliedBy
  | .activate a =>
    if s.ability.isActive then []
    else
      List.replicate ((entries c.ongoingEffectsToApplyOnStart a.start).countP entryObtains)
          (.onStart n) ++
        List.replicate ((entries c.ongoingEffectsToRemoveOnEnd a.remove).countP entryObtains)
          (.removeOnEnd n)
  | .applied _ outcome => if outcome.wasSuccessfullyApplied then [.other] else []
  | _ => []

/-- Every successful application takes a handle and a line. -/
theorem abilityStep_nextHandle {c : AbilityClass E}
    (hc : c.instancingPolicy.isInstantiated = true) (s : BaseState E) (n : ℕ)
    (e : AbilityEvent E) :
    (abilityStep c s e).asc.nextHandle = s.asc.nextHandle + (newLines c s n e).length := by
  cases e with
  | activate a =>
    simp only [abilityStep, activateInstance, hc, Bool.true_and, newLines]
    split
    · rfl
    · rw [activateAbility_nextHandle hc, List.length_append, List.length_replicate,
        List.length_replicate]
      rfl
  | endAbility => exact endAbility_nextHandle s c
  | applied effect outcome =>
    simp only [abilityStep, apply_nextHandle, newLines]
    split <;> rfl
  | removed kept => rfl

/-- An ability and its component with their accounts: `activation` is the number of
activations entered so far, `ledger` has one line for each handle issued so far. -/
structure Accounts (E : Type) where
  base : BaseState E
  activation : ℕ
  ledger : List AppliedBy
  aligned : ledger.length = base.asc.nextHandle

namespace Accounts

/-- The accounts are opened when the ability is granted: the effects that are active by
then are the doing of others. -/
def opened (s : BaseState E) : Accounts E :=
  ⟨s, 0, List.replicate s.asc.nextHandle .other, List.length_replicate⟩

/-- The effect under the handle `h` was applied from `OngoingEffectsToRemoveOnEnd` by the
last activation that was entered. -/
def OfActivation (a : Accounts E) (h : ℕ) : Prop :=
  a.ledger[h]? = some (.removeOnEnd a.activation)

instance (a : Accounts E) (h : ℕ) : Decidable (a.OfActivation h) :=
  inferInstanceAs (Decidable (_ = _))

end Accounts

section Runs

variable (c : AbilityClass E) (hc : c.instancingPolicy.isInstantiated = true)

/-- One event, and the accounts that are kept of it. -/
def accountsStep (a : Accounts E) (e : AbilityEvent E) : Accounts E :=
  let n := if enters a.base e then a.activation + 1 else a.activation
  { base := abilityStep c a.base e
    activation := n
    ledger := a.ledger ++ newLines c a.base n e
    aligned := by rw [List.length_append, a.aligned, abilityStep_nextHandle hc] }

/-- The accounts do not interfere with the run they are kept of. -/
theorem run_accountsStep_base (a : Accounts E) (es : List (AbilityEvent E)) :
    (run (accountsStep c hc) a es).base = run (abilityStep c) a.base es := by
  induction es generalizing a with
  | nil => rfl
  | cons e es ih => rw [run_cons, run_cons, ih, accountsStep]

/-- The ability is not ended during an activation. -/
def NonReentrant : AbilityEvent E → Prop
  | .activate a => endsDuring c a = false
  | _ => True

instance (e : AbilityEvent E) : Decidable (NonReentrant c e) :=
  match e with
  | .activate a => inferInstanceAs (Decidable (endsDuring c a = false))
  | .endAbility => isTrue trivial
  | .applied _ _ => isTrue trivial
  | .removed _ => isTrue trivial

/-- A call of `EndAbility` removes, of the active effects, exactly those that the last
activation applied from `OngoingEffectsToRemoveOnEnd`, and stores no handle afterwards. -/
def Settles (a : Accounts E) : AbilityEvent E → Prop
  | .endAbility =>
    (endAbility c a.base).asc.live =
        a.base.asc.live.filter (fun p => ¬ a.OfActivation p.1) ∧
      (endAbility c a.base).ability.removeOnEndEffectsHandle = []
  | _ => True

end Runs

/-- Among the active effects, those that the last activation applied from
`OngoingEffectsToRemoveOnEnd` are those whose handle is stored.  The other fields carry
this over the next activation: it is entered with no handle stored, under a number that
no line bears yet. -/
structure Balanced (a : Accounts E) : Prop where
  stored : ∀ p ∈ a.base.asc.live,
    p.1 ∈ a.base.ability.removeOnEndEffectsHandle ↔ a.OfActivation p.1
  issued : ∀ h ∈ a.base.ability.removeOnEndEffectsHandle, h < a.base.asc.nextHandle
  past : ∀ h n : ℕ, a.ledger[h]? = some (AppliedBy.removeOnEnd n) → n ≤ a.activation
  closed : a.base.ability.activeCount = 0 → a.base.ability.removeOnEndEffectsHandle = []

section Balanced

variable {c : AbilityClass E} (hc : c.instancingPolicy.isInstantiated = true)
variable {a : Accounts E}

/-- The accounts of a granted ability balance when they are opened. -/
theorem balanced_opened {s : BaseState E} (hs : Granted s) : Balanced (Accounts.opened s) := by
  have hnone : ∀ h n : ℕ, (Accounts.opened s).ledger[h]? ≠ some (AppliedBy.removeOnEnd n) := by
    intro h n hline
    have hmem := List.mem_of_getElem? hline
    exact AppliedBy.noConfusion (List.eq_of_mem_replicate hmem)
  have hhandles : s.ability.removeOnEndEffectsHandle = [] := by
    rw [hs]
    rfl
  constructor
  · intro p _
    constructor
    · intro hp
      rw [show (Accounts.opened s).base = s from rfl, hhandles] at hp
      exact absurd hp List.not_mem_nil
    · intro hp
      exact absurd hp (hnone p.1 _)
  · intro h hh
    rw [show (Accounts.opened s).base = s from rfl, hhandles] at hh
    exact absurd hh List.not_mem_nil
  · intro h n hline
    exact absurd hline (hnone h n)
  · intro _
    exact hhandles

include hc in
/-- Under the invariant the call settles the accounts. -/
theorem Balanced.settles (h : Balanced a) (e : AbilityEvent E) : Settles c a e := by
  cases e with
  | endAbility =>
    refine ⟨?_, endAbility_handles hc a.base⟩
    rw [endAbility_asc hc, HandleStore.removeAll_live]
    apply List.filter_congr
    intro p hp
    simp only [h.stored p hp]
  | activate _ => trivial
  | applied _ _ => trivial
  | removed _ => trivial

/-- The lines of an activation: those of the first list precede those of the second. -/
theorem newLines_activate_getElem?_iff (c : AbilityClass E) {s : BaseState E}
    (hs : s.ability.isActive = false) {n : ℕ} {script : ActivationScript} (i k : ℕ) :
    (newLines c s n (.activate script))[i]? = some (AppliedBy.removeOnEnd k) ↔ k = n ∧
      (entries c.ongoingEffectsToApplyOnStart script.start).countP entryObtains ≤ i ∧
      i < (entries c.ongoingEffectsToApplyOnStart script.start).countP entryObtains +
        (entries c.ongoingEffectsToRemoveOnEnd script.remove).countP entryObtains := by
  simp only [newLines, hs, Bool.false_eq_true, if_false, List.getElem?_append,
    List.length_replicate, List.getElem?_replicate]
  split
  · constructor
    · intro h
      exact AppliedBy.noConfusion (Option.some.inj h)
    · rintro ⟨-, hge, -⟩
      omega
  · split
    · simp only [Option.some.injEq, AppliedBy.removeOnEnd.injEq]
      constructor
      · intro h
        exact ⟨h.symm, by omega, by omega⟩
      · rintro ⟨h, -, -⟩
        exact h.symm
    · constructor
      · intro h
        exact absurd h (by simp)
      · rintro ⟨-, -, hlt⟩
        omega

/-- An event that enters no activation adds lines of others only. -/
theorem removeOnEnd_notMem_newLines {s : BaseState E} {e : AbilityEvent E}
    (he : enters s e = false) (n k : ℕ) : AppliedBy.removeOnEnd k ∉ newLines c s n e := by
  cases e with
  | activate a =>
    have hactive : s.ability.isActive = true := by
      simpa [enters] using he
    simp [newLines, hactive]
  | endAbility => exact List.not_mem_nil
  | applied effect outcome =>
    simp only [newLines]
    split <;> simp
  | removed kept => exact List.not_mem_nil

/-- The lines of the ability are not touched by an event that enters no activation. -/
theorem accountsStep_line_iff {e : AbilityEvent E} (he : enters a.base e = false) (h k : ℕ) :
    (accountsStep c hc a e).ledger[h]? = some (AppliedBy.removeOnEnd k) ↔
      a.ledger[h]? = some (AppliedBy.removeOnEnd k) := by
  simp only [accountsStep, List.getElem?_append]
  split
  · exact Iff.rfl
  · rename_i hlen
    rw [List.getElem?_eq_none (Nat.le_of_not_lt hlen)]
    constructor
    · intro hline
      exact absurd (List.mem_of_getElem? hline) (removeOnEnd_notMem_newLines he _ k)
    · intro hline
      exact absurd hline (by simp)

/-- The invariant after an event that enters no activation. -/
theorem Balanced.of_enters_eq_false (h : Balanced a) {e : AbilityEvent E}
    (he : enters a.base e = false)
    (hstored : ∀ p ∈ (abilityStep c a.base e).asc.live,
      p.1 ∈ (abilityStep c a.base e).ability.removeOnEndEffectsHandle ↔ a.OfActivation p.1)
    (hhandles : (abilityStep c a.base e).ability.removeOnEndEffectsHandle = [] ∨
      (abilityStep c a.base e).ability = a.base.ability) :
    Balanced (accountsStep c hc a e) := by
  have hactivation : (accountsStep c hc a e).activation = a.activation := by
    simp [accountsStep, he]
  constructor
  · intro p hp
    rw [Accounts.OfActivation, accountsStep_line_iff hc he, hactivation]
    exact hstored p hp
  · intro n hn
    rw [(accountsStep c hc a e).aligned.symm, accountsStep, List.length_append, a.aligned]
    rcases hhandles with hnil | hsame
    · rw [accountsStep, hnil] at hn
      exact absurd hn List.not_mem_nil
    · rw [accountsStep, hsame] at hn
      have := h.issued n hn
      omega
  · intro n k hline
    rw [hactivation]
    exact h.past n k ((accountsStep_line_iff hc he n k).mp hline)
  · intro hzero
    rcases hhandles with hnil | hsame
    · exact hnil
    · rw [accountsStep, hsame] at hzero
      rw [accountsStep, hsame]
      exact h.closed hzero

/-- After an activation that is entered a line of the ability is an old one, or bears the
new number and belongs to a handle issued for the second list. -/
theorem accountsStep_activate_line_iff (hinactive : a.base.ability.isActive = false)
    (script : ActivationScript) (h k : ℕ) :
    (accountsStep c hc a (.activate script)).ledger[h]? = some (AppliedBy.removeOnEnd k) ↔
      a.ledger[h]? = some (AppliedBy.removeOnEnd k) ∨
        (k = a.activation + 1 ∧ h ∈ List.range' (a.base.asc.nextHandle +
            (entries c.ongoingEffectsToApplyOnStart script.start).countP entryObtains)
          ((entries c.ongoingEffectsToRemoveOnEnd script.remove).countP entryObtains)) := by
  have he : enters a.base (.activate script) = true := by
    simp [enters, hinactive]
  rw [List.mem_range'_1, ← a.aligned]
  simp only [accountsStep, he, if_true, List.getElem?_append]
  split
  · rename_i hold
    constructor
    · exact Or.inl
    · rintro (hline | ⟨-, hge, -⟩)
      · exact hline
      · omega
  · rename_i hnew
    rw [newLines_activate_getElem?_iff c hinactive,
      List.getElem?_eq_none (Nat.le_of_not_lt hnew)]
    constructor
    · rintro ⟨hk, hge, hlt⟩
      exact Or.inr ⟨hk, by omega, by omega⟩
    · rintro (hline | ⟨hk, hge, hlt⟩)
      · exact absurd hline (by simp)
      · exact ⟨hk, by omega, by omega⟩

/-- The invariant after an activation that is entered: the lines that bear its number
belong to the handles it stores. -/
theorem Balanced.activate (h : Balanced a) {script : ActivationScript}
    (he : enters a.base (.activate script) = true) (hquiet : endsDuring c script = false) :
    Balanced (accountsStep c hc a (.activate script)) := by
  have hzero : a.base.ability.activeCount = 0 := by
    simpa [enters] using he
  have hinactive : a.base.ability.isActive = false :=
    (AbilityInstance.isActive_eq_false _).mpr hzero
  obtain ⟨⟨hsuper, -⟩, hremove⟩ : (script.superEnds = false ∧ _ = false) ∧
      (entries c.ongoingEffectsToRemoveOnEnd script.remove).any entryEnds = false := by
    simpa only [endsDuring, Bool.or_eq_false_iff] using hquiet
  have hbase : (accountsStep c hc a (.activate script)).base =
      activateAbility c script (preActivate a.base) := by
    simp [accountsStep, abilityStep, activateInstance, hinactive]
  have hactivation : (accountsStep c hc a (.activate script)).activation = a.activation + 1 := by
    simp [accountsStep, he]
  have hhandles := activateAbility_handles hc script (preActivate a.base) (h.closed hzero)
    hsuper hremove
  have hline := accountsStep_activate_line_iff hc hinactive script
  rw [show a.base.asc = (preActivate a.base).asc from rfl, ← hhandles, ← hbase] at hline
  constructor
  · intro p hp
    rw [Accounts.OfActivation, hline, hactivation]
    constructor
    · intro hmem
      exact Or.inr ⟨rfl, hmem⟩
    · rintro (hold | ⟨-, hmem⟩)
      · have := h.past p.1 _ hold
        omega
      · exact hmem
  · intro n hn
    rw [hbase, activateAbility_nextHandle hc]
    rw [hbase, hhandles, List.mem_range'_1] at hn
    omega
  · intro n k hk
    rw [hactivation]
    rcases (hline n k).mp hk with hold | ⟨hnew, -⟩
    · have := h.past n k hold
      omega
    · omega
  · intro hdone
    -- the activation is still going on when `ActivateAbility` returns
    have hcount := activateAbility_activeCount hc hzero script
    rw [← hbase, hdone, hquiet] at hcount
    exact absurd hcount (by decide)

/-- One event of a run whose activations are not ended from inside. -/
theorem Balanced.step (h : Balanced a) {e : AbilityEvent E} (hq : NonReentrant c e) :
    Balanced (accountsStep c hc a e) := by
  cases e with
  | activate script =>
    cases he : enters a.base (.activate script) with
    | true => exact h.activate hc he hq
    | false =>
      have hactive : a.base.ability.isActive = true := by
        simpa [enters] using he
      have hsame : abilityStep c a.base (.activate script) = a.base := by
        simp [abilityStep, activateInstance, hc, hactive]
      refine h.of_enters_eq_false hc he ?_ (Or.inr (by rw [hsame]))
      rw [hsame]
      exact h.stored
  | endAbility =>
    have hhandles := endAbility_handles hc a.base
    refine h.of_enters_eq_false hc rfl ?_ (Or.inl hhandles)
    intro p hp
    have hlive : p ∈ a.base.asc.live.filter (fun p => ¬ a.OfActivation p.1) :=
      (h.settles hc .endAbility).1 ▸ hp
    have hother := of_decide_eq_true (List.mem_filter.mp hlive).2
    simp only [abilityStep, hhandles, List.not_mem_nil, hother]
  | applied effect outcome =>
    refine h.of_enters_eq_false hc rfl ?_ (Or.inr rfl)
    intro p hp
    rcases List.mem_append.mp ((apply_live _ _ _) ▸ hp) with hold | hnew
    · exact h.stored p hold
    · -- the new effect is under a handle that is neither stored nor in the ledger yet
      have hnext : p.1 = a.base.asc.nextHandle := by
        split at hnew
        · rw [List.mem_singleton.mp hnew]
        · exact absurd hnew List.not_mem_nil
      constructor
      · intro hmem
        have := h.issued p.1 hmem
        omega
      · intro hline
        rw [Accounts.OfActivation, hnext, List.getElem?_eq_none (Nat.le_of_eq a.aligned)] at hline
        exact absurd hline (by simp)
  | removed kept =>
    refine h.of_enters_eq_false hc rfl ?_ (Or.inr rfl)
    intro p hp
    exact h.stored p (List.mem_of_mem_filter hp)

end Balanced

/-- **Exact effect accounting.**  For every instanced ability, granted to any component,
and every run whose activations are not ended from inside: each call of `EndAbility`
removes, of the active effects, exactly those that the last activation applied from
`OngoingEffectsToRemoveOnEnd`.  Those applied from `OngoingEffectsToApplyOnStart`, by an
earlier activation or by anybody else stay as they are, and no handle is stored afterwards.
SOURCE: AG_BaseGameplayAbility.cpp:9-69 -/
theorem endAbility_settles (c : AbilityClass E)
    (hc : c.instancingPolicy.isInstantiated = true) (s : BaseState E) (hs : Granted s)
    (es : List (AbilityEvent E)) (hes : ∀ e ∈ es, NonReentrant c e) :
    EveryStep (accountsStep c hc) (Settles c) (Accounts.opened s) es := by
  refine everyStep_of_invariant_on Balanced (NonReentrant c) ?_ ?_ (balanced_opened hs) hes
  · intro a e _ ha
    exact ha.settles hc e
  · intro a e he ha
    exact ha.step hc he

/-- An ability with an effect in both of its lists, and a duplicate and a null entry. -/
def sharedEffectAbility : AbilityClass ℕ :=
  ⟨.instancedPerActor, [some 1, none, some 1], [some 0, some 1]⟩

/-- Two activations of it, the second one with failing applications.  Others apply the
same effect before and during the first, and end one of the effects it applied. -/
def sharedEffectRun : List (AbilityEvent ℕ) :=
  [.applied 1 .added, .activate (.quiet (fun _ => .added) fun _ => .added),
    .applied 1 .added, .removed fun p => p.1 != 3, .endAbility,
    .activate (.quiet (fun _ => .rejected) fun i => if i = 0 then .executed else .added),
    .endAbility]

/-- An effect listed twice, with changes from outside, settles at every end. -/
theorem endAbility_settles_sharedEffect :
    EveryStep (accountsStep sharedEffectAbility rfl) (Settles sharedEffectAbility)
      (Accounts.opened ⟨HandleStore.empty, .fresh⟩) sharedEffectRun :=
  endAbility_settles sharedEffectAbility rfl _ (granted_fresh _) sharedEffectRun (by decide)

/-- What others applied and what was applied on start is all that is left. -/
example : (run (abilityStep sharedEffectAbility) ⟨HandleStore.empty, .fresh⟩
    sharedEffectRun).asc.live = [(0, 1), (1, 0), (2, 1), (5, 1)] := by decide

end GasSamples.Analysis
