import GasSamples.Analysis.SharedComponent

/-!
# State tags

An ability tells the others that it is running through a tag: an effect that grants the
tag is in its `OngoingEffectsToRemoveOnEnd`.  The tag is as good as the ability's own
activity exactly as long as nobody else touches such effects and the ability is not ended
from inside its activations, whatever the other abilities do in between.
-/

set_option autoImplicit false

namespace GasSamples.Analysis

open Reactive GasSamples.Model GasSamples.Program GasSamples.Program.BaseGameplayAbility

variable {ι E : Type}

/-- Effects that grant the tag are in no list but the second one of the instanced
ability `i`. -/
structure StateTagOf (c : ι → AbilityClass E) (i : ι) (grants : E → Bool) : Prop where
  instantiated : (c i).instancingPolicy.isInstantiated = true
  start : ∀ j effect, some effect ∈ (c j).ongoingEffectsToApplyOnStart → grants effect = false
  remove : ∀ j, j ≠ i → ∀ effect, some effect ∈ (c j).ongoingEffectsToRemoveOnEnd →
    grants effect = false

/-- The application of an effect that grants the tag is in the list, and adds it. -/
def AddsTag (grants : E → Bool) (l : List (Option E × ApplyCall)) : Prop :=
  ∃ entry ∈ l, ∃ effect, addedEffect entry = some effect ∧ grants effect = true

/-- An activation of `i` is not ended from inside and adds the tag; others add no effect
that grants it, and remove none. -/
def LeavesTag (c : ι → AbilityClass E) (i : ι) (grants : E → Bool) : ComponentEvent ι E → Prop
  | .activate j a => j = i → activationEndCount (c i) a = 0 ∧
      AddsTag grants (entries (c i).ongoingEffectsToRemoveOnEnd a.remove)
  | .endAbility _ => True
  | .applied effect outcome => outcome = .added → grants effect = false
  | .removed kept => ∀ effect, grants effect = true → kept effect = true

/-! ## The operations of an event -/

section Operations

variable {c : AbilityClass E} {i j : ι} {grants : E → Bool}

/-- An entry of a list names an effect of it. -/
theorem mem_entries {effects : List (Option E)} {calls : ℕ → ApplyCall} {effect : E}
    {call : ApplyCall} (h : (some effect, call) ∈ entries effects calls) :
    some effect ∈ effects := by
  obtain ⟨⟨entry, n⟩, hp, heq⟩ := List.mem_map.mp h
  obtain ⟨rfl, -⟩ := Prod.mk.inj heq
  exact List.fst_mem_of_mem_zipIdx hp

/-- The only operation of an end drops the handles of the instance. -/
theorem mem_endOps {op : OwnerOp ι E} (h : op ∈ endOps c j) : op = .drop j := by
  unfold endOps at h
  split at h
  · exact List.mem_singleton.mp h
  · exact absurd h List.not_mem_nil

/-- The operations of one entry: ends of the ability, and the application. -/
theorem mem_entryOps {keep : Bool} {entry : Option E × ApplyCall} {op : OwnerOp ι E}
    (h : op ∈ entryOps c j keep entry) :
    (op = .drop j ∧ 0 < entryEndCount entry) ∨
      ∃ effect, entry.1 = some effect ∧
        op = .issue (if keep then some j else none) (decide (entry.2.outcome = .added)) effect := by
  obtain ⟨effect, call⟩ := entry
  cases effect with
  | none => exact absurd h List.not_mem_nil
  | some effect =>
    simp only [entryOps] at h
    split at h
    · exact absurd h List.not_mem_nil
    · rename_i hspec
      rcases List.mem_append.mp h with hends | happly
      · refine Or.inl ?_
        simp only [entryEndCount, hspec, if_false]
        rcases List.mem_append.mp hends with hb | ha
        · split at hb
          · rename_i hbefore
            refine ⟨mem_endOps hb, ?_⟩
            rw [if_pos hbefore]
            omega
          · exact absurd hb List.not_mem_nil
        · split at ha
          · rename_i hafter
            refine ⟨mem_endOps ha, ?_⟩
            rw [if_pos hafter]
            omega
          · exact absurd ha List.not_mem_nil
      · refine Or.inr ⟨effect, rfl, ?_⟩
        unfold applyOps at happly
        split at happly
        · exact List.mem_singleton.mp happly
        · exact absurd happly List.not_mem_nil

/-- The operations of an activation: ends of the ability, and applications for nobody from
the first list and for the ability from the second one. -/
theorem mem_activationOps {a : ActivationScript} {op : OwnerOp ι E}
    (h : op ∈ activationOps c j a) :
    (op = .drop j ∧ 0 < activationEndCount c a) ∨
      (∃ effect live, some effect ∈ c.ongoingEffectsToApplyOnStart ∧
        op = .issue none live effect) ∨
      c.instancingPolicy.isInstantiated = true ∧
        ∃ effect live, some effect ∈ c.ongoingEffectsToRemoveOnEnd ∧
          op = .issue (some j) live effect := by
  have hlist : ∀ (keep : Bool) (effects : List (Option E)) (calls : ℕ → ApplyCall),
      op ∈ (entries effects calls).flatMap (entryOps c j keep) →
      (op = .drop j ∧ 0 < ((entries effects calls).map entryEndCount).sum) ∨
        ∃ effect live, some effect ∈ effects ∧
          op = .issue (if keep then some j else none) live effect := by
    intro keep effects calls hmem
    obtain ⟨⟨effect, call⟩, hentry, hop⟩ := List.mem_flatMap.mp hmem
    rcases mem_entryOps hop with ⟨rfl, hcount⟩ | ⟨effect', heq, rfl⟩
    · refine Or.inl ⟨rfl, Nat.lt_of_lt_of_le hcount ?_⟩
      exact List.le_sum_of_mem (List.mem_map_of_mem hentry)
    · simp only at heq
      subst heq
      exact Or.inr ⟨effect', _, mem_entries hentry, rfl⟩
  unfold activationOps at h
  unfold activationEndCount
  rcases List.mem_append.mp h with hsuper | hrest
  · split at hsuper
    · rename_i hends
      refine Or.inl ⟨mem_endOps hsuper, ?_⟩
      rw [if_pos hends]
      omega
    · exact absurd hsuper List.not_mem_nil
  · rcases List.mem_append.mp hrest with hstart | hremove
    · rcases hlist false _ _ hstart with ⟨rfl, hcount⟩ | hissue
      · exact Or.inl ⟨rfl, by omega⟩
      · exact Or.inr (Or.inl hissue)
    · split at hremove
      · rename_i hc
        rcases hlist true _ _ hremove with ⟨rfl, hcount⟩ | hissue
        · refine Or.inl ⟨rfl, ?_⟩
          rw [if_pos hc]
          omega
        · exact Or.inr (Or.inr ⟨hc, hissue⟩)
      · exact absurd hremove List.not_mem_nil

/-- An activation whose second list adds the tag has such an operation. -/
theorem issue_mem_activationOps (hc : c.instancingPolicy.isInstantiated = true)
    {a : ActivationScript} (h : AddsTag grants (entries c.ongoingEffectsToRemoveOnEnd a.remove)) :
    ∃ effect, grants effect = true ∧ .issue (some i) true effect ∈ activationOps c i a := by
  obtain ⟨⟨entry, call⟩, hentry, effect, hadded, hgrants⟩ := h
  unfold addedEffect at hadded
  split at hadded
  · rename_i hout
    simp only at hadded hout
    subst hadded
    refine ⟨effect, hgrants, ?_⟩
    unfold activationOps
    rw [if_pos hc]
    refine List.mem_append_right _ (List.mem_append_right _ (List.mem_flatMap.mpr
      ⟨_, hentry, ?_⟩))
    simp [entryOps, applyOps, hout, ApplyOutcome.wasSuccessfullyApplied]
  · exact absurd hadded (by simp)

end Operations

/-! ## The invariant -/

section Invariant

variable [DecidableEq ι] {c : ι → AbilityClass E} {i : ι} {grants : E → Bool}

/-- Only `i` holds effects that grant the tag, some exactly if it is running, and it is
running once at most. -/
structure TagLedger (i : ι) (grants : E → Bool) (l : EffectLedger ι E) : Prop where
  only : l.bag.OnlyOwner i fun effect => grants effect = true
  has : l.bag.Has i (fun effect => grants effect = true) ↔ 0 < l.running i
  once : l.running i ≤ 1

/-- Operations that spare the tag, while `i` goes on running as often as before. -/
theorem TagLedger.spared {l l' : EffectLedger ι E} (h : TagLedger i grants l)
    {ops : List (OwnerOp ι E)} (hbag : l'.bag = run Bag.step l.bag ops)
    (hrunning : l'.running i = l.running i)
    (hops : ∀ op ∈ ops, op.Spares i fun effect => grants effect = true)
    (hnew : ∀ effect, grants effect = true → .issue (some i) true effect ∉ ops) :
    TagLedger i grants l' := by
  obtain ⟨honly, hhas⟩ := h.only.run hops
  refine ⟨hbag ▸ honly, ?_, hrunning ▸ h.once⟩
  rw [hbag, hhas, hrunning, ← h.has]
  constructor
  · rintro (hold | ⟨effect, hgrants, hmem⟩)
    · exact hold
    · exact absurd hmem (hnew effect hgrants)
  · exact Or.inl

/-- Its own activation, which is entered while it is not running, gives the instance the tag. -/
theorem TagLedger.activate (hc : StateTagOf c i grants) {l : EffectLedger ι E}
    (h : TagLedger i grants l) {a : ActivationScript} (he : LeavesTag c i grants (.activate i a))
    (henters : ¬ refuses (c i) (l.running i) = true) :
    TagLedger i grants (ledgerStep c l (.activate i a)) := by
  unfold ledgerStep
  simp only [eventOps, runningAfter, henters, Bool.false_eq_true, if_false]
  obtain ⟨hcount, hadds⟩ := he rfl
  have hidle : l.running i = 0 := by
    simp only [refuses, hc.instantiated, Bool.true_and, decide_eq_true_eq] at henters
    omega
  have hops : ∀ op ∈ activationOps (c i) i a,
      op.Spares i fun effect => grants effect = true := by
    intro op hop
    rcases mem_activationOps hop with ⟨-, hpos⟩ | ⟨effect, live, hmem, rfl⟩ |
      ⟨-, effect, live, hmem, rfl⟩
    · omega
    · intro _ hgrants
      rw [hc.start i effect hmem] at hgrants
      exact absurd hgrants (by simp)
    · exact fun _ _ => rfl
  obtain ⟨honly, hhas⟩ := h.only.run hops
  obtain ⟨effect, hgrants, hissue⟩ := issue_mem_activationOps (i := i) hc.instantiated hadds
  refine ⟨honly, ?_, ?_⟩
  · simp only [Function.update_self, hcount]
    rw [hhas]
    exact iff_of_true (Or.inr ⟨effect, hgrants, hissue⟩) (by omega)
  · simp only [Function.update_self]
    omega

/-- The activation of another one leaves the tag as it is. -/
theorem TagLedger.activate_other (hc : StateTagOf c i grants) {l : EffectLedger ι E}
    (h : TagLedger i grants l) {j : ι} (hji : j ≠ i) {a : ActivationScript}
    (henters : ¬ refuses (c j) (l.running j) = true) :
    TagLedger i grants (ledgerStep c l (.activate j a)) := by
  unfold ledgerStep
  simp only [eventOps, runningAfter, henters, Bool.false_eq_true, if_false]
  refine h.spared rfl (by simp [Ne.symm hji]) ?_ ?_
  · intro op hop
    rcases mem_activationOps hop with ⟨rfl, -⟩ | ⟨effect, live, hmem, rfl⟩ |
      ⟨-, effect, live, hmem, rfl⟩
    · exact hji
    · intro _ hgrants
      rw [hc.start j effect hmem] at hgrants
      exact absurd hgrants (by simp)
    · intro _ hgrants
      rw [hc.remove j hji effect hmem] at hgrants
      exact absurd hgrants (by simp)
  · intro effect hgrants hop
    rcases mem_activationOps hop with ⟨heq, -⟩ | ⟨_, _, _, heq⟩ | ⟨-, _, _, _, heq⟩
    · exact absurd heq (by simp)
    · exact absurd heq (by simp)
    · obtain ⟨hij, -, -⟩ := OwnerOp.issue.inj heq
      exact hji (Option.some.inj hij).symm

/-- An end takes the tag from the instance, or is of another one. -/
theorem TagLedger.endAbility (hc : StateTagOf c i grants) {l : EffectLedger ι E}
    (h : TagLedger i grants l) (j : ι) : TagLedger i grants (ledgerStep c l (.endAbility j)) := by
  unfold ledgerStep
  simp only [eventOps, runningAfter]
  by_cases hji : j = i
  · subst hji
    have hops : endOps (c j) j = [.drop j] := if_pos hc.instantiated
    obtain ⟨honly, hnone⟩ := h.only.drop
    have honce := h.once
    rw [hops, run_cons, run_nil]
    refine ⟨honly, iff_of_false hnone ?_, ?_⟩
    · simp only [Function.update_self]
      omega
    · simp only [Function.update_self]
      omega
  · refine h.spared rfl (by simp [Ne.symm hji]) ?_ ?_
    · intro op hop
      rw [mem_endOps hop]
      exact hji
    · intro effect _ hop
      exact absurd (mem_endOps hop) (by simp)

/-- An event that leaves the tag to the instance keeps its ledger. -/
theorem TagLedger.step (hc : StateTagOf c i grants) {l : EffectLedger ι E}
    (h : TagLedger i grants l) {e : ComponentEvent ι E} (he : LeavesTag c i grants e) :
    TagLedger i grants (ledgerStep c l e) := by
  cases e with
  | activate j a =>
    by_cases hrefuses : refuses (c j) (l.running j) = true
    · unfold ledgerStep
      simp only [eventOps, runningAfter, hrefuses, if_true, run_nil]
      exact h
    · by_cases hji : j = i
      · subst hji
        exact h.activate hc he hrefuses
      · exact h.activate_other hc hji hrefuses
  | endAbility j => exact h.endAbility hc j
  | applied effect outcome =>
    refine h.spared rfl rfl ?_ ?_
    · intro op hop
      simp only [eventOps, applyOps] at hop
      split at hop
      · rw [List.mem_singleton.mp hop]
        intro hadded hgrants
        rw [he (of_decide_eq_true hadded)] at hgrants
        exact absurd hgrants (by simp)
      · exact absurd hop List.not_mem_nil
    · intro effect' _ hop
      simp only [eventOps, applyOps] at hop
      split at hop
      · exact absurd (List.mem_singleton.mp hop) (by simp)
      · exact absurd hop List.not_mem_nil
  | removed kept =>
    refine h.spared rfl rfl ?_ ?_
    · intro op hop
      rw [List.mem_singleton.mp hop]
      exact he
    · intro effect _ hop
      exact absurd (List.mem_singleton.mp hop) (by simp)

end Invariant

/-! ## Idle abilities -/

/-- No activation of an instanced ability is ended from inside. -/
def EndsLater (c : ι → AbilityClass E) : ComponentEvent ι E → Prop
  | .activate i a =>
    (c i).instancingPolicy.isInstantiated = true → activationEndCount (c i) a = 0
  | _ => True

/-- An instanced ability that is not running owns no active effect, and one that is not
instanced never does. -/
def IdleOwnsNothing (c : ι → AbilityClass E) (l : EffectLedger ι E) : Prop :=
  ∀ i, ((c i).instancingPolicy.isInstantiated = true → l.running i = 0) → l.bag.owned i = 0

/-- Who issues values for an ability: its own activations, while it is instanced. -/
theorem issue_mem_eventOps {c : ι → AbilityClass E} {running : ι → ℕ} {i : ι} {live : Bool}
    {effect : E} {e : ComponentEvent ι E} (h : .issue (some i) live effect ∈ eventOps c running e) :
    ∃ a, e = .activate i a ∧ refuses (c i) (running i) = false ∧
      (c i).instancingPolicy.isInstantiated = true := by
  cases e with
  | activate j a =>
    simp only [eventOps] at h
    split at h
    · exact absurd h List.not_mem_nil
    · rename_i hrefuses
      rcases mem_activationOps h with ⟨heq, -⟩ | ⟨_, _, _, heq⟩ | ⟨hc, _, _, _, heq⟩
      · exact absurd heq (by simp)
      · exact absurd heq (by simp)
      · obtain ⟨hij, -, -⟩ := OwnerOp.issue.inj heq
        obtain rfl := Option.some.inj hij
        exact ⟨a, rfl, by simpa using hrefuses, hc⟩
  | endAbility j => exact absurd (mem_endOps h) (by simp)
  | applied effect' outcome =>
    simp only [eventOps, applyOps] at h
    split at h
    · exact absurd (List.mem_singleton.mp h) (by simp)
    · exact absurd h List.not_mem_nil
  | removed kept => exact absurd (List.mem_singleton.mp h) (by simp)

/-- What has just been granted owns nothing. -/
theorem idleOwnsNothing_of_granted [DecidableEq ι] [Fintype ι] (c : ι → AbilityClass E)
    {s : SharedComponent ι E} (hs : s.Granted) : IdleOwnsNothing c s.ledger := by
  intro i _
  refine Holdings.valuesWhere_of_forall_not fun n _ hn => ?_
  simp only [SharedComponent.holdings, hs i] at hn
  exact absurd hn List.not_mem_nil

/-- Where every activation ends later, what is inactive owns nothing after an event. -/
theorem IdleOwnsNothing.step [DecidableEq ι] {c : ι → AbilityClass E} {l : EffectLedger ι E}
    (h : IdleOwnsNothing c l) {e : ComponentEvent ι E} (he : EndsLater c e) :
    IdleOwnsNothing c (ledgerStep c l e) := by
  intro i hidle
  by_cases hissue : ∃ live effect, .issue (some i) live effect ∈ eventOps c l.running e
  · -- the ability has been activated, and is running now
    obtain ⟨live, effect, hmem⟩ := hissue
    obtain ⟨a, rfl, hrefuses, hc⟩ := issue_mem_eventOps hmem
    have hzero := hidle hc
    simp only [ledgerStep, runningAfter, hrefuses, Bool.false_eq_true, if_false,
      Function.update_self, he hc] at hzero
    omega
  · have hnone : ∀ live effect, .issue (some i) live effect ∉ eventOps c l.running e :=
      fun live effect hmem => hissue ⟨live, effect, hmem⟩
    by_cases hbefore : (c i).instancingPolicy.isInstantiated = true → l.running i = 0
    · exact Bag.owned_run_eq_zero (h i hbefore) hnone
    · -- it was running, so the event is its end
      obtain ⟨hc, hrunning⟩ := Classical.not_imp.mp hbefore
      have hzero := hidle hc
      cases e with
      | activate j a =>
        exfalso
        simp only [ledgerStep, runningAfter] at hzero
        split at hzero
        · exact hrunning hzero
        · rename_i hrefuses
          by_cases hij : i = j
          · subst hij
            refine hrefuses ?_
            simp only [refuses, hc, Bool.true_and, decide_eq_true_eq]
            omega
          · rw [Function.update_of_ne hij] at hzero
            exact hrunning hzero
      | endAbility j =>
        by_cases hij : i = j
        · subst hij
          simp [ledgerStep, eventOps, endOps, hc, Bag.step]
        · simp only [ledgerStep, runningAfter, Function.update_of_ne hij] at hzero
          exact absurd hzero hrunning
      | applied effect outcome => exact absurd hzero hrunning
      | removed kept => exact absurd hzero hrunning

/-! ## The tag -/

section Tag

variable [DecidableEq ι] [Fintype ι] {c : ι → AbilityClass E} {i : ι} {grants : E → Bool}
  {s : SharedComponent ι E}

/-- The tag is there exactly if an active effect grants it. -/
theorem hasMatchingGameplayTag_iff {asc : AbilitySystem E} :
    asc.hasMatchingGameplayTag grants = true ↔
      ∃ effect ∈ (asc.values : Multiset E), grants effect = true := by
  simp only [AbilitySystem.hasMatchingGameplayTag, List.any_eq_true, Multiset.mem_coe]

/-- On a component that the ledger accounts for, the tag is there exactly if the ability is
active. -/
theorem TagLedger.tag_iff (hsep : s.holdings.Separate) (h : TagLedger i grants s.ledger) :
    s.asc.hasMatchingGameplayTag grants = true ↔ (s.abilities i).isActive = true := by
  rw [hasMatchingGameplayTag_iff, AbilityInstance.isActive_eq_true]
  have htotal : s.ledger.bag.total = (s.asc.values : Multiset E) := Holdings.total_bag hsep
  rw [← htotal, Bag.exists_mem_total h.only]
  exact h.has

/-- Before any activation, without the tag. -/
theorem tagLedger_of_granted (hs : s.Granted)
    (hnone : s.asc.hasMatchingGameplayTag grants = false) : TagLedger i grants s.ledger := by
  have htotal : s.ledger.bag.total = (s.asc.values : Multiset E) :=
    Holdings.total_bag (separate_of_granted hs)
  have hfree : ∀ effect ∈ s.ledger.bag.total, ¬ grants effect = true := by
    intro effect hmem hgrants
    have htag := hasMatchingGameplayTag_iff.mpr ⟨effect, htotal ▸ hmem, hgrants⟩
    rw [hnone] at htag
    exact absurd htag (by simp)
  have hrunning : s.ledger.running i = 0 := by
    simp only [SharedComponent.ledger, SharedComponent.running, hs i]
    rfl
  have howned : ∀ j, ∀ effect ∈ s.ledger.bag.owned j, ¬ grants effect = true := fun j effect hmem =>
    hfree effect (Multiset.mem_add.mpr
      (Or.inr (Multiset.mem_sum.mpr ⟨j, Finset.mem_univ j, hmem⟩)))
  refine ⟨⟨fun effect hmem => hfree effect (Multiset.mem_add.mpr (Or.inl hmem)),
    fun j _ => howned j⟩, ?_, by omega⟩
  rw [hrunning]
  exact iff_of_false (fun ⟨effect, hmem, hgrants⟩ => howned i effect hmem hgrants)
    (Nat.lt_irrefl 0)

end Tag

/-- **A state tag says exactly that its ability is active.**  For every family of abilities
on one component, of which only the instanced ability `i` has effects that grant the tag, in
its `OngoingEffectsToRemoveOnEnd`: in every run in which each activation of `i` adds such an
effect and is not ended from inside, and nobody else touches such effects, the tag is
present exactly while `i` is active, whatever the other abilities do and however they are
ended.
SOURCE: AG_BaseGameplayAbility.cpp:9-69 -/
theorem stateTag_iff_active [DecidableEq ι] [Fintype ι] (c : ι → AbilityClass E) (i : ι)
    (grants : E → Bool) (hc : StateTagOf c i grants) (s : SharedComponent ι E) (hs : s.Granted)
    (hnone : s.asc.hasMatchingGameplayTag grants = false) (es : List (ComponentEvent ι E))
    (hes : ∀ e ∈ es, LeavesTag c i grants e) :
    Always (componentStep c) (fun s => s.asc.hasMatchingGameplayTag grants = true ↔
      (s.abilities i).isActive = true) s es := by
  have hkept := always_ledger (TagLedger i grants) (LeavesTag c i grants)
    (fun _ _ he h => h.step hc he) (separate_of_granted hs) (tagLedger_of_granted (i := i) hs hnone)
    hes
  intro pre hpre
  obtain ⟨hsep, hledger⟩ := hkept pre hpre
  exact hledger.tag_iff hsep

/-- The effect 1 says that the first of the two abilities is active. -/
theorem stateTag_interleaved :
    Always (componentStep twoAbilities)
      (fun s => s.asc.hasMatchingGameplayTag (fun effect => effect = 1) = true ↔
        (s.abilities true).isActive = true) newComponent interleaved := by
  refine stateTag_iff_active twoAbilities true (fun effect => effect = 1)
    ⟨rfl, ?_, ?_⟩ newComponent (fun _ => rfl) rfl interleaved ?_
  · intro j
    cases j <;> simp [twoAbilities]
  · intro j
    cases j <;> simp [twoAbilities]
  · intro e he
    simp only [interleaved, List.mem_cons, List.not_mem_nil, or_false] at he
    rcases he with rfl | rfl | rfl | rfl | rfl | rfl | rfl
    · exact fun _ => ⟨rfl, _, List.mem_cons_self, 1, rfl, rfl⟩
    · exact fun h => absurd h (by decide)
    · exact fun _ => rfl
    · trivial
    · intro effect heffect
      simp only [decide_eq_true_eq] at heffect
      subst heffect
      rfl
    · trivial
    · exact fun h => absurd h (by decide)

end GasSamples.Analysis
