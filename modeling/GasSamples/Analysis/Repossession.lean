import GasSamples.Reactive.Run
import GasSamples.Program.GASCharacter
import GasSamples.Analysis.BaseGameplayAbility

/-!
# Granting at every possession

`PossessedBy` grants and applies without asking whether it has done so before, and
nothing takes the grants back.  After `n` calls the character has `n` copies of each
granted ability and each applied effect, and every wall run `n` capsule-hit handlers.
-/

set_option autoImplicit false

namespace GasSamples.Analysis

open Reactive GasSamples.Model GasSamples.Program GasSamples.Program.AGASCharacter

variable {K E C A P : Type}

/-- The granted specs are the abilities of the character data, and each effect class has
been applied as often as it occurs there. -/
def GrantedOnce [DecidableEq E] (w : PossessableCharacter K E C A) : Prop :=
  w.activatableAbilities.Perm w.characterData.abilities ∧
    ∀ effect, w.character.asc.issued.count effect = w.characterData.effects.count (some effect)

/-- Every application of the call succeeds. -/
def EffectsApply (possession : Possession P) : Prop :=
  ∀ i, (possession.outcome i).wasSuccessfullyApplied = true

/-- What `n` calls of `PossessedBy` add. -/
structure Grants (isWallRun : A → Bool) (n : ℕ) (w w' : PossessableCharacter K E C A) :
    Prop where
  abilities : w'.activatableAbilities =
    w.activatableAbilities ++ (List.replicate n w.characterData.abilities).flatten
  handlers : w'.capsuleHitHandlers =
    w.capsuleHitHandlers + n * w.characterData.abilities.countP isWallRun
  applied : w'.character.asc.issued =
    w.character.asc.issued ++ (List.replicate n w.characterData.effects.reduceOption).flatten
  hasAuthority : w'.hasAuthority = w.hasAuthority
  characterData : w'.characterData = w.characterData

/-! ## One call -/

/-- Giving a list of abilities appends it to the abilities granted. -/
theorem foldl_giveAbility (isWallRun : A → Bool) (l : List A) (w : PossessableCharacter K E C A) :
    l.foldl (giveAbility isWallRun) w =
      { w with
        activatableAbilities := w.activatableAbilities ++ l
        capsuleHitHandlers := w.capsuleHitHandlers + l.countP isWallRun } := by
  induction l generalizing w with
  | nil => simp
  | cons ability l ih =>
    rw [List.foldl_cons, ih]
    simp only [giveAbility, List.append_assoc, List.singleton_append, List.countP_cons]
    congr 1
    omega

/-- A successful application is recorded under its class; a null class is skipped. -/
theorem apply_issued (entry : Option E × ApplyCall)
    (h : entry.2.outcome.wasSuccessfullyApplied = true) (w : GASCharacter K E C) :
    (applyGameplayEffectToSelf id entry.1 entry.2 w).2.asc.issued =
      w.asc.issued ++ entry.1.toList := by
  obtain ⟨effect, call⟩ := entry
  cases effect with
  | none => simp [applyGameplayEffectToSelf]
  | some effect =>
    have hspec : call.outcome ≠ .invalidSpec := by
      intro hinvalid
      simp [hinvalid, ApplyOutcome.wasSuccessfullyApplied] at h
    simp only at h
    simp [applyGameplayEffectToSelf, hspec, AbilitySystem.applyGameplayEffectSpecToSelf, h]

/-- Applying a list of effects issues those that are there, in order. -/
theorem foldl_apply_issued (l : List (Option E × ApplyCall))
    (h : ∀ entry ∈ l, entry.2.outcome.wasSuccessfullyApplied = true) (w : GASCharacter K E C) :
    (l.foldl (fun character entry =>
      (applyGameplayEffectToSelf id entry.1 entry.2 character).2) w).asc.issued =
        w.asc.issued ++ (l.map Prod.fst).reduceOption := by
  induction l generalizing w with
  | nil => simp [List.reduceOption]
  | cons entry l ih =>
    rw [List.foldl_cons, ih fun e he => h e (List.mem_cons_of_mem _ he),
      apply_issued entry (h entry List.mem_cons_self), List.append_assoc]
    obtain ⟨effect, call⟩ := entry
    cases effect <;> simp [List.reduceOption]

/-- The entries of a list name its effects. -/
theorem entries_map_fst (effects : List (Option E)) (calls : ℕ → ApplyCall) :
    (BaseGameplayAbility.entries effects calls).map Prod.fst = effects := by
  simp only [BaseGameplayAbility.entries, List.map_map]
  exact List.zipIdx_map_fst 0 effects

/-- With authority, a possession grants the abilities and applies the effects once more. -/
theorem grants_possessedBy (isWallRun : A → Bool) {w : PossessableCharacter K E C A}
    (hauthority : w.hasAuthority = true) {possession : Possession P}
    (happly : EffectsApply possession) :
    Grants isWallRun 1 w (possessedBy isWallRun w possession) := by
  have hquiet : ∀ entry ∈ BaseGameplayAbility.entries w.characterData.effects
      (fun i => ApplyCall.quiet (possession.outcome i)),
      entry.2.outcome.wasSuccessfullyApplied = true := by
    intro entry hentry
    obtain ⟨p, -, rfl⟩ := List.mem_map.mp hentry
    exact happly p.2
  have hissued := foldl_apply_issued (K := K) (C := C) _ hquiet
    { w.character with avatarValid := true }
  rw [entries_map_fst] at hissued
  have hgive : giveAbilities isWallRun (initAbilityActorInfo w) =
      { w with
        character := { w.character with avatarValid := true }
        activatableAbilities := w.activatableAbilities ++ w.characterData.abilities
        capsuleHitHandlers :=
          w.capsuleHitHandlers + w.characterData.abilities.countP isWallRun } := by
    simp only [giveAbilities, initAbilityActorInfo, hauthority, if_true, foldl_giveAbility]
  unfold possessedBy
  rw [hgive]
  simp only [applyStartupEffects, hauthority, if_true]
  refine ⟨?_, ?_, ?_, hauthority.symm, rfl⟩
  · simp
  · simp
  · simpa using hissued

/-! ## Any number of calls -/

/-- Every further call grants everything once more. -/
theorem grants_run (isWallRun : A → Bool) {w : PossessableCharacter K E C A}
    (hauthority : w.hasAuthority = true) {es : List (Possession P)}
    (happly : ∀ possession ∈ es, EffectsApply possession) :
    Grants isWallRun es.length w (run (possessedBy isWallRun) w es) := by
  induction es generalizing w with
  | nil => exact ⟨by simp, by simp, by simp, rfl, rfl⟩
  | cons possession es ih =>
    have hone := grants_possessedBy isWallRun hauthority
      (happly possession List.mem_cons_self)
    have hrest := ih (hone.hasAuthority.trans hauthority)
      (fun p hp => happly p (List.mem_cons_of_mem _ hp))
    have hdata := hone.characterData
    constructor
    · rw [run_cons, hrest.abilities, hone.abilities, hdata]
      simp [List.replicate_succ]
    · rw [run_cons, hrest.handlers, hone.handlers, hdata, List.length_cons]
      ring
    · rw [run_cons, hrest.applied, hone.applied, hdata]
      simp [List.replicate_succ]
    · exact hrest.hasAuthority.trans hone.hasAuthority
    · exact hrest.characterData.trans hdata

/-- The character data grants nothing. -/
def GrantsNothing (data : FCharacterData E A) : Prop :=
  data.abilities = [] ∧ ∀ effect ∈ data.effects, effect = none

variable [DecidableEq E]

/-- Leaving out the empty entries keeps the number of each effect. -/
theorem count_reduceOption (effects : List (Option E)) (effect : E) :
    effects.reduceOption.count effect = effects.count (some effect) := by
  induction effects with
  | nil => rfl
  | cons entry effects ih =>
    cases entry with
    | none => simpa [List.reduceOption] using ih
    | some other =>
      rw [List.reduceOption_cons_of_some, List.count_cons, List.count_cons, ih]
      simp

/-- After `n` calls, from a character that was granted nothing: everything is granted once
exactly if there was one call or there is nothing to grant. -/
theorem grantedOnce_iff {isWallRun : A → Bool} {n : ℕ} {w w' : PossessableCharacter K E C A}
    (habilities : w.activatableAbilities = []) (hissued : w.character.asc.issued = [])
    (hgrants : Grants isWallRun n w w') (hn : n ≠ 0) :
    GrantedOnce w' ↔ n = 1 ∨ GrantsNothing w.characterData := by
  have hspecs := hgrants.abilities
  have happlied := hgrants.applied
  rw [habilities, List.nil_append] at hspecs
  rw [hissued, List.nil_append] at happlied
  have hcount : ∀ effect, w'.character.asc.issued.count effect =
      n * w.characterData.effects.count (some effect) := by
    intro effect
    rw [happlied, ← count_reduceOption]
    simp [List.count_flatten]
  unfold GrantedOnce
  rw [hspecs, hgrants.characterData]
  simp only [hcount]
  -- of the multiples of a count only the first keeps it, unless it is zero
  have hdouble : n ≠ 1 → ∀ k, n * k = k → k = 0 := by
    intro hone k hk
    have hle := Nat.mul_le_mul_right k (show 2 ≤ n by omega)
    omega
  constructor
  · rintro ⟨hperm, heffects⟩
    by_cases hone : n = 1
    · exact Or.inl hone
    · refine Or.inr ⟨?_, ?_⟩
      · have hlength : n * w.characterData.abilities.length =
            w.characterData.abilities.length := by
          simpa [List.length_flatten] using hperm.length_eq
        exact List.length_eq_zero_iff.mp (hdouble hone _ hlength)
      · intro effect heffect
        cases effect with
        | none => rfl
        | some effect =>
          have hzero := hdouble hone _ (heffects effect)
          exact absurd heffect (List.count_eq_zero.mp hzero)
  · rintro (rfl | ⟨hnone, hnull⟩)
    · exact ⟨by simp, fun effect => Nat.one_mul _⟩
    · refine ⟨by simp [hnone], fun effect => ?_⟩
      have hzero : w.characterData.effects.count (some effect) = 0 := by
        rw [List.count_eq_zero]
        exact fun hmem => absurd (hnull _ hmem) (by simp)
      rw [hzero, Nat.mul_zero]

/-- **Possession grants once exactly if it happens once.**  For every character data and
every sequence of `PossessedBy` calls on a character with authority that was granted
nothing before: after each call the specs are the abilities of the data and each effect
has been applied as often as it occurs there, if and only if there is at most one call or
the data hold no ability and no effect class.
SOURCE: GASCharacter.cpp:99-112, 171-204 -/
theorem repossession_iff (isWallRun : A → Bool) (w : PossessableCharacter K E C A)
    (hauthority : w.hasAuthority = true) (habilities : w.activatableAbilities = [])
    (hissued : w.character.asc.issued = []) (es : List (Possession P))
    (happly : ∀ possession ∈ es, EffectsApply possession) :
    (∀ pre, pre <+: es → pre ≠ [] → GrantedOnce (run (possessedBy isWallRun) w pre)) ↔
      es.length ≤ 1 ∨ GrantsNothing w.characterData := by
  have hgranted : ∀ pre, pre <+: es → pre ≠ [] →
      (GrantedOnce (run (possessedBy isWallRun) w pre) ↔
        pre.length = 1 ∨ GrantsNothing w.characterData) := by
    intro pre hpre hne
    have hgrants := grants_run isWallRun hauthority
      (fun p hp => happly p (hpre.subset hp))
    exact grantedOnce_iff habilities hissued hgrants (by simpa using hne)
  constructor
  · intro h
    by_cases hlength : es.length ≤ 1
    · exact Or.inl hlength
    · have hne : es ≠ [] := by
        rintro rfl
        simp at hlength
      rcases (hgranted es (List.prefix_refl es) hne).mp (h es (List.prefix_refl es) hne) with
        hone | hnothing
      · omega
      · exact Or.inr hnothing
  · rintro hcond pre hpre hne
    refine (hgranted pre hpre hne).mpr ?_
    rcases hcond with hlength | hnothing
    · have hle := hpre.length_le
      have hpos := List.length_pos_iff.mpr hne
      exact Or.inl (by omega)
    · exact Or.inr hnothing

/-- A character that is granted a wall run and a startup effect. -/
def unpossessedCharacter : PossessableCharacter ℚ ℕ ℕ ℕ where
  character := GASCharacter.spawned .walking 1 fun _ => .block
  hasAuthority := true
  characterData := ⟨[some 0, none], [0]⟩
  activatableAbilities := []
  capsuleHitHandlers := 0

/-- A possession whose effects are added. -/
def possession : Possession ℕ := ⟨0, fun _ => .added⟩

/-- One possession grants everything once. -/
theorem grantedOnce_firstPossession :
    GrantedOnce (run (possessedBy fun ability => ability == 0) unpossessedCharacter
      [possession]) := by
  refine (repossession_iff (fun ability => ability == 0) unpossessedCharacter rfl rfl rfl
    [possession] ?_).mpr (Or.inl (Nat.le_refl 1)) [possession] (List.prefix_refl _) (by simp)
  intro p hp i
  rw [List.mem_singleton.mp hp]
  rfl

/-- A second possession grants the ability a second time. -/
theorem not_grantedOnce_secondPossession :
    ¬ ∀ pre, pre <+: [possession, possession] → pre ≠ [] →
      GrantedOnce (run (possessedBy fun ability => ability == 0) unpossessedCharacter pre) := by
  intro h
  have hperm := (h _ (List.prefix_refl _) (by simp)).1
  exact absurd hperm.length_eq (by decide)

end GasSamples.Analysis
