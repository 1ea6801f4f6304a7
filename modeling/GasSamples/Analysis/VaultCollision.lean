import GasSamples.Reactive.Run
import GasSamples.Analysis.VaultOverAbility

/-!
# The capsule's collision responses over vaults

`ActivateAbility` writes Ignore at the listed channels and `EndAbility` writes Block
there, whatever the responses were.  The second write hides the first
(`overwrite_overwrite`), so what a run of vaults leaves behind is one overwrite of the
initial map with Block: the initial map itself exactly if it already blocked at every
listed channel (`overwrite_eq_self_iff`).
-/

set_option autoImplicit false

namespace GasSamples.Analysis

open Reactive GasSamples.Model GasSamples.Program

variable {K E C : Type} [DecidableEq C]

/-- Without an active vault the responses are the initial ones; while a committed vault
is active they differ from them exactly by Ignore at the listed channels. -/
def ResponsesKept (c : VaultOverClass E C) (initial : C → ECollisionResponse)
    (w : GASCharacter K E C) : Prop :=
  (w.vault.ability.activeCount = 0 → w.collisionResponse = initial) ∧
    (0 < w.vault.ability.activeCount → w.vault.passedCommit = true →
      ∀ channel, w.collisionResponse channel =
        if channel ∈ c.collisionChannelsToIgnore then .ignore else initial channel)

/-- `EndAbility` is only reached if every listed channel blocked from the start. -/
def EndsBlocking (c : VaultOverClass E C) (initial : C → ECollisionResponse)
    (w : GASCharacter K E C) (e : VaultEvent K) : Prop :=
  endsVault w e = true → ∀ channel ∈ c.collisionChannelsToIgnore, initial channel = .block

/-- While a vault is active or not, the responses are an overwrite of the initial ones. -/
theorem overwrite_of_responsesKept {c : VaultOverClass E C} {initial : C → ECollisionResponse}
    {w : GASCharacter K E C} (hw : VaultSettled w) (h : ResponsesKept c initial w)
    (v : ECollisionResponse) :
    overwrite c.collisionChannelsToIgnore v w.collisionResponse =
      overwrite c.collisionChannelsToIgnore v initial := by
  by_cases hactive : 0 < w.vault.ability.activeCount
  · have hresponse : w.collisionResponse =
        overwrite c.collisionChannelsToIgnore .ignore initial := by
      funext channel
      rw [overwrite_apply]
      exact h.2 hactive (hw.2.2 hactive) channel
    rw [hresponse, overwrite_overwrite]
  · rw [h.1 (by omega)]

/-- One event, from a state with the property: it is kept exactly if the event meets
`EndsBlocking`. -/
theorem responsesKept_step_iff {c : VaultOverClass E C} {initial : C → ECollisionResponse}
    {w : GASCharacter K E C} (hw : VaultSettled w) (h : ResponsesKept c initial w)
    (e : VaultEvent K) :
    ResponsesKept c initial (vaultStep c w e) ↔ EndsBlocking c initial w e := by
  by_cases he : endsVault w e = true
  · have hended := vaultStep_ends c hw.1 hw.2.1 he
    have hresponse := hended.collisionResponse
    rw [overwrite_of_responsesKept hw h] at hresponse
    have hzero := hended.activeCount
    simp only [ResponsesKept, EndsBlocking, hzero, hresponse, he, forall_const,
      Nat.lt_irrefl, false_implies, and_true]
    exact overwrite_eq_self_iff
  · refine ⟨fun _ habs => absurd habs he, fun _ => ?_⟩
    by_cases hs : startsVault w e = true
    · have hstarted := vaultStep_starts c hw.1 hs
      have hresponse := hstarted.collisionResponse
      rw [overwrite_of_responsesKept hw h] at hresponse
      refine ⟨fun hzero => ?_, fun _ _ channel => ?_⟩
      · rw [hstarted.activeCount] at hzero
        omega
      · rw [hresponse, overwrite_apply]
    · rw [vaultStep_idle c (by simpa using hs) (by simpa using he)]
      exact h

/-- **The responses are restored exactly where they blocked before.**  For every initial
response map and list of channels and every run of the vault from a character without an
active vault, the responses are the initial ones whenever no vault is active, and differ
from them exactly by Ignore at the listed channels while a committed vault is active, if
and only if every event that reaches `EndAbility` finds that the initial response was
Block at all listed channels.
SOURCE: AG_VaultOverAbility.cpp:154-235 -/
theorem responsesKept_iff (c : VaultOverClass E C) (w : GASCharacter K E C)
    (hv : w.avatarValid = true) (hidle : w.vault.ability.activeCount = 0)
    (es : List (VaultEvent K)) :
    Always (vaultStep c) (ResponsesKept c w.collisionResponse) w es ↔
      EveryStep (vaultStep c) (EndsBlocking c w.collisionResponse) w es := by
  have hsettled : VaultSettled w := ⟨hv, by omega, fun hpos => by omega⟩
  have hkept : ResponsesKept c w.collisionResponse w :=
    ⟨fun _ => rfl, fun hpos _ => by omega⟩
  exact always_iff_everyStep VaultSettled (fun w e hw h => responsesKept_step_iff hw h e)
    (fun w e hw _ _ => vaultSettled_step c hw e) hsettled hkept es

/-- A vault through channel 0. -/
def vaultThroughPawns : VaultOverClass ℕ ℕ := ⟨[], [], [0]⟩

/-- With every channel blocking at first, a vault and a second attempt whose commit
fails keep the responses. -/
theorem responsesKept_blocking :
    Always (vaultStep vaultThroughPawns)
      (ResponsesKept vaultThroughPawns fun _ => ECollisionResponse.block) walkingCharacter
      [.activate passingAttempt, .montageFinished,
        .activate { passingAttempt with commit := ⟨false, ⟨0, 0, 0⟩, ⟨0, 0, 0⟩⟩ }] := by
  refine (responsesKept_iff vaultThroughPawns walkingCharacter rfl rfl _).mpr ?_
  exact ⟨fun _ _ _ => rfl, fun _ _ _ => rfl, fun _ _ _ => rfl, trivial⟩

/-- A channel that overlapped before the vault blocks after it. -/
theorem not_responsesKept_overlap :
    ¬ Always (vaultStep vaultThroughPawns)
      (ResponsesKept vaultThroughPawns fun _ => ECollisionResponse.overlap)
      (GASCharacter.spawned .walking (1 : ℚ) fun _ => .overlap)
      [.activate passingAttempt, .montageFinished] := by
  intro h
  have hrestored := congrFun (h.last.1 (by decide)) 0
  exact absurd hrestored (by decide)

end GasSamples.Analysis
