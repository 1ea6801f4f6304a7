import Mathlib.Data.List.Basic
import Mathlib.Data.List.Nodup

/-!
# A store that issues handles

Every value put into the store receives a handle that was never used before; the value
stays live until its handle is removed. `issued` is the whole history (the handle of a
value is its position there), `live` what is still held. The two fields of
well-formedness travel with the store: a live entry is an entry of the history, and no
handle is live twice.
-/

set_option autoImplicit false

namespace Reactive

/-- The values issued so far and those of them that are still live. -/
structure HandleStore (α : Type*) where
  issued : List α
  live : List (ℕ × α)
  issued_get : ∀ p ∈ live, issued[p.1]? = some p.2
  nodup : (live.map Prod.fst).Nodup

namespace HandleStore

variable {α : Type*}

/-- The store that has issued nothing. -/
def empty : HandleStore α := ⟨[], [], by simp, by simp⟩

/-- The handle that the next value receives. -/
def nextHandle (s : HandleStore α) : ℕ := s.issued.length

/-- The values of the live entries, in the order they were issued. -/
def values (s : HandleStore α) : List α := s.live.map Prod.snd

/-- A handle is live as long as it has been issued and not been removed. -/
def IsLive (s : HandleStore α) (h : ℕ) : Prop := h ∈ s.live.map Prod.fst

instance (s : HandleStore α) (h : ℕ) : Decidable (s.IsLive h) :=
  inferInstanceAs (Decidable (h ∈ s.live.map Prod.fst))

/-- The handle of a live entry has been issued. -/
theorem lt_nextHandle (s : HandleStore α) {p : ℕ × α} (hp : p ∈ s.live) :
    p.1 < s.nextHandle := by
  obtain ⟨hlt, -⟩ := List.getElem?_eq_some_iff.mp (s.issued_get p hp)
  exact hlt

/-- Issue a handle for `a`; with `keep` the entry becomes live, without it the value is
only recorded in the history. -/
def issue (s : HandleStore α) (keep : Bool) (a : α) : HandleStore α where
  issued := s.issued ++ [a]
  live := if keep then s.live ++ [(s.issued.length, a)] else s.live
  issued_get := by
    have hold : ∀ p ∈ s.live, (s.issued ++ [a])[p.1]? = some p.2 := by
      intro p hp
      rw [List.getElem?_append_left (s.lt_nextHandle hp)]
      exact s.issued_get p hp
    intro p hp
    split at hp
    · rcases List.mem_append.mp hp with hp | hp
      · exact hold p hp
      · rw [List.mem_singleton.mp hp]
        simp
    · exact hold p hp
  nodup := by
    split
    · rw [List.map_append, List.nodup_append]
      refine ⟨s.nodup, by simp, ?_⟩
      intro h hh h' hh'
      obtain ⟨p, hp, rfl⟩ := List.mem_map.mp hh
      simp only [List.map_cons, List.map_nil, List.mem_singleton] at hh'
      rw [hh']
      exact Nat.ne_of_lt (s.lt_nextHandle hp)
    · exact s.nodup

/-- Keep the live entries that satisfy `p`. -/
def keepWhere (s : HandleStore α) (p : ℕ × α → Bool) : HandleStore α where
  issued := s.issued
  live := s.live.filter p
  issued_get := fun q hq => s.issued_get q (List.mem_of_mem_filter hq)
  nodup := s.nodup.sublist (List.filter_sublist.map _)

/-- Remove one handle; a handle that is not live is ignored. -/
def remove (s : HandleStore α) (h : ℕ) : HandleStore α := s.keepWhere fun p => p.1 != h

/-- Remove a list of handles one after the other. -/
def removeAll (s : HandleStore α) (hs : List ℕ) : HandleStore α := hs.foldl remove s

/-- What has been issued after one more issue. -/
@[simp] theorem issue_issued (s : HandleStore α) (keep : Bool) (a : α) :
    (s.issue keep a).issued = s.issued ++ [a] := rfl

/-- What is live after an issue: the new entry only if it is kept. -/
@[simp] theorem issue_live (s : HandleStore α) (keep : Bool) (a : α) :
    (s.issue keep a).live = if keep then s.live ++ [(s.nextHandle, a)] else s.live := rfl

/-- An issue uses up one handle. -/
@[simp] theorem issue_nextHandle (s : HandleStore α) (keep : Bool) (a : α) :
    (s.issue keep a).nextHandle = s.nextHandle + 1 := by
  simp [nextHandle]

/-- What is live after a sweep. -/
@[simp] theorem keepWhere_live (s : HandleStore α) (p : ℕ × α → Bool) :
    (s.keepWhere p).live = s.live.filter p := rfl

/-- A sweep issues nothing. -/
@[simp] theorem keepWhere_nextHandle (s : HandleStore α) (p : ℕ × α → Bool) :
    (s.keepWhere p).nextHandle = s.nextHandle := rfl

/-- Two filters may be applied in either order. -/
theorem keepWhere_comm (s : HandleStore α) (p q : ℕ × α → Bool) :
    (s.keepWhere p).keepWhere q = (s.keepWhere q).keepWhere p := by
  unfold keepWhere
  congr 1
  rw [List.filter_filter, List.filter_filter]
  exact List.filter_congr fun entry _ => Bool.and_comm _ _

/-- Removing no handle changes nothing. -/
@[simp] theorem removeAll_nil (s : HandleStore α) : s.removeAll [] = s := rfl

/-- Removal leaves the record of what has been issued. -/
@[simp] theorem removeAll_issued (s : HandleStore α) (hs : List ℕ) :
    (s.removeAll hs).issued = s.issued := by
  induction hs generalizing s with
  | nil => rfl
  | cons h hs ih => exact ih (s.remove h)

/-- Removal issues nothing. -/
@[simp] theorem removeAll_nextHandle (s : HandleStore α) (hs : List ℕ) :
    (s.removeAll hs).nextHandle = s.nextHandle := by
  simp [nextHandle]

/-- Removing handles leaves exactly the live entries under other handles. -/
@[simp] theorem removeAll_live (s : HandleStore α) (hs : List ℕ) :
    (s.removeAll hs).live = s.live.filter fun p => p.1 ∉ hs := by
  induction hs generalizing s with
  | nil => simp
  | cons h hs ih =>
    rw [show s.removeAll (h :: hs) = (s.remove h).removeAll hs from rfl, ih]
    simp only [remove, keepWhere_live, List.filter_filter, List.mem_cons, not_or]
    apply List.filter_congr
    intro p _
    rw [Bool.eq_iff_iff]
    simp [and_comm]

/-- What is live after a removal was live before and is not among the handles removed. -/
theorem isLive_removeAll {s : HandleStore α} {hs : List ℕ} {h : ℕ} :
    (s.removeAll hs).IsLive h ↔ s.IsLive h ∧ h ∉ hs := by
  simp only [IsLive, removeAll_live, List.mem_map, List.mem_filter, decide_eq_true_eq]
  constructor
  · rintro ⟨p, ⟨hp, hmem⟩, rfl⟩
    exact ⟨⟨p, hp, rfl⟩, hmem⟩
  · rintro ⟨⟨p, hp, rfl⟩, hmem⟩
    exact ⟨p, ⟨hp, hmem⟩, rfl⟩

/-- What is live after a sweep was live before. -/
theorem isLive_of_keepWhere {s : HandleStore α} {p : ℕ × α → Bool} {h : ℕ}
    (hh : (s.keepWhere p).IsLive h) : s.IsLive h := by
  obtain ⟨q, hq, rfl⟩ := List.mem_map.mp hh
  exact List.mem_map_of_mem (List.mem_of_mem_filter hq)

end HandleStore

end Reactive
