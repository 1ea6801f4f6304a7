import GasSamples.Reactive.HandleStore
import GasSamples.Reactive.Run
import Mathlib.Algebra.BigOperators.Group.Finset.Piecewise
import Mathlib.Data.Fintype.Basic
import Mathlib.Data.Multiset.Filter
import Mathlib.Logic.Function.Basic

/-!
# A store that several owners share

Each owner keeps a list of the handles that it received, and gives all of them back at
once.  `Holdings` is the store with these lists.  `Bag` forgets the handles: what each
owner has in the store, and what nobody holds.

`bag_step` says that the holdings do what the bags do, as long as no handle is held by
two owners (`Separate`), which every operation keeps.  So one owner never gives back what
is another one's, and `total_bag` says that the bags account for the whole store.
-/

set_option autoImplicit false

namespace Reactive

/-! ## The operations -/

/-- What is done to the shared store: a value is put in, live or not, for an owner or for
nobody; an owner gives back what it holds; all values without a property are removed. -/
inductive OwnerOp (ι α : Type*)
  | issue (owner : Option ι) (live : Bool) (a : α)
  | drop (owner : ι)
  | sweep (kept : α → Bool)

/-- The store, and the handles that each owner keeps. -/
structure Holdings (ι α : Type*) where
  store : HandleStore α
  held : ι → List ℕ

/-- The live values that each owner holds, and those that nobody holds. -/
@[ext] structure Bag (ι α : Type*) where
  loose : Multiset α
  owned : ι → Multiset α

variable {ι α : Type*}

namespace Holdings

/-- No handle is held by two owners, and none is held that was not issued. -/
structure Separate (s : Holdings ι α) : Prop where
  issued : ∀ i, ∀ h ∈ s.held i, h < s.store.nextHandle
  disjoint : ∀ i j, i ≠ j → ∀ h ∈ s.held i, h ∉ s.held j

variable [DecidableEq ι]

/-- One operation. -/
def step (s : Holdings ι α) : OwnerOp ι α → Holdings ι α
  | .issue none live a => { s with store := s.store.issue live a }
  | .issue (some i) live a =>
    { store := s.store.issue live a
      held := Function.update s.held i (s.held i ++ [s.store.nextHandle]) }
  | .drop i =>
    { store := s.store.removeAll (s.held i)
      held := Function.update s.held i [] }
  | .sweep kept => { s with store := s.store.keepWhere fun p => kept p.2 }

end Holdings

namespace Bag

/-- A value is added for an owner or for nobody. -/
def add [DecidableEq ι] (b : Bag ι α) (a : α) : Option ι → Bag ι α
  | none => { b with loose := b.loose + {a} }
  | some i => { b with owned := Function.update b.owned i (b.owned i + {a}) }

/-- The same operation, on the bags. -/
def step [DecidableEq ι] (b : Bag ι α) : OwnerOp ι α → Bag ι α
  | .issue owner live a => if live then b.add a owner else b
  | .drop i => { b with owned := Function.update b.owned i 0 }
  | .sweep kept =>
    { loose := b.loose.filter fun a => kept a = true
      owned := fun i => (b.owned i).filter fun a => kept a = true }

/-- All values of the bags. -/
def total [Fintype ι] (b : Bag ι α) : Multiset α := b.loose + ∑ i, b.owned i

end Bag

/-! ## Removals and new values commute -/

namespace HandleStore

/-- A store is given by what it has issued and what is live. -/
theorem eq_of_issued_live {s t : HandleStore α} (hissued : s.issued = t.issued)
    (hlive : s.live = t.live) : s = t := by
  cases s
  cases t
  simp only at hissued hlive
  subst hissued hlive
  rfl

/-- Handles that were issued earlier may be removed before or after a new value is put in. -/
theorem removeAll_issue (s : HandleStore α) (live : Bool) (a : α) {hs : List ℕ}
    (hold : ∀ h ∈ hs, h < s.nextHandle) :
    (s.issue live a).removeAll hs = (s.removeAll hs).issue live a := by
  have hnew : s.nextHandle ∉ hs := fun hmem => Nat.lt_irrefl _ (hold _ hmem)
  apply eq_of_issued_live
  · simp only [removeAll_issued, issue_issued]
  · cases live with
    | false => simp only [removeAll_live, issue_live, Bool.false_eq_true, if_false]
    | true => simp [removeAll_live, issue_live, List.filter_append, hnew]

end HandleStore

/-! ## Values that only one owner has -/

/-- An operation that puts in live values with `p` for `i` only, and removes none. -/
def OwnerOp.Spares (i : ι) (p : α → Prop) : OwnerOp ι α → Prop
  | .issue owner live a => live = true → p a → owner = some i
  | .drop j => j ≠ i
  | .sweep kept => ∀ a, p a → kept a = true

namespace Bag

/-- Nobody but `i` has a value with `p`. -/
def OnlyOwner (b : Bag ι α) (i : ι) (p : α → Prop) : Prop :=
  (∀ a ∈ b.loose, ¬ p a) ∧ ∀ j, j ≠ i → ∀ a ∈ b.owned j, ¬ p a

/-- The owner `i` has a value with `p`. -/
def Has (b : Bag ι α) (i : ι) (p : α → Prop) : Prop := ∃ a ∈ b.owned i, p a

variable {b : Bag ι α} {i : ι} {p : α → Prop}

/-- Where only one owner has such values, one exists at all exactly if that owner has it. -/
theorem exists_mem_total [Fintype ι] (h : b.OnlyOwner i p) :
    (∃ a ∈ b.total, p a) ↔ b.Has i p := by
  unfold total
  constructor
  · rintro ⟨a, ha, hp⟩
    rcases Multiset.mem_add.mp ha with hloose | howned
    · exact absurd hp (h.1 a hloose)
    · obtain ⟨j, -, hj⟩ := Multiset.mem_sum.mp howned
      by_cases hji : j = i
      · exact ⟨a, hji ▸ hj, hp⟩
      · exact absurd hp (h.2 j hji a hj)
  · rintro ⟨a, ha, hp⟩
    exact ⟨a, Multiset.mem_add.mpr (Or.inr (Multiset.mem_sum.mpr ⟨i, Finset.mem_univ i, ha⟩)), hp⟩

variable [DecidableEq ι]

/-- An addition that gives such a value to the one owner keeps it the only one. -/
theorem OnlyOwner.add (h : b.OnlyOwner i p) {a : α} {owner : Option ι}
    (ha : p a → owner = some i) : (b.add a owner).OnlyOwner i p := by
  cases owner with
  | none =>
    refine ⟨fun a' ha' => ?_, h.2⟩
    rcases Multiset.mem_add.mp ha' with hold | hnew
    · exact h.1 a' hold
    · rw [Multiset.mem_singleton.mp hnew]
      exact fun hp => absurd (ha hp) (by simp)
  | some k =>
    refine ⟨h.1, fun j hji a' ha' => ?_⟩
    simp only [Bag.add] at ha'
    by_cases hjk : j = k
    · subst hjk
      rw [Function.update_self] at ha'
      rcases Multiset.mem_add.mp ha' with hold | hnew
      · exact h.2 j hji a' hold
      · rw [Multiset.mem_singleton.mp hnew]
        exact fun hp => hji (Option.some.inj (ha hp))
    · rw [Function.update_of_ne hjk] at ha'
      exact h.2 j hji a' ha'

/-- What the owner has after an addition. -/
theorem has_add {a : α} {owner : Option ι} :
    (b.add a owner).Has i p ↔ b.Has i p ∨ (owner = some i ∧ p a) := by
  cases owner with
  | none => simp [Bag.add, Has]
  | some k =>
    unfold Has Bag.add
    by_cases hki : k = i
    · subst hki
      simp only [Function.update_self, Multiset.mem_add, Multiset.mem_singleton, true_and]
      constructor
      · rintro ⟨a', hold | rfl, hp⟩
        · exact Or.inl ⟨a', hold, hp⟩
        · exact Or.inr hp
      · rintro (⟨a', hold, hp⟩ | hp)
        · exact ⟨a', Or.inl hold, hp⟩
        · exact ⟨a, Or.inr rfl, hp⟩
    · simp [Function.update_of_ne (Ne.symm hki), hki]

/-- An operation that spares the owner's values keeps it the only owner, and the owner has one
after it if it had one or has been issued one. -/
theorem OnlyOwner.step (h : b.OnlyOwner i p) {op : OwnerOp ι α} (hop : op.Spares i p) :
    (b.step op).OnlyOwner i p ∧
      ((b.step op).Has i p ↔ b.Has i p ∨ ∃ a, p a ∧ op = .issue (some i) true a) := by
  cases op with
  | issue owner live a =>
    cases live with
    | false => exact ⟨h, by simp [Bag.step]⟩
    | true =>
      refine ⟨h.add (hop rfl), ?_⟩
      simp only [Bag.step, if_true, has_add]
      refine or_congr_right ⟨?_, ?_⟩
      · rintro ⟨rfl, hp⟩
        exact ⟨a, hp, rfl⟩
      · rintro ⟨a', hp, heq⟩
        obtain ⟨rfl, -, rfl⟩ := OwnerOp.issue.inj heq
        exact ⟨rfl, hp⟩
  | drop j =>
    have hi : (b.step (.drop j)).owned i = b.owned i := Function.update_of_ne (Ne.symm hop) _ _
    refine ⟨⟨h.1, fun k hki a ha => ?_⟩, ?_⟩
    · by_cases hkj : k = j
      · subst hkj
        simp [Bag.step] at ha
      · simp only [Bag.step, Function.update_of_ne hkj] at ha
        exact h.2 k hki a ha
    · unfold Has
      rw [hi]
      simp
  | sweep kept =>
    refine ⟨⟨fun a ha => h.1 a (Multiset.mem_of_mem_filter ha), fun j hji a ha =>
      h.2 j hji a (Multiset.mem_of_mem_filter ha)⟩, ?_⟩
    have hkept : (b.step (.sweep kept)).Has i p ↔ b.Has i p := by
      constructor
      · rintro ⟨a, ha, hp⟩
        exact ⟨a, Multiset.mem_of_mem_filter ha, hp⟩
      · rintro ⟨a, ha, hp⟩
        exact ⟨a, Multiset.mem_filter.mpr ⟨ha, hop a hp⟩, hp⟩
    simp [hkept]

/-- **What only one owner has** stays with it under operations that spare it, and it has
some exactly if it had some or was given some. -/
theorem OnlyOwner.run (h : b.OnlyOwner i p) {ops : List (OwnerOp ι α)}
    (hops : ∀ op ∈ ops, op.Spares i p) :
    (run Bag.step b ops).OnlyOwner i p ∧
      ((Reactive.run Bag.step b ops).Has i p ↔
        b.Has i p ∨ ∃ a, p a ∧ .issue (some i) true a ∈ ops) := by
  induction ops generalizing b with
  | nil => exact ⟨h, by simp⟩
  | cons op ops ih =>
    obtain ⟨honly, hhas⟩ := h.step (hops op List.mem_cons_self)
    obtain ⟨honly', hhas'⟩ := ih honly fun op' hop' => hops op' (List.mem_cons_of_mem _ hop')
    refine ⟨honly', ?_⟩
    rw [run_cons, hhas', hhas, or_assoc]
    refine or_congr_right ⟨?_, ?_⟩
    · rintro (⟨a, hp, rfl⟩ | ⟨a, hp, hmem⟩)
      · exact ⟨a, hp, List.mem_cons_self⟩
      · exact ⟨a, hp, List.mem_cons_of_mem _ hmem⟩
    · rintro ⟨a, hp, hmem⟩
      rcases List.mem_cons.mp hmem with heq | hmem
      · exact Or.inl ⟨a, hp, heq.symm⟩
      · exact Or.inr ⟨a, hp, hmem⟩

/-- An owner that has nothing is given nothing by operations for others. -/
theorem owned_run_eq_zero (hnone : b.owned i = 0) {ops : List (OwnerOp ι α)}
    (hops : ∀ live a, .issue (some i) live a ∉ ops) :
    (Reactive.run Bag.step b ops).owned i = 0 := by
  induction ops generalizing b with
  | nil => exact hnone
  | cons op ops ih =>
    apply ih
    · cases op with
      | issue owner live a =>
        cases live with
        | false => exact hnone
        | true =>
          cases owner with
          | none => exact hnone
          | some k =>
            have hik : i ≠ k := fun hik => hops true a (hik ▸ List.mem_cons_self)
            simp [Bag.step, Bag.add, hik, hnone]
      | drop k =>
        by_cases hik : i = k
        · subst hik
          simp [Bag.step]
        · simp [Bag.step, hik, hnone]
      | sweep kept => simp [Bag.step, hnone]
    · exact fun live a hmem => hops live a (List.mem_cons_of_mem _ hmem)

/-- What an owner gives back it does not have. -/
theorem OnlyOwner.drop (h : b.OnlyOwner i p) :
    (b.step (.drop i)).OnlyOwner i p ∧ ¬ (b.step (.drop i)).Has i p := by
  refine ⟨⟨h.1, fun j hji a ha => ?_⟩, ?_⟩
  · simp only [Bag.step, Function.update_of_ne hji] at ha
    exact h.2 j hji a ha
  · rintro ⟨a, ha, -⟩
    simp [Bag.step] at ha

end Bag

/-! ## Values that nobody owns -/

/-- An operation that puts in no live value with `p`, and takes out none that nobody owns. -/
def OwnerOp.Avoids (p : α → Prop) : OwnerOp ι α → Prop
  | .issue _ live a => live = true → ¬ p a
  | .drop _ => True
  | .sweep kept => ∀ a, p a → kept a = true

namespace Bag

/-- No owner has a value with `p`. -/
def Unowned (b : Bag ι α) (p : α → Prop) : Prop := ∀ i, ∀ a ∈ b.owned i, ¬ p a

variable {b : Bag ι α} {p : α → Prop}

/-- Values that nobody owns are loose, if they are there. -/
theorem Unowned.countP_total [Fintype ι] [DecidablePred p] (h : b.Unowned p) :
    b.total.countP p = b.loose.countP p := by
  have hnone : (∑ i, b.owned i).countP p = 0 := by
    rw [Multiset.countP_eq_zero]
    intro a ha
    obtain ⟨i, -, hi⟩ := Multiset.mem_sum.mp ha
    exact h i a hi
  unfold total
  rw [Multiset.countP_add, hnone, Nat.add_zero]

variable [DecidableEq ι]

/-- Adding a loose value leaves the owners without one. -/
theorem Unowned.add_none (h : b.Unowned p) (a : α) : (b.add a none).Unowned p := h

/-- Adding a value without `p` leaves the owners without one. -/
theorem Unowned.add (h : b.Unowned p) {a : α} (ha : ¬ p a) (owner : Option ι) :
    (b.add a owner).Unowned p := by
  cases owner with
  | none => exact h.add_none a
  | some k =>
    intro i a' ha'
    simp only [Bag.add] at ha'
    by_cases hik : i = k
    · subst hik
      rw [Function.update_self] at ha'
      rcases Multiset.mem_add.mp ha' with hold | hnew
      · exact h i a' hold
      · rw [Multiset.mem_singleton.mp hnew]
        exact ha
    · rw [Function.update_of_ne hik] at ha'
      exact h i a' ha'

/-- A sweep leaves the owners without one. -/
theorem Unowned.sweep (h : b.Unowned p) (kept : α → Bool) : (b.step (.sweep kept)).Unowned p :=
  fun i a ha => h i a (Multiset.mem_of_mem_filter ha)

/-- Adding a value without `p` keeps the number of loose values with it. -/
theorem countP_loose_add [DecidablePred p] {a : α} (ha : ¬ p a) (owner : Option ι) :
    (b.add a owner).loose.countP p = b.loose.countP p := by
  cases owner with
  | none =>
    have hnone : ({a} : Multiset α).countP p = 0 := by
      rw [Multiset.countP_eq_zero]
      intro a' ha'
      rw [Multiset.mem_singleton.mp ha']
      exact ha
    show (b.loose + {a}).countP p = b.loose.countP p
    rw [Multiset.countP_add, hnone, Nat.add_zero]
  | some k => rfl

/-- An operation that avoids such values leaves the owners without one, and as many of them
loose as before. -/
theorem Unowned.step [DecidablePred p] (h : b.Unowned p) {op : OwnerOp ι α} (hop : op.Avoids p) :
    (b.step op).Unowned p ∧ (b.step op).loose.countP p = b.loose.countP p := by
  cases op with
  | issue owner live a =>
    cases live with
    | false => exact ⟨h, rfl⟩
    | true => exact ⟨h.add (hop rfl) owner, countP_loose_add (hop rfl) owner⟩
  | drop k =>
    refine ⟨fun i a ha => ?_, rfl⟩
    by_cases hik : i = k
    · subst hik
      simp [Bag.step] at ha
    · simp only [Bag.step, Function.update_of_ne hik] at ha
      exact h i a ha
  | sweep kept =>
    refine ⟨h.sweep kept, ?_⟩
    show (b.loose.filter fun a => kept a = true).countP p = b.loose.countP p
    rw [Multiset.countP_filter]
    apply Multiset.countP_congr rfl
    intro a _
    exact propext ⟨And.left, fun hp => ⟨hp, hop a hp⟩⟩

/-- **What nobody owns** is left alone, and given to nobody, by operations that avoid it. -/
theorem Unowned.run [DecidablePred p] (h : b.Unowned p) {ops : List (OwnerOp ι α)}
    (hops : ∀ op ∈ ops, op.Avoids p) :
    (run Bag.step b ops).Unowned p ∧
      (Reactive.run Bag.step b ops).loose.countP p = b.loose.countP p := by
  induction ops generalizing b with
  | nil => exact ⟨h, rfl⟩
  | cons op ops ih =>
    obtain ⟨hnext, hcount⟩ := h.step (hops op List.mem_cons_self)
    obtain ⟨hlast, hrest⟩ := ih hnext fun op' hop' => hops op' (List.mem_cons_of_mem _ hop')
    exact ⟨hlast, hrest.trans hcount⟩

end Bag

/-! ## What is held and what is loose -/

namespace Holdings

/-- Some owner holds the handle. -/
def IsHeld (s : Holdings ι α) (h : ℕ) : Prop := ∃ i, h ∈ s.held i

instance [Fintype ι] (s : Holdings ι α) (h : ℕ) : Decidable (s.IsHeld h) :=
  inferInstanceAs (Decidable (∃ i, h ∈ s.held i))

/-- The values of those live entries whose handle has a property. -/
def valuesWhere (s : HandleStore α) (p : ℕ → Prop) [DecidablePred p] : Multiset α :=
  ((s.live.filter fun entry => p entry.1).map Prod.snd : List α)

/-- Forget the handles. -/
def bag [Fintype ι] (s : Holdings ι α) : Bag ι α where
  loose := valuesWhere s.store fun h => ¬ s.IsHeld h
  owned i := valuesWhere s.store fun h => h ∈ s.held i

/-- The loose values are those live under a handle that nobody holds. -/
@[simp] theorem bag_loose [Fintype ι] (s : Holdings ι α) :
    s.bag.loose = valuesWhere s.store fun h => ¬ s.IsHeld h := rfl

/-- The values of an owner are those live under a handle that it holds. -/
@[simp] theorem bag_owned [Fintype ι] (s : Holdings ι α) (i : ι) :
    s.bag.owned i = valuesWhere s.store fun h => h ∈ s.held i := rfl

section ValuesWhere

variable {s : HandleStore α} {p q : ℕ → Prop} [DecidablePred p] [DecidablePred q]

/-- Only the handles that were issued count. -/
theorem valuesWhere_congr (h : ∀ n < s.nextHandle, p n ↔ q n) :
    valuesWhere s p = valuesWhere s q := by
  unfold valuesWhere
  have hfilter : s.live.filter (fun entry => p entry.1) =
      s.live.filter fun entry => q entry.1 := by
    apply List.filter_congr
    intro entry hentry
    rw [decide_eq_decide]
    exact h entry.1 (s.lt_nextHandle hentry)
  rw [hfilter]

/-- Where no handle qualifies there are no values. -/
theorem valuesWhere_of_forall_not (h : ∀ n < s.nextHandle, ¬ p n) : valuesWhere s p = 0 := by
  have hfalse := valuesWhere_congr (s := s) (q := fun _ => False) fun n hn =>
    iff_false_intro (h n hn)
  rw [hfalse]
  simp [valuesWhere]

/-- A new value counts if it is live and its handle has the property. -/
theorem valuesWhere_issue (live : Bool) (a : α) :
    valuesWhere (s.issue live a) p =
      valuesWhere s p + if live = true ∧ p s.nextHandle then {a} else 0 := by
  unfold valuesWhere
  cases live with
  | false => simp
  | true =>
    by_cases hp : p s.nextHandle
    · simp only [HandleStore.issue_live, if_true, List.filter_append, List.map_append,
        true_and, if_pos hp, ← Multiset.coe_add]
      simp [hp]
    · simp [hp, List.filter_append]

/-- Removal takes away the values under the handles removed. -/
theorem valuesWhere_removeAll (hs : List ℕ) :
    valuesWhere (s.removeAll hs) p = valuesWhere s fun h => p h ∧ h ∉ hs := by
  unfold valuesWhere
  rw [HandleStore.removeAll_live, List.filter_filter]
  simp only [Bool.decide_and]

/-- A sweep filters the values. -/
theorem valuesWhere_keepWhere (kept : α → Bool) :
    valuesWhere (s.keepWhere fun entry => kept entry.2) p =
      (valuesWhere s p).filter fun a => kept a = true := by
  unfold valuesWhere
  rw [HandleStore.keepWhere_live, Multiset.filter_coe, List.filter_map, List.filter_filter,
    List.filter_filter]
  congr 2
  apply List.filter_congr
  intro entry _
  rw [Bool.and_comm]
  simp

end ValuesWhere

/-! ## The operations keep the owners apart -/

variable {s : Holdings ι α}

/-- The next handle is held by nobody. -/
theorem Separate.not_held_next (h : s.Separate) (i : ι) : s.store.nextHandle ∉ s.held i :=
  fun hmem => Nat.lt_irrefl _ (h.issued i _ hmem)

variable [DecidableEq ι]

/-- Every operation keeps the owners' handles separate. -/
theorem Separate.step (h : s.Separate) (op : OwnerOp ι α) : (s.step op).Separate := by
  cases op with
  | issue owner live a =>
    cases owner with
    | none =>
      refine ⟨fun i n hn => ?_, h.disjoint⟩
      simp only [Holdings.step, HandleStore.issue_nextHandle]
      have hlt := h.issued i n hn
      omega
    | some i =>
      constructor
      · intro j n hn
        simp only [Holdings.step, HandleStore.issue_nextHandle] at hn ⊢
        by_cases hji : j = i
        · subst hji
          rw [Function.update_self] at hn
          rcases List.mem_append.mp hn with hold | hnew
          · have hlt := h.issued j n hold
            omega
          · rw [List.mem_singleton.mp hnew]
            omega
        · rw [Function.update_of_ne hji] at hn
          have hlt := h.issued j n hn
          omega
      · -- the new handle is held by nobody else
        intro j k hjk n hj hk
        simp only [Holdings.step] at hj hk
        by_cases hji : j = i
        · subst hji
          rw [Function.update_self] at hj
          rw [Function.update_of_ne (Ne.symm hjk)] at hk
          rcases List.mem_append.mp hj with hold | hnew
          · exact h.disjoint j k hjk n hold hk
          · rw [List.mem_singleton.mp hnew] at hk
            exact h.not_held_next k hk
        · rw [Function.update_of_ne hji] at hj
          by_cases hki : k = i
          · subst hki
            rw [Function.update_self] at hk
            rcases List.mem_append.mp hk with hold | hnew
            · exact h.disjoint j k hjk n hj hold
            · rw [List.mem_singleton.mp hnew] at hj
              exact h.not_held_next j hj
          · rw [Function.update_of_ne hki] at hk
            exact h.disjoint j k hjk n hj hk
  | drop i =>
    have hsub : ∀ j, ∀ n ∈ Function.update s.held i [] j, n ∈ s.held j := by
      intro j n hn
      by_cases hji : j = i
      · subst hji
        rw [Function.update_self] at hn
        exact absurd hn List.not_mem_nil
      · rwa [Function.update_of_ne hji] at hn
    constructor
    · intro j n hn
      simp only [Holdings.step, HandleStore.removeAll_nextHandle]
      exact h.issued j n (hsub j n hn)
    · intro j k hjk n hj hk
      exact h.disjoint j k hjk n (hsub j n hj) (hsub k n hk)
  | sweep kept => exact ⟨fun i n hn => h.issued i n hn, h.disjoint⟩

/-! ## The simulation -/

/-- Who holds what after a value was put in for an owner. -/
theorem mem_held_issue {i j : ι} {n : ℕ} :
    n ∈ Function.update s.held i (s.held i ++ [s.store.nextHandle]) j ↔
      n ∈ s.held j ∨ (j = i ∧ n = s.store.nextHandle) := by
  by_cases hji : j = i
  · subst hji
    simp [Function.update_self]
  · rw [Function.update_of_ne hji]
    simp [hji]

variable [Fintype ι]

/-- Issuing a loose entry adds one loose value to the bag. -/
theorem bag_issue_none (h : s.Separate) (live : Bool) (a : α) :
    (s.step (.issue none live a)).bag = s.bag.step (.issue none live a) := by
  have hfree : ¬ s.IsHeld s.store.nextHandle := fun ⟨i, hi⟩ => h.not_held_next i hi
  have hloose : (s.step (.issue none live a)).bag.loose =
      s.bag.loose + if live = true then {a} else 0 := by
    have hissue := valuesWhere_issue (s := s.store) (p := fun n => ¬ s.IsHeld n) live a
    simp only [hfree, not_false_eq_true, and_true] at hissue
    exact hissue
  have howned : (s.step (.issue none live a)).bag.owned = s.bag.owned := by
    funext i
    have hissue := valuesWhere_issue (s := s.store) (p := fun n => n ∈ s.held i) live a
    simp only [h.not_held_next i, and_false, if_false, add_zero] at hissue
    exact hissue
  cases live with
  | false =>
    simp only [Bool.false_eq_true, if_false, add_zero] at hloose
    exact Bag.ext hloose howned
  | true => exact Bag.ext hloose howned

/-- Issuing an entry to an owner adds one value to that owner's part of the bag. -/
theorem bag_issue_some (h : s.Separate) (i : ι) (live : Bool) (a : α) :
    (s.step (.issue (some i) live a)).bag = s.bag.step (.issue (some i) live a) := by
  have hmem : ∀ j, ∀ n < s.store.nextHandle,
      (n ∈ (s.step (.issue (some i) live a)).held j ↔ n ∈ s.held j) := by
    intro j n hn
    simp only [Holdings.step, mem_held_issue]
    exact ⟨fun hc => hc.resolve_right fun hc => by omega, Or.inl⟩
  have hnext : Holdings.IsHeld (s.step (.issue (some i) live a)) s.store.nextHandle :=
    ⟨i, mem_held_issue.mpr (Or.inr ⟨rfl, rfl⟩)⟩
  have hloose : (s.step (.issue (some i) live a)).bag.loose = s.bag.loose := by
    have hissue := valuesWhere_issue (s := s.store)
      (p := fun n => ¬ Holdings.IsHeld (s.step (.issue (some i) live a)) n) live a
    simp only [hnext, not_true_eq_false, and_false, if_false, add_zero] at hissue
    exact hissue.trans (valuesWhere_congr fun n hn =>
      not_congr (exists_congr fun j => hmem j n hn))
  have howned : ∀ j, (s.step (.issue (some i) live a)).bag.owned j =
      s.bag.owned j + if live = true ∧ j = i then {a} else 0 := by
    intro j
    have hissue := valuesWhere_issue (s := s.store)
      (p := fun n => n ∈ (s.step (.issue (some i) live a)).held j) live a
    have hj : s.store.nextHandle ∈ (s.step (.issue (some i) live a)).held j ↔ j = i := by
      simp only [Holdings.step, mem_held_issue]
      exact ⟨fun hc => (hc.resolve_left (h.not_held_next j)).1, fun hc => Or.inr ⟨hc, trivial⟩⟩
    rw [valuesWhere_congr (hmem j)] at hissue
    simp only [hj] at hissue
    exact hissue
  cases live with
  | false =>
    refine Bag.ext hloose ?_
    funext j
    rw [howned j]
    simp [Bag.step]
  | true =>
    refine Bag.ext hloose ?_
    funext j
    rw [howned j]
    by_cases hji : j = i
    · subst hji
      simp [Bag.step, Bag.add]
    · simp [Bag.step, Bag.add, hji]

/-- Dropping an owner's handles empties that owner's part of the bag. -/
theorem bag_drop (h : s.Separate) (i : ι) : (s.step (.drop i)).bag = s.bag.step (.drop i) := by
  have hloose : (s.step (.drop i)).bag.loose = s.bag.loose := by
    have hiff : ∀ n, (¬ Holdings.IsHeld (s.step (.drop i)) n ∧ n ∉ s.held i) ↔ ¬ s.IsHeld n := by
      intro n
      constructor
      · -- what is held now was held before, and not by `i`
        rintro ⟨hfree, hn⟩ ⟨j, hj⟩
        have hji : j ≠ i := fun hji => hn (hji ▸ hj)
        exact hfree ⟨j, by simpa only [Holdings.step, Function.update_of_ne hji] using hj⟩
      · intro hfree
        refine ⟨?_, fun hn => hfree ⟨i, hn⟩⟩
        rintro ⟨j, hj⟩
        by_cases hji : j = i
        · subst hji
          simp [Holdings.step] at hj
        · exact hfree ⟨j, by simpa only [Holdings.step, Function.update_of_ne hji] using hj⟩
    have hremove := valuesWhere_removeAll (s := s.store)
      (p := fun n => ¬ Holdings.IsHeld (s.step (.drop i)) n) (s.held i)
    exact hremove.trans (valuesWhere_congr fun n _ => hiff n)
  refine Bag.ext hloose ?_
  funext j
  refine (valuesWhere_removeAll (s := s.store)
    (p := fun n => n ∈ (s.step (.drop i)).held j) (s.held i)).trans ?_
  by_cases hji : j = i
  · subst hji
    simp only [Bag.step, Function.update_self]
    exact valuesWhere_of_forall_not fun n _ hc => absurd hc.1 (by simp [Holdings.step])
  · simp only [Bag.step, Function.update_of_ne hji, bag_owned]
    refine valuesWhere_congr fun n _ => ?_
    simp only [Holdings.step, Function.update_of_ne hji]
    exact ⟨fun hc => hc.1, fun hc => ⟨hc, h.disjoint j i hji n hc⟩⟩

/-- A sweep of the store is a sweep of the bag. -/
theorem bag_sweep (kept : α → Bool) :
    (s.step (.sweep kept)).bag = s.bag.step (.sweep kept) := by
  refine Bag.ext (valuesWhere_keepWhere (s := s.store) (p := fun n => ¬ s.IsHeld n) kept) ?_
  funext i
  exact valuesWhere_keepWhere (s := s.store) (p := fun n => n ∈ s.held i) kept

/-- **The holdings do what the bags do.** -/
theorem bag_step (h : s.Separate) (op : OwnerOp ι α) : (s.step op).bag = s.bag.step op := by
  cases op with
  | issue owner live a =>
    cases owner with
    | none => exact bag_issue_none h live a
    | some i => exact bag_issue_some h i live a
  | drop i => exact bag_drop h i
  | sweep kept => exact bag_sweep kept

omit [Fintype ι] in
/-- Every run keeps the owners' handles separate. -/
theorem Separate.run (h : s.Separate) (ops : List (OwnerOp ι α)) :
    (run Holdings.step s ops).Separate := by
  induction ops generalizing s with
  | nil => exact h
  | cons op ops ih => exact ih (h.step op)

/-- The bag follows the handles over whole runs. -/
theorem bag_run (h : s.Separate) (ops : List (OwnerOp ι α)) :
    (Reactive.run Holdings.step s ops).bag = Reactive.run Bag.step s.bag ops := by
  induction ops generalizing s with
  | nil => rfl
  | cons op ops ih => rw [run_cons, run_cons, ih (h.step op), bag_step h]

/-- The values of a list of entries, split by who holds them. -/
theorem Separate.split (h : s.Separate) (l : List (ℕ × α)) :
    (((l.filter fun entry => ¬ s.IsHeld entry.1).map Prod.snd : List α) : Multiset α) +
        ∑ i, (((l.filter fun entry => entry.1 ∈ s.held i).map Prod.snd : List α) : Multiset α) =
      (l.map Prod.snd : List α) := by
  induction l with
  | nil => simp
  | cons entry l ih =>
    by_cases hheld : s.IsHeld entry.1
    · obtain ⟨i, hi⟩ := hheld
      -- exactly one summand counts the entry
      have hcons : ∀ j, ((((entry :: l).filter fun entry => entry.1 ∈ s.held j).map Prod.snd :
          List α) : Multiset α) = (if i = j then ({entry.2} : Multiset α) else 0) +
            (((l.filter fun entry => entry.1 ∈ s.held j).map Prod.snd : List α) :
              Multiset α) := by
        intro j
        by_cases hij : i = j
        · subst hij
          simp [hi]
        · have hnot := h.disjoint i j hij _ hi
          simp [hij, hnot]
      have hnotfree : ¬ ¬ s.IsHeld entry.1 := not_not.mpr ⟨i, hi⟩
      rw [Finset.sum_congr rfl fun j _ => hcons j, Finset.sum_add_distrib]
      simp only [List.filter_cons, hnotfree, decide_false, Bool.false_eq_true, if_false]
      rw [Finset.sum_ite_eq, if_pos (Finset.mem_univ i), add_left_comm, ih]
      rfl
    · have hnone : ∀ j, entry.1 ∉ s.held j := fun j hj => hheld ⟨j, hj⟩
      simp only [List.filter_cons, hheld, hnone, not_false_eq_true, decide_true, decide_false,
        Bool.false_eq_true, if_true, if_false, List.map_cons]
      rw [← Multiset.cons_coe, ← Multiset.cons_coe, Multiset.cons_add, ih]

/-- **The bags account for the whole store.** -/
theorem total_bag (h : s.Separate) : s.bag.total = (s.store.values : Multiset α) :=
  h.split s.store.live

end Holdings

end Reactive
