import Mathlib.Data.List.Basic
import Mathlib.Data.List.Infix
import Mathlib.Logic.Function.Conjugate

/-!
# Runs of an event-driven component

A component is a step function `step : σ → ε → σ` on its states, driven by events.
`run` folds it over a list of events, `Always` says that a property holds in every
state a run reaches (the first one included), and `EveryStep` that a relation between
a state and the event taken there holds at every step of a run.

Two rules carry the developments built on this file. `always_of_invariant` is the
invariant rule. `always_iff_everyStep` is its exact form under a condition on the steps:
where one step keeps the property if and only if it meets the condition, a whole run keeps
the property if and only if all its steps meet the condition.
-/

set_option autoImplicit false

namespace Reactive

variable {σ τ ε : Type*}

/-- The state reached from `s` by the events `es`, taken in order. -/
def run (step : σ → ε → σ) (s : σ) (es : List ε) : σ := es.foldl step s

/-- `P` holds in every state that the run of `es` from `s` reaches. -/
def Always (step : σ → ε → σ) (P : σ → Prop) (s : σ) (es : List ε) : Prop :=
  ∀ pre, pre <+: es → P (run step s pre)

/-- `Q` holds at every step of the run: of the state a step starts in and its event. -/
def EveryStep (step : σ → ε → σ) (Q : σ → ε → Prop) : σ → List ε → Prop
  | _, [] => True
  | s, e :: es => Q s e ∧ EveryStep step Q (step s e) es

section Basic

variable {step : σ → ε → σ} {P P' : σ → Prop} {Q Q' : σ → ε → Prop}

/-- The run without events stays in its state. -/
@[simp] theorem run_nil (s : σ) : run step s [] = s := rfl

/-- A run takes its first event first. -/
@[simp] theorem run_cons (s : σ) (e : ε) (es : List ε) :
    run step s (e :: es) = run step (step s e) es := rfl

/-- A run over two lists is one run after the other. -/
theorem run_append (s : σ) (es es' : List ε) :
    run step s (es ++ es') = run step (run step s es) es' := by
  simp [run, List.foldl_append]

/-- A run without events has no steps. -/
@[simp] theorem everyStep_nil (s : σ) : EveryStep step Q s [] := trivial

/-- The steps of a run are the first one and those of the rest. -/
@[simp] theorem everyStep_cons (s : σ) (e : ε) (es : List ε) :
    EveryStep step Q s (e :: es) ↔ Q s e ∧ EveryStep step Q (step s e) es := Iff.rfl

/-- The run without events visits one state. -/
@[simp] theorem always_nil (s : σ) : Always step P s [] ↔ P s := by
  constructor
  · intro h
    exact h [] (List.prefix_refl [])
  · intro h pre hpre
    rw [List.prefix_nil.mp hpre]
    exact h

/-- A run visits its first state and those of the rest. -/
@[simp] theorem always_cons (s : σ) (e : ε) (es : List ε) :
    Always step P s (e :: es) ↔ P s ∧ Always step P (step s e) es := by
  constructor
  · intro h
    refine ⟨h [] (List.nil_prefix), fun pre hpre => ?_⟩
    exact h (e :: pre) (List.cons_prefix_cons.mpr ⟨rfl, hpre⟩)
  · rintro ⟨hs, h⟩ pre hpre
    cases pre with
    | nil => exact hs
    | cons e' pre =>
      obtain ⟨rfl, hpre'⟩ := List.cons_prefix_cons.mp hpre
      exact h pre hpre'

/-- A property of every reached state holds of the first one. -/
theorem Always.head {s : σ} {es : List ε} (h : Always step P s es) : P s :=
  h [] List.nil_prefix

/-- A property of every reached state holds of the last one. -/
theorem Always.last {s : σ} {es : List ε} (h : Always step P s es) : P (run step s es) :=
  h es (List.prefix_refl es)

/-- The states of a run over two lists. -/
theorem always_append (s : σ) (es es' : List ε) :
    Always step P s (es ++ es') ↔ Always step P s es ∧ Always step P (run step s es) es' := by
  induction es generalizing s with
  | nil =>
    simp only [List.nil_append, always_nil, run_nil]
    exact ⟨fun h => ⟨h.head, h⟩, fun h => h.2⟩
  | cons e es ih => simp only [List.cons_append, always_cons, run_cons, ih, and_assoc]

/-- Every step meets two conditions if it meets each. -/
theorem everyStep_and {s : σ} {es : List ε} :
    EveryStep step (fun s e => Q s e ∧ Q' s e) s es ↔
      EveryStep step Q s es ∧ EveryStep step Q' s es := by
  induction es generalizing s with
  | nil => simp
  | cons e es ih =>
    simp only [everyStep_cons, ih]
    constructor
    · rintro ⟨⟨h, h'⟩, hs, hs'⟩
      exact ⟨⟨h, hs⟩, h', hs'⟩
    · rintro ⟨⟨h, hs⟩, h', hs'⟩
      exact ⟨⟨h, h'⟩, hs, hs'⟩

/-- A property of the events alone holds at every step if it holds of every event. -/
theorem everyStep_const {D : ε → Prop} {s : σ} {es : List ε} :
    EveryStep step (fun _ e => D e) s es ↔ ∀ e ∈ es, D e := by
  induction es generalizing s with
  | nil => simp
  | cons e es ih => simp only [everyStep_cons, ih, List.forall_mem_cons]

/-- The steps of a run over two lists. -/
theorem everyStep_append (s : σ) (es es' : List ε) :
    EveryStep step Q s (es ++ es') ↔
      EveryStep step Q s es ∧ EveryStep step Q (run step s es) es' := by
  induction es generalizing s with
  | nil => simp
  | cons e es ih => simp only [List.cons_append, everyStep_cons, run_cons, ih, and_assoc]

/-- A condition on every step may be weakened. -/
theorem EveryStep.imp {s : σ} {es : List ε} (h : EveryStep step Q s es)
    (himp : ∀ s, ∀ e ∈ es, Q s e → Q' s e) : EveryStep step Q' s es := by
  induction es generalizing s with
  | nil => trivial
  | cons e es ih =>
    exact ⟨himp s e List.mem_cons_self h.1,
      ih h.2 fun s e' he' => himp s e' (List.mem_cons_of_mem _ he')⟩

end Basic

section Rules

variable {step : σ → ε → σ} (Inv : σ → Prop) {P : σ → Prop} {Q C : σ → ε → Prop}

/-- **The invariant rule**: what every step keeps holds in every state of every run. -/
theorem always_of_invariant (hstep : ∀ s e, Inv s → Inv (step s e)) {s : σ}
    (hs : Inv s) (es : List ε) : Always step Inv s es := by
  induction es generalizing s with
  | nil => exact (always_nil s).mpr hs
  | cons e es ih => exact (always_cons s e es).mpr ⟨hs, ih (hstep s e hs)⟩

/-- **Steps under an invariant.** Where the invariant makes `Q` and `C` equivalent at a
step, and a step that meets `C` keeps the invariant, `Q` holds at every step of a run
exactly when `C` does. `D` are the events the run may be made of. -/
theorem everyStep_iff_everyStep_on (D : ε → Prop)
    (hexact : ∀ s e, D e → Inv s → (Q s e ↔ C s e))
    (hkeep : ∀ s e, D e → Inv s → C s e → Inv (step s e)) {s : σ} (hs : Inv s)
    {es : List ε} (hes : ∀ e ∈ es, D e) : EveryStep step Q s es ↔ EveryStep step C s es := by
  induction es generalizing s with
  | nil => simp
  | cons e es ih =>
    have he : D e := hes e List.mem_cons_self
    have hrest : ∀ e' ∈ es, D e' := fun e' h => hes e' (List.mem_cons_of_mem _ h)
    simp only [everyStep_cons, hexact s e he hs]
    constructor
    · rintro ⟨hc, h⟩
      exact ⟨hc, (ih (hkeep s e he hs hc) hrest).mp h⟩
    · rintro ⟨hc, h⟩
      exact ⟨hc, (ih (hkeep s e he hs hc) hrest).mpr h⟩

/-- What an invariant gives at a step holds at every step of a run that keeps it. -/
theorem everyStep_of_invariant_on (D : ε → Prop) (hstep : ∀ s e, D e → Inv s → Q s e)
    (hkeep : ∀ s e, D e → Inv s → Inv (step s e)) {s : σ} (hs : Inv s) {es : List ε}
    (hes : ∀ e ∈ es, D e) : EveryStep step Q s es := by
  induction es generalizing s with
  | nil => trivial
  | cons e es ih =>
    have he : D e := hes e List.mem_cons_self
    exact ⟨hstep s e he hs, ih (hkeep s e he hs) fun e' h => hes e' (List.mem_cons_of_mem _ h)⟩

/-- A property of every reached state is a property of every step, once it holds first. -/
theorem always_iff_everyStep_post {s : σ} (hs : P s) (es : List ε) :
    Always step P s es ↔ EveryStep step (fun s e => P (step s e)) s es := by
  induction es generalizing s with
  | nil => simpa using hs
  | cons e es ih =>
    simp only [always_cons, everyStep_cons]
    constructor
    · rintro ⟨-, hrest⟩
      exact ⟨hrest.head, (ih hrest.head).mp hrest⟩
    · rintro ⟨hnext, hrest⟩
      exact ⟨hs, (ih hnext).mpr hrest⟩

/-- **The exact rule.** If, under an auxiliary invariant `Inv`, a step from a state with
`P` ends in a state with `P` exactly when it meets `C`, and steps that meet `C` keep
`Inv`, then a run keeps `P` throughout exactly when all its steps meet `C`. -/
theorem always_iff_everyStep_on (D : ε → Prop)
    (hexact : ∀ s e, D e → Inv s → P s → (P (step s e) ↔ C s e))
    (hkeep : ∀ s e, D e → Inv s → P s → C s e → Inv (step s e)) {s : σ} (hInv : Inv s)
    (hP : P s) {es : List ε} (hes : ∀ e ∈ es, D e) :
    Always step P s es ↔ EveryStep step C s es := by
  rw [always_iff_everyStep_post hP]
  refine everyStep_iff_everyStep_on (fun s => Inv s ∧ P s) D ?_ ?_ ⟨hInv, hP⟩ hes
  · intro s e he hs
    exact hexact s e he hs.1 hs.2
  · intro s e he hs hc
    exact ⟨hkeep s e he hs.1 hs.2 hc, (hexact s e he hs.1 hs.2).mpr hc⟩

/-- The exact rule along runs whose steps all meet a condition of their own. -/
theorem always_iff_everyStep_along (D : σ → ε → Prop)
    (hexact : ∀ s e, D s e → Inv s → P s → (P (step s e) ↔ C s e))
    (hkeep : ∀ s e, D s e → Inv s → P s → C s e → Inv (step s e)) {s : σ} (hInv : Inv s)
    (hP : P s) {es : List ε} (hes : EveryStep step D s es) :
    (Always step P s es ↔ EveryStep step C s es) ∧
      (EveryStep step C s es → Always step Inv s es) := by
  induction es generalizing s with
  | nil => simpa using ⟨hP, hInv⟩
  | cons e es ih =>
    obtain ⟨he, hrest⟩ := hes
    simp only [always_cons, everyStep_cons, hP, hInv, true_and]
    by_cases hc : C s e
    · have hnext := (hexact s e he hInv hP).mpr hc
      simpa only [hc, true_and] using ih (hkeep s e he hInv hP hc) hnext hrest
    · refine ⟨⟨fun h => ?_, fun h => absurd h.1 hc⟩, fun h => absurd h.1 hc⟩
      exact absurd ((hexact s e he hInv hP).mp h.head) hc

/-- The exact rule for runs of any events. -/
theorem always_iff_everyStep (hexact : ∀ s e, Inv s → P s → (P (step s e) ↔ C s e))
    (hkeep : ∀ s e, Inv s → P s → C s e → Inv (step s e)) {s : σ} (hInv : Inv s)
    (hP : P s) (es : List ε) : Always step P s es ↔ EveryStep step C s es :=
  always_iff_everyStep_on Inv (fun _ => True) (fun s e _ => hexact s e)
    (fun s e _ => hkeep s e) hInv hP (fun _ _ => trivial)

/-- **A phase goes back to its start.**  Let a step into `P` set up `R` between the state it is
taken in, its event and the state it leads to, and let steps within `P` keep what was set up.
Then a run from a state without `P` that ends in one with `P` contains the step that started
this phase: `P` has held since, and `R` holds between the state before that step, its event
and the last state. -/
theorem phase_start {R : σ → ε → σ → Prop} (hInv : ∀ s e, C s e → Inv s → Inv (step s e))
    (hstart : ∀ s e, C s e → Inv s → ¬ P s → P (step s e) → R s e (step s e))
    (hkeep : ∀ s₀ e₀ s e, C s e → Inv s → P s → P (step s e) → R s₀ e₀ s →
      R s₀ e₀ (step s e))
    {s : σ} (hs : Inv s) (hbefore : ¬ P s) {es : List ε} (hes : EveryStep step C s es)
    (hlast : P (run step s es)) :
    ∃ before e after, es = before ++ e :: after ∧ ¬ P (run step s before) ∧
      Always step P (step (run step s before) e) after ∧
      R (run step s before) e (run step s es) := by
  have hkept : ∀ es, EveryStep step C s es → Inv (run step s es) := by
    intro es hes
    induction es using List.reverseRecOn with
    | nil => exact hs
    | append_singleton es e ih =>
      obtain ⟨hes, he, -⟩ := everyStep_append s es [e] |>.mp hes
      rw [run_append]
      exact hInv _ e he (ih hes)
  induction es using List.reverseRecOn with
  | nil => exact absurd hlast hbefore
  | append_singleton es e ih =>
    obtain ⟨hes, he, -⟩ := everyStep_append s es [e] |>.mp hes
    have hinv := hkept es hes
    have hnext : run step s (es ++ [e]) = step (run step s es) e := by
      rw [run_append]
      rfl
    rw [hnext] at hlast ⊢
    by_cases hp : P (run step s es)
    · obtain ⟨before, e₀, after, rfl, hout, hsince, hR⟩ := ih hes hp
      have hsplit : run step s (before ++ e₀ :: after) =
          run step (step (run step s before) e₀) after := by
        rw [run_append, run_cons]
      refine ⟨before, e₀, after ++ [e], by simp, hout, ?_, hkeep _ e₀ _ e he hinv hp hlast hR⟩
      rw [hsplit] at hp hlast
      rw [always_append, always_cons, always_nil]
      exact ⟨hsince, hp, hlast⟩
    · refine ⟨es, e, [], rfl, hp, (always_nil _).mpr hlast, ?_⟩
      exact hstart _ e he hinv hp hlast

end Rules

section Simulation

variable {δ : Type*} {step : σ → ε → σ} {stepA : τ → δ → τ}

/-- The events a run asks of a more abstract component: `view s e` are those that the
step of `e` from `s` stands for. -/
def viewRun (step : σ → ε → σ) (view : σ → ε → List δ) : σ → List ε → List δ
  | _, [] => []
  | s, e :: es => view s e ++ viewRun step view (step s e) es

/-- A component whose steps are runs of smaller steps: what holds between the smaller
steps holds between the larger ones. -/
theorem always_of_viewRun {step : σ → ε → σ} {small : σ → δ → σ} {P : σ → Prop}
    (view : σ → ε → List δ) (hstep : ∀ s e, step s e = run small s (view s e)) {s : σ}
    {es : List ε} (h : Always small P s (viewRun step view s es)) : Always step P s es := by
  induction es generalizing s with
  | nil => simpa [viewRun] using h
  | cons e es ih =>
    rw [viewRun, always_append, ← hstep] at h
    exact (always_cons s e es).mpr ⟨h.1.head, ih h.2⟩

/-- Two components that stay in a relation under which their views agree ask for the same. -/
theorem viewRun_related {step' : τ → ε → τ} {view : σ → ε → List δ} {view' : τ → ε → List δ}
    {R : σ → τ → Prop} (hstep : ∀ s t e, R s t → R (step s e) (step' t e))
    (hview : ∀ s t e, R s t → view s e = view' t e) {s : σ} {t : τ} (h : R s t) (es : List ε) :
    viewRun step view s es = viewRun step' view' t es := by
  induction es generalizing s t with
  | nil => rfl
  | cons e es ih => rw [viewRun, viewRun, hview s t e h, ih (hstep s t e h)]

/-- A component that does to translated states, at translated events, what another one does to
the states themselves. -/
theorem run_map (f : σ → τ) (g : ε → δ) (hstep : ∀ s e, stepA (f s) (g e) = f (step s e))
    (s : σ) (es : List ε) : run stepA (f s) (es.map g) = f (run step s es) := by
  induction es generalizing s with
  | nil => rfl
  | cons e es ih => rw [List.map_cons, run_cons, run_cons, hstep, ih]

/-- **The exact rule of a translation.** Where one step commutes with the translation if and
only if it meets `C`, the translated run goes through the translated states if and only if all
steps of the run meet `C`. -/
theorem run_map_iff_everyStep (f : σ → τ) (g : ε → δ) {C : σ → ε → Prop}
    (hexact : ∀ s e, stepA (f s) (g e) = f (step s e) ↔ C s e) (s : σ) (es : List ε) :
    (∀ pre, pre <+: es → run stepA (f s) (pre.map g) = f (run step s pre)) ↔
      EveryStep step C s es := by
  induction es generalizing s with
  | nil =>
    refine ⟨fun _ => trivial, fun _ pre hpre => ?_⟩
    rw [List.prefix_nil.mp hpre]
    rfl
  | cons e es ih =>
    rw [everyStep_cons]
    constructor
    · intro h
      have hfirst := h [e] (List.cons_prefix_cons.mpr ⟨rfl, List.nil_prefix⟩)
      refine ⟨(hexact s e).mp hfirst, (ih (step s e)).mp fun pre hpre => ?_⟩
      have hnext := h (e :: pre) (List.cons_prefix_cons.mpr ⟨rfl, hpre⟩)
      rwa [List.map_cons, run_cons, run_cons, (hexact s e).mpr ((hexact s e).mp hfirst)] at hnext
    · rintro ⟨hc, hrest⟩ pre hpre
      cases pre with
      | nil => rfl
      | cons e' pre =>
        obtain ⟨rfl, hpre'⟩ := List.cons_prefix_cons.mp hpre
        rw [List.map_cons, run_cons, run_cons, (hexact s e').mpr hc]
        exact (ih (step s e')).mpr hrest pre hpre'

/-- A call that is made or not. -/
theorem semiconj_ite {f : σ → τ} {h : σ → σ} {h' : τ → τ} (hf : Function.Semiconj f h h')
    (made : Bool) : Function.Semiconj f (fun s => if made then h s else s) fun t =>
      if made then h' t else t := by
  intro s
  cases made with
  | true => exact hf s
  | false => rfl

section Abstraction

variable (Inv : σ → Prop) (D : ε → Prop) {abs : σ → τ} {view : σ → ε → List δ}

/-- **A simulation, step by step, is one of whole runs.** -/
theorem abs_run (hview : ∀ s e, D e → Inv s → abs (step s e) = run stepA (abs s) (view s e))
    (hkeep : ∀ s e, D e → Inv s → Inv (step s e)) {s : σ} (hs : Inv s) {es : List ε}
    (hes : ∀ e ∈ es, D e) :
    abs (run step s es) = run stepA (abs s) (viewRun step view s es) := by
  induction es generalizing s with
  | nil => rfl
  | cons e es ih =>
    have he : D e := hes e List.mem_cons_self
    have hrest : ∀ e' ∈ es, D e' := fun e' h => hes e' (List.mem_cons_of_mem _ h)
    rw [run_cons, ih (hkeep s e he hs) hrest, hview s e he hs, viewRun, run_append]

/-- What a concrete step asks of its state is what the view asks of the abstract one, and so
for whole runs. -/
theorem everyStep_abs_iff {Q : σ → ε → Prop} {QA : τ → δ → Prop}
    (hview : ∀ s e, D e → Inv s → abs (step s e) = run stepA (abs s) (view s e))
    (hkeep : ∀ s e, D e → Inv s → Inv (step s e))
    (hQ : ∀ s e, D e → Inv s → (Q s e ↔ EveryStep stepA QA (abs s) (view s e))) {s : σ}
    (hs : Inv s) {es : List ε} (hes : ∀ e ∈ es, D e) :
    EveryStep step Q s es ↔ EveryStep stepA QA (abs s) (viewRun step view s es) := by
  induction es generalizing s with
  | nil => exact Iff.rfl
  | cons e es ih =>
    have he : D e := hes e List.mem_cons_self
    have hrest : ∀ e' ∈ es, D e' := fun e' h => hes e' (List.mem_cons_of_mem _ h)
    rw [everyStep_cons, viewRun, everyStep_append, hQ s e he hs, ← hview s e he hs,
      ih (hkeep s e he hs) hrest]

/-- What holds throughout the abstract run holds throughout the concrete one. -/
theorem always_of_abs {PA : τ → Prop}
    (hview : ∀ s e, D e → Inv s → abs (step s e) = run stepA (abs s) (view s e))
    (hkeep : ∀ s e, D e → Inv s → Inv (step s e)) {s : σ} (hs : Inv s) {es : List ε}
    (hes : ∀ e ∈ es, D e) (h : Always stepA PA (abs s) (viewRun step view s es)) :
    Always step (fun s => PA (abs s)) s es := by
  induction es generalizing s with
  | nil => exact (always_nil s).mpr h.head
  | cons e es ih =>
    have he : D e := hes e List.mem_cons_self
    rw [viewRun, always_append, ← hview s e he hs] at h
    exact (always_cons s e es).mpr ⟨h.1.head,
      ih (hkeep s e he hs) (fun e' h => hes e' (List.mem_cons_of_mem _ h)) h.2⟩

/-- What every view is made of, the view of a run is made of. -/
theorem forall_mem_viewRun {Q : δ → Prop} (hQ : ∀ s e, D e → Inv s → ∀ d ∈ view s e, Q d)
    (hkeep : ∀ s e, D e → Inv s → Inv (step s e)) {s : σ} (hs : Inv s) {es : List ε}
    (hes : ∀ e ∈ es, D e) : ∀ d ∈ viewRun step view s es, Q d := by
  induction es generalizing s with
  | nil => exact fun d hd => absurd hd List.not_mem_nil
  | cons e es ih =>
    have he : D e := hes e List.mem_cons_self
    intro d hd
    rcases List.mem_append.mp hd with hd | hd
    · exact hQ s e he hs d hd
    · exact ih (hkeep s e he hs) (fun e' h => hes e' (List.mem_cons_of_mem _ h)) d hd

/-- An invariant of the steps, under a condition on the events, holds after a run. -/
theorem inv_run (hkeep : ∀ s e, D e → Inv s → Inv (step s e)) {s : σ} (hs : Inv s) {es : List ε}
    (hes : ∀ e ∈ es, D e) : Inv (run step s es) := by
  induction es generalizing s with
  | nil => exact hs
  | cons e es ih =>
    exact ih (hkeep s e (hes e List.mem_cons_self) hs)
      fun e' h => hes e' (List.mem_cons_of_mem _ h)

/-- The same, for every state of the run. -/
theorem always_of_invariant_on (hkeep : ∀ s e, D e → Inv s → Inv (step s e)) {s : σ}
    (hs : Inv s) {es : List ε} (hes : ∀ e ∈ es, D e) : Always step Inv s es :=
  fun _ hpre => inv_run Inv D hkeep hs fun e he => hes e (hpre.subset he)

end Abstraction

variable (Inv : σ → Prop) {P : σ → Prop} {C : σ → ε → Prop} {PA : τ → Prop}
  {CA : τ → δ → Prop}

/-- **The exact rule through an abstraction.** Each concrete step stands for at most one
abstract step; the abstract component keeps `PA` at a step exactly under `CA`; and under
the invariant `P` and `C` say of the concrete component what `PA` and `CA` say of the
abstract one. Then a concrete run keeps `P` throughout exactly when all its steps meet
`C`. -/
theorem always_iff_everyStep_through (D : ε → Prop) (abs : σ → τ) (view : σ → ε → Option δ)
    (hview : ∀ s e, D e → Inv s → abs (step s e) = run stepA (abs s) (view s e).toList)
    (hexact : ∀ t d, PA t → (PA (stepA t d) ↔ CA t d))
    (hkeep : ∀ s e, D e → Inv s → Inv (step s e))
    (hP : ∀ s, Inv s → (P s ↔ PA (abs s)))
    (hC : ∀ s e, D e → Inv s → (C s e ↔ ∀ d ∈ view s e, CA (abs s) d))
    {s : σ} (hInv : Inv s) (hs : P s) {es : List ε} (hes : ∀ e ∈ es, D e) :
    Always step P s es ↔ EveryStep step C s es := by
  refine always_iff_everyStep_on Inv D ?_ (fun s e he h _ _ => hkeep s e he h) hInv hs hes
  intro s e he hs hPs
  rw [hC s e he hs, hP _ (hkeep s e he hs), hview s e he hs]
  have hPA := (hP s hs).mp hPs
  cases hv : view s e with
  | none => simpa using hPA
  | some d => simpa using hexact (abs s) d hPA

end Simulation

end Reactive
