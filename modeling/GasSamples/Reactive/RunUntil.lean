import GasSamples.Reactive.Run

/-!
# Runs that stop at the first accepted event

A component is offered a list of events and takes them in order until one of them is
accepted.  `taken` are the events it takes, `accepted` whether it was stopped by one.  The
run splits into the events that were refused and, if it was stopped, the one that was
accepted (`taken_of_accepted`, `taken_of_not_accepted`).
-/

set_option autoImplicit false

namespace Reactive

variable {σ ε : Type*} (step : σ → ε → σ) (accepts : σ → ε → Bool)

/-- The events that are taken: up to the first one that is accepted. -/
def taken : σ → List ε → List ε
  | _, [] => []
  | s, e :: es => e :: if accepts s e then [] else taken (step s e) es

/-- One of the events is accepted. -/
def accepted : σ → List ε → Bool
  | _, [] => false
  | s, e :: es => accepts s e || accepted (step s e) es

variable {step accepts} {s : σ} {es : List ε}

/-- Nothing is taken after an event that is accepted. -/
theorem taken_cons_of_accepts {e : ε} (h : accepts s e = true) :
    taken step accepts s (e :: es) = [e] := by
  simp only [taken, h, if_true]

/-- An event that is not accepted is taken and the run goes on. -/
theorem taken_cons_of_refuses {e : ε} (h : accepts s e = false) :
    taken step accepts s (e :: es) = e :: taken step accepts (step s e) es := by
  simp only [taken, h, Bool.false_eq_true, if_false]

/-- A run that was stopped: refused events, and then the accepted one. -/
theorem taken_of_accepted (h : accepted step accepts s es = true) :
    ∃ pre e post, es = pre ++ e :: post ∧ taken step accepts s es = pre ++ [e] ∧
      accepts (run step s pre) e = true ∧
      EveryStep step (fun s e => accepts s e = false) s pre := by
  induction es generalizing s with
  | nil => exact absurd h (by simp [accepted])
  | cons e es ih =>
    cases he : accepts s e with
    | true => exact ⟨[], e, es, rfl, taken_cons_of_accepts he, he, trivial⟩
    | false =>
      simp only [accepted, he, Bool.false_or] at h
      obtain ⟨pre, e', post, rfl, htaken, haccepts, hrefused⟩ := ih h
      refine ⟨e :: pre, e', post, rfl, ?_, haccepts, he, hrefused⟩
      rw [taken_cons_of_refuses he, htaken]
      rfl

/-- A run that was not stopped: all events were taken, and refused. -/
theorem taken_of_not_accepted (h : accepted step accepts s es = false) :
    taken step accepts s es = es ∧ EveryStep step (fun s e => accepts s e = false) s es := by
  induction es generalizing s with
  | nil => exact ⟨rfl, trivial⟩
  | cons e es ih =>
    simp only [accepted, Bool.or_eq_false_iff] at h
    obtain ⟨htaken, hrefused⟩ := ih h.2
    rw [taken_cons_of_refuses h.1, htaken]
    exact ⟨rfl, h.1, hrefused⟩

end Reactive
