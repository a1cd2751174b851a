import Mathlib.Data.List.Basic

namespace Polaris.Lib.TwoRuns

variable {S E O : Type*}

/-- What a machine answers to the requests of a run. -/
def answers (step : S → E → S × O) : S → List E → List O
  | _, [] => []
  | s, e :: es => (step s e).2 :: answers step (step s e).1 es

def final (step : S → E → S × O) (s : S) (es : List E) : S := es.foldl (fun s e => (step s e).1) s

variable {T : Type*} {step : S → E → S × O} {spec : T → E → T × O} {R : S → T → Prop} {view : S → S}

/-- Machines that answer alike in related states, and stay related, answer
every run alike. -/
theorem answers_refine (hanswer : ∀ s t e, R s t → (step s e).2 = (spec t e).2)
    (hstep : ∀ s t e, R s t → R (step s e).1 (spec t e).1) {s : S} {t : T} (h : R s t) (es : List E) :
    answers step s es = answers spec t es ∧ R (final step s es) (final spec t es) := by
  induction es generalizing s t with
  | nil => exact ⟨rfl, h⟩
  | cons e es ih =>
    obtain ⟨hanswers, hfinal⟩ := ih (hstep s t e h)
    exact ⟨congrArg₂ List.cons (hanswer s t e h) hanswers, hfinal⟩

theorem answers_eq (hanswer : ∀ s e, (step s e).2 = (step (view s) e).2)
    (hview : ∀ s e, view (step s e).1 = view (step (view s) e).1) {s t : S}
    (hst : view s = view t) (es : List E) :
    answers step s es = answers step t es ∧ view (final step s es) = view (final step t es) :=
  answers_refine (R := fun s t => view s = view t) (fun s t e h => by rw [hanswer s, hanswer t, h])
    (fun s t e h => by rw [hview s, hview t, h]) hst es

theorem final_invariant {I : S → Prop} (hstep : ∀ s e, I s → I (step s e).1) {s : S} (hs : I s)
    (es : List E) :
    I (final step s es) := by
  induction es generalizing s with
  | nil => exact hs
  | cons e es ih => exact ih (hstep s e hs)

end Polaris.Lib.TwoRuns
