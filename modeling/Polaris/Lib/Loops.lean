import Mathlib.Logic.Basic

namespace Polaris.Lib.Loops

variable {σ ρ : Type}

inductive Pass (σ ρ : Type)
  | leave (r : ρ)
  | again (s : σ)
  deriving DecidableEq

variable {body : σ → Pass σ ρ → Prop} {s s' : σ} {r r' : ρ}

/-- A loop that ends: finitely many passes, and the last one leaves. -/
inductive Runs (body : σ → Pass σ ρ → Prop) : σ → ρ → Prop
  | leave {s : σ} {r : ρ} (h : body s (.leave r)) : Runs body s r
  | again {s s' : σ} {r : ρ} (h : body s (.again s')) (rest : Runs body s' r) : Runs body s r

/-- A pass that comes to one thing only. -/
def Deterministic (body : σ → Pass σ ρ → Prop) : Prop := ∀ s p p', body s p → body s p' → p = p'

def graph (f : σ → Pass σ ρ) : σ → Pass σ ρ → Prop := fun s p => f s = p

theorem deterministic_graph (f : σ → Pass σ ρ) : Deterministic (graph f) := fun _ _ _ h h' => h.symm.trans h'

theorem Runs.unique (hd : Deterministic body) (h : Runs body s r) (h' : Runs body s r') : r = r' := by
  induction h with
  | leave h =>
    cases h' with
    | leave h' => exact Pass.leave.inj (hd _ _ _ h h')
    | again h' => cases hd _ _ _ h h'
  | again h _ ih =>
    cases h' with
    | leave h' => cases hd _ _ _ h h'
    | again h' rest' =>
      cases hd _ _ _ h h'
      exact ih rest'

end Polaris.Lib.Loops
