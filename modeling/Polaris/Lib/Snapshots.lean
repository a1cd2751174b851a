import Mathlib.Tactic.TypeStar

namespace Polaris.Lib.Snapshots

variable {σ μ ε κ : Type*}

/-- A loop over a store that it reads once, into a memory of its own. Each entry
is looked up in the memory, and what it finds decides what is written to the
store and what is patched in the memory. -/
structure Loop (σ μ ε κ : Type*) where
  load : σ → μ
  look : μ → ε → κ
  write : σ → ε → κ → σ
  patch : σ → μ → ε → κ → μ

namespace Loop

variable (L : Loop σ μ ε κ)

def step (s : σ × μ) (e : ε) : σ × μ :=
  (L.write s.1 e (L.look s.2 e), L.patch s.1 s.2 e (L.look s.2 e))

def start (s : σ) : σ × μ := (s, L.load s)

def run (s : σ) (es : List ε) : σ := (es.foldl L.step (L.start s)).1

end Loop

end Polaris.Lib.Snapshots
