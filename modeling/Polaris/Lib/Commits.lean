import Polaris.Lib.Runs

namespace Polaris.Lib.Commits

open Polaris.Lib.Runs

variable {σ τ κ : Type*}

/-- Calls that commit against the version they have read. A call that is due
stays due until it commits, and a commit by any call makes a new version. -/
structure Optimistic (act : κ → σ → τ → σ × τ) (start : τ → Prop) (C : κ → σ → τ → Prop)
    (version : σ → Nat) (ticket : τ → Option Nat) (due : τ → Bool) : Prop where
  idle : ∀ t, start t → due t = false
  step : ∀ k s t, C k s t →
    (version (act k s t).1 = version s ∧
      (due t = true → due (act k s t).2 = true ∧ ticket (act k s t).2 = ticket t)) ∨
    (version (act k s t).1 = version s + 1 ∧ ticket t = some (version s))

/-- At most one call is due, and it has read the current version. From any
other pool some call can never commit. -/
def Clear (version : σ → Nat) (ticket : τ → Option Nat) (due : τ → Bool) (p : Pool σ τ) : Prop :=
  (∀ t ∈ p.calls, due t = true → ticket t = some (version p.shared)) ∧
    ∀ (i j : Nat) (t u : τ), p.calls[i]? = some t → p.calls[j]? = some u → due t = true → due u = true → i = j

def NoneAhead (version : σ → Nat) (ticket : τ → Option Nat) (p : Pool σ τ) : Prop :=
  ∀ t ∈ p.calls, ∀ v ∈ ticket t, v ≤ version p.shared

variable {act : κ → σ → τ → σ × τ} {start : τ → Prop} {C : κ → σ → τ → Prop} {version : σ → Nat}
  {ticket : τ → Option Nat} {due : τ → Bool} {p : Pool σ τ}

theorem clear_of_idle (h : ∀ t ∈ p.calls, due t = false) : Clear version ticket due p := by
  refine ⟨fun t ht hd => ?_, fun i j t u hi _ hd _ => ?_⟩
  · simp [h t ht] at hd
  · simp [h t (List.mem_of_getElem? hi)] at hd

theorem Clear.unique (h : Clear version ticket due p) {t u : τ} (ht : t ∈ p.calls) (hu : u ∈ p.calls)
    (hdt : due t = true) (hdu : due u = true) : t = u := by
  obtain ⟨i, hi⟩ := List.mem_iff_getElem?.mp ht
  obtain ⟨j, hj⟩ := List.mem_iff_getElem?.mp hu
  cases h.2 i j t u hi hj hdt hdu
  exact Option.some.inj (hi.symm.trans hj)

theorem clear_of_spawn {t : τ} (h : Clear version ticket due (p.step act (.spawn t))) :
    Clear version ticket due p := by
  refine ⟨fun u hu => h.1 u (List.mem_append_left _ hu), fun i j u v hi hj => ?_⟩
  have hget : ∀ {l : Nat} {w : τ}, p.calls[l]? = some w → (p.calls ++ [t])[l]? = some w := by
    intro l w hl
    rw [List.getElem?_append_left (List.getElem?_eq_some_iff.mp hl).1]
    exact hl
  exact h.2 i j u v (hget hi) (hget hj)

theorem clear_of_advance (ho : Optimistic act start C version ticket due) {i : Nat} {k : κ} {t : τ}
    (hi : p.calls[i]? = some t) (hc : C k p.shared t) (hn : NoneAhead version ticket p)
    (h : Clear version ticket due (p.step act (.advance i k))) : Clear version ticket due p := by
  simp only [Pool.step, hi, Clear] at h
  obtain ⟨hcur, huniq⟩ := h
  have hlt := (List.getElem?_eq_some_iff.mp hi).1
  have hset : ∀ {j : Nat} {u : τ}, j ≠ i → p.calls[j]? = some u →
      (p.calls.set i (act k p.shared t).2)[j]? = some u := by
    intro j u hj hu
    rw [List.getElem?_set_ne (Ne.symm hj)]
    exact hu
  have hself : (p.calls.set i (act k p.shared t).2)[i]? = some (act k p.shared t).2 :=
    List.getElem?_set_self hlt
  obtain ⟨hv, hstay⟩ | ⟨hv, hticket⟩ := ho.step k p.shared t hc
  · have hdue : ∀ {j : Nat} {u : τ}, p.calls[j]? = some u → due u = true →
        ∃ u', (p.calls.set i (act k p.shared t).2)[j]? = some u' ∧ due u' = true ∧
          ticket u' = ticket u := by
      intro j u hj hd
      by_cases hji : j = i
      · subst hji
        cases hi.symm.trans hj
        exact ⟨_, hself, hstay hd⟩
      · exact ⟨u, hset hji hj, hd, rfl⟩
    refine ⟨fun u hu hd => ?_, fun j l u v hj hl hdu hdv => ?_⟩
    · obtain ⟨j, hj⟩ := List.mem_iff_getElem?.mp hu
      obtain ⟨u', hj', hd', hticket⟩ := hdue hj hd
      rw [← hticket, hcur u' (List.mem_of_getElem? hj') hd', hv]
    · obtain ⟨u', hj', hd', -⟩ := hdue hj hdu
      obtain ⟨v', hl', hdv', -⟩ := hdue hl hdv
      exact huniq j l u' v' hj' hl' hd' hdv'
  · have halone : ∀ {j : Nat} {u : τ}, p.calls[j]? = some u → due u = true → j = i := by
      intro j u hj hd
      by_contra hji
      have hmem := List.mem_of_getElem? hj
      have hu := hcur u (List.mem_of_getElem? (hset hji hj)) hd
      have := hn u hmem _ hu
      omega
    refine ⟨fun u hu hd => ?_, fun j l u v hj hl hdu hdv => ?_⟩
    · obtain ⟨j, hj⟩ := List.mem_iff_getElem?.mp hu
      cases halone hj hd
      cases hi.symm.trans hj
      exact hticket
    · exact (halone hj hdu).trans (halone hl hdv).symm

theorem clear_of_step (ho : Optimistic act start C version ticket due) {m : Move τ κ}
    (hm : p.Guarded start C m) (hn : NoneAhead version ticket p)
    (h : Clear version ticket due (p.step act m)) : Clear version ticket due p := by
  cases m with
  | spawn t => exact clear_of_spawn h
  | advance i k =>
    cases hi : p.calls[i]? with
    | none =>
      simp only [Pool.step, hi] at h
      exact h
    | some t => exact clear_of_advance ho hi (hm t hi) hn h

/-- What every step keeps between clear pools holds in every clear pool that
is reached. -/
theorem clear_invariant (ho : Optimistic act start C version ticket due) {T I : Pool σ τ → Prop}
    (hT : ∀ p m, T p → p.Guarded start C m → T (p.step act m))
    (hn : ∀ p, T p → NoneAhead version ticket p)
    (hI : ∀ p m, T p → Clear version ticket due p → p.Guarded start C m → I p → I (p.step act m))
    {moves : List (Move τ κ)} (hp : T p) (hi : Clear version ticket due p → I p)
    (hrun : Along (Pool.step act) (Pool.Guarded start C) p moves) :
    Clear version ticket due (moves.foldl (Pool.step act) p) → I (moves.foldl (Pool.step act) p) := by
  refine (foldl_invariant (I := fun p => T p ∧ (Clear version ticket due p → I p)) ?_ ⟨hp, hi⟩ hrun).2
  intro p m hp hm
  refine ⟨hT p m hp.1 hm, fun hc => ?_⟩
  have hclear := clear_of_step ho hm (hn p hp.1) hc
  exact hI p m hp.1 hclear hm (hp.2 hclear)

end Polaris.Lib.Commits
