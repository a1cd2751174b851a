import Mathlib.Data.List.Basic
import Mathlib.Data.List.Perm.Basic

namespace Polaris.Lib.Runs

section Events

variable {S E : Type*}

/-- Every event of a run meets a condition in the state it fires in. A
prefix of such a run is again such a run, so a statement about the final
state is one about every state reached. -/
def Along (step : S → E → S) (C : S → E → Prop) : S → List E → Prop
  | _, [] => True
  | s, e :: es => C s e ∧ Along step C (step s e) es

instance Along.decidable {step : S → E → S} {C : S → E → Prop} [∀ s e, Decidable (C s e)] :
    ∀ s es, Decidable (Along step C s es)
  | _, [] => isTrue trivial
  | s, e :: es =>
    haveI : Decidable (Along step C (step s e) es) := Along.decidable (step s e) es
    inferInstanceAs (Decidable (C s e ∧ Along step C (step s e) es))

theorem foldl_invariant {step : S → E → S} {C : S → E → Prop} {I : S → Prop}
    (hstep : ∀ s e, I s → C s e → I (step s e)) {s : S} {es : List E} (hs : I s)
    (hc : Along step C s es) : I (es.foldl step s) := by
  induction es generalizing s with
  | nil => exact hs
  | cons e es ih => exact ih (hstep s e hs hc.1) hc.2

theorem along_append {step : S → E → S} {C : S → E → Prop} {s : S} {es es' : List E} :
    Along step C s (es ++ es') ↔ Along step C s es ∧ Along step C (es.foldl step s) es' := by
  induction es generalizing s with
  | nil => exact ⟨fun h => ⟨trivial, h⟩, fun h => h.2⟩
  | cons e es ih =>
    rw [List.cons_append, List.foldl_cons, Along, Along, ih, and_assoc]

/-- Where one step keeps an invariant just when it meets the condition, the
condition along a run is the invariant in every state reached. -/
theorem along_iff_reached_of {step : S → E → S} {C P : S → E → Prop} {I : S → Prop}
    (hstep : ∀ s e, I s → P s e → (I (step s e) ↔ C s e)) {s : S} {es : List E} (hs : I s)
    (hp : Along step P s es) :
    (∀ k, I ((es.take k).foldl step s)) ↔ Along step C s es := by
  induction es generalizing s with
  | nil => exact ⟨fun _ => trivial, fun _ k => by rwa [List.take_nil]⟩
  | cons e es ih =>
    refine ⟨fun h => ?_, fun ⟨hc, h⟩ k => ?_⟩
    · have hfirst : I (step s e) := h 1
      exact ⟨(hstep s e hs hp.1).mp hfirst, (ih hfirst hp.2).mp fun k => h (k + 1)⟩
    · cases k with
      | zero => exact hs
      | succ k => exact (ih ((hstep s e hs hp.1).mpr hc) hp.2).mpr h k

theorem along_true {step : S → E → S} {s : S} {es : List E} : Along step (fun _ _ => True) s es := by
  induction es generalizing s with
  | nil => trivial
  | cons e es ih => exact ⟨trivial, ih⟩

theorem along_iff_reached {step : S → E → S} {C : S → E → Prop} {I : S → Prop}
    (hstep : ∀ s e, I s → (I (step s e) ↔ C s e)) {s : S} {es : List E} (hs : I s) :
    (∀ k, I ((es.take k).foldl step s)) ↔ Along step C s es :=
  along_iff_reached_of (fun s e h _ => hstep s e h) hs along_true

theorem Along.mono {step : S → E → S} {C D : S → E → Prop} (hcd : ∀ s e, C s e → D s e) {s : S} {es : List E}
    (h : Along step C s es) : Along step D s es := by
  induction es generalizing s with
  | nil => trivial
  | cons e es ih => exact ⟨hcd s e h.1, ih h.2⟩

theorem Along.and {step : S → E → S} {C D : S → E → Prop} {s : S} {es : List E} (hc : Along step C s es)
    (hd : Along step D s es) : Along step (fun s e => C s e ∧ D s e) s es := by
  induction es generalizing s with
  | nil => trivial
  | cons e es ih => exact ⟨⟨hc.1, hd.1⟩, ih hc.2 hd.2⟩

end Events

section Updates

variable {τ : Type*} {calls : List τ} {i : Nat} {t t' u : τ}

theorem mem_set_cases (h : u ∈ calls.set i t') : u = t' ∨ ∃ j, j ≠ i ∧ calls[j]? = some u := by
  obtain ⟨j, hj⟩ := List.mem_iff_getElem?.mp h
  by_cases hji : j = i
  · subst hji
    have hlt : j < calls.length := by
      have := (List.getElem?_eq_some_iff.mp hj).1
      simpa using this
    rw [List.getElem?_set_self hlt] at hj
    exact .inl (Option.some.inj hj).symm
  · rw [List.getElem?_set_ne (Ne.symm hji)] at hj
    exact .inr ⟨j, hji, hj⟩

variable (t') in
theorem mem_set_or (hi : calls[i]? = some t) (hu : u ∈ calls) : u ∈ calls.set i t' ∨ u = t := by
  obtain ⟨j, hj⟩ := List.mem_iff_getElem?.mp hu
  by_cases hji : j = i
  · subst hji
    exact .inr (Option.some.inj (hj.symm.trans hi))
  · refine .inl (List.mem_of_getElem? (i := j) ?_)
    rw [List.getElem?_set_ne (Ne.symm hji)]
    exact hj

theorem mem_set_self (hi : calls[i]? = some t) : t' ∈ calls.set i t' :=
  List.mem_set (List.getElem?_eq_some_iff.mp hi).1 t'

end Updates

section Pools

variable {σ τ κ : Type*}

/-- Concurrent calls over one shared state. Each call keeps its own local
state, and one atomic step of one call fires at a time. -/
structure Pool (σ τ : Type*) where
  shared : σ
  calls : List τ

inductive Move (τ κ : Type*)
  | spawn (t : τ)
  | advance (i : Nat) (k : κ)

def Pool.step (act : κ → σ → τ → σ × τ) (p : Pool σ τ) : Move τ κ → Pool σ τ
  | .spawn t => ⟨p.shared, p.calls ++ [t]⟩
  | .advance i k =>
    match p.calls[i]? with
    | none => p
    | some t => ⟨(act k p.shared t).1, p.calls.set i (act k p.shared t).2⟩

/-- Calls begin in a start state, and a call may move only when the
condition holds of the shared state and of its own. -/
def Pool.Guarded (start : τ → Prop) (C : κ → σ → τ → Prop) (p : Pool σ τ) : Move τ κ → Prop
  | .spawn t => start t
  | .advance i k => ∀ t ∈ p.calls[i]?, C k p.shared t

instance Pool.Guarded.decidable {start : τ → Prop} {C : κ → σ → τ → Prop} [DecidablePred start]
    [∀ k s t, Decidable (C k s t)] (p : Pool σ τ) : ∀ m, Decidable (p.Guarded start C m)
  | .spawn t => inferInstanceAs (Decidable (start t))
  | .advance i k => inferInstanceAs (Decidable (∀ t ∈ p.calls[i]?, C k p.shared t))

/-- A property of the shared state together with one of each call. -/
def Pool.Holds (G : σ → Prop) (L : σ → τ → Prop) (p : Pool σ τ) : Prop :=
  G p.shared ∧ ∀ t ∈ p.calls, L p.shared t

theorem holds_step (act : κ → σ → τ → σ × τ) (start : τ → Prop) (C : κ → σ → τ → Prop)
    {G : σ → Prop} {L : σ → τ → Prop} (hspawn : ∀ s t, start t → G s → L s t)
    (hself : ∀ k s t, C k s t → G s → L s t → G (act k s t).1 ∧ L (act k s t).1 (act k s t).2)
    (hother : ∀ k s t u, C k s t → G s → L s t → L s u → L (act k s t).1 u)
    (p : Pool σ τ) (m : Move τ κ) (hp : p.Holds G L) (hm : p.Guarded start C m) :
    (p.step act m).Holds G L := by
  obtain ⟨hg, hl⟩ := hp
  cases m with
  | spawn t =>
    refine ⟨hg, fun u hu => ?_⟩
    obtain hu | hu := List.mem_append.mp hu
    · exact hl u hu
    · exact List.mem_singleton.mp hu ▸ hspawn p.shared t hm hg
  | advance i k =>
    cases hi : p.calls[i]? with
    | none => simpa only [Pool.step, hi] using ⟨hg, hl⟩
    | some t =>
      have ht := hl t (List.mem_of_getElem? hi)
      have hc := hm t hi
      obtain ⟨hg', ht'⟩ := hself k p.shared t hc hg ht
      simp only [Pool.step, hi]
      refine ⟨hg', fun u hu => ?_⟩
      obtain hu | hu := List.mem_or_eq_of_mem_set hu
      · exact hother k p.shared t u hc hg ht (hl u hu)
      · exact hu ▸ ht'

variable {β : Type*} {held : τ → List β}

def Pool.total (held : τ → List β) (p : Pool σ τ) : List β := p.calls.flatMap held

theorem flatMap_set_perm {calls : List τ} {i : Nat} {t : τ} (t' : τ) (h : calls[i]? = some t) :
    (held t ++ (calls.set i t').flatMap held).Perm (held t' ++ calls.flatMap held) := by
  induction calls generalizing i with
  | nil => simp at h
  | cons c cs ih =>
    cases i with
    | zero =>
      cases h
      simp only [List.set_cons_zero, List.flatMap_cons]
      exact List.perm_append_comm_assoc _ _ _
    | succ i =>
      simp only [List.set_cons_succ, List.flatMap_cons]
      refine (List.perm_append_comm_assoc _ _ _).trans ?_
      exact ((ih h).append_left _).trans (List.perm_append_comm_assoc _ _ _)

theorem total_spawn {act : κ → σ → τ → σ × τ} {p : Pool σ τ} {t : τ} (h : held t = []) :
    (p.step act (.spawn t)).total held = p.total held := by
  simp [Pool.step, Pool.total, h]

/-- What a step of a call adds to the shared book and to what it holds is
added to the book and the holdings of the whole pool. -/
theorem balance_advance (act : κ → σ → τ → σ × τ) (book : σ → List β) {p : Pool σ τ} {i : Nat} {k : κ}
    {t : τ} (new : List β) (hi : p.calls[i]? = some t)
    (hact : (book (act k p.shared t).1 ++ held (act k p.shared t).2).Perm
      (new ++ (book p.shared ++ held t))) :
    (book (act k p.shared t).1 ++ (p.step act (.advance i k)).total held).Perm
      (new ++ (book p.shared ++ p.total held)) := by
  have htotal : (held t ++ (p.step act (.advance i k)).total held).Perm
      (held (act k p.shared t).2 ++ p.total held) := by
    simp only [Pool.step, hi, Pool.total]
    exact flatMap_set_perm _ hi
  refine (List.perm_append_left_iff (held t)).mp ?_
  calc held t ++ (book (act k p.shared t).1 ++ (p.step act (.advance i k)).total held)
    _ |>.Perm (book (act k p.shared t).1 ++ (held t ++ (p.step act (.advance i k)).total held)) :=
      List.perm_append_comm_assoc _ _ _
    _ |>.Perm (book (act k p.shared t).1 ++ (held (act k p.shared t).2 ++ p.total held)) :=
      htotal.append_left _
    _ |>.Perm ((new ++ (book p.shared ++ held t)) ++ p.total held) := by
      rw [← List.append_assoc]
      exact hact.append_right _
    _ |>.Perm ((new ++ book p.shared) ++ (held t ++ p.total held)) := by
      simp only [List.append_assoc]
      rfl
    _ |>.Perm (held t ++ (new ++ (book p.shared ++ p.total held))) := by
      rw [← List.append_assoc new]
      exact List.perm_append_comm_assoc _ _ _

end Pools

end Polaris.Lib.Runs
