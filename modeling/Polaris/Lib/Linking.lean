import Mathlib.Data.List.Basic
import Polaris.Lib.Snapshots

namespace Polaris.Lib.Linking

open Polaris.Lib.Snapshots

variable {σ μ ε κ K : Type*}

section Reached

variable (L : Loop σ μ ε κ) (s : σ) (es : List ε)

/-- The store and the memory before an entry. -/
def reached (j : Nat) : σ × μ := (es.take j).foldl L.step (L.start s)

variable {L s es} {j : Nat} {e : ε}

theorem reached_succ (h : es[j]? = some e) : reached L s es (j + 1) = L.step (reached L s es j) e := by
  rw [reached, List.take_add_one, h, List.foldl_append]
  rfl

theorem reached_end (h : es[j]? = none) : reached L s es (j + 1) = reached L s es j := by
  rw [reached, List.take_add_one, h, Option.toList_none, List.append_nil, reached]

/-- What holds at the start and is kept by each entry before a place holds
there. -/
theorem reached_invariant {I : σ × μ → Prop} (hstart : I (L.start s))
    (hstep : ∀ m < j, ∀ e, es[m]? = some e → ∀ p, I p → I (L.step p e)) : I (reached L s es j) := by
  induction j with
  | zero => exact hstart
  | succ j ih =>
    have hbefore := ih fun m hm => hstep m (Nat.lt_succ_of_lt hm)
    cases h : es[j]? with
    | none => rwa [reached_end h]
    | some e => rw [reached_succ h]; exact hstep j (Nat.lt_succ_self j) e h _ hbefore

theorem reached_lt (created : σ × μ → ε → Option Nat) (next : σ → Nat)
    (hcreated : ∀ p e i, created p e = some i → i = next p.1 ∧ next (L.step p e).1 = i + 1)
    (hnext : ∀ p e, next p.1 ≤ next (L.step p e).1) {a b : Nat} (hab : a < b) {d e : ε} (hd : es[a]? = some d)
    {x y : Nat} (hx : created (reached L s es a) d = some x)
    (hy : created (reached L s es b) e = some y) : x < y := by
  have hmono (n : Nat) : next (reached L s es (a + 1)).1 ≤ next (reached L s es (a + 1 + n)).1 := by
    induction n with
    | zero => exact Nat.le_refl _
    | succ n ih =>
      refine Nat.le_trans ih ?_
      cases h : es[a + 1 + n]? with
      | none => exact Nat.le_of_eq (congrArg (fun p : σ × μ => next p.1) (reached_end h).symm)
      | some e => rw [← Nat.add_assoc, reached_succ h]; exact hnext _ e
  obtain ⟨-, hafter⟩ := hcreated _ _ _ hx
  obtain ⟨hy, -⟩ := hcreated _ _ _ hy
  have hle := hmono (b - (a + 1))
  rw [Nat.add_sub_cancel' hab, reached_succ hd, hafter, ← hy] at hle
  exact hle

end Reached

section Loading

theorem foldl_kept {α β ρ : Type*} {f : α → ρ → α} {g : α → β} (h : ∀ a r, g (f a r) = g a)
    (rows : List ρ) (a : α) :
    g (rows.foldl f a) = g a := by
  induction rows generalizing a with
  | nil => rfl
  | cons r rows ih => rw [List.foldl_cons, ih, h]

variable {ρ : Type*} [DecidableEq K] {index : μ → K → Option Nat} {read : μ → ρ → μ} {key : ρ → Option K}
  {object : ρ → Nat} {rows : List ρ} {m : μ} {k : K}

theorem index_foldl (hread : ∀ m, ∀ r ∈ rows, ∀ k,
    index (read m r) k = if key r = some k then some (object r) else index m k) :
    ((index (rows.foldl read m) k).isSome ↔ (index m k).isSome ∨ ∃ r ∈ rows, key r = some k) ∧
      ∀ i, index (rows.foldl read m) k = some i → index m k = some i ∨ ∃ r ∈ rows, key r = some k ∧
        object r = i := by
  induction rows generalizing m with
  | nil => exact ⟨by simp, fun i hi => .inl hi⟩
  | cons r rows ih =>
    obtain ⟨hsome, hfrom⟩ := @ih (read m r) fun m r' hr' => hread m r' (List.mem_cons_of_mem r hr')
    have hr := hread m r List.mem_cons_self k
    rw [List.foldl_cons]
    refine ⟨?_, fun i hi => ?_⟩
    · rw [hsome, hr]
      by_cases hk : key r = some k
      · simp [hk]
      · simp [hk]
    · obtain hold | ⟨r', hr', h⟩ := hfrom i hi
      · rw [hr] at hold
        split at hold
        next hk => exact .inr ⟨r, List.mem_cons_self, hk, Option.some.inj hold⟩
        next => exact .inl hold
      · exact .inr ⟨r', List.mem_cons_of_mem r hr', h⟩

end Loading

/-- How a loop links its entries to the objects of its store: by a key that an
entry reports, unless it has been found before the key counts. An object that is
created for an entry is indexed under the key from then on. -/
structure Links (L : Loop σ μ ε κ) (K : Type*) [DecidableEq K] where
  key : ε → Option K
  index : μ → K → Option Nat
  known : μ → Nat → Prop
  found : μ → ε → Prop
  created : σ × μ → ε → Option Nat
  recorded : σ → Nat → K → Prop
  index_step : ∀ p e k, index (L.step p e).2 k =
    if key e = some k then (created p e).or (index p.2 k) else index p.2 k
  known_step : ∀ p e i, known p.2 i → known (L.step p e).2 i
  known_created : ∀ p e i, created p e = some i → known (L.step p e).2 i

namespace Links

variable [DecidableEq K] {L : Loop σ μ ε κ} (R : Links L K) (s : σ) (es : List ε)

def Linked (p : σ × μ) (e : ε) (i : Nat) : Prop :=
  ¬ R.found p.2 e ∧ ∃ k, R.key e = some k ∧ R.index p.2 k = some i ∧ R.known p.2 i

/-- Entries are linked by a key of the right kind only, and to an object that
it was recorded for. -/
def Sound (meaningful : ε → Prop) : Prop :=
  ∀ j e, es[j]? = some e → ∀ i, R.Linked (reached L s es j) e i →
    meaningful e ∧ ∃ k, R.key e = some k ∧ ∃ m ≤ j, R.recorded (reached L s es m).1 i k

/-- The key is in the index from the start or since an object was created for
an entry with it. -/
def Seen (j : Nat) (k : K) : Prop :=
  (R.index (L.load s) k).isSome ∨
    ∃ m < j, ∃ e, es[m]? = some e ∧ R.key e = some k ∧ (R.created (reached L s es m) e).isSome

/-- What the store promises: its rows are those of its objects, and an object
that is created for an entry has its key recorded. -/
structure Lawful : Prop where
  load : ∀ k i, R.index (L.load s) k = some i → R.known (L.load s) i ∧ R.recorded s i k
  recorded : ∀ p e i k, e ∈ es → R.created p e = some i → R.key e = some k → R.recorded (L.step p e).1 i k

variable {R s es} {j : Nat} {k : K} {i : Nat}

theorem seen_succ {e : ε} (he : es[j]? = some e) : R.Seen s es (j + 1) k ↔
    R.Seen s es j k ∨ R.key e = some k ∧ (R.created (reached L s es j) e).isSome := by
  rw [Seen, Seen, or_assoc]
  refine or_congr_right ⟨?_, ?_⟩
  · rintro ⟨m, hm, d, hd, h⟩
    obtain hlt | rfl := Nat.lt_succ_iff_lt_or_eq.mp hm
    · exact .inl ⟨m, hlt, d, hd, h⟩
    · cases hd.symm.trans he
      exact .inr h
  · rintro (⟨m, hm, d, hd, h⟩ | h)
    · exact ⟨m, Nat.lt_succ_of_lt hm, d, hd, h⟩
    · exact ⟨j, Nat.lt_succ_self j, e, he, h⟩

theorem seen_end (he : es[j]? = none) : R.Seen s es (j + 1) k ↔ R.Seen s es j k := by
  refine or_congr_right ⟨?_, ?_⟩
  · rintro ⟨m, hm, d, hd, h⟩
    obtain hlt | rfl := Nat.lt_succ_iff_lt_or_eq.mp hm
    · exact ⟨m, hlt, d, hd, h⟩
    · cases hd.symm.trans he
  · rintro ⟨m, hm, h⟩
    exact ⟨m, Nat.lt_succ_of_lt hm, h⟩

theorem isSome_index : (R.index (reached L s es j).2 k).isSome ↔ R.Seen s es j k := by
  induction j with
  | zero =>
    refine ⟨Or.inl, fun h => h.elim id ?_⟩
    rintro ⟨m, hm, -⟩
    exact absurd hm (Nat.not_lt_zero m)
  | succ j ih =>
    cases he : es[j]? with
    | none => rw [reached_end he, ih, seen_end he]
    | some e =>
      rw [reached_succ he, R.index_step, seen_succ he, ← ih]
      by_cases hkey : R.key e = some k
      · rw [if_pos hkey, Option.isSome_or, Bool.or_eq_true, or_comm, and_iff_right hkey]
      · rw [if_neg hkey, or_iff_left fun h => hkey h.1]

theorem index_recorded (h : R.Lawful s es) (hi : R.index (reached L s es j).2 k = some i) :
    R.known (reached L s es j).2 i ∧ ∃ m ≤ j, R.recorded (reached L s es m).1 i k := by
  induction j with
  | zero =>
    obtain ⟨hknown, hrecorded⟩ := h.load k i hi
    exact ⟨hknown, 0, Nat.le_refl 0, hrecorded⟩
  | succ j ih =>
    have hold (hold : R.index (reached L s es j).2 k = some i) :
        R.known (reached L s es (j + 1)).2 i ∧ ∃ m ≤ j + 1, R.recorded (reached L s es m).1 i k := by
      obtain ⟨hknown, m, hm, hrecorded⟩ := ih hold
      refine ⟨?_, m, Nat.le_succ_of_le hm, hrecorded⟩
      cases he : es[j]? with
      | none => rwa [reached_end he]
      | some e => rw [reached_succ he]; exact R.known_step _ _ _ hknown
    cases he : es[j]? with
    | none => rw [reached_end he] at hi; exact hold hi
    | some e =>
      rw [reached_succ he, R.index_step] at hi
      split at hi
      next hkey =>
        cases hcreated : R.created (reached L s es j) e with
        | none => rw [hcreated] at hi; exact hold hi
        | some i' =>
          rw [hcreated] at hi
          cases hi
          refine ⟨?_, j + 1, Nat.le_refl _, ?_⟩
          · rw [reached_succ he]
            exact R.known_created _ _ _ hcreated
          · rw [reached_succ he]
            exact h.recorded _ _ _ _ (List.mem_of_getElem? he) hcreated hkey
      next => exact hold hi

theorem sound_iff (h : R.Lawful s es) (meaningful : ε → Prop) : R.Sound s es meaningful ↔
    ∀ j e, es[j]? = some e → R.found (reached L s es j).2 e ∨ meaningful e ∨
      ∀ k, R.key e = some k → ¬ R.Seen s es j k := by
  constructor
  · intro hsound j e he
    by_contra hnot
    obtain ⟨hfound, hmeaningful, hseen⟩ : ¬ R.found (reached L s es j).2 e ∧ ¬ meaningful e ∧
        ∃ k, R.key e = some k ∧ R.Seen s es j k := by simpa [not_or] using hnot
    obtain ⟨k, hkey, hk⟩ := hseen
    obtain ⟨i, hi⟩ := Option.isSome_iff_exists.mp (isSome_index.mpr hk)
    exact hmeaningful (hsound j e he i ⟨hfound, k, hkey, hi, (index_recorded h hi).1⟩).1
  · rintro hcond j e he i ⟨hfound, k, hkey, hi, -⟩
    obtain hf | hm | hseen := hcond j e he
    · exact absurd hf hfound
    · exact ⟨hm, k, hkey, (index_recorded h hi).2⟩
    · exact absurd (isSome_index.mp (by rw [hi]; rfl)) (hseen k hkey)

end Links

end Polaris.Lib.Linking
