import Mathlib.Data.List.Basic

namespace Polaris.Lib.Batches

variable {α S : Type*} {n b i : Nat} {x : α} {t w w₁ w₂ w₃ : List α} {ts : List (List α)}

section Schedules

/-- The order in which the actions of the threads happen. Any thread that
still has some may go on. -/
inductive Schedule : List (List α) → List α → Prop
  | done {ts : List (List α)} (h : ∀ t ∈ ts, t = []) : Schedule ts []
  | next {ts : List (List α)} {i : Nat} {x : α} {t w : List α} (hi : ts[i]? = some (x :: t))
      (h : Schedule (ts.set i t) w) : Schedule ts (x :: w)

theorem Schedule.mem_iff (h : Schedule ts w) : x ∈ w ↔ ∃ t ∈ ts, x ∈ t := by
  induction h with
  | done h =>
    refine ⟨fun hx => absurd hx List.not_mem_nil, fun ⟨t, ht, hx⟩ => ?_⟩
    rwa [h t ht] at hx
  | @next ts i y t w hi h ih =>
    rw [List.mem_cons, ih]
    constructor
    · rintro (rfl | ⟨u, hu, hx⟩)
      · exact ⟨x :: t, List.mem_of_getElem? hi, List.mem_cons_self⟩
      · obtain hu | rfl := List.mem_or_eq_of_mem_set hu
        · exact ⟨u, hu, hx⟩
        · exact ⟨y :: u, List.mem_of_getElem? hi, List.mem_cons_of_mem _ hx⟩
    · rintro ⟨u, hu, hx⟩
      obtain ⟨j, hj⟩ := List.mem_iff_getElem?.mp hu
      by_cases hji : j = i
      · subst hji
        cases Option.some.inj (hj.symm.trans hi)
        refine (List.mem_cons.mp hx).imp_right fun hx => ⟨t, List.mem_set ?_ t, hx⟩
        exact (List.getElem?_eq_some_iff.mp hi).1
      · refine .inr ⟨u, List.mem_of_getElem? (i := j) ?_, hx⟩
        rwa [List.getElem?_set_ne (Ne.symm hji)]

theorem Schedule.cons_thread (h : Schedule ts w) (t : List α) : Schedule (t :: ts) (t ++ w) := by
  induction t with
  | nil =>
    induction h with
    | done h => exact .done fun t ht => (List.mem_cons.mp ht).elim id (h t)
    | @next ts i x t w hi h ih => exact .next (i := i + 1) hi ih
  | cons x t ih => exact .next (i := 0) rfl ih

theorem Schedule.append_thread (h : Schedule ts w) (t : List α) : Schedule (t :: ts) (w ++ t) := by
  induction h with
  | done h => simpa using (Schedule.done h).cons_thread t
  | @next ts i x u w hi h ih => exact .next (i := i + 1) hi ih

theorem schedule_exists (ts : List (List α)) : ∃ w, Schedule ts w := by
  induction ts with
  | nil => exact ⟨[], .done fun t ht => absurd ht List.not_mem_nil⟩
  | cons t ts ih => exact ih.imp' (t ++ ·) fun w h => h.cons_thread t

theorem schedule_last (hi : ts[i]? = some t) : ∃ w, Schedule ts (w ++ t) := by
  induction ts generalizing i with
  | nil => simp at hi
  | cons v ts ih =>
    cases i with
    | zero =>
      obtain rfl := Option.some.inj hi
      obtain ⟨w, h⟩ := schedule_exists ts
      exact ⟨w, h.append_thread v⟩
    | succ i =>
      obtain ⟨w, h⟩ := ih hi
      exact ⟨v ++ w, List.append_assoc v w t ▸ h.cons_thread v⟩

end Schedules

section Batches

/-- The threads run in batches of some size, one batch after the other. -/
inductive Batched (n : Nat) : List (List α) → List α → Prop
  | done : Batched n [] []
  | batch {ts : List (List α)} {w w' : List α} (hne : ts ≠ []) (h : Schedule (ts.take n) w)
      (h' : Batched n (ts.drop n) w') : Batched n ts (w ++ w')

theorem Batched.mem_iff (h : Batched n ts w) : x ∈ w ↔ ∃ t ∈ ts, x ∈ t := by
  induction h with
  | done => simp
  | @batch ts w w' hne h h' ih =>
    rw [List.mem_append, h.mem_iff, ih, ← exists_or]
    refine exists_congr fun t => ?_
    rw [← or_and_right, ← List.mem_append, List.take_append_drop]

theorem batched_exists (hn : 0 < n) (ts : List (List α)) : ∃ w, Batched n ts w := by
  induction h : ts.length using Nat.strongRecOn generalizing ts with
  | ind k ih =>
    by_cases hne : ts = []
    · exact ⟨[], hne ▸ .done⟩
    · obtain ⟨w, hw⟩ := schedule_exists (ts.take n)
      have hlt : (ts.drop n).length < k := by
        have := List.length_pos_of_ne_nil hne
        rw [List.length_drop]
        omega
      obtain ⟨w', hw'⟩ := ih _ hlt _ rfl
      exact ⟨w ++ w', .batch hne hw hw'⟩

theorem take_batches (hn : 0 < n) (hne : ts ≠ []) (b : Nat) : ts.take (n * (b + 1)) ≠ [] ∧
    (ts.take (n * (b + 1))).take n = ts.take n ∧
      (ts.take (n * (b + 1))).drop n = (ts.drop n).take (n * b) := by
  have hb : n * (b + 1) = n * b + n := Nat.mul_succ n b
  refine ⟨fun he => ?_, ?_, ?_⟩
  · obtain he | he := List.take_eq_nil_iff.mp he
    · omega
    · exact hne he
  · rw [List.take_take, Nat.min_eq_left (by omega)]
  · rw [List.drop_take, hb, Nat.add_sub_cancel]

theorem drop_batches (ts : List (List α)) (b : Nat) : ts.drop (n * (b + 1)) = (ts.drop n).drop (n * b) := by
  rw [List.drop_drop, Nat.mul_succ, Nat.add_comm]

theorem Batched.split (hn : 0 < n) (h : Batched n ts w) (b : Nat) :
    ∃ w₁ w₂ w₃, w = w₁ ++ (w₂ ++ w₃) ∧ Batched n (ts.take (n * b)) w₁ ∧
      Schedule ((ts.drop (n * b)).take n) w₂ ∧
      Batched n ((ts.drop (n * b)).drop n) w₃ := by
  induction b generalizing ts w with
  | zero =>
    cases h with
    | done =>
      exact ⟨[], [], [], rfl, by simpa using .done, by simpa using .done (by simp), by simpa using .done⟩
    | @batch _ u v hne h h' => exact ⟨[], u, v, rfl, by simpa using .done, h, h'⟩
  | succ b ih =>
    cases h with
    | done =>
      exact ⟨[], [], [], rfl, by simpa using .done, by simpa using .done (by simp), by simpa using .done⟩
    | @batch _ u v hne h h' =>
      obtain ⟨v₁, v₂, v₃, rfl, h₁, h₂, h₃⟩ := ih h'
      obtain ⟨hne', hfirst, hrest⟩ := take_batches hn hne b
      rw [drop_batches]
      exact ⟨u ++ v₁, v₂, v₃, (List.append_assoc u v₁ _).symm, .batch hne' (hfirst ▸ h) (hrest ▸ h₁), h₂, h₃⟩

theorem Batched.join (hn : 0 < n) (hb : n * b < ts.length) (h₁ : Batched n (ts.take (n * b)) w₁)
    (h₂ : Schedule ((ts.drop (n * b)).take n) w₂) (h₃ : Batched n ((ts.drop (n * b)).drop n) w₃) :
    Batched n ts (w₁ ++ (w₂ ++ w₃)) := by
  have hne : ts ≠ [] := List.ne_nil_of_length_pos (Nat.zero_lt_of_lt hb)
  induction b generalizing ts w₁ with
  | zero =>
    rw [Nat.mul_zero, List.take_zero] at h₁
    cases h₁ with
    | done =>
      rw [Nat.mul_zero, List.drop_zero] at h₂ h₃
      rw [List.nil_append]
      exact .batch hne h₂ h₃
    | batch hne h h' => exact absurd rfl hne
  | succ b ih =>
    obtain ⟨hne', hfirst, hrest⟩ := take_batches hn hne b
    rw [drop_batches] at h₂ h₃
    generalize hts : ts.take (n * (b + 1)) = us at h₁ hne' hfirst hrest
    cases h₁ with
    | done => exact absurd rfl hne'
    | @batch _ u v hne'' h h' =>
      rw [List.append_assoc]
      have hlt : n * b < (ts.drop n).length := by
        rw [List.length_drop]
        rw [Nat.mul_succ] at hb
        omega
      exact .batch hne (hfirst ▸ h) (ih hlt (hrest ▸ h') h₂ h₃
        (List.ne_nil_of_length_pos (Nat.zero_lt_of_lt hlt)))

theorem mem_batch (hn : 0 < n) : x ∈ (t.drop (n * b)).take n ↔ ∃ j, j / n = b ∧ t[j]? = some x := by
  rw [List.mem_iff_getElem?]
  constructor
  · rintro ⟨j, hj⟩
    have hlt : j < n := Nat.lt_of_lt_of_le (List.getElem?_eq_some_iff.mp hj).1 (List.length_take_le ..)
    rw [List.getElem?_take_of_lt hlt, List.getElem?_drop] at hj
    refine ⟨n * b + j, ?_, hj⟩
    rw [Nat.mul_add_div hn, Nat.div_eq_of_lt hlt, Nat.add_zero]
  · rintro ⟨j, rfl, hj⟩
    refine ⟨j % n, ?_⟩
    rw [List.getElem?_take_of_lt (Nat.mod_lt j hn), List.getElem?_drop, Nat.div_add_mod, hj]

theorem mem_behind (hn : 0 < n) (ht : t ∈ (ts.drop (n * b)).drop n) : ∃ j, b < j / n ∧ ts[j]? = some t := by
  obtain ⟨j, hj⟩ := List.mem_iff_getElem?.mp ht
  rw [List.getElem?_drop, List.getElem?_drop] at hj
  refine ⟨n * b + (n + j), ?_, hj⟩
  rw [Nat.mul_add_div hn, Nat.add_div_left j hn]
  exact Nat.lt_add_of_pos_right (Nat.succ_pos _)

theorem Batched.around (hn : 0 < n) (h : Batched n ts w) (b : Nat) :
    ∃ w₁ w₂ w₃, w = w₁ ++ (w₂ ++ w₃) ∧ (∀ x, x ∈ w₂ ↔ ∃ j t, j / n = b ∧ ts[j]? = some t ∧ x ∈ t) ∧
      ∀ x ∈ w₃, ∃ j t, b < j / n ∧ ts[j]? = some t ∧ x ∈ t := by
  obtain ⟨w₁, w₂, w₃, rfl, -, h₂, h₃⟩ := h.split hn b
  refine ⟨w₁, w₂, w₃, rfl, fun x => ?_, fun x hx => ?_⟩
  · rw [h₂.mem_iff]
    constructor
    · rintro ⟨t, ht, hx⟩
      obtain ⟨j, hj, ht⟩ := (mem_batch hn).mp ht
      exact ⟨j, t, hj, ht, hx⟩
    · rintro ⟨j, t, hj, ht, hx⟩
      exact ⟨t, (mem_batch hn).mpr ⟨j, hj, ht⟩, hx⟩
  · obtain ⟨t, ht, hx⟩ := h₃.mem_iff.mp hx
    obtain ⟨j, hj, ht⟩ := mem_behind hn ht
    exact ⟨j, t, hj, ht, hx⟩

theorem batched_last (hn : 0 < n) (hi : ts[i]? = some t) :
    ∃ w₁ w₃, Batched n ts (w₁ ++ (t ++ w₃)) ∧ ∀ x ∈ w₃, ∃ j u, i / n < j / n ∧ ts[j]? = some u ∧ x ∈ u := by
  have hlt : i < ts.length := (List.getElem?_eq_some_iff.mp hi).1
  have hbatch : ((ts.drop (n * (i / n))).take n)[i % n]? = some t := by
    rw [List.getElem?_take_of_lt (Nat.mod_lt i hn), List.getElem?_drop, Nat.div_add_mod, hi]
  obtain ⟨w₁, h₁⟩ := batched_exists hn (ts.take (n * (i / n)))
  obtain ⟨w₂, h₂⟩ := schedule_last hbatch
  obtain ⟨w₃, h₃⟩ := batched_exists hn ((ts.drop (n * (i / n))).drop n)
  have hall := Batched.join hn (Nat.lt_of_le_of_lt (Nat.mul_div_le i n) hlt) h₁ h₂ h₃
  refine ⟨w₁ ++ w₂, w₃, ?_, fun x hx => ?_⟩
  · rw [List.append_assoc, ← List.append_assoc w₂]
    exact hall
  · obtain ⟨u, hu, hx⟩ := h₃.mem_iff.mp hx
    obtain ⟨j, hj, hu⟩ := mem_behind hn hu
    exact ⟨j, u, hj, hu, hx⟩

theorem foldl_established {step : S → α → S} {I : S → Prop} (hx : x ∈ w) (hest : ∀ s, I (step s x))
    (hkeep : ∀ y ∈ w, ∀ s, I s → I (step s y)) (s : S) : I (w.foldl step s) := by
  obtain ⟨u, v, rfl⟩ := List.append_of_mem hx
  rw [List.foldl_append, List.foldl_cons]
  have hrest : ∀ y ∈ v, ∀ s, I s → I (step s y) := fun y hy =>
    hkeep y (List.mem_append_right u (List.mem_cons_of_mem x hy))
  exact List.foldlRecOn v step (hest _) fun s hs y hy => hrest y hy s hs

end Batches

end Polaris.Lib.Batches
