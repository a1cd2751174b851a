import Mathlib.Data.List.DropRight
import Mathlib.Data.List.Infix

namespace Polaris.Lib.Trim

variable {α : Type} {p : α → Bool} {c : α} {before after cs ds : List α}

/-- A list without what it has too much of at its two ends. -/
def trimBy (p : α → Bool) (cs : List α) : List α := (cs.dropWhile p).rdropWhile p

theorem rdropWhile_append (hc : p c = false) (cs ds : List α) :
    (cs ++ c :: ds).rdropWhile p = cs ++ c :: ds.rdropWhile p := by
  have hrev : (cs ++ c :: ds).reverse = ds.reverse ++ c :: cs.reverse := by simp
  rw [List.rdropWhile, List.rdropWhile, hrev, List.dropWhile_append]
  split_ifs with h
  · have hnil : ds.reverse.dropWhile p = [] := by simpa using h
    rw [hnil, List.dropWhile_cons_of_neg (by simp [hc])]
    simp
  · simp

/-- A list is blank, or starts with blanks up to some other element. -/
theorem blank_or_split (p : α → Bool) (cs : List α) :
    (∀ c ∈ cs, p c = true) ∨
      ∃ before c after, cs = before ++ c :: after ∧ (∀ d ∈ before, p d = true) ∧ p c = false := by
  induction cs with
  | nil => simp
  | cons c cs ih =>
    cases hc : p c with
    | false => exact .inr ⟨[], c, cs, rfl, by simp, hc⟩
    | true =>
      obtain hall | ⟨before, d, after, rfl, hbefore, hd⟩ := ih
      · exact .inl (List.forall_mem_cons.mpr ⟨hc, hall⟩)
      · exact .inr ⟨c :: before, d, after, rfl, List.forall_mem_cons.mpr ⟨hc, hbefore⟩, hd⟩

theorem dropWhile_split (h : ∀ d ∈ before, p d = true) (hc : p c = false) :
    (before ++ c :: after).dropWhile p = c :: after := by
  rw [List.dropWhile_append_of_pos h, List.dropWhile_cons_of_neg (by simp [hc])]

theorem trimBy_split (h : ∀ d ∈ before, p d = true) (hc : p c = false) :
    trimBy p (before ++ c :: after) = c :: after.rdropWhile p := by
  rw [trimBy, dropWhile_split h hc]
  exact rdropWhile_append hc [] after

theorem trimBy_blank (h : ∀ c ∈ cs, p c = true) : trimBy p cs = [] := by
  rw [trimBy, List.dropWhile_eq_nil_iff.mpr h]
  rfl

theorem dropWhile_rdropWhile (p : α → Bool) (cs : List α) : (cs.rdropWhile p).dropWhile p = trimBy p cs := by
  obtain hall | ⟨before, c, after, rfl, hbefore, hc⟩ := blank_or_split p cs
  · rw [trimBy_blank hall, List.rdropWhile_eq_nil_iff.mpr hall]
    rfl
  · rw [rdropWhile_append hc, dropWhile_split hbefore hc, trimBy_split hbefore hc]

theorem trimBy_rdropWhile (p : α → Bool) (cs : List α) : trimBy p (cs.rdropWhile p) = trimBy p cs := by
  rw [trimBy, dropWhile_rdropWhile, trimBy, List.rdropWhile_idempotent]

theorem trimBy_dropWhile (p : α → Bool) (cs : List α) : trimBy p (cs.dropWhile p) = trimBy p cs := by
  rw [trimBy, List.dropWhile_idempotent, trimBy]

theorem trimBy_trimBy (p : α → Bool) (cs : List α) : trimBy p (trimBy p cs) = trimBy p cs := by
  conv_lhs => rw [trimBy.eq_def p cs]
  rw [trimBy_rdropWhile, trimBy_dropWhile]

theorem dropWhile_trimBy (p : α → Bool) (cs : List α) : (trimBy p cs).dropWhile p = trimBy p cs := by
  rw [trimBy, dropWhile_rdropWhile, trimBy_dropWhile, trimBy]

theorem rdropWhile_trimBy (p : α → Bool) (cs : List α) : (trimBy p cs).rdropWhile p = trimBy p cs :=
  List.rdropWhile_idempotent _ _

theorem trimBy_append (hc : p c = false) (cs ds : List α) :
    trimBy p (cs ++ c :: ds) = cs.dropWhile p ++ c :: ds.rdropWhile p := by
  rw [trimBy, List.dropWhile_append]
  split_ifs with h
  · have hnil : cs.dropWhile p = [] := by simpa using h
    rw [hnil, List.dropWhile_cons_of_neg (by simp [hc])]
    exact rdropWhile_append hc [] ds
  · exact rdropWhile_append hc _ ds

theorem trimBy_concat (hc : p c = true) (cs : List α) : trimBy p (cs ++ [c]) = trimBy p cs := by
  rw [← trimBy_rdropWhile, List.rdropWhile_concat_pos _ _ _ hc, trimBy_rdropWhile]

theorem trimBy_cons (hc : p c = true) (cs : List α) : trimBy p (c :: cs) = trimBy p cs := by
  rw [trimBy, List.dropWhile_cons_of_pos hc, trimBy]

theorem mem_trimBy (h : c ∈ trimBy p cs) : c ∈ cs :=
  List.dropWhile_subset _ ((List.rdropWhile_prefix _ _).subset h)

theorem trimBy_map {f : α → α} (hf : ∀ c, p (f c) = p c) (cs : List α) :
    trimBy p (cs.map f) = (trimBy p cs).map f := by
  have hp : p ∘ f = p := funext hf
  rw [trimBy, trimBy, List.rdropWhile, List.rdropWhile, List.dropWhile_map, hp, ← List.map_reverse,
    List.dropWhile_map, hp, List.map_reverse]

end Polaris.Lib.Trim
