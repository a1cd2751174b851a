import Mathlib.Data.List.Basic

namespace Polaris.Lib.Streaks

variable {α : Type*} [DecidableEq α] {t : ℕ} {b c : α} {h : List α}

/-- How many of the last outcomes are this one. A history has its newest
outcome first. -/
def lead (b : α) (h : List α) : ℕ := (h.takeWhile (· = b)).length

/-- The outcome that was the last to come so many times in a row. -/
def verdict (t : ℕ) : List α → Option α
  | [] => none
  | b :: h => if t ≤ lead b (b :: h) then some b else verdict t h

@[simp]
theorem lead_nil : lead b [] = 0 := rfl

@[simp]
theorem lead_cons : lead b (c :: h) = if c = b then lead b h + 1 else 0 := by
  rw [lead, List.takeWhile_cons]
  by_cases hcb : c = b
  · rw [if_pos hcb, if_pos (decide_eq_true hcb), List.length_cons]
    rfl
  · rw [if_neg hcb, if_neg (Bool.eq_false_iff.mp (decide_eq_false hcb)), List.length_nil]

theorem lead_cons_self : lead b (b :: h) = lead b h + 1 := by rw [lead_cons, if_pos rfl]

theorem lead_cons_ne (hcb : c ≠ b) : lead b (c :: h) = 0 := by rw [lead_cons, if_neg hcb]

theorem verdict_cons_of_le (hle : t ≤ lead b (b :: h)) : verdict t (b :: h) = some b := if_pos hle

theorem verdict_cons_of_lt (hlt : lead b (b :: h) < t) : verdict t (b :: h) = verdict t h :=
  if_neg (Nat.not_le.mpr hlt)

end Polaris.Lib.Streaks
