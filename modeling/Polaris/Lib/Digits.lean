import Mathlib.Data.Nat.Digits.Defs

namespace Polaris.Lib.Digits

variable {b k : Nat} {L : List Nat}

/-- The lowest places of a number, from the last one on. -/
def places (b n v : Nat) : List Nat := (List.range n).map fun i => v / b ^ i % b

theorem places_succ (b n v : Nat) : places b (n + 1) v = v % b :: places b n (v / b) := by
  rw [places, List.range_succ_eq_map, List.map_cons, List.map_map, pow_zero, Nat.div_one, places]
  refine congrArg (v % b :: ·) (List.map_congr_left fun i _ => ?_)
  rw [Function.comp_apply, Nat.succ_eq_add_one, pow_succ', Nat.div_div_eq_div_mul]

theorem places_ofDigits (h : ∀ d ∈ L, d < b) : places b L.length (Nat.ofDigits b L) = L := by
  induction L with
  | nil => rfl
  | cons d L ih =>
    have hd : d < b := h d List.mem_cons_self
    have hrest : (d + b * Nat.ofDigits b L) / b = Nat.ofDigits b L := by
      rw [Nat.add_mul_div_left d _ (Nat.zero_lt_of_lt hd), Nat.div_eq_of_lt hd, Nat.zero_add]
    rw [List.length_cons, places_succ, Nat.ofDigits_cons, Nat.add_mul_mod_self_left, Nat.mod_eq_of_lt hd,
      hrest,
      ih fun e he => h e (List.mem_cons_of_mem d he)]

theorem ofDigits_places (b n v : Nat) : Nat.ofDigits b (places b n v) = v % b ^ n := by
  induction n generalizing v with
  | zero =>
    rw [pow_zero, Nat.mod_one]
    rfl
  | succ n ih => rw [places_succ, Nat.ofDigits_cons, ih, pow_succ', Nat.mod_mul]

theorem length_blocks {blocks : List (List Nat)} (h : ∀ l ∈ blocks, l.length = k) :
    blocks.flatten.length = blocks.length * k := by
  induction blocks with
  | nil => rw [List.flatten_nil, List.length_nil, List.length_nil, Nat.zero_mul]
  | cons l blocks ih =>
    rw [List.flatten_cons, List.length_append, h l List.mem_cons_self,
      ih fun m hm => h m (List.mem_cons_of_mem l hm),
      List.length_cons, Nat.succ_mul, Nat.add_comm]

/-- Blocks of the same number of digits are the digits to a higher base. -/
theorem ofDigits_flatten {blocks : List (List Nat)} (h : ∀ l ∈ blocks, l.length = k) :
    Nat.ofDigits b blocks.flatten = Nat.ofDigits (b ^ k) (blocks.map (Nat.ofDigits b)) := by
  induction blocks with
  | nil => rfl
  | cons l blocks ih =>
    rw [List.flatten_cons, Nat.ofDigits_append, h l List.mem_cons_self,
      ih fun m hm => h m (List.mem_cons_of_mem l hm), List.map_cons, Nat.ofDigits_cons]

end Polaris.Lib.Digits
