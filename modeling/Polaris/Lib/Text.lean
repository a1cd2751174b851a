import Mathlib.Data.List.Basic
import Mathlib.Data.List.TakeWhile
import Mathlib.Tactic.IntervalCases

namespace Polaris.Lib.Text

/-- White space and line terminators, as the language's own `trim` and
number parser see them. -/
def isSpace (c : Char) : Bool :=
  c ∈ ['\t', '\n', '\u000b', '\u000c', '\r', ' ', '\u00a0', '\u1680', '\u2028', '\u2029',
    '\u202f', '\u205f', '\u3000', '\ufeff'] || ('\u2000' ≤ c && c ≤ '\u200a')

def trim (s : String) : String :=
  String.ofList ((s.toList.dropWhile isSpace).reverse.dropWhile isSpace).reverse

/-- The leading decimal integer of a text, after white space and a sign;
nothing when no digit is there. -/
def parseInt (cs : List Char) : Option Int :=
  let body := cs.dropWhile isSpace
  let sign : Int := if body.head? = some '-' then -1 else 1
  let digits := ((if body.head? = some '-' ∨ body.head? = some '+' then body.tail else body).takeWhile
    Char.isDigit)
  if digits = [] then none else some (sign * Nat.ofDigitChars 10 digits 0)

def join (sep : Char) (parts : List (List Char)) : String :=
  String.ofList ([sep].intercalate parts)

def split (sep : Char) (s : String) : List (List Char) := s.toList.splitOn sep

theorem split_join (sep : Char) (parts : List (List Char)) (hne : parts ≠ [])
    (hsep : ∀ p ∈ parts, sep ∉ p) : split sep (join sep parts) = parts := by
  simpa only [split, join, String.toList_ofList] using List.splitOn_intercalate sep hsep hne

theorem join_split (sep : Char) (s : String) : join sep (split sep s) = s := by
  rw [join, split, List.intercalate_splitOn, String.ofList_toList]

theorem not_mem_join {sep c : Char} {parts : List (List Char)} (hs : c ≠ sep)
    (hp : ∀ p ∈ parts, c ∉ p) : c ∉ (join sep parts).toList := by
  rw [join, String.toList_ofList]
  induction parts with
  | nil => simp
  | cons p parts ih =>
    cases parts with
    | nil => simpa using hp p (by simp)
    | cons q parts =>
      rw [List.intercalate_cons_cons]
      have := ih (fun r hr => hp r (by simp [hr]))
      simp [hs, hp p (by simp), this]

theorem isDigit_of_mem_decimal {n : Nat} {c : Char} (h : c ∈ Nat.toDigits 10 n) : c.isDigit :=
  Nat.isDigit_of_mem_toDigits (by decide) (by decide) h

theorem not_mem_decimal {n : Nat} {c : Char} (hc : c.isDigit = false) : c ∉ Nat.toDigits 10 n :=
  fun h => by simp [isDigit_of_mem_decimal h] at hc

theorem digitChar_toNat_sub {c : Char} (h : c.isDigit) :
    c.toNat - 48 < 10 ∧ Nat.digitChar (c.toNat - 48) = c := by
  have hd : 48 ≤ c.toNat ∧ c.toNat ≤ 57 := by
    simpa [Char.isDigit, UInt32.le_iff_toNat_le] using h
  refine ⟨by omega, Char.toNat_inj.mp ?_⟩
  rw [Nat.toNat_digitChar_of_lt_ten (by omega)]
  omega

theorem head_toDigits {n : Nat} (hn : 0 < n) : (Nat.toDigits 10 n).head? ≠ some '0' := by
  induction n using Nat.strong_induction_on with
  | _ n ih =>
    obtain hlt | hge := Nat.lt_or_ge n 10
    · rw [Nat.toDigits_of_lt_base hlt]
      interval_cases n <;> decide
    · rw [Nat.toDigits_of_base_le (by decide) hge,
        List.head?_append_of_ne_nil _ Nat.toDigits_ne_nil]
      exact ih (n / 10) (by omega) (by omega)

theorem toDigits_append {n : Nat} {cs : List Char} (hn : 0 < n) (hcs : ∀ c ∈ cs, c.isDigit) :
    Nat.toDigits 10 n ++ cs = Nat.toDigits 10 (Nat.ofDigitChars 10 cs n) := by
  induction cs generalizing n with
  | nil => simp
  | cons c cs ih =>
    obtain ⟨hlt, hc⟩ := digitChar_toNat_sub (hcs c (by simp))
    have hp := Nat.toDigits_append_toDigits (b := 10) (by decide) hn hlt
    rw [Nat.toDigits_of_lt_base hlt, hc] at hp
    rw [Nat.ofDigitChars_cons]
    change _ = Nat.toDigits 10 (Nat.ofDigitChars 10 cs (10 * n + (c.toNat - 48)))
    rw [← ih (by omega) (fun d hd => hcs d (by simp [hd])), ← hp]
    simp

theorem eq_toDigits {cs : List Char} (hne : cs ≠ []) (hcs : ∀ c ∈ cs, c.isDigit)
    (hz : cs.length = 1 ∨ cs.head? ≠ some '0') :
    cs = Nat.toDigits 10 (Nat.ofDigitChars 10 cs 0) := by
  cases cs with
  | nil => exact absurd rfl hne
  | cons c cs =>
    obtain ⟨hlt, hc⟩ := digitChar_toNat_sub (hcs c (by simp))
    rw [Nat.ofDigitChars_cons]
    change _ = Nat.toDigits 10 (Nat.ofDigitChars 10 cs (10 * 0 + (c.toNat - 48)))
    rw [Nat.mul_zero, Nat.zero_add]
    by_cases h0 : c.toNat - 48 = 0
    · have hc0 : c = '0' := by rw [← hc, h0]; rfl
      have hl : cs = [] := by
        obtain hl | hl := hz
        · simpa using hl
        · simp [hc0] at hl
      subst hl hc0
      rfl
    · rw [← toDigits_append (by omega) (fun d hd => hcs d (by simp [hd])),
        Nat.toDigits_of_lt_base hlt, hc]
      rfl

theorem isSpace_of_isDigit {c : Char} (h : c.isDigit = true) : isSpace c = false := by
  have hd : 48 ≤ c.toNat ∧ c.toNat ≤ 57 := by
    simpa [Char.isDigit, UInt32.le_iff_toNat_le] using h
  rw [← Char.ofNat_toNat c]
  generalize c.toNat = n at hd
  obtain ⟨h1, h2⟩ := hd
  interval_cases n <;> decide

theorem parseInt_isDigit {ds : List Char} (hne : ds ≠ []) (hall : ∀ c ∈ ds, c.isDigit = true) :
    parseInt ds = some (Nat.ofDigitChars 10 ds 0 : Int) := by
  obtain ⟨d, rest, hd⟩ := List.exists_cons_of_ne_nil hne
  have hdigit : d.isDigit = true := hall d (by simp [hd])
  have hsp : isSpace d = false := isSpace_of_isDigit hdigit
  have hm : d ≠ '-' := fun he => by simp [he] at hdigit
  have hp : d ≠ '+' := fun he => by simp [he] at hdigit
  have ht : (d :: rest).takeWhile Char.isDigit = d :: rest := List.takeWhile_eq_self_iff.mpr (hd ▸ hall)
  rw [parseInt, hd, List.dropWhile_cons, hsp]
  simp only [Bool.false_eq_true, if_false, List.head?_cons, Option.some.injEq, hm, hp, or_false, ht,
    List.cons_ne_nil]
  rw [one_mul]

theorem parseInt_digits (n : Nat) : parseInt (Nat.toDigits 10 n) = some (n : Int) := by
  rw [parseInt_isDigit Nat.toDigits_ne_nil fun _ => isDigit_of_mem_decimal, Nat.ofDigitChars_ten_toDigits]

theorem parseInt_minus (n : Nat) : parseInt ('-' :: Nat.toDigits 10 n) = some (-(n : Int)) := by
  have ht : (Nat.toDigits 10 n).takeWhile Char.isDigit = Nat.toDigits 10 n :=
    List.takeWhile_eq_self_iff.mpr fun c hc => isDigit_of_mem_decimal hc
  have hs : ('-' :: Nat.toDigits 10 n).dropWhile isSpace = '-' :: Nat.toDigits 10 n := rfl
  rw [parseInt, hs]
  simp only [List.head?_cons, if_true, true_or, List.tail_cons, ht, Nat.toDigits_ne_nil, if_false,
    Nat.ofDigitChars_ten_toDigits]
  rw [neg_one_mul]

theorem parseInt_repr (p : Int) : parseInt p.repr.toList = some p := by
  cases p with
  | ofNat n =>
    change parseInt n.repr.toList = _
    rw [Nat.toList_repr]
    exact parseInt_digits n
  | negSucc n =>
    change parseInt ("-" ++ (n + 1).repr).toList = _
    rw [String.toList_append, Nat.toList_repr]
    exact parseInt_minus (n + 1)

theorem not_mem_repr {c : Char} (hd : c.isDigit = false) (hm : c ≠ '-') (p : Int) : c ∉ p.repr.toList := by
  cases p with
  | ofNat n =>
    change c ∉ n.repr.toList
    rw [Nat.toList_repr]
    exact not_mem_decimal hd
  | negSucc n =>
    change c ∉ ("-" ++ (n + 1).repr).toList
    rw [String.toList_append, Nat.toList_repr, List.mem_append, not_or]
    exact ⟨fun h => hm (List.mem_singleton.mp h), not_mem_decimal hd⟩

end Polaris.Lib.Text
