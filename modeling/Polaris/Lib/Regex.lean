import Mathlib.Computability.Language
import Polaris.Lib.Text

namespace Polaris.Lib.Regex

open Polaris.Lib.Text (isSpace)
open scoped Computability

/-- Patterns of a backtracking engine. A repetition or an alternative is
tried in order, and what follows it decides which attempt stands. -/
inductive Pattern
  | empty
  | chars (p : Char → Bool)
  | boundary
  | finish
  | seq (r s : Pattern)
  | alt (r s : Pattern)
  | star (greedy : Bool) (r : Pattern)
  | group (r : Pattern)

/-- A place in a text, with the character before it and the number of
characters read since the attempt began. -/
structure Cursor where
  prev : Option Char
  read : Nat
  rest : List Char
  deriving DecidableEq

def isWord (c : Char) : Bool := c.isAlphanum || c == '_'

def Cursor.atBoundary (c : Cursor) : Bool := c.prev.any isWord != c.rest.head?.any isWord

/-- The captured groups, in the order in which they close. -/
abbrev Groups := List (List Char)

section Matcher

variable {α : Type}

/-- An iteration that consumes nothing is not repeated. -/
def repeatWith (greedy : Bool) (body : Cursor → Groups → (Cursor → Groups → Option α) → Option α)
    (k : Cursor → Groups → Option α) : Nat → Cursor → Groups → Option α
  | 0, c, gs => k c gs
  | n + 1, c, gs =>
    let more := body c gs fun c' gs' =>
      if c.read < c'.read then repeatWith greedy body k n c' gs' else none
    if greedy then more.or (k c gs) else (k c gs).or more

def run : Pattern → Cursor → Groups → (Cursor → Groups → Option α) → Option α
  | .empty, c, gs, k => k c gs
  | .chars p, c, gs, k =>
    match c.rest with
    | [] => none
    | x :: xs => if p x then k ⟨some x, c.read + 1, xs⟩ gs else none
  | .boundary, c, gs, k => if c.atBoundary then k c gs else none
  | .finish, c, gs, k => if c.rest = [] then k c gs else none
  | .seq r s, c, gs, k => run r c gs fun c' gs' => run s c' gs' k
  | .alt r s, c, gs, k => (run r c gs k).or (run s c gs k)
  | .star greedy r, c, gs, k => repeatWith greedy (run r) k c.rest.length c gs
  | .group r, c, gs, k =>
    run r c gs fun c' gs' => k c' (gs' ++ [c.rest.take (c'.read - c.read)])

end Matcher

structure Match where
  before : List Char
  text : List Char
  groups : Groups
  last : Option Char
  rest : List Char
  deriving DecidableEq

def matchAt (r : Pattern) (prev : Option Char) (text : List Char) : Option Match :=
  run r ⟨prev, 0, text⟩ [] fun c gs => some ⟨[], text.take c.read, gs, c.prev, c.rest⟩

def search (r : Pattern) (prev : Option Char) : List Char → Option Match
  | [] => matchAt r prev []
  | x :: xs =>
    (matchAt r prev (x :: xs)).or
      ((search r (some x) xs).map fun m => { m with before := x :: m.before })

def exec (r : Pattern) (text : List Char) : Option Match := search r none text

def test (r : Pattern) (text : List Char) : Bool := (exec r text).isSome

def matchesFrom (r : Pattern) : Nat → Option Char → List Char → List Groups
  | 0, _, _ => []
  | n + 1, prev, text =>
    match search r prev text with
    | none => []
    | some m => m.groups :: matchesFrom r n m.last m.rest

def matchAll (r : Pattern) (text : List Char) : List Groups :=
  matchesFrom r (text.length + 1) none text

section Patterns

def char (x : Char) : Pattern := .chars (· == x)

def lit (text : String) : Pattern := text.toList.foldr (fun x r => .seq (char x) r) .empty

/-- A literal whose letters match in either case. -/
def litAnyCase (text : String) : Pattern :=
  text.toList.foldr (fun x r => .seq (.chars fun y => y.toUpper == x.toUpper) r) .empty

def oneOf : List Pattern → Pattern
  | [] => .chars fun _ => false
  | [r] => r
  | r :: rs => .alt r (oneOf rs)

def concat (rs : List Pattern) : Pattern := rs.foldr .seq .empty

def many (p : Char → Bool) : Pattern := .star true (.chars p)

def manyLazy (p : Char → Bool) : Pattern := .star false (.chars p)

def some1 (p : Char → Bool) : Pattern := .seq (.chars p) (many p)

def some1Lazy (p : Char → Bool) : Pattern := .seq (.chars p) (manyLazy p)

def opt (r : Pattern) : Pattern := .alt r .empty

end Patterns

section Consumed

variable {α : Type} {r : Pattern} {c : Cursor} {gs : Groups} {k : Cursor → Groups → Option α} {a : α}

/-- The texts a pattern can consume, wherever its anchors let it. -/
def lang : Pattern → Language Char
  | .empty | .boundary | .finish => 1
  | .chars p => {w | ∃ x, p x ∧ w = [x]}
  | .seq r s => lang r * lang s
  | .alt r s => lang r + lang s
  | .star _ r => (lang r)∗
  | .group r => lang r

/-- From one place to another a pattern of the given language was read. -/
def Reads (l : Language Char) (c c' : Cursor) : Prop := ∃ u ∈ l, c.rest = u ++ c'.rest

theorem Reads.one (c : Cursor) : Reads 1 c c := ⟨[], rfl, rfl⟩

theorem Reads.mul {l m : Language Char} {c c' c'' : Cursor} (h : Reads l c c') (h' : Reads m c' c'') :
    Reads (l * m) c c'' := by
  obtain ⟨u, hu, hr⟩ := h
  obtain ⟨v, hv, hr'⟩ := h'
  exact ⟨u ++ v, Language.append_mem_mul hu hv, by rw [hr, hr', List.append_assoc]⟩

theorem Reads.mono {l m : Language Char} {c c' : Cursor} (h : Reads l c c') (hle : ∀ u ∈ l, u ∈ m) :
    Reads m c c' := by
  obtain ⟨u, hu, hr⟩ := h
  exact ⟨u, hle u hu, hr⟩

theorem repeatWith_sound {greedy : Bool} {l : Language Char}
    {body : Cursor → Groups → (Cursor → Groups → Option α) → Option α}
    (hbody : ∀ {c gs} {k : Cursor → Groups → Option α} {a}, body c gs k = some a →
      ∃ c' gs', Reads l c c' ∧ k c' gs' = some a) {n : Nat}
    (h : repeatWith greedy body k n c gs = some a) :
    ∃ c' gs', Reads (l∗) c c' ∧ k c' gs' = some a := by
  induction n generalizing c gs with
  | zero => exact ⟨c, gs, (Reads.one c).mono fun _ hu => one_le_kstar (a := l) hu, h⟩
  | succ n ih =>
    have hcase : k c gs = some a ∨ body c gs (fun c' gs' =>
        if c.read < c'.read then repeatWith greedy body k n c' gs' else none) = some a := by
      rw [repeatWith] at h
      cases greedy with
      | true => exact (Option.or_eq_some_iff.mp h).elim .inr fun h => .inl h.2
      | false => exact (Option.or_eq_some_iff.mp h).elim .inl fun h => .inr h.2
    obtain hk | hb := hcase
    · exact ⟨c, gs, (Reads.one c).mono fun _ hu => one_le_kstar (a := l) hu, hk⟩
    · obtain ⟨c', gs', hr, hk⟩ := hbody hb
      split at hk
      · obtain ⟨c'', gs'', hr', hk⟩ := ih hk
        exact ⟨c'', gs'', (hr.mul hr').mono fun _ hu => mul_kstar_le_kstar (a := l) hu, hk⟩
      · cases hk

/-- Whatever path a match takes, each pattern on it consumed one of its
own texts. -/
theorem run_sound (h : run r c gs k = some a) : ∃ c' gs', Reads (lang r) c c' ∧ k c' gs' = some a := by
  induction r generalizing c gs k a with
  | empty => exact ⟨c, gs, .one c, h⟩
  | chars p =>
    rw [run] at h
    split at h
    · cases h
    · rename_i x xs hc
      split at h
      · rename_i hp
        exact ⟨⟨some x, c.read + 1, xs⟩, gs, ⟨[x], ⟨x, hp, rfl⟩, hc⟩, h⟩
      · cases h
  | boundary =>
    rw [run] at h
    split at h
    · exact ⟨c, gs, .one c, h⟩
    · cases h
  | finish =>
    rw [run] at h
    split at h
    · exact ⟨c, gs, .one c, h⟩
    · cases h
  | seq r s ihr ihs =>
    obtain ⟨c', gs', hr, h⟩ := ihr h
    obtain ⟨c'', gs'', hs, h⟩ := ihs h
    exact ⟨c'', gs'', hr.mul hs, h⟩
  | alt r s ihr ihs =>
    obtain h | ⟨-, h⟩ := Option.or_eq_some_iff.mp h
    · obtain ⟨c', gs', hr, h⟩ := ihr h
      exact ⟨c', gs', hr.mono fun _ hu => Or.inl hu, h⟩
    · obtain ⟨c', gs', hs, h⟩ := ihs h
      exact ⟨c', gs', hs.mono fun _ hu => Or.inr hu, h⟩
  | star greedy r ih => exact repeatWith_sound (fun h => ih h) h
  | group r ih =>
    obtain ⟨c', gs', hr, h⟩ := ih h
    exact ⟨c', _, hr, h⟩

/-- No character class of the pattern contains the character. -/
def avoids (q : Char) : Pattern → Bool
  | .empty | .boundary | .finish => true
  | .chars p => !p q
  | .seq r s | .alt r s => avoids q r && avoids q s
  | .star _ r | .group r => avoids q r

theorem not_mem_of_avoids {q : Char} {u : List Char} (h : avoids q r) (hu : u ∈ lang r) : q ∉ u := by
  induction r generalizing u with
  | empty | boundary | finish => simp [(Language.mem_one u).mp hu]
  | chars p =>
    obtain ⟨x, hx, rfl⟩ := hu
    rintro hq
    simp [avoids, List.mem_singleton.mp hq, hx] at h
  | seq r s ihr ihs =>
    obtain ⟨v, hv, w, hw, rfl⟩ := Language.mem_mul.mp hu
    rw [avoids, Bool.and_eq_true] at h
    simp [ihr h.1 hv, ihs h.2 hw]
  | alt r s ihr ihs =>
    rw [avoids, Bool.and_eq_true] at h
    exact ((Language.mem_add _ _ _).mp hu).elim (ihr h.1) (ihs h.2)
  | star greedy r ih =>
    obtain ⟨ws, rfl, hws⟩ := Language.mem_kstar.mp hu
    intro hq
    obtain ⟨w, hw, hq⟩ := List.mem_flatten.mp hq
    exact ih h (hws w hw) hq
  | group r ih => exact ih h hu

end Consumed

section Shift

variable {α : Type}

/-- The same place, after some more characters. -/
def Cursor.shift (d : Nat) (c : Cursor) : Cursor := { c with read := d + c.read }

theorem repeatWith_shift {greedy : Bool} {d : Nat}
    {body : Cursor → Groups → (Cursor → Groups → Option α) → Option α}
    (hbody : ∀ c gs k, body (c.shift d) gs k = body c gs fun c' gs' => k (c'.shift d) gs')
    (k : Cursor → Groups → Option α) (n : Nat) (c : Cursor) (gs : Groups) :
    repeatWith greedy body k n (c.shift d) gs =
      repeatWith greedy body (fun c' gs' => k (c'.shift d) gs') n c gs := by
  induction n generalizing c gs with
  | zero => rfl
  | succ n ih =>
    have hmore : (fun c' gs' => if (c.shift d).read < (Cursor.shift d c').read then
        repeatWith greedy body k n (c'.shift d) gs' else none) =
        fun c' gs' => if c.read < c'.read then
          repeatWith greedy body (fun c' gs' => k (c'.shift d) gs') n c' gs' else none := by
      funext c' gs'
      rw [ih]
      simp only [Cursor.shift, Nat.add_lt_add_iff_left]
    rw [repeatWith, repeatWith, hbody, hmore]

/-- What was read before a place makes no difference to a match from it. -/
theorem run_shift (r : Pattern) (d : Nat) (c : Cursor) (gs : Groups) (k : Cursor → Groups → Option α) :
    run r (c.shift d) gs k = run r c gs fun c' gs' => k (c'.shift d) gs' := by
  induction r generalizing c gs k with
  | empty | boundary | finish => rfl
  | chars p => obtain ⟨prev, n, _ | ⟨x, xs⟩⟩ := c <;> rfl
  | seq r s ihr ihs =>
    simp only [run, ihr, ihs]
  | alt r s ihr ihs => rw [run, run, ihr, ihs]
  | star greedy r ih => exact repeatWith_shift ih k c.rest.length c gs
  | group r ih =>
    simp only [run, ih]
    simp only [Cursor.shift, Nat.add_sub_add_left]

end Shift

section Global

variable {r : Pattern} {prev : Option Char} {x : Char} {xs text : List Char} {m : Match}

theorem matchesFrom_skip (h : matchAt r prev (x :: xs) = none) (n : Nat) :
    matchesFrom r n prev (x :: xs) = matchesFrom r n (some x) xs := by
  cases n with
  | zero => rfl
  | succ n =>
    rw [matchesFrom, matchesFrom, search, h, Option.none_or]
    cases search r (some x) xs <;> rfl

theorem matchesFrom_take (h : matchAt r prev text = some m) (n : Nat) :
    matchesFrom r (n + 1) prev text = m.groups :: matchesFrom r n m.last m.rest := by
  have hs : search r prev text = some m := by
    cases text with
    | nil => exact h
    | cons x xs => rw [search, h, Option.some_or]
  rw [matchesFrom, hs]

end Global

theorem run_manyLazy_cons {α : Type} (p : Char → Bool) (prev : Option Char) (n : Nat) (x : Char)
    (xs : List Char) (gs : Groups) (k : Cursor → Groups → Option α) :
    run (manyLazy p) ⟨prev, n, x :: xs⟩ gs k =
      (k ⟨prev, n, x :: xs⟩ gs).or
        (if p x then run (manyLazy p) ⟨some x, n + 1, xs⟩ gs k else none) := by
  simp [manyLazy, run, repeatWith]

end Polaris.Lib.Regex
