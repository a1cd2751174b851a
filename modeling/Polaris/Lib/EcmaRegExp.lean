import Mathlib.Data.List.Basic

namespace Polaris.Lib.EcmaRegExp

section Source

/-- What one character of a text, a code unit, may be. -/
inductive Atom
  | any | unit (u : Nat)
  deriving DecidableEq

inductive Quantifier
  | star | plus | opt
  deriving DecidableEq

inductive Token
  | start | finish | atom (a : Atom) | quantifier (q : Quantifier)
  deriving DecidableEq

inductive Term
  | start
  | finish
  | once (a : Atom)
  | repeated (a : Atom) (q : Quantifier) (greedy : Bool)
  deriving DecidableEq

def code (c : Char) : Nat := c.toNat

def syntaxCharacters : List Char :=
  ['^', '$', '\\', '.', '*', '+', '?', '(', ')', '[', ']', '\x7b', '\x7d', '|']

def identityEscapes : List Char := '/' :: syntaxCharacters

/-- Classes, groups, alternatives, counts and the other escapes are not read
here. -/
def tokens : List Nat → Option (List Token)
  | [] => some []
  | u :: rest =>
    if u = code '^' then (Token.start :: ·) <$> tokens rest
    else if u = code '$' then (Token.finish :: ·) <$> tokens rest
    else if u = code '.' then (Token.atom .any :: ·) <$> tokens rest
    else if u = code '*' then (Token.quantifier .star :: ·) <$> tokens rest
    else if u = code '+' then (Token.quantifier .plus :: ·) <$> tokens rest
    else if u = code '?' then (Token.quantifier .opt :: ·) <$> tokens rest
    else if u = code '\\' then
      match rest with
      | [] => none
      | v :: rest => if v ∈ identityEscapes.map code then (Token.atom (.unit v) :: ·) <$> tokens rest
        else none
    else if u ∈ syntaxCharacters.map code then none
    else (Token.atom (.unit u) :: ·) <$> tokens rest

/-- A quantifier needs an atom in front of it, and a question mark behind it
makes it lazy. -/
def terms : List Token → Option (List Term)
  | [] => some []
  | .start :: ts => (Term.start :: ·) <$> terms ts
  | .finish :: ts => (Term.finish :: ·) <$> terms ts
  | .quantifier _ :: _ => none
  | .atom a :: .quantifier q :: .quantifier .opt :: ts => (Term.repeated a q false :: ·) <$> terms ts
  | .atom a :: .quantifier q :: ts => (Term.repeated a q true :: ·) <$> terms ts
  | .atom a :: ts => (Term.once a :: ·) <$> terms ts

def parse (source : List Nat) : Option (List Term) := (tokens source).bind terms

end Source

section Matcher

def lineTerminators : List Nat := [0x0a, 0x0d, 0x2028, 0x2029]

def Atom.admits : Atom → Nat → Bool
  | .any, u => u ∉ lineTerminators
  | .unit v, u => u = v

def either (first : Bool) (p q : Bool) : Bool := if first then p || q else q || p

/-- Any number of passes over the atom, and what follows. -/
def loop (a : Atom) (greedy : Bool) (k : Nat → List Nat → Bool) : Nat → List Nat → Bool
  | i, [] => k i []
  | i, u :: text => either greedy (a.admits u && loop a greedy k (i + 1) text) (k i (u :: text))

def readAtom (a : Atom) (k : Nat → List Nat → Bool) : Nat → List Nat → Bool
  | _, [] => false
  | i, u :: text => a.admits u && k (i + 1) text

def run : List Term → Nat → List Nat → Bool
  | [], _, _ => true
  | .start :: ts, i, text => i = 0 && run ts i text
  | .finish :: ts, i, text => text = [] && run ts i text
  | .once a :: ts, i, text => readAtom a (run ts) i text
  | .repeated a .star greedy :: ts, i, text => loop a greedy (run ts) i text
  | .repeated a .plus greedy :: ts, i, text => readAtom a (loop a greedy (run ts)) i text
  | .repeated a .opt greedy :: ts, i, text => either greedy (readAtom a (run ts) i text) (run ts i text)

def search (ts : List Term) : Nat → List Nat → Bool
  | i, [] => run ts i []
  | i, u :: text => run ts i (u :: text) || search ts (i + 1) text

def test (ts : List Term) (text : List Nat) : Bool := search ts 0 text

end Matcher

section Parsing

variable {ts ts' : List Term} {toks : List Token} {source : List Nat}

attribute [local simp] tokens terms

theorem mem_map_code {c : Char} {cs : List Char} : code c ∈ cs.map code ↔ c ∈ cs :=
  List.mem_map_of_injective fun _ _ h => Char.toNat_inj.mp h

theorem tokens_plain {us : List Nat} (h : ∀ u ∈ us, u ∉ syntaxCharacters.map code) (source : List Nat) :
    tokens (us ++ source) = (us.map (fun u => Token.atom (.unit u)) ++ ·) <$> tokens source := by
  induction us with
  | nil => simp
  | cons u us ih =>
    have hu := h u (by simp)
    have hne : ∀ c ∈ syntaxCharacters, u ≠ code c := fun c hc he => hu (he ▸ mem_map_code.mpr hc)
    rw [List.cons_append, tokens.eq_def]
    dsimp only
    rw [if_neg (hne _ (by decide)), if_neg (hne _ (by decide)),
      if_neg (hne _ (by decide)), if_neg (hne _ (by decide)), if_neg (hne _ (by decide)),
      if_neg (hne _ (by decide)), if_neg (hne _ (by decide)), if_neg hu, ih fun v hv => h v (by simp [hv])]
    cases tokens source <;> rfl

theorem tokens_start (source : List Nat) :
    tokens (code '^' :: source) = (Token.start :: ·) <$> tokens source := by
  rw [tokens.eq_def]
  exact if_pos rfl

theorem tokens_finish : tokens [code '$'] = some [.finish] := by decide

theorem tokens_any (source : List Nat) :
    tokens (code '.' :: source) = (Token.atom .any :: ·) <$> tokens source := by
  rw [tokens.eq_def]
  rfl

theorem tokens_star (source : List Nat) :
    tokens (code '*' :: source) = (Token.quantifier .star :: ·) <$> tokens source := by
  rw [tokens.eq_def]
  rfl

theorem tokens_escaped {v : Nat} (h : v ∈ identityEscapes.map code) (source : List Nat) :
    tokens (code '\\' :: v :: source) = (Token.atom (.unit v) :: ·) <$> tokens source := by
  rw [tokens.eq_def]
  dsimp only
  rw [if_neg (by decide), if_neg (by decide), if_neg (by decide), if_neg (by decide),
    if_neg (by decide), if_neg (by decide), if_pos rfl]
  exact if_pos h

/-- The next token is no quantifier. -/
def Fresh (toks : List Token) : Prop := ∀ q, toks.head? ≠ some (.quantifier q)

theorem terms_once (a : Atom) (h : Fresh toks) :
    terms (.atom a :: toks) = (Term.once a :: ·) <$> terms toks := by
  cases toks with
  | nil => rfl
  | cons t toks =>
    cases t with
    | quantifier q => exact absurd rfl (h q)
    | start | finish | atom => simp

theorem terms_repeated (a : Atom) (q : Quantifier) (h : Fresh toks) :
    terms (.atom a :: .quantifier q :: toks) = (Term.repeated a q true :: ·) <$> terms toks := by
  cases toks with
  | nil => rfl
  | cons t toks =>
    cases t with
    | quantifier q => exact absurd rfl (h q)
    | start | finish | atom => simp

theorem terms_units {us : List Nat} (h : Fresh toks) :
    terms (us.map (fun u => .atom (.unit u)) ++ toks) =
      (us.map (fun u => Term.once (.unit u)) ++ ·) <$> terms toks := by
  induction us with
  | nil => simp
  | cons u us ih =>
    have hf : Fresh (us.map (fun u => Token.atom (.unit u)) ++ toks) := by
      cases us with
      | nil => simpa using h
      | cons => simp [Fresh]
    rw [List.map_cons, List.cons_append, terms_once _ hf, ih]
    cases terms toks <;> rfl

end Parsing

section Runs

variable {a : Atom} {greedy : Bool} {k : Nat → List Nat → Bool} {ts : List Term} {i : Nat} {text : List Nat}

theorem either_eq (first p q : Bool) : either first p q = (p || q) := by
  cases first
  · exact Bool.or_comm q p
  · rfl

theorem loop_iff : loop a greedy k i text = true ↔
    ∃ taken rest, text = taken ++ rest ∧ (∀ u ∈ taken, a.admits u) ∧ k (i + taken.length) rest = true := by
  induction text generalizing i with
  | nil =>
    constructor
    · exact fun h => ⟨[], [], rfl, by simp, h⟩
    · rintro ⟨taken, rest, he, -, hk⟩
      obtain ⟨rfl, rfl⟩ := List.append_eq_nil_iff.mp he.symm
      exact hk
  | cons u text ih =>
    rw [loop, either_eq, Bool.or_eq_true, Bool.and_eq_true, ih]
    constructor
    · rintro (⟨hu, taken, rest, rfl, ht, hk⟩ | hk)
      · refine ⟨u :: taken, rest, rfl, List.forall_mem_cons.mpr ⟨hu, ht⟩, ?_⟩
        rwa [List.length_cons, Nat.add_comm taken.length, ← Nat.add_assoc]
      · exact ⟨[], u :: text, rfl, by simp, hk⟩
    · rintro ⟨taken, rest, he, ht, hk⟩
      cases taken with
      | nil => exact .inr (by rwa [he])
      | cons v taken =>
        obtain ⟨rfl, rfl⟩ := List.cons.inj he
        refine .inl ⟨ht _ (by simp), taken, rest, rfl, fun w hw => ht w (by simp [hw]), ?_⟩
        rwa [List.length_cons, Nat.add_comm taken.length, ← Nat.add_assoc] at hk

theorem run_start_pos (h : i ≠ 0) : run (.start :: ts) i text = false := by simp [run, h]

theorem search_start_pos (h : i ≠ 0) : search (.start :: ts) i text = false := by
  induction text generalizing i with
  | nil => exact run_start_pos h
  | cons u text ih => rw [search, run_start_pos h, ih (Nat.succ_ne_zero i), Bool.or_false]

theorem test_start : test (.start :: ts) text = run ts 0 text := by
  rw [test]
  cases text with
  | nil => simp [search, run]
  | cons u text => rw [search, search_start_pos (by decide)]; simp [run]

end Runs

end Polaris.Lib.EcmaRegExp
