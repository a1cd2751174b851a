import Mathlib.Computability.Language
import Polaris.AutoMonitor
import Polaris.DnsWire
import Polaris.Lib.EcmaRegExp

namespace Polaris.Wildcards

open Polaris.AutoMonitor Polaris.Lib.EcmaRegExp
open Polaris.DnsWire (units)

section Engine

def utf16 (text : List Char) : List Nat := text.flatMap units

/-- The language's own engine. The sources that are not read here have any
meaning. -/
def engine (other : RegExp) : RegExp := fun source =>
  match parse (utf16 source.toList) with
  | some ts => .ok fun s => test ts (utf16 s.toList)
  | none => other source

end Engine

section Glob

def anyChar : Language Char := {w | ∃ x, w = [x]}

def globChar (c : Char) : Language Char := if c = '*' then ⊤ else if c = '?' then anyChar else {[c]}

/-- A star is any text, a question mark is one character and each of the
others is itself. -/
def glob (pattern : String) : Language Char := (pattern.toList.map globChar).prod

end Glob

section Source

def charTokens (c : Char) : List Token :=
  if c = '*' then [.atom .any, .quantifier .star]
  else if c = '?' then [.atom .any]
  else (units c).map fun u => .atom (.unit u)

def charTerms (c : Char) : List Term :=
  if c = '*' then [.repeated .any .star true]
  else if c = '?' then [.once .any]
  else (units c).map fun u => .once (.unit u)

theorem units_bmp {c : Char} (h : c.toNat < 65536) : units c = [code c] := if_pos h

theorem units_ne_nil (c : Char) : units c ≠ [] := by
  rw [units]
  split <;> simp

theorem units_plain {c : Char} (h : c ∉ syntaxCharacters) : ∀ u ∈ units c, u ∉ syntaxCharacters.map code := by
  intro u hu hmem
  rw [units] at hu
  split at hu
  · rw [List.mem_singleton.mp hu] at hmem
    exact h (mem_map_code.mp hmem)
  · have hle : ∀ v ∈ syntaxCharacters.map code, v < 0xd800 := by decide
    have := hle u hmem
    simp only [List.mem_cons, List.not_mem_nil, or_false] at hu
    omega

theorem tokens_wildcardChar (c : Char) (source : List Nat) :
    tokens (utf16 (wildcardChar c) ++ source) = (charTokens c ++ ·) <$> tokens source := by
  rw [wildcardChar, charTokens]
  split
  · change tokens (code '.' :: code '*' :: source) = _
    rw [tokens_any, tokens_star]
    cases tokens source <;> rfl
  split
  · change tokens (code '.' :: source) = _
    rw [tokens_any]
    rfl
  split
  · rename_i h
    have hall : special.all (fun d => d.toNat < 65536 ∧ code d ∈ identityEscapes.map code) =
      true := by decide +kernel
    have hb : ∀ d ∈ special, d.toNat < 65536 ∧ code d ∈ identityEscapes.map code := fun d hd =>
      of_decide_eq_true (List.all_eq_true.mp hall d hd)
    change tokens (units '\\' ++ (units c ++ []) ++ source) = _
    rw [units_bmp (by decide), units_bmp (hb c h).1]
    exact tokens_escaped (hb c h).2 source
  · rename_i hs hq h
    have hall : syntaxCharacters.all (fun d => d = '*' ∨ d = '?' ∨ d ∈ special) = true := by decide +kernel
    have hsub : ∀ d ∈ syntaxCharacters, d = '*' ∨ d = '?' ∨ d ∈ special := fun d hd =>
      of_decide_eq_true (List.all_eq_true.mp hall d hd)
    have hp : c ∉ syntaxCharacters := fun hc => by simpa [hs, hq, h] using hsub c hc
    rw [utf16, List.flatMap_singleton]
    exact tokens_plain (units_plain hp) source

theorem tokens_wildcardChars (cs : List Char) (source : List Nat) :
    tokens (utf16 (cs.flatMap wildcardChar) ++ source) = (cs.flatMap charTokens ++ ·) <$> tokens source := by
  induction cs with
  | nil => simp [utf16]
  | cons c cs ih =>
    rw [utf16, List.flatMap_cons, List.flatMap_append, List.append_assoc, List.flatMap_cons]
    have := tokens_wildcardChar c (utf16 (cs.flatMap wildcardChar) ++ source)
    rw [ih] at this
    rw [← utf16, ← utf16, this]
    cases tokens source <;> simp

theorem fresh_charTokens (cs : List Char) : Fresh (cs.flatMap charTokens ++ [.finish]) := by
  cases cs with
  | nil => simp [Fresh]
  | cons c cs =>
    rw [List.flatMap_cons, charTokens]
    split
    · simp [Fresh]
    split
    · simp [Fresh]
    · obtain ⟨u, us, hu⟩ := List.exists_cons_of_ne_nil (units_ne_nil c)
      simp [Fresh, hu]

theorem terms_charTokens (cs : List Char) :
    terms (cs.flatMap charTokens ++ [.finish]) = some (cs.flatMap charTerms ++ [.finish]) := by
  induction cs with
  | nil => rfl
  | cons c cs ih =>
    have hf := fresh_charTokens cs
    rw [List.flatMap_cons, List.flatMap_cons, List.append_assoc, List.append_assoc, charTokens, charTerms]
    split
    · change terms (.atom .any :: .quantifier .star :: (cs.flatMap charTokens ++ [.finish])) = _
      rw [terms_repeated _ _ hf, ih]
      rfl
    split
    · change terms (.atom .any :: (cs.flatMap charTokens ++ [.finish])) = _
      rw [terms_once _ hf, ih]
      rfl
    · rw [terms_units hf, ih]
      rfl

/-- What a pattern is compiled to, read back. -/
theorem parse_source (cs : List Char) :
    parse (utf16 ('^' :: cs.flatMap wildcardChar ++ ['$'])) =
      some (.start :: (cs.flatMap charTerms ++ [.finish])) := by
  have hu : utf16 ('^' :: cs.flatMap wildcardChar ++ ['$']) =
      code '^' :: (utf16 (cs.flatMap wildcardChar) ++ [code '$']) := by
    simp only [utf16, List.cons_append, List.flatMap_cons, List.flatMap_append, List.flatMap_nil]
    rfl
  rw [hu, parse, tokens_start, tokens_wildcardChars, tokens_finish]
  change terms (.start :: (cs.flatMap charTokens ++ [.finish])) = _
  rw [terms, terms_charTokens]
  rfl

end Source

section Semantics

/-- A character of the basic plane that ends no line. -/
def Plain (c : Char) : Prop := c.toNat < 65536 ∧ c.toNat ∉ lineTerminators

variable {c : Char} {text : List Char} {ts : List Term} {i : Nat} {l : Language Char}

theorem utf16_plain (h : ∀ c ∈ text, Plain c) : utf16 text = text.map code := by
  induction text with
  | nil => rfl
  | cons c text ih =>
    rw [utf16, List.flatMap_cons, units_bmp (h c (by simp)).1, ← utf16, ih fun d hd => h d (by simp [hd])]
    rfl

/-- The terms accept the texts of the language, wherever they stand. -/
def Accepts (ts : List Term) (l : Language Char) : Prop :=
  ∀ i text, (∀ c ∈ text, Plain c) → (run ts i (text.map code) = true ↔ text ∈ l)

theorem accepts_finish : Accepts [.finish] 1 := by
  intro i text _
  rw [run, run, Bool.and_true, decide_eq_true_iff, List.map_eq_nil_iff, Language.mem_one]

theorem accepts_any (h : Accepts ts l) : Accepts (.once .any :: ts) (anyChar * l) := by
  intro i text ht
  rw [run, Language.mem_mul]
  cases text with
  | nil =>
    refine iff_of_false Bool.false_ne_true ?_
    rintro ⟨_, ⟨x, rfl⟩, b, -, he⟩
    exact List.cons_ne_nil x b he
  | cons c text =>
    have hc : Atom.any.admits (code c) = true := decide_eq_true (ht c (by simp)).2
    rw [List.map_cons, readAtom, hc, Bool.true_and, h _ _ fun d hd => ht d (by simp [hd])]
    constructor
    · exact fun hm => ⟨[c], ⟨c, rfl⟩, text, hm, rfl⟩
    · rintro ⟨_, ⟨x, rfl⟩, rest, hr, he⟩
      obtain ⟨rfl, rfl⟩ := List.cons.inj he
      exact hr

theorem accepts_star (h : Accepts ts l) : Accepts (.repeated .any .star true :: ts) (⊤ * l) := by
  intro i text ht
  rw [run, loop_iff, Language.mem_mul]
  constructor
  · rintro ⟨taken, rest, he, -, hk⟩
    obtain ⟨first, last, rfl, rfl, rfl⟩ := List.map_eq_append_iff.mp he
    exact ⟨first, trivial, last, (h _ _ fun d hd => ht d (by simp [hd])).mp hk, rfl⟩
  · rintro ⟨first, -, last, hl, rfl⟩
    refine ⟨first.map code, last.map code, List.map_append, ?_, ?_⟩
    · intro u hu
      obtain ⟨d, hd, rfl⟩ := List.mem_map.mp hu
      exact decide_eq_true (ht d (by simp [hd])).2
    · exact (h _ _ fun d hd => ht d (by simp [hd])).mpr hl

/-- The two units of a character outside the basic plane are no characters
of their own. -/
theorem accepts_units (c : Char) (h : Accepts ts l) :
    Accepts ((units c).map (fun u => .once (.unit u)) ++ ts) ({[c]} * l) := by
  intro i text ht
  rw [Language.mem_mul]
  cases text with
  | nil =>
    obtain ⟨u, us, hu⟩ := List.exists_cons_of_ne_nil (units_ne_nil c)
    rw [hu, List.map_cons, List.cons_append, run, List.map_nil, readAtom]
    refine iff_of_false Bool.false_ne_true ?_
    rintro ⟨a, ha, b, -, he⟩
    rw [Set.mem_singleton_iff.mp ha] at he
    exact List.cons_ne_nil c b he
  | cons d text =>
    have hd := (ht d (by simp)).1
    have hmem : (∃ a ∈ ({[c]} : Language Char), ∃ b ∈ l, a ++ b = d :: text) ↔ c = d ∧ text ∈ l := by
      constructor
      · rintro ⟨a, ha, b, hb, he⟩
        rw [Set.mem_singleton_iff.mp ha] at he
        obtain ⟨rfl, rfl⟩ := List.cons.inj he
        exact ⟨rfl, hb⟩
      · rintro ⟨rfl, hb⟩
        exact ⟨[c], rfl, text, hb, rfl⟩
    rw [hmem]
    by_cases hc : c.toNat < 65536
    · rw [units_bmp hc, List.map_singleton, List.singleton_append, run, List.map_cons, readAtom,
        Bool.and_eq_true,
        h _ _ fun e he => ht e (by simp [he]), Atom.admits, decide_eq_true_iff]
      refine and_congr_left fun _ => ⟨fun he => (Char.toNat_inj.mp he).symm, fun he => by rw [he]⟩
    · have hv : d.toNat < 0xd800 ∨ 0xdfff < d.toNat := d.valid.imp id And.left
      have hlt : c.toNat < 0x110000 := c.valid.elim (fun h => Nat.lt_trans h (by decide)) And.right
      have hne : d.toNat ≠ 0xd800 + (c.toNat - 65536) / 1024 := by omega
      have hcd : c ≠ d := fun he => hc (he ▸ hd)
      have hu : (Atom.unit (0xd800 + (c.toNat - 65536) / 1024)).admits (code d) = false := decide_eq_false hne
      rw [units, if_neg hc, List.map_cons, List.cons_append]
      refine iff_of_false ?_ fun h => hcd h.1
      rw [run, List.map_cons (f := code), readAtom, hu, Bool.false_and]
      exact Bool.false_ne_true

theorem accepts_charTerms (cs : List Char) :
    Accepts (cs.flatMap charTerms ++ [.finish]) (cs.map globChar).prod := by
  induction cs with
  | nil => exact accepts_finish
  | cons c cs ih =>
    rw [List.flatMap_cons, List.append_assoc, List.map_cons, List.prod_cons, charTerms, globChar]
    split
    · exact accepts_star ih
    split
    · exact accepts_any ih
    · exact accepts_units c ih

end Semantics

variable (other : RegExp) (pattern : String)

/-- A pattern compiles to the test of its glob. -/
theorem compileWildcard_glob (h : pattern ≠ "") : ∃ accepts,
    compileWildcard (engine other) pattern = .ok accepts ∧
      ∀ s : String, (∀ c ∈ s.toList, Plain c) → (accepts s = true ↔ s.toList ∈ glob pattern) := by
  refine ⟨fun s => test (.start :: (pattern.toList.flatMap charTerms ++ [.finish])) (utf16 s.toList), ?_, ?_⟩
  · rw [compileWildcard, if_neg h, compiled, engine, String.toList_ofList, parse_source]
  · intro s hs
    change test _ _ = true ↔ _
    rw [test_start, utf16_plain hs]
    exact accepts_charTerms pattern.toList 0 s.toList hs

theorem compileWildcard_glob_port : ∃ accepts,
    compileWildcard (engine fun _ => .error "") "port[1]*" = .ok accepts ∧
      ∀ s : String, (∀ c ∈ s.toList, Plain c) → (accepts s = true ↔ s.toList ∈ glob "port[1]*") :=
  compileWildcard_glob _ _ (by decide)

end Polaris.Wildcards
