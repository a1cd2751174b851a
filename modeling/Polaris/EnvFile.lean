import Mathlib.Data.List.DropRight
import Polaris.Lib.Lines
import Polaris.Lib.Text

namespace Polaris.EnvFile

open Polaris.Lib.Lines Polaris.Lib.Text

section Rewrite

abbrev Text := List Char

/-- What `^` and `$` take for the end of a line. -/
def isTerminator (c : Char) : Bool := c = '\n' || c = '\r' || c = '\u2028' || c = '\u2029'

def acceptedKey : Text → Bool
  | [] => false
  | c :: cs => c.isUpper && cs.all fun d => d.isUpper || d.isDigit || d = '_'

/-- The text that a replacement text stands for, of a pattern without groups. -/
def expand (matched before after : Text) : Text → Text
  | '$' :: '$' :: cs => '$' :: expand matched before after cs
  | '$' :: '&' :: cs => matched ++ expand matched before after cs
  | '$' :: '\x60' :: cs => before ++ expand matched before after cs
  | '$' :: '\x27' :: cs => after ++ expand matched before after cs
  | c :: cs => c :: expand matched before after cs
  | [] => []

def keyHead (key : Text) : Text := key ++ ['=']

def setEnvVar (file : Option Text) (key value : Text) : Except String Text :=
  if ! acceptedKey key then .error ("Refusing to write malformed env key: " ++ String.ofList key)
  else if value.any fun c => c = '\r' || c = '\n' then
    .error ("Refusing to write env value containing newline for " ++ String.ofList key)
  else
    let newLine := keyHead key ++ value
    let existing := file.getD []
    match findLine isTerminator (keyHead key) true [] existing with
    | some (before, line, after) => .ok (before ++ expand line before after newLine ++ after)
    | none =>
      if existing = [] || existing.getLast? = some '\n' then .ok (existing ++ newLine ++ ['\n'])
      else .ok (existing ++ ['\n'] ++ newLine ++ ['\n'])

end Rewrite

section Dollars

/-- A dollar sign that does not stand for itself. -/
def specials : Text → Bool
  | '$' :: '$' :: _ => true
  | '$' :: '&' :: _ => true
  | _ :: cs => specials cs
  | [] => false

/-- The line replaced comes back into its replacement. -/
def inserts : Text → Bool
  | '$' :: '$' :: cs => inserts cs
  | '$' :: '&' :: _ => true
  | _ :: cs => inserts cs
  | [] => false

def isQuote (c : Char) : Bool := c = '\x27' || c = '\x22' || c = '\x60'

-- The equations of the three are used by name.
attribute [local simp] specials inserts expand

variable {m m' before before' after after' v x cs : Text} {c : Char}

/-- The first character of a text stands for itself. -/
def Literal (c : Char) (cs : Text) : Prop := c = '$' → ∀ d ∈ cs.head?, d ≠ '$' ∧ d ≠ '&'

theorem dollar_induction {P : Text → Prop} (nil : P []) (pair : ∀ cs, P cs → P ('$' :: '$' :: cs))
    (whole : ∀ cs, P cs → P ('$' :: '&' :: cs)) (literal : ∀ c cs, Literal c cs → P cs → P (c :: cs))
    (v : Text) : P v := by
  induction hn : v.length using Nat.strong_induction_on generalizing v with
  | _ n ih =>
    subst hn
    cases v with
    | nil => exact nil
    | cons c cs =>
      by_cases h : Literal c cs
      · exact literal c cs h (ih cs.length (Nat.lt_succ_self _) cs rfl)
      · unfold Literal at h
        push Not at h
        obtain ⟨rfl, d, hd, hspecial⟩ := h
        obtain ⟨ds, rfl⟩ : ∃ ds, cs = d :: ds := List.head?_eq_some_iff.mp hd
        have hds := ih ds.length (Nat.lt_succ_of_lt (Nat.lt_succ_self _)) ds rfl
        by_cases hdollar : d = '$'
        · rw [hdollar]
          exact pair ds hds
        · rw [hspecial hdollar]
          exact whole ds hds

theorem Literal.next_ne (h : Literal c cs) {d : Char} (hd : d = '$' ∨ d = '&') (ds : Text) (hc : c = '$') :
    cs ≠ d :: ds := by
  rintro rfl
  obtain ⟨hdollar, hwhole⟩ := h hc d rfl
  exact hd.elim hdollar hwhole

theorem specials_literal (h : Literal c cs) : specials (c :: cs) = specials cs :=
  specials.eq_3 c cs (fun ds hc => h.next_ne (Or.inl rfl) ds hc) fun ds hc => h.next_ne (Or.inr rfl) ds hc

theorem inserts_literal (h : Literal c cs) : inserts (c :: cs) = inserts cs :=
  inserts.eq_3 c cs (fun ds hc => h.next_ne (Or.inl rfl) ds hc) fun ds hc => h.next_ne (Or.inr rfl) ds hc

theorem expand_literal (h : Literal c cs) (hq : ∀ d ∈ cs, isQuote d = false) :
    expand m before after (c :: cs) = c :: expand m before after cs := by
  have hquote (d : Char) (hd : isQuote d = true) (ds : Text) : cs ≠ d :: ds := by
    rintro rfl
    exact absurd hd (by rw [hq d List.mem_cons_self]; decide)
  exact expand.eq_5 m before after c cs (fun ds hc => h.next_ne (Or.inl rfl) ds hc)
    (fun ds hc => h.next_ne (Or.inr rfl) ds hc) (fun ds _ => hquote _ (by decide) ds) fun ds _ =>
      hquote _ (by decide) ds

theorem inserts_of_plain (h : specials v = false) : inserts v = false := by
  induction v using dollar_induction with
  | nil => rfl
  | pair cs ih | whole cs ih => cases h
  | literal c cs hc ih =>
    rw [specials_literal hc] at h
    rw [inserts_literal hc, ih h]

theorem expand_plain (h : specials v = false) (hq : ∀ c ∈ v, isQuote c = false) :
    expand m before after v = v := by
  induction v using dollar_induction with
  | nil => rfl
  | pair cs ih | whole cs ih => cases h
  | literal c cs hc ih =>
    have hqs := fun d hd => hq d (List.mem_cons_of_mem c hd)
    rw [specials_literal hc] at h
    rw [expand_literal hc hqs, ih h hqs]

theorem expand_congr (h : inserts v = false) (hq : ∀ c ∈ v, isQuote c = false) :
    expand m before after v = expand m' before' after' v := by
  induction v using dollar_induction with
  | nil => rfl
  | pair cs ih =>
    exact congrArg _ (ih h fun d hd => hq d (List.mem_cons_of_mem _ (List.mem_cons_of_mem _ hd)))
  | whole cs ih => cases h
  | literal c cs hc ih =>
    have hqs := fun d hd => hq d (List.mem_cons_of_mem c hd)
    rw [inserts_literal hc] at h
    rw [expand_literal hc hqs, expand_literal hc hqs, ih h hqs]

theorem length_expand_le (hm : m.length ≤ m'.length) (hq : ∀ c ∈ v, isQuote c = false) :
    (expand m before after v).length ≤ (expand m' before' after' v).length := by
  induction v using dollar_induction with
  | nil => exact Nat.le_refl 0
  | pair cs ih =>
    exact Nat.succ_le_succ (ih fun d hd => hq d (List.mem_cons_of_mem _ (List.mem_cons_of_mem _ hd)))
  | whole cs ih =>
    rw [expand, expand, List.length_append, List.length_append]
    exact Nat.add_le_add hm (ih fun d hd => hq d (List.mem_cons_of_mem _ (List.mem_cons_of_mem _ hd)))
  | literal c cs hc ih =>
    have hqs := fun d hd => hq d (List.mem_cons_of_mem c hd)
    rw [expand_literal hc hqs, expand_literal hc hqs]
    exact Nat.succ_le_succ (ih hqs)

theorem length_expand_lt (h : inserts v = true) (hm : m.length < m'.length)
    (hq : ∀ c ∈ v, isQuote c = false) :
    (expand m before after v).length < (expand m' before' after' v).length := by
  induction v using dollar_induction with
  | nil => cases h
  | pair cs ih =>
    exact Nat.succ_lt_succ (ih h fun d hd => hq d (List.mem_cons_of_mem _ (List.mem_cons_of_mem _ hd)))
  | whole cs ih =>
    rw [expand, expand, List.length_append, List.length_append]
    exact Nat.add_lt_add_of_lt_of_le hm
      (length_expand_le hm.le fun d hd => hq d (List.mem_cons_of_mem _ (List.mem_cons_of_mem _ hd)))
  | literal c cs hc ih =>
    have hqs := fun d hd => hq d (List.mem_cons_of_mem c hd)
    rw [inserts_literal hc] at h
    rw [expand_literal hc hqs, expand_literal hc hqs]
    exact Nat.succ_lt_succ (ih h hqs)

theorem length_le_expand (h : inserts v = true) (hq : ∀ c ∈ v, isQuote c = false) :
    m.length ≤ (expand m before after v).length := by
  induction v using dollar_induction with
  | nil => cases h
  | pair cs ih =>
    exact Nat.le_succ_of_le (ih h fun d hd => hq d (List.mem_cons_of_mem _ (List.mem_cons_of_mem _ hd)))
  | whole cs ih =>
    rw [expand, List.length_append]
    exact Nat.le_add_right _ _
  | literal c cs hc ih =>
    have hqs := fun d hd => hq d (List.mem_cons_of_mem c hd)
    rw [inserts_literal hc] at h
    rw [expand_literal hc hqs]
    exact Nat.le_succ_of_le (ih h hqs)

theorem not_caught_up (hm : ∃ c cs, m = c :: cs ∧ c ≠ '$') (hq : ∀ c ∈ v, isQuote c = false)
    (hne : x ≠ []) (hx : ∀ c ∈ x, c = '$') : ¬ x ++ v <+: expand m before after v := by
  induction v using dollar_induction generalizing x with
  | nil =>
    intro h
    exact hne (List.append_eq_nil_iff.mp (List.prefix_nil.mp h)).1
  | pair cs ih =>
    intro h
    obtain ⟨d, x, rfl⟩ := List.exists_cons_of_ne_nil hne
    obtain rfl : d = '$' := hx d List.mem_cons_self
    have htail : (x ++ ['$', '$']) ++ cs <+: expand m before after cs := by
      rw [List.append_assoc]
      exact (List.cons_prefix_cons.mp h).2
    refine ih (fun d hd => hq d (List.mem_cons_of_mem _ (List.mem_cons_of_mem _ hd)))
      (by simp) (fun d hd => ?_)
      htail
    obtain hd | hd := List.mem_append.mp hd
    · exact hx d (List.mem_cons_of_mem _ hd)
    · simpa using hd
  | whole cs ih =>
    intro h
    obtain ⟨d, x, rfl⟩ := List.exists_cons_of_ne_nil hne
    obtain ⟨c, ms, rfl, hc⟩ := hm
    exact hc ((List.cons_prefix_cons.mp h).1.symm.trans (hx d List.mem_cons_self))
  | literal c cs hc ih =>
    intro h
    have hqs := fun d hd => hq d (List.mem_cons_of_mem c hd)
    rw [expand_literal hc hqs] at h
    obtain ⟨d, x, rfl⟩ := List.exists_cons_of_ne_nil hne
    obtain ⟨hdc, htail⟩ := List.cons_prefix_cons.mp h
    have hdollar : c = '$' := hdc.symm.trans (hx d List.mem_cons_self)
    have hrest : (x ++ [c]) ++ cs <+: expand m before after cs := by
      rw [List.append_assoc]
      exact htail
    refine ih hqs (by simp) (fun d hd => ?_) hrest
    obtain hd | hd := List.mem_append.mp hd
    · exact hx d (List.mem_cons_of_mem _ hd)
    · exact (List.mem_singleton.mp hd).trans hdollar

theorem special_no_start (hm : ∃ c cs, m = c :: cs ∧ c ≠ '$') (hq : ∀ c ∈ v, isQuote c = false)
    (h : specials v = true) : ¬ v <+: expand m before after v := by
  induction v using dollar_induction with
  | nil => cases h
  | pair cs ih =>
    intro hpre
    exact not_caught_up (x := ['$']) hm
      (fun d hd => hq d (List.mem_cons_of_mem _ (List.mem_cons_of_mem _ hd)))
      (by simp) (by simp) (List.cons_prefix_cons.mp hpre).2
  | whole cs ih =>
    intro hpre
    obtain ⟨c, ms, rfl, hc⟩ := hm
    exact hc (List.cons_prefix_cons.mp hpre).1.symm
  | literal c cs hc ih =>
    have hqs := fun d hd => hq d (List.mem_cons_of_mem c hd)
    rw [specials_literal hc] at h
    rw [expand_literal hc hqs]
    exact fun hpre => ih hqs h (List.cons_prefix_cons.mp hpre).2

theorem mem_expand {c : Char} (hq : ∀ d ∈ v, isQuote d = false) (h : c ∈ expand m before after v) :
    c ∈ v ∨ c ∈ m := by
  induction v using dollar_induction with
  | nil => exact absurd h List.not_mem_nil
  | pair cs ih =>
    obtain rfl | h := List.mem_cons.mp h
    · exact Or.inl List.mem_cons_self
    · refine (ih (fun d hd => hq d (List.mem_cons_of_mem _ (List.mem_cons_of_mem _ hd))) h).imp_left
        fun hc => ?_
      exact List.mem_cons_of_mem _ (List.mem_cons_of_mem _ hc)
  | whole cs ih =>
    obtain h | h := List.mem_append.mp h
    · exact Or.inr h
    · refine (ih (fun d hd => hq d (List.mem_cons_of_mem _ (List.mem_cons_of_mem _ hd))) h).imp_left
        fun hc => ?_
      exact List.mem_cons_of_mem _ (List.mem_cons_of_mem _ hc)
  | literal d cs hd ih =>
    have hqs := fun e he => hq e (List.mem_cons_of_mem d he)
    rw [expand_literal hd hqs] at h
    obtain rfl | h := List.mem_cons.mp h
    · exact Or.inl List.mem_cons_self
    · exact (ih hqs h).imp_left (List.mem_cons_of_mem _)

theorem expand_append {u : Text} (h : ∀ c ∈ u, c ≠ '$') (hq : ∀ c ∈ u ++ v, isQuote c = false) :
    expand m before after (u ++ v) = u ++ expand m before after v := by
  induction u with
  | nil => rfl
  | cons c u ih =>
    have hqs := fun d hd => hq d (List.mem_cons_of_mem c hd)
    have hc : Literal c (u ++ v) := fun he => absurd he (h c List.mem_cons_self)
    rw [List.cons_append, expand_literal hc hqs, ih (fun d hd => h d (List.mem_cons_of_mem c hd)) hqs]
    rfl

theorem head_expand (hm : m ≠ []) (hq : ∀ d ∈ v, isQuote d = false) {c : Char}
    (h : c ∈ (expand m before after v).head?) : c ∈ v.head? ∨ c ∈ m.head? := by
  induction v using dollar_induction with
  | nil => cases h
  | pair cs ih => exact Or.inl h
  | whole cs ih =>
    rw [expand, List.head?_append_of_ne_nil _ hm] at h
    exact Or.inr h
  | literal d cs hd ih =>
    rw [expand_literal hd fun e he => hq e (List.mem_cons_of_mem d he)] at h
    exact Or.inl h

theorem expand_eq_iff (hm : ∃ c cs, m = c :: cs ∧ c ≠ '$') (hq : ∀ c ∈ v, isQuote c = false) :
    v <+: expand m before after v ↔ specials v = false := by
  refine ⟨fun hpre => ?_, fun h => ?_⟩
  · by_contra h
    exact special_no_start hm hq (Bool.not_eq_false _ ▸ h) hpre
  · rw [expand_plain h hq]

theorem settled_iff {u : Text} (hu : u ≠ []) (hq : ∀ c ∈ v, isQuote c = false) :
    expand (u ++ expand m before after v) before after v = expand m before after v ↔ inserts v = false := by
  refine ⟨fun heq => ?_, fun h => expand_congr h hq⟩
  by_contra hinserts
  rw [Bool.not_eq_false] at hinserts
  have hlonger : m.length < (u ++ expand m before after v).length := by
    rw [List.length_append]
    have hpos := List.length_pos_iff.mpr hu
    have hle : m.length ≤ (expand m before after v).length := length_le_expand hinserts hq
    omega
  have hgrows : (expand m before after v).length <
    (expand (u ++ expand m before after v) before after v).length :=
    length_expand_lt hinserts hlonger hq
  rw [heq] at hgrows
  exact lt_irrefl _ hgrows

end Dollars

section Reading

/-- What is relied on of the reader, line by line. It takes the text behind
the sign for the value, up to a comment. -/
structure Reader where
  assign : Text → Option (Text × Text)
  blank : assign [] = none
  named : ∀ key e x, acceptedKey key = true → assign (keyHead key ++ e) = some x → x.1 = key
  unquoted : ∀ key e, acceptedKey key = true → (∀ c ∈ e, isTerminator c = false) →
    (∀ c ∈ e.head?, isSpace c = false ∧ isQuote c = false) →
    assign (keyHead key ++ e) = some (key, (e.takeWhile (· ≠ '#')).rdropWhile isSpace)

def read (R : Reader) (text key : Text) : Option Text :=
  ((entries isTerminator R.assign text).filter (·.1 = key)).getLast?.map Prod.snd

/-- A value without line breaks, quotes, comment signs and white space around it. -/
structure Plain (value : Text) : Prop where
  inside : ∀ c ∈ value, isTerminator c = false ∧ isQuote c = false ∧ c ≠ '#'
  first : ∀ c ∈ value.head?, isSpace c = false
  last : ∀ c ∈ value.getLast?, isSpace c = false

/-- One line of the key was rewritten, or one was put behind the text. All
else is as before. -/
inductive Rewritten (key text : Text) : Text → Prop
  | replaced (before line line' after : Text) : text = before ++ line ++ after →
    Starts isTerminator true before →
      Ends isTerminator after → (∀ c ∈ line, isTerminator c = false) → (∀ c ∈ line', isTerminator c = false) →
      keyHead key <+: line → Rewritten key text (before ++ line' ++ after)
  | appended (sep line : Text) : (sep = [] ∨ sep = ['\n']) → Starts isTerminator true (text ++ sep) →
      (∀ c ∈ line, isTerminator c = false) → Rewritten key text (text ++ sep ++ line ++ ['\n'])

structure Lawful (R : Reader) (text key value text' : Text) : Prop where
  reads : read R text' key = some value
  others : ∀ k, k ≠ key → read R text' k = read R text k
  rest : Rewritten key text text'
  again : setEnvVar (some text') key value = .ok text'

/-- Behind the first line of the key no line assigns it, and no dollar sign
of the value is special. A later line that reads as the value will do too. -/
def Safe (R : Reader) (text key value : Text) : Prop :=
  match findLine isTerminator (keyHead key) true [] text with
  | none => specials value = false
  | some (_, _, after) =>
    match read R after key with
    | none => specials value = false
    | some last => last = value ∧ inserts value = false

variable {R : Reader} {before after line key value k e : Text}

theorem read_cut (hbefore : Starts isTerminator true before) (hafter : Ends isTerminator after)
    (hline : ∀ c ∈ line, isTerminator c = false) (k : Text) :
    read R (before ++ line ++ after) k =
      (read R after k).or ((((R.assign line).filter (·.1 = k)).map Prod.snd).or (read R before k)) := by
  have hfilter : (R.assign line).toList.filter (·.1 = k) = ((R.assign line).filter (·.1 = k)).toList := by
    cases R.assign line with
    | none => rfl
    | some x =>
      by_cases hx : x.1 = k
      · simp [Option.filter, hx]
      · simp [hx]
  rw [read, entries_end R.blank hafter, entries_start R.blank hbefore, entries_line hline, List.filter_append,
    List.filter_append, hfilter, List.getLast?_append, List.getLast?_append, Option.map_or, Option.map_or,
      read, read]
  cases (R.assign line).filter (·.1 = k) with
  | none => rfl
  | some x => rfl

theorem filter_named (hkey : acceptedKey key = true) (hk : k ≠ key) (hhead : keyHead key <+: line) :
    (R.assign line).filter (·.1 = k) = none := by
  obtain ⟨e, rfl⟩ := hhead
  cases hx : R.assign (keyHead key ++ e) with
  | none => rfl
  | some x =>
    have hname := R.named key e x hkey hx
    have hne : ¬ x.1 = k := fun he => hk (he.symm.trans hname)
    simp [hne]

theorem accepted_key (hkey : acceptedKey key = true) {c : Char} (hc : c ∈ key) :
    c.isUpper = true ∨ c.isDigit = true ∨ c = '_' := by
  cases key with
  | nil => cases hkey
  | cons d ds =>
    obtain ⟨hd, hds⟩ := Bool.and_eq_true_iff.mp hkey
    obtain rfl | hc := List.mem_cons.mp hc
    · exact Or.inl hd
    · have hall := List.all_eq_true.mp hds c hc
      rw [Bool.or_eq_true, Bool.or_eq_true, decide_eq_true_iff, or_assoc] at hall
      exact hall

theorem accepted_range (hkey : acceptedKey key = true) {c : Char} (hc : c ∈ keyHead key) :
    48 ≤ c.toNat ∧ c.toNat ≤ 95 := by
  obtain hc | hc := List.mem_append.mp hc
  · obtain h | h | rfl := accepted_key hkey hc
    · have hupper : 'A'.val ≤ c.val ∧ c.val ≤ 'Z'.val := of_decide_eq_true h
      have hlo : 65 ≤ c.toNat := UInt32.le_iff_toNat_le.mp hupper.1
      have hhi : c.toNat ≤ 90 := UInt32.le_iff_toNat_le.mp hupper.2
      omega
    · obtain ⟨hlo, hhi⟩ := Char.isDigit_iff_toNat.mp h
      exact ⟨hlo, hhi.trans (by decide)⟩
    · decide
  · rw [List.mem_singleton.mp hc]
    decide

theorem accepted_plain (hkey : acceptedKey key = true) {c : Char} (hc : c ∈ keyHead key) :
    isTerminator c = false ∧ isSpace c = false ∧ isQuote c = false ∧ c ≠ '$' := by
  obtain ⟨hlo, hhi⟩ := accepted_range hkey hc
  rw [← Char.ofNat_toNat c]
  generalize c.toNat = n at hlo hhi
  interval_cases n <;> decide

theorem not_breaks (hvalue : Plain value) : ¬ (value.any fun c => c = '\r' || c = '\n') = true := by
  intro h
  obtain ⟨c, hc, hbreak⟩ := List.any_eq_true.mp h
  have hplain := (hvalue.inside c hc).1
  obtain rfl | rfl : c = '\r' ∨ c = '\n' := by simpa using hbreak
  · exact absurd hplain (by decide)
  · exact absurd hplain (by decide)

theorem takeWhile_plain (hvalue : Plain value) : value.takeWhile (· ≠ '#') = value :=
  List.takeWhile_eq_self_iff.mpr fun c hc => decide_eq_true (hvalue.inside c hc).2.2

theorem rdropWhile_plain (hvalue : Plain value) : value.rdropWhile isSpace = value := by
  refine List.rdropWhile_eq_self_iff.mpr fun hne hspace => ?_
  rw [hvalue.last _ (List.getLast?_eq_some_getLast hne)] at hspace
  cases hspace

theorem keyHead_first (hkey : acceptedKey key = true) (rest : Text) :
    ∃ c cs, keyHead key ++ rest = c :: cs ∧ c ≠ '$' := by
  obtain ⟨c, cs, hc⟩ := List.exists_cons_of_ne_nil (l := keyHead key) (by simp [keyHead])
  exact ⟨c, cs ++ rest, by rw [hc]; rfl, (accepted_plain hkey (hc ▸ List.mem_cons_self)).2.2.2⟩

/-- What a line holds for a value once its replacement text has been
expanded. Nothing is added in front of it. -/
theorem assign_expand (hkey : acceptedKey key = true) (hvalue : Plain value) (hhead : keyHead key <+: line)
    (hline : ∀ c ∈ line, isTerminator c = false) :
    ∃ e, R.assign (keyHead key ++ expand line before after value) = some (key, e) ∧
      (e = value ↔ specials value = false) := by
  have hq : ∀ c ∈ value, isQuote c = false := fun c hc => (hvalue.inside c hc).2.1
  obtain ⟨rest, rfl⟩ := hhead
  refine ⟨_, R.unquoted key _ hkey (fun c hc => ?_) (fun c hc => ?_), fun h => ?_, fun h => ?_⟩
  · exact (mem_expand hq hc).elim (fun h => (hvalue.inside c h).1) (hline c)
  · obtain hc | hc := head_expand (by simp [keyHead]) hq hc
    · exact ⟨hvalue.first c hc, hq c (List.mem_of_mem_head? hc)⟩
    · rw [List.head?_append_of_ne_nil _ (by simp [keyHead])] at hc
      have hplain := accepted_plain hkey (List.mem_of_mem_head? hc)
      exact ⟨hplain.2.1, hplain.2.2.1⟩
  · have hcomment := List.takeWhile_prefix (· ≠ '#') (l := expand (keyHead key ++ rest) before after value)
    have hpre := List.IsPrefix.trans ( List.rdropWhile_prefix isSpace (l := _)) hcomment
    rw [h] at hpre
    exact (expand_eq_iff (keyHead_first hkey rest) hq).mp hpre
  · rw [expand_plain h hq, takeWhile_plain hvalue, rdropWhile_plain hvalue]

end Reading

section Law

variable {R : Reader} {file : Option Text} {before after line text key value k e : Text}

theorem setEnvVar_some (hkey : acceptedKey key = true) (hvalue : Plain value)
    (h : findLine isTerminator (keyHead key) true [] (file.getD []) = some (before, line, after)) :
    setEnvVar file key value = .ok (before ++ (keyHead key ++ expand line before after value) ++ after) := by
  rw [setEnvVar, hkey, if_neg (by decide), if_neg (not_breaks hvalue)]
  simp only [h]
  have hquote : ∀ c ∈ keyHead key ++ value, isQuote c = false := fun c hc =>
    (List.mem_append.mp hc).elim (fun h => (accepted_plain hkey h).2.2.1) fun h => (hvalue.inside c h).2.1
  rw [expand_append (fun c hc => (accepted_plain hkey hc).2.2.2) hquote]

theorem setEnvVar_none (hkey : acceptedKey key = true) (hvalue : Plain value)
    (h : findLine isTerminator (keyHead key) true [] (file.getD []) = none) :
    ∃ sep, (sep = [] ∨ sep = ['\n']) ∧ Starts isTerminator true (file.getD [] ++ sep) ∧
      setEnvVar file key value = .ok (file.getD [] ++ sep ++ (keyHead key ++ value) ++ ['\n']) := by
  rw [setEnvVar, hkey, if_neg (by decide), if_neg (not_breaks hvalue)]
  simp only [h]
  split
  next hend =>
    refine ⟨[], Or.inl rfl, ?_, by rw [List.append_nil]⟩
    rw [List.append_nil]
    obtain hnil | hlast := Bool.or_eq_true_iff.mp hend
    · rw [of_decide_eq_true hnil]
      rfl
    · rw [Starts, of_decide_eq_true hlast]
      rfl
  next =>
    refine ⟨['\n'], Or.inr rfl, ?_, rfl⟩
    rw [Starts, List.getLast?_concat]
    rfl

theorem findLine_rewritten (hkey : acceptedKey key = true) (hbefore : Starts isTerminator true before)
    (hafter : Ends isTerminator after) (hline : ∀ c ∈ line, isTerminator c = false)
    (hhead : keyHead key <+: line)
    (hfirst : ∀ v r, before = v ++ r → r ≠ [] → Starts isTerminator true v → ¬ keyHead key <+: r) :
    findLine isTerminator (keyHead key) true [] (before ++ line ++ after) = some (before, line, after) := by
  rw [List.append_assoc, findLine_of_first (by simp [keyHead]) hbefore
    (hhead.trans (List.prefix_append line after))]
  · rw [takeWhile_line hline hafter, dropWhile_line hline hafter]
    rfl
  · intro v r hvr hr hstart hpre
    have hbreak := starts_mem (hvr ▸ hbefore) hr
    exact hfirst v r hvr hr hstart
      ((prefix_append_iff (fun c hc => (accepted_plain hkey hc).1) hbreak _).mp hpre)

theorem line_not_terminator (hkey : acceptedKey key = true) (he : ∀ c ∈ e, isTerminator c = false) :
    ∀ c ∈ keyHead key ++ e, isTerminator c = false :=
  fun _ hc => (List.mem_append.mp hc).elim (fun h => (accepted_plain hkey h).1) (he _)

theorem again_iff (hkey : acceptedKey key = true) (hvalue : Plain value)
    (hbefore : Starts isTerminator true before)
    (hafter : Ends isTerminator after) (he : ∀ c ∈ e, isTerminator c = false)
    (hfirst : ∀ v r, before = v ++ r → r ≠ [] → Starts isTerminator true v → ¬ keyHead key <+: r) :
    setEnvVar (some (before ++ (keyHead key ++ e) ++ after)) key value =
        .ok (before ++ (keyHead key ++ e) ++ after) ↔
      expand (keyHead key ++ e) before after value = e := by
  have hline := line_not_terminator hkey he
  have hset : setEnvVar (some (before ++ (keyHead key ++ e) ++ after)) key value =
      .ok (before ++ (keyHead key ++ expand (keyHead key ++ e) before after value) ++ after) :=
    setEnvVar_some hkey hvalue
      (findLine_rewritten hkey hbefore hafter hline (List.prefix_append (keyHead key) e) hfirst)
  rw [hset]
  simp

theorem found (hkey : acceptedKey key = true)
    (h : findLine isTerminator (keyHead key) true [] text = some (before, line, after)) :
    text = before ++ line ++ after ∧ Starts isTerminator true before ∧ Ends isTerminator after ∧
      (∀ c ∈ line, isTerminator c = false) ∧ keyHead key <+: line ∧
      ∀ v r, before = v ++ r → r ≠ [] → Starts isTerminator true v → ¬ keyHead key <+: r := by
  obtain ⟨u, w, rfl, hbefore, hhead, hcut, hfirst⟩ := findLine_some h
  obtain ⟨rfl, rfl, rfl⟩ : before = u ∧ line = w.takeWhile (! isTerminator ·) ∧
      after = w.dropWhile (! isTerminator ·) := by simpa using hcut
  refine ⟨by rw [List.append_assoc, List.takeWhile_append_dropWhile], hbefore, ends_dropWhile w,
    fun c hc => ?_, ?_, ?_⟩
  · have hnot := List.mem_takeWhile_imp (p := (! isTerminator ·)) hc
    exact (Bool.not_eq_true' _).mp hnot
  · obtain ⟨rest, rfl⟩ := hhead
    rw [List.takeWhile_append_of_pos fun c hc => by rw [(accepted_plain hkey hc).1]; rfl]
    exact List.prefix_append _ _
  · intro v r hvr hr hstart hpre
    exact hfirst v r hvr hr hstart (hpre.trans (List.prefix_append r w))

theorem lawful_replaced (hkey : acceptedKey key = true) (hvalue : Plain value)
    (hfind : findLine isTerminator (keyHead key) true [] (file.getD []) = some (before, line, after)) :
    ∃ text', setEnvVar file key value = .ok text' ∧
      (Lawful R (file.getD []) key value text' ↔ Safe R (file.getD []) key value) := by
  obtain ⟨htext, hbefore, hafter, hline, hhead, hfirst⟩ := found hkey hfind
  have hq : ∀ c ∈ value, isQuote c = false := fun c hc => (hvalue.inside c hc).2.1
  have hexpand : ∀ c ∈ expand line before after value, isTerminator c = false := fun c hc =>
    (mem_expand hq hc).elim (fun h => (hvalue.inside c h).1) (hline c)
  have hline' := line_not_terminator hkey hexpand
  have hlaw : Lawful R (file.getD []) key value (before ++
    (keyHead key ++ expand line before after value) ++ after) ↔
      read R (before ++ (keyHead key ++ expand line before after value) ++ after) key = some value ∧
        inserts value = false := by
    refine ⟨fun h => ⟨h.reads, ?_⟩, fun h => ⟨h.1, fun k hk => ?_, ?_, ?_⟩⟩
    · exact (settled_iff (by simp [keyHead]) hq).mp
        ((again_iff hkey hvalue hbefore hafter hexpand hfirst).mp h.again)
    · rw [htext, read_cut hbefore hafter hline', read_cut hbefore hafter hline, filter_named hkey hk hhead,
        filter_named hkey hk (List.prefix_append _ _)]
    · exact .replaced before line _ after htext hbefore hafter hline hline' hhead
    · exact (again_iff hkey hvalue hbefore hafter hexpand hfirst).mpr
        ((settled_iff (by simp [keyHead]) hq).mpr h.2)
  obtain ⟨e, hassign, hreads⟩ :
    ∃ e, R.assign (keyHead key ++ expand line before after value) = some (key, e) ∧
      (e = value ↔ specials value = false) := assign_expand hkey hvalue hhead hline
  refine ⟨_, setEnvVar_some hkey hvalue hfind, hlaw.trans ?_⟩
  rw [read_cut hbefore hafter hline', hassign, Safe, hfind]
  dsimp only
  cases read R after key with
  | none => simpa [Option.filter, hreads] using inserts_of_plain
  | some last => simp

theorem unfound {sep : Text} (hkey : acceptedKey key = true) (hsep : sep = [] ∨ sep = ['\n'])
    (h : findLine isTerminator (keyHead key) true [] text = none) :
    ∀ v r, text ++ sep = v ++ r → r ≠ [] → Starts isTerminator true v → ¬ keyHead key <+: r := by
  intro v r hvr hr hstart hpre
  have hnone := findLine_none (by simp [keyHead]) h v
  obtain rfl | rfl := hsep
  · exact hnone r (by rw [← hvr, List.append_nil]) hstart hpre
  · obtain ⟨r, t, rfl⟩ := (List.eq_nil_or_concat r).resolve_left hr
    rw [List.concat_eq_append, ← List.append_assoc] at hvr
    obtain ⟨htext, ht⟩ := List.append_inj' hvr rfl
    rw [List.concat_eq_append, List.prefix_concat_iff] at hpre
    obtain heq | hpre := hpre
    · have hmem : '\n' ∈ keyHead key := by rw [heq, ← ht]; simp
      exact absurd (accepted_plain hkey hmem).1 (by decide)
    · exact hnone r htext hstart hpre

theorem appended_iff {u : Text} (hkey : acceptedKey key = true) (hq : ∀ c ∈ value, isQuote c = false) :
    expand (keyHead key ++ u) before after value = value ↔ specials value = false := by
  refine ⟨fun h => ?_, fun h => expand_plain h hq⟩
  have hpre : value <+: expand (keyHead key ++ u) before after value := by rw [h]
  exact (expand_eq_iff (keyHead_first hkey u) hq).mp hpre

theorem read_break (k : Text) : read R ['\n'] k = none := by
  have hbreak : entries isTerminator R.assign ['\n'] = [] := by
    rw [← List.nil_append ['\n'], entries_break rfl, entries_nil R.blank]
    rfl
  rw [read, hbreak]
  rfl

theorem read_sep {sep : Text} (hsep : sep = [] ∨ sep = ['\n']) : read R (text ++ sep) k = read R text k := by
  obtain rfl | rfl := hsep
  · rw [List.append_nil]
  · rw [read, read, entries_break rfl, entries_nil R.blank, List.append_nil]

theorem assign_plain (hkey : acceptedKey key = true) (hvalue : Plain value) :
    R.assign (keyHead key ++ value) = some (key, value) := by
  rw [R.unquoted key value hkey (fun c hc => (hvalue.inside c hc).1) fun c hc =>
    ⟨hvalue.first c hc, (hvalue.inside c (List.mem_of_mem_head? hc)).2.1⟩, takeWhile_plain hvalue,
    rdropWhile_plain hvalue]

theorem lawful_appended (hkey : acceptedKey key = true) (hvalue : Plain value)
    (hfind : findLine isTerminator (keyHead key) true [] (file.getD []) = none) :
    ∃ text', setEnvVar file key value = .ok text' ∧
      (Lawful R (file.getD []) key value text' ↔ Safe R (file.getD []) key value) := by
  obtain ⟨sep, hsep, hstart, hset⟩ := setEnvVar_none hkey hvalue hfind
  have hplain : ∀ c ∈ value, isTerminator c = false := fun c hc => (hvalue.inside c hc).1
  have hline := line_not_terminator hkey hplain
  have hend : Ends isTerminator ['\n'] := rfl
  have hagain : setEnvVar (some (file.getD [] ++ sep ++ (keyHead key ++ value) ++ ['\n'])) key value =
      .ok (file.getD [] ++ sep ++ (keyHead key ++ value) ++ ['\n']) ↔ specials value = false := by
    rw [again_iff hkey hvalue hstart hend hplain (unfound hkey hsep hfind)]
    exact appended_iff hkey fun c hc => (hvalue.inside c hc).2.1
  have hsafe : Safe R (file.getD []) key value ↔ specials value = false := by rw [Safe, hfind]
  refine ⟨_, hset, fun h => hsafe.mpr (hagain.mp h.again),
    fun h => ⟨?_, fun k hk => ?_, ?_, hagain.mpr (hsafe.mp h)⟩⟩
  · rw [read_cut hstart hend hline, read_break, assign_plain hkey hvalue]
    simp [Option.filter]
  · rw [read_cut hstart hend hline, read_break, filter_named hkey hk (List.prefix_append _ _), read_sep hsep]
    rfl
  · exact .appended sep _ hsep hstart hline

/-- The update is lawful as far as dollar signs stand for themselves and the
first line of the key is its last. -/
theorem lawful_iff (hkey : acceptedKey key = true) (hvalue : Plain value) :
    ∃ text', setEnvVar file key value = .ok text' ∧
      (Lawful R (file.getD []) key value text' ↔ Safe R (file.getD []) key value) := by
  cases hfind : findLine isTerminator (keyHead key) true [] (file.getD []) with
  | none => exact lawful_appended hkey hvalue hfind
  | some x => exact lawful_replaced hkey hvalue hfind

def assignLine (l : Text) : Option (Text × Text) :=
  if acceptedKey (l.takeWhile (· ≠ '=')) && l.any (· = '=') then
    some (l.takeWhile (· ≠ '='), (((l.dropWhile (· ≠ '=')).tail).takeWhile (· ≠ '#')).rdropWhile isSpace)
  else none

theorem assignLine_keyHead (hkey : acceptedKey key = true) (e : Text) :
    assignLine (keyHead key ++ e) = some (key, (e.takeWhile (· ≠ '#')).rdropWhile isSpace) := by
  have hsign : ∀ c ∈ key, decide (c ≠ '=') = true := by
    intro c hc
    rw [decide_eq_true_iff]
    rintro rfl
    exact absurd (accepted_key hkey hc) (by decide)
  have htake : (key ++ '=' :: e).takeWhile (· ≠ '=') = key := by
    rw [List.takeWhile_append_of_pos hsign, List.takeWhile_cons_of_neg (by decide), List.append_nil]
  have hdrop : (key ++ '=' :: e).dropWhile (· ≠ '=') = '=' :: e := by
    rw [List.dropWhile_append_of_pos hsign, List.dropWhile_cons_of_neg (by decide)]
  have hany : (key ++ '=' :: e).any (· = '=') = true := by simp
  rw [keyHead, List.append_assoc, List.singleton_append, assignLine, htake, hdrop, hkey, hany]
  rfl

def lineReader : Reader where
  assign := assignLine
  blank := rfl
  named key e x hkey h := by
    rw [assignLine_keyHead hkey] at h
    rw [← Option.some.inj h]
  unquoted key e hkey _ _ := assignLine_keyHead hkey e

theorem lawful_iff_at : ∃ text', setEnvVar (some ['A', '=', '1', '\n']) ['A'] ['2'] = .ok text' ∧
    (Lawful lineReader ['A', '=', '1', '\n'] ['A'] ['2'] text' ↔
      Safe lineReader ['A', '=', '1', '\n'] ['A'] ['2']) :=
  lawful_iff (by decide) ⟨by simp [isTerminator, isQuote], by simp; decide, by simp; decide⟩

/-- Two dollar signs are written as one, and a later line of the same key keeps its say. -/
theorem dollars_halved :
    (Plain ['p', '$', '$', 'q'] ∧
      setEnvVar (some ['A', '=', '1', '\n']) ['A'] ['p', '$', '$', 'q'] =
        .ok ['A', '=', 'p', '$', 'q', '\n'] ∧
      ¬ Lawful lineReader ['A', '=', '1', '\n'] ['A'] ['p', '$', '$', 'q'] ['A', '=', 'p', '$', 'q', '\n']) ∧
    (Plain ['3'] ∧
      setEnvVar (some ['A', '=', '1', '\n', 'A', '=', '2']) ['A'] ['3'] =
        .ok ['A', '=', '3', '\n', 'A', '=', '2'] ∧
      ¬ Lawful lineReader ['A', '=', '1', '\n', 'A', '=', '2'] ['A'] ['3']
        ['A', '=', '3', '\n', 'A', '=', '2']) := by
  refine ⟨⟨⟨by simp [isTerminator, isQuote], by simp; decide, by simp; decide⟩, by decide, fun h => ?_⟩,
    ⟨⟨by simp [isTerminator, isQuote], by simp; decide, by simp; decide⟩, by decide, fun h => ?_⟩⟩
  · have hread : read lineReader ['A', '=', 'p', '$', 'q', '\n'] ['A'] = some ['p', '$', 'q'] := by decide
    exact absurd (hread.symm.trans h.reads) (by decide)
  · have hread : read lineReader ['A', '=', '3', '\n', 'A', '=', '2'] ['A'] = some ['2'] := by decide
    exact absurd (hread.symm.trans h.reads) (by decide)

end Law

end Polaris.EnvFile
