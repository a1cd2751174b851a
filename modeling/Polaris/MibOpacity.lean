import Polaris.MibService

namespace Polaris.MibOpacity

open Polaris.Lib.Regex Polaris.Lib.Text Polaris.MibParserUtils Polaris.OidRegistry Polaris.MibService

/-- Every character of a module, with where it stands. The quotes of a
string belong to the code around it. -/
def scanFrom : Scan → List Char → List (Scan × Char)
  | _, [] => []
  | .code, '"' :: cs => (.code, '"') :: scanFrom .quoted cs
  | .code, '-' :: '-' :: cs => (.comment, '-') :: (.comment, '-') :: scanFrom .comment cs
  | .code, c :: cs => (.code, c) :: scanFrom .code cs
  | .quoted, '"' :: cs => (.code, '"') :: scanFrom .code cs
  | .quoted, c :: cs => (.quoted, c) :: scanFrom .quoted cs
  | .comment, '\n' :: cs => (.code, '\n') :: scanFrom .code cs
  | .comment, '\r' :: cs => (.code, '\r') :: scanFrom .code cs
  | .comment, '-' :: '-' :: cs => (.comment, '-') :: (.comment, '-') :: scanFrom .code cs
  | .comment, c :: cs => (.comment, c) :: scanFrom .comment cs

def scan (text : List Char) : List (Scan × Char) := scanFrom .code text

def quotes (marks : List (Scan × Char)) : Nat := marks.count (.code, '"')

def outside (marks : List (Scan × Char)) : List (Scan × Char) := marks.filter (·.1 ≠ .quoted)

def Balanced (text : List Char) : Prop := Even (quotes (scan text))

/-- Two modules that differ only inside their quoted strings. -/
def SameOutside (text other : List Char) : Prop :=
  Balanced text ∧ Balanced other ∧ outside (scan text) = outside (scan other)

def shown : Scan × Char → List Char
  | (.comment, c) => blanks c
  | (_, c) => [c]

theorem stripFrom_eq (s : Scan) (text : List Char) :
    stripFrom s text = (scanFrom s text).flatMap shown := by
  have hdash : blanks '-' = [' '] := rfl
  fun_induction scanFrom s text <;> simp_all [stripFrom, shown]

theorem quotes_outside (marks : List (Scan × Char)) : quotes (outside marks) = quotes marks := by
  rw [quotes, outside, List.count_filter (by decide)]
  rfl

theorem scanFrom_chars (s : Scan) (text : List Char) : (scanFrom s text).map (·.2) = text := by
  fun_induction scanFrom s text <;> simp_all

theorem scanFrom_unquoted {s : Scan} {text : List Char} (hs : s ≠ .quoted)
    (hq : quotes (scanFrom s text) = 0) : ∀ m ∈ scanFrom s text, m.1 ≠ .quoted := by
  fun_induction scanFrom s text <;> simp_all [quotes] <;> assumption

theorem outside_scanFrom {s : Scan} {text : List Char} (hs : s ≠ .quoted)
    (hq : quotes (scanFrom s text) = 0) : outside (scanFrom s text) = scanFrom s text :=
  List.filter_eq_self.mpr fun m hm => decide_eq_true (scanFrom_unquoted hs hq m hm)

theorem scanFrom_quoted {w : List Char} (hw : '"' ∉ w) (rest : List Char) :
    scanFrom .quoted (w ++ rest) = w.map (.quoted, ·) ++ scanFrom .quoted rest := by
  induction w with
  | nil => rfl
  | cons c w ih =>
    obtain ⟨hc, hw⟩ := List.ne_and_not_mem_of_not_mem_cons hw
    rw [List.cons_append, scanFrom, ih hw]
    · rfl
    · exact fun h => hc h.symm

theorem outside_quoted (w : List Char) (marks : List (Scan × Char)) :
    outside (w.map (Scan.quoted, ·) ++ marks) = outside marks := by
  simp [outside]

theorem exists_closing {cs : List Char} (h : ¬ Even (quotes (scanFrom .quoted cs))) :
    ∃ w rest, cs = w ++ '"' :: rest ∧ '"' ∉ w := by
  have hq : '"' ∈ cs := by
    by_contra hn
    apply h
    have hs := scanFrom_quoted hn []
    rw [List.append_nil] at hs
    rw [hs, ← quotes_outside, outside_quoted]
    exact ⟨0, rfl⟩
  obtain ⟨w, rest, rfl, hw⟩ := List.eq_append_cons_of_mem hq
  exact ⟨w, rest, rfl, hw⟩

/-- A text whose first quoted string can be filled with anything, and
nothing else changes. -/
def Refillable (s : Scan) (text : List Char) : Prop :=
  ∃ pre post, ∀ w, '"' ∉ w → ∃ other, other.head? = text.head? ∧
    outside (scanFrom s other) = outside (scanFrom s text) ∧
    (scanFrom s other).flatMap shown = pre ++ '"' :: (w ++ '"' :: post)

theorem outside_append (marks marks' : List (Scan × Char)) :
    outside (marks ++ marks') = outside marks ++ outside marks' := List.filter_append ..

theorem Refillable.step {s s' : Scan} {cs : List Char} (read : List Char)
    (marks : List (Scan × Char)) (hread : read ≠ []) (hmarks : quotes marks = 0)
    (hscan : ∀ other, other.head? = cs.head? → scanFrom s (read ++ other) = marks ++ scanFrom s' other)
    (h : quotes (scanFrom s' cs) ≠ 0 → Even (quotes (scanFrom s' cs)) → Refillable s' cs)
    (hq : quotes (marks ++ scanFrom s' cs) ≠ 0) (he : Even (quotes (marks ++ scanFrom s' cs))) :
    Refillable s (read ++ cs) := by
  have hquotes : quotes (marks ++ scanFrom s' cs) = quotes (scanFrom s' cs) := by
    rw [quotes, List.count_append]
    exact (congrArg (· + _) hmarks).trans (Nat.zero_add _)
  rw [hquotes] at hq he
  obtain ⟨pre, post, h⟩ := h hq he
  refine ⟨marks.flatMap shown ++ pre, post, fun w hw => ?_⟩
  obtain ⟨other, hhead, hout, hshown⟩ := h w hw
  refine ⟨read ++ other, ?_, ?_, ?_⟩
  · rw [List.head?_append_of_ne_nil _ hread, List.head?_append_of_ne_nil _ hread]
  · rw [hscan other hhead, hscan cs rfl, outside_append, outside_append, hout]
  · rw [hscan other hhead, List.flatMap_append, hshown, List.append_assoc]

theorem Refillable.here {cs : List Char} (h : ¬ Even (quotes (scanFrom .quoted cs))) :
    Refillable .code ('"' :: cs) := by
  obtain ⟨w₀, rest, rfl, hw₀⟩ := exists_closing h
  have hout : ∀ w, '"' ∉ w → outside (scanFrom .code ('"' :: (w ++ '"' :: rest))) =
      (.code, '"') :: outside (scanFrom .quoted ('"' :: rest)) := by
    intro w hw
    rw [scanFrom, scanFrom_quoted hw, outside, List.filter_cons_of_pos (by decide), ← outside,
      outside_quoted]
  refine ⟨[], (scanFrom .code rest).flatMap shown, fun w hw => ⟨'"' :: (w ++ '"' :: rest), rfl, ?_, ?_⟩⟩
  · rw [hout w hw, hout w₀ hw₀]
  · rw [scanFrom, scanFrom_quoted hw, scanFrom]
    simp [shown, List.flatMap_map]

theorem scanFrom_code_cons {c : Char} {cs : List Char} (h : c ≠ '"')
    (h' : ¬ (c = '-' ∧ cs.head? = some '-')) :
    scanFrom .code (c :: cs) = (.code, c) :: scanFrom .code cs := by
  rw [scanFrom]
  · exact h
  · rintro ds rfl rfl
    exact h' ⟨rfl, rfl⟩

theorem scanFrom_comment_cons {c : Char} {cs : List Char} (h : c ≠ '\n') (hr : c ≠ '\r')
    (h' : ¬ (c = '-' ∧ cs.head? = some '-')) :
    scanFrom .comment (c :: cs) = (.comment, c) :: scanFrom .comment cs := by
  rw [scanFrom]
  · exact h
  · exact hr
  · rintro ds rfl rfl
    exact h' ⟨rfl, rfl⟩

theorem refillable_of_quotes {s : Scan} {text : List Char} (hs : s ≠ .quoted)
    (hq : quotes (scanFrom s text) ≠ 0) (he : Even (quotes (scanFrom s text))) :
    Refillable s text := by
  fun_induction scanFrom s text with
  | case1 => exact absurd rfl hq
  | case2 cs ih =>
    refine Refillable.here ?_
    rw [quotes, List.count_cons_self] at he
    exact fun h => absurd h.add_one (Nat.not_odd_iff_even.mpr he)
  | case3 cs ih =>
    exact Refillable.step ['-', '-'] [(.comment, '-'), (.comment, '-')] (by simp) rfl
      (fun other _ => rfl) (ih (by decide)) hq he
  | case4 c cs h h' ih =>
    have hdash : ¬ (c = '-' ∧ cs.head? = some '-') := by
      rintro ⟨rfl, hd⟩
      obtain ⟨ds, rfl⟩ := List.head?_eq_some_iff.mp hd
      exact h' ds rfl rfl
    refine Refillable.step [c] [(.code, c)] (by simp) ?_ ?_ (ih (by decide)) hq he
    · exact List.count_eq_zero.mpr (by simpa using Ne.symm h)
    · exact fun other ho => scanFrom_code_cons h (ho ▸ hdash)
  | case5 cs ih => exact absurd rfl hs
  | case6 c cs h ih => exact absurd rfl hs
  | case7 cs ih =>
    exact Refillable.step ['\n'] [(.code, '\n')] (by simp) rfl (fun other _ => rfl) (ih (by decide)) hq he
  | case8 cs ih =>
    exact Refillable.step ['\r'] [(.code, '\r')] (by simp) rfl (fun other _ => rfl) (ih (by decide)) hq he
  | case9 cs ih =>
    exact Refillable.step ['-', '-'] [(.comment, '-'), (.comment, '-')] (by simp) rfl
      (fun other _ => rfl) (ih (by decide)) hq he
  | case10 c cs h hr h' ih =>
    have hdash : ¬ (c = '-' ∧ cs.head? = some '-') := by
      rintro ⟨rfl, hd⟩
      obtain ⟨ds, rfl⟩ := List.head?_eq_some_iff.mp hd
      exact h' ds rfl rfl
    refine Refillable.step [c] [(.comment, c)] (by simp) ?_ ?_ (ih (by decide)) hq he
    · simp [quotes]
    · exact fun other ho => scanFrom_comment_cons h hr (ho ▸ hdash)

/-- Free text that ends whatever declaration stands open before it. -/
def closing : List Char := ['\x7b', ':', ':', '=', '\x7b', 'z', '\x7d']

/-- Free text that reads as a declaration of its own. -/
def declaration : List Char := " a OBJECT-TYPE ::= \x7b b 1 \x7d".toList

def heading : Pattern :=
  concat [.boundary, .group (.seq (.chars Char.isLower) (many wordOrHyphen)), some1 isSpace,
    oneOf [lit "OBJECT-TYPE", concat [lit "OBJECT", some1 isSpace, lit "IDENTIFIER"],
      lit "MODULE-IDENTITY", lit "OBJECT-IDENTITY", lit "NOTIFICATION-TYPE", lit "OBJECT-GROUP",
      lit "NOTIFICATION-GROUP", lit "MODULE-COMPLIANCE"],
    .boundary]

/-- What is left of a text that ends in a quote. -/
def UpToQuote (pre : List Char) : Prop := pre = [] ∨ '"' ∈ pre.getLast?

section Search

variable {α : Type} {pre rest : List Char} {prev : Option Char} {n : Nat} {gs : Groups} {a : α}

theorem UpToQuote.suffix {u v : List Char} (h : UpToQuote (u ++ v)) : UpToQuote v := by
  obtain rfl | hv := List.eq_nil_or_concat v
  · exact .inl rfl
  · obtain ⟨d, c, rfl⟩ := hv
    obtain h | h := h
    · simp at h
    · right
      simpa using h

theorem run_assignment (c : Cursor) (k : Cursor → Groups → Option α) :
    run ASSIGNMENT_RE c gs k = run heading c gs fun c gs =>
      run (manyLazy fun _ => true) c gs fun c gs => run assignedTo c gs k := rfl

theorem closing_ends (f : Cursor → Groups → α) :
    ∃ gs', (run (manyLazy fun _ => true) ⟨prev, n, closing ++ rest⟩ gs fun c gs =>
      run assignedTo c gs fun c gs => some (f c gs)) = some (f ⟨some '\x7d', n + 7, rest⟩ gs') := by
  have h := run_shift (.seq (manyLazy fun _ => true) assignedTo) n ⟨prev, 0, closing ++ rest⟩ gs
    fun c gs => some (f c gs)
  exact ⟨_, h⟩

theorem search_declaration : search ASSIGNMENT_RE (some '\x7d') (declaration ++ rest) =
    some ⟨[' '], declaration.tail, ["a".toList, "b 1".toList], some '\x7d', rest⟩ := rfl

theorem assigned_shape {u : List Char} (h : u ∈ lang assignedTo) :
    ∃ v w, u = v ++ '\x7b' :: w ∧ '"' ∉ v ∧ '\x7b' ∉ v ∧ '\x7b' ∉ w := by
  obtain ⟨v₁, h₁, u₁, hu₁, rfl⟩ := Language.mem_mul.mp h
  obtain ⟨v₂, h₂, u₂, hu₂, rfl⟩ := Language.mem_mul.mp hu₁
  obtain ⟨b, ⟨x, hx, rfl⟩, w, hw, rfl⟩ := Language.mem_mul.mp hu₂
  have hopen : v₁ ++ v₂ ∈ lang (.seq (lit "::=") (many isSpace)) := Language.append_mem_mul h₁ h₂
  refine ⟨v₁ ++ v₂, w, ?_, not_mem_of_avoids rfl hopen, not_mem_of_avoids rfl hopen,
    not_mem_of_avoids rfl hw⟩
  rw [beq_iff_eq.mp hx, List.append_assoc]
  rfl

/-- An assignment whose brace stands open at a quote does not end beyond
the next opening brace. -/
theorem assigned_within {f : Cursor → Groups → α} (hpre : UpToQuote pre) (hne : pre ≠ [])
    (h : run assignedTo ⟨prev, n, pre ++ '\x7b' :: rest⟩ gs (fun c gs => some (f c gs)) = some a) :
    ∃ c gs', a = f c gs' ∧ ∃ u pre', u ≠ [] ∧ pre = u ++ pre' ∧ c.rest = pre' ++ '\x7b' :: rest := by
  obtain ⟨c, gs', ⟨u, hu, hc⟩, ha⟩ := run_sound h
  refine ⟨c, gs', (Option.some.inj ha).symm, ?_⟩
  obtain ⟨v, w, rfl, hvq, hv, hw⟩ := assigned_shape hu
  have hquote : '"' ∈ pre := List.mem_of_getLast? (hpre.resolve_left hne)
  obtain ⟨d, hd, hrest⟩ | ⟨d, hd, hrest⟩ := List.append_eq_append_iff.mp hc
  · cases d with
    | nil => exact ⟨pre, [], hne, (List.append_nil pre).symm, hrest.symm⟩
    | cons b d =>
      obtain ⟨rfl, -⟩ := List.cons.inj hrest
      obtain ⟨he, -⟩ := (List.append_cons_inj_of_notMem hv hw).mp hd
      exact absurd (he ▸ hquote) hvq
  · exact ⟨_, d, by simp, hd, hrest⟩

theorem lazy_ends {f : Cursor → Groups → α} (hpre : UpToQuote pre)
    (h : (run (manyLazy fun _ => true) ⟨prev, n, pre ++ (closing ++ rest)⟩ gs fun c gs =>
      run assignedTo c gs fun c gs => some (f c gs)) = some a) :
    ∃ c gs', a = f c gs' ∧
      ((∃ u pre', u ≠ [] ∧ pre = u ++ pre' ∧ c.rest = pre' ++ (closing ++ rest)) ∨
        c.prev = some '\x7d' ∧ c.rest = rest) := by
  induction pre generalizing prev n with
  | nil =>
    obtain ⟨gs', hc⟩ := closing_ends f
    exact ⟨_, gs', Option.some.inj (h.symm.trans hc), .inr ⟨rfl, rfl⟩⟩
  | cons x pre ih =>
    rw [List.cons_append, run_manyLazy_cons, if_pos rfl] at h
    obtain h | ⟨-, h⟩ := Option.or_eq_some_iff.mp h
    · obtain ⟨c, gs', ha, hc⟩ := assigned_within hpre (List.cons_ne_nil x pre) h
      exact ⟨c, gs', ha, .inl hc⟩
    · obtain ⟨c, gs', ha, ⟨u, pre', hu, rfl, hc⟩ | hc⟩ := ih (UpToQuote.suffix (u := [x]) hpre) h
      · exact ⟨c, gs', ha, .inl ⟨x :: u, pre', List.cons_ne_nil x u, rfl, hc⟩⟩
      · exact ⟨c, gs', ha, .inr hc⟩

/-- A declaration that begins before the filled string ends before it or
right after the text that closes it. -/
theorem matchAt_ends {m : Match} (hpre : UpToQuote pre)
    (h : matchAt ASSIGNMENT_RE prev (pre ++ (closing ++ rest)) = some m) :
    (∃ u pre', u ≠ [] ∧ pre = u ++ pre' ∧ m.rest = pre' ++ (closing ++ rest)) ∨
      m.last = some '\x7d' ∧ m.rest = rest := by
  rw [matchAt, run_assignment] at h
  obtain ⟨c, gs, ⟨v, hv, hc⟩, h⟩ := run_sound h
  obtain ⟨p, hp, hrest⟩ : ∃ p, pre = v ++ p ∧ c.rest = p ++ (closing ++ rest) := by
    obtain ⟨d, hd, hrest⟩ | ⟨d, hd, hrest⟩ := List.append_eq_append_iff.mp hc
    · cases d with
      | nil =>
        rw [List.append_nil] at hd
        exact ⟨[], by rw [hd, List.append_nil], hrest.symm⟩
      | cons b d =>
        obtain ⟨rfl, -⟩ := List.cons.inj hrest
        have hbrace : '\x7b' ∉ v := not_mem_of_avoids (r := heading) rfl hv
        simp [hd] at hbrace
    · exact ⟨d, hd, hrest⟩
  subst hp
  obtain ⟨prev', n, _⟩ := c
  cases hrest
  obtain ⟨c, gs', rfl, ⟨u, pre', hu, rfl, hr⟩ | hr⟩ := lazy_ends hpre.suffix h
  · exact .inl ⟨v ++ u, pre', by simp [hu], by rw [List.append_assoc], hr⟩
  · exact .inr hr

/-- The number of assignments a search finds from a place on. -/
def found (fuel : Nat) (prev : Option Char) (text : List Char) : Nat :=
  ((matchesFrom ASSIGNMENT_RE fuel prev text).filterMap assignmentOf).length

def declarations (count : Nat) : List Char := (List.replicate count declaration).flatten

theorem found_declarations {count fuel : Nat} (h : count ≤ fuel) :
    count ≤ found fuel (some '\x7d') (declarations count ++ rest) := by
  induction count generalizing fuel with
  | zero => exact Nat.zero_le _
  | succ count ih =>
    obtain ⟨fuel, rfl⟩ : ∃ f, fuel = f + 1 := ⟨fuel - 1, by omega⟩
    have hs : search ASSIGNMENT_RE (some '\x7d') (declarations (count + 1) ++ rest) = _ :=
      (congrArg _ (List.append_assoc declaration (declarations count) rest)).trans search_declaration
    have := ih (show count ≤ fuel by omega)
    rw [found, matchesFrom, hs]
    exact Nat.succ_le_succ this

theorem found_closing (fuel : Nat) :
    found fuel prev (closing ++ rest) = found fuel (some '\x7d') rest := by
  have hopen : matchAt ASSIGNMENT_RE prev (closing ++ rest) = none := ite_self none
  have hskip : matchesFrom ASSIGNMENT_RE fuel prev (closing ++ rest) =
      matchesFrom ASSIGNMENT_RE fuel (some '\x7d') rest :=
    calc _ = matchesFrom ASSIGNMENT_RE fuel (some '\x7b') (closing.drop 1 ++ rest) :=
          matchesFrom_skip hopen fuel
      _ = matchesFrom ASSIGNMENT_RE fuel (some ':') (closing.drop 2 ++ rest) :=
          matchesFrom_skip rfl fuel
      _ = matchesFrom ASSIGNMENT_RE fuel (some ':') (closing.drop 3 ++ rest) :=
          matchesFrom_skip rfl fuel
      _ = matchesFrom ASSIGNMENT_RE fuel (some '=') (closing.drop 4 ++ rest) :=
          matchesFrom_skip rfl fuel
      _ = matchesFrom ASSIGNMENT_RE fuel (some '\x7b') (closing.drop 5 ++ rest) :=
          matchesFrom_skip rfl fuel
      _ = matchesFrom ASSIGNMENT_RE fuel (some 'z') (closing.drop 6 ++ rest) :=
          matchesFrom_skip rfl fuel
      _ = matchesFrom ASSIGNMENT_RE fuel (some '\x7d') rest := matchesFrom_skip rfl fuel
  rw [found, found, hskip]

theorem found_take {m : Match} {text : List Char} (h : matchAt ASSIGNMENT_RE prev text = some m)
    (fuel : Nat) : found fuel m.last m.rest ≤ found (fuel + 1) prev text := by
  rw [found, found, matchesFrom_take h, List.filterMap_cons]
  split
  · exact le_refl _
  · exact Nat.le_succ _

/-- However the text before it reads, a string filled so declares as many
objects as it likes. -/
theorem found_filled {count fuel : Nat} (hpre : UpToQuote pre) (h : pre.length + count ≤ fuel) :
    count ≤ found fuel prev (pre ++ (closing ++ (declarations count ++ rest))) := by
  induction hl : pre.length using Nat.strong_induction_on generalizing pre prev fuel with
  | _ l ih =>
    cases pre with
    | nil =>
      rw [List.nil_append, found_closing]
      exact found_declarations (by simpa using h)
    | cons x pre =>
      cases hm : matchAt ASSIGNMENT_RE prev (x :: pre ++ (closing ++ (declarations count ++ rest))) with
      | none =>
        have hshort : count ≤ found fuel (some x) (pre ++ (closing ++ (declarations count ++ rest))) :=
          ih pre.length (by simp [← hl]) (UpToQuote.suffix (u := [x]) hpre) (by simp at h; omega) rfl
        rw [List.cons_append] at hm ⊢
        rwa [found, matchesFrom_skip hm]
      | some m =>
        obtain ⟨fuel, rfl⟩ : ∃ f, fuel = f + 1 := ⟨fuel - 1, by simp at h; omega⟩
        refine le_trans ?_ (found_take hm fuel)
        obtain ⟨u, pre', hu, hpre', hr⟩ | ⟨hlast, hr⟩ := matchAt_ends hpre hm
        · have hu := List.length_pos_iff.mpr hu
          have hlen : (x :: pre).length = u.length + pre'.length := by rw [hpre', List.length_append]
          rw [hr]
          exact ih pre'.length (by omega) (UpToQuote.suffix (hpre' ▸ hpre)) (by omega) rfl
        · rw [hr, hlast]
          exact found_declarations (by simp at h; omega)

end Search

def withoutDescription (s : MibSymbol) : MibSymbol := { s with description := none }

def structureOf (p : ParsedMibStructured) : ParsedMibStructured :=
  { p with
    symbols := p.symbols.map withoutDescription
    tables := p.tables.map fun t => { t with description := none } }

/-- No other text in the quoted strings of a module reads as other
objects. -/
def StringsOpaque (localeCompare : String → String → Int) (text : List Char) : Prop :=
  ∀ other, SameOutside text other →
    (parseMibStructured localeCompare text).map structureOf =
      (parseMibStructured localeCompare other).map structureOf ∧
    parseObjectAssignments text = parseObjectAssignments other

theorem declarations_quoteless (count : Nat) : '"' ∉ closing ++ declarations count := by
  rw [List.mem_append, declarations, List.mem_flatten]
  rintro (h | ⟨d, hd, h⟩)
  · exact absurd h (by decide)
  · rw [List.eq_of_mem_replicate hd] at h
    exact absurd h (by decide)

theorem le_length_declarations (count : Nat) : count ≤ (declarations count).length := by
  rw [declarations, List.length_flatten, List.map_replicate, List.sum_replicate_nat]
  exact Nat.le_mul_of_pos_right count (by decide)

/-- The strings of a module are opaque to the parsers exactly when it has
none. -/
theorem strings_opaque_iff (localeCompare : String → String → Int) (text : List Char)
    (hb : Balanced text) : StringsOpaque localeCompare text ↔ quotes (scan text) = 0 := by
  constructor
  · intro h
    by_contra hq
    obtain ⟨pre, post, hfill⟩ := refillable_of_quotes (by decide) hq hb
    let count := (parseObjectAssignments text).length + 1
    obtain ⟨other, -, hout, hshown⟩ := hfill _ (declarations_quoteless count)
    have hsame : SameOutside text other := by
      refine ⟨hb, ?_, hout.symm⟩
      rw [Balanced, ← quotes_outside, scan, hout, quotes_outside]
      exact hb
    have hstrip : stripComments other =
        (pre ++ ['"']) ++ (closing ++ (declarations count ++ '"' :: post)) := by
      rw [stripComments, stripFrom_eq, hshown]
      simp
    have hfound : count ≤ (parseObjectAssignments other).length := by
      rw [parseObjectAssignments, matchAll, hstrip]
      have := le_length_declarations count
      exact found_filled (.inr (by simp)) (by simp only [List.length_append]; omega)
    rw [← (h other hsame).2] at hfound
    exact Nat.not_succ_le_self _ hfound
  · rintro hq other ⟨-, -, hout⟩
    have hq' : quotes (scan other) = 0 := by rw [← quotes_outside, ← hout, quotes_outside, hq]
    have hscan : scan text = scan other := by
      rw [scan, scan, ← outside_scanFrom (by decide) hq, ← outside_scanFrom (by decide) hq']
      exact hout
    have htext : text = other := by
      rw [← scanFrom_chars .code text, ← scanFrom_chars .code other]
      exact congrArg _ hscan
    rw [htext]
    exact ⟨rfl, rfl⟩

def described (description : String) : List Char :=
  ("M DEFINITIONS ::= BEGIN x OBJECT-TYPE DESCRIPTION \"" ++ description ++
    "\" ::= \x7b iso 1 \x7d END").toList

theorem strings_opaque_described : Balanced (described "one") ∧
    ¬ StringsOpaque (fun _ _ => 0) (described "one") := by
  have hb : Balanced (described "one") := by
    unfold Balanced
    decide +kernel
  refine ⟨hb, fun h => absurd ((strings_opaque_iff _ _ hb).mp h) ?_⟩
  decide +kernel

/-- A description that reads as an assignment takes the place of the
object's own. -/
theorem description_renumbers :
    SameOutside (described "one") (described "::= \x7b iso 2 \x7d") ∧
    parseObjectAssignments (described "one") = [⟨"x", ["iso", "1"]⟩] ∧
    parseObjectAssignments (described "::= \x7b iso 2 \x7d") = [⟨"x", ["iso", "2"]⟩] ∧
    (parseMibStructured (fun _ _ => 0) (described "one")).map structureOf ≠
      (parseMibStructured (fun _ _ => 0) (described "::= \x7b iso 2 \x7d")).map structureOf := by
  refine ⟨?_, ?_, ?_, ?_⟩
  · unfold SameOutside Balanced
    decide +kernel
  · decide +kernel
  · decide +kernel
  · decide +kernel

end Polaris.MibOpacity
