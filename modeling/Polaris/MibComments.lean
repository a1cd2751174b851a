import Mathlib.Data.List.Chain
import Polaris.DnsWire
import Polaris.MibParserUtils

namespace Polaris.MibComments

open Polaris.DnsWire (units)
open Polaris.MibParserUtils

section Units

@[match_pattern] abbrev QUOTE : Nat := 0x22
@[match_pattern] abbrev HYPHEN : Nat := 0x2d
@[match_pattern] abbrev LF : Nat := 0x0a
@[match_pattern] abbrev CR : Nat := 0x0d
@[match_pattern] abbrev TAB : Nat := 0x09
@[match_pattern] abbrev SPACE : Nat := 0x20

/-- The text as the language has it, in code units. A unit need not belong to
a character. -/
def stripUnits : Scan → List Nat → List Nat
  | _, [] => []
  | .code, QUOTE :: us => QUOTE :: stripUnits .quoted us
  | .code, HYPHEN :: HYPHEN :: us => SPACE :: SPACE :: stripUnits .comment us
  | .code, u :: us => u :: stripUnits .code us
  | .quoted, QUOTE :: us => QUOTE :: stripUnits .code us
  | .quoted, u :: us => u :: stripUnits .quoted us
  | .comment, LF :: us => LF :: stripUnits .code us
  | .comment, CR :: us => CR :: stripUnits .code us
  | .comment, HYPHEN :: HYPHEN :: us => SPACE :: SPACE :: stripUnits .code us
  | .comment, u :: us => (if u = TAB then TAB else SPACE) :: stripUnits .comment us

/-- Where each unit stands. The quotes of a string belong to the code around
it, and so does the end of a line. -/
def markUnits : Scan → List Nat → List (Scan × Nat)
  | _, [] => []
  | .code, QUOTE :: us => (.code, QUOTE) :: markUnits .quoted us
  | .code, HYPHEN :: HYPHEN :: us => (.comment, HYPHEN) :: (.comment, HYPHEN) :: markUnits .comment us
  | .code, u :: us => (.code, u) :: markUnits .code us
  | .quoted, QUOTE :: us => (.code, QUOTE) :: markUnits .code us
  | .quoted, u :: us => (.quoted, u) :: markUnits .quoted us
  | .comment, LF :: us => (.code, LF) :: markUnits .code us
  | .comment, CR :: us => (.code, CR) :: markUnits .code us
  | .comment, HYPHEN :: HYPHEN :: us => (.comment, HYPHEN) :: (.comment, HYPHEN) :: markUnits .code us
  | .comment, u :: us => (.comment, u) :: markUnits .comment us

def stripComments (text : List Nat) : List Nat := stripUnits .code text

def mark (text : List Nat) : List (Scan × Nat) := markUnits .code text

def shownUnit : Scan × Nat → Nat
  | (.comment, u) => if u = TAB then TAB else SPACE
  | (_, u) => u

/-- What becomes of a unit's place once the comments are gone. -/
def cleared (m : Scan × Nat) : Scan × Nat := (if m.1 = .comment then .code else m.1, shownUnit m)

end Units

section Marks

variable {s : Scan} {text us : List Nat} {u : Nat}

attribute [local simp] stripUnits markUnits

theorem stripUnits_eq (s : Scan) (text : List Nat) :
    stripUnits s text = (markUnits s text).map shownUnit := by
  fun_induction markUnits s text <;> simp_all [shownUnit]

theorem markUnits_snd (s : Scan) (text : List Nat) : (markUnits s text).map (·.2) = text := by
  fun_induction markUnits s text <;> simp_all

theorem markUnits_comment (s : Scan) (text : List Nat) :
    ∀ m ∈ markUnits s text, m.1 = .comment → m.2 ≠ LF ∧ m.2 ≠ CR := by
  fun_induction markUnits s text <;> simp_all <;> assumption

theorem head_markUnits (s : Scan) (text : List Nat) : ((markUnits s text).head?).map (·.2) = text.head? := by
  rw [← List.head?_map, markUnits_snd]

/-- A hyphen of the code is never followed by another one. -/
theorem markUnits_hyphen (s : Scan) (text : List Nat) :
    (markUnits s text).IsChain fun m n => m = (.code, HYPHEN) → n.2 ≠ HYPHEN := by
  fun_induction markUnits s text with
  | case4 u us hq hnext ih =>
    refine ih.cons fun n hn hu hyphen => ?_
    have hhead : us.head? = some n.2 := by
      rw [← head_markUnits .code us, hn]
      rfl
    obtain ⟨vs, rfl⟩ := List.head?_eq_some_iff.mp hhead
    cases hu
    exact hnext vs rfl (by rw [hyphen])
  | _ => simp_all [List.isChain_cons]

theorem markUnits_code_cons (hq : u ≠ QUOTE) (h : ¬ (u = HYPHEN ∧ us.head? = some HYPHEN)) :
    markUnits .code (u :: us) = (.code, u) :: markUnits .code us := by
  rw [markUnits]
  · exact hq
  · rintro vs rfl rfl
    exact h ⟨rfl, rfl⟩

theorem shownUnit_comment (u : Nat) : shownUnit (.comment, u) ≠ QUOTE ∧ shownUnit (.comment, u) ≠ HYPHEN := by
  rw [shownUnit]
  split <;> decide

theorem head_stripUnits (h : (stripUnits .code us).head? = some HYPHEN) : us.head? = some HYPHEN := by
  have hhead := head_markUnits .code us
  rw [stripUnits_eq, List.head?_map] at h
  cases hm : (markUnits .code us).head? with
  | none => rw [hm] at h; cases h
  | some m =>
    rw [hm] at h hhead
    obtain ⟨place, u⟩ := m
    rw [← hhead]
    cases place with
    | comment => exact absurd (Option.some.inj h) (shownUnit_comment u).2
    | code => exact h
    | quoted => exact h

/-- What is left of a text reads as the same strings, with no comment. -/
theorem markUnits_strip (s : Scan) (text : List Nat) :
    markUnits (if s = .comment then .code else s) (stripUnits s text) = (markUnits s text).map cleared := by
  have hblank (u : Nat) (us : List Nat) : markUnits .code (shownUnit (.comment, u) :: us) =
      cleared (.comment, u) :: markUnits .code us :=
    markUnits_code_cons (shownUnit_comment u).1 fun h => (shownUnit_comment u).2 h.1
  fun_induction markUnits s text with
  | case1 s => simp [stripUnits, markUnits]
  | case2 us ih => rw [stripUnits, List.map_cons, ← ih]; rfl
  | case3 us ih =>
    rw [stripUnits, List.map_cons, List.map_cons, ← ih]
    exact (hblank 0 _).trans (congrArg _ (hblank 0 _))
  | case4 u us hq hnext ih =>
    rw [stripUnits, List.map_cons, ← ih]
    · refine markUnits_code_cons hq fun h => ?_
      obtain ⟨vs, rfl⟩ := List.head?_eq_some_iff.mp (head_stripUnits h.2)
      exact hnext vs h.1 rfl
    · exact hq
    · exact hnext
  | case5 us ih => rw [stripUnits, List.map_cons, ← ih]; rfl
  | case6 u us hq ih =>
    rw [stripUnits, List.map_cons, ← ih]
    · change markUnits .quoted (u :: stripUnits .quoted us) = (.quoted, u) ::
        markUnits .quoted (stripUnits .quoted us)
      rw [markUnits]
      exact hq
    · exact hq
  | case7 us ih => rw [stripUnits, List.map_cons, ← ih]; rfl
  | case8 us ih => rw [stripUnits, List.map_cons, ← ih]; rfl
  | case9 us ih =>
    rw [stripUnits, List.map_cons, List.map_cons, ← ih]
    exact (hblank 0 _).trans (congrArg _ (hblank 0 _))
  | case10 u us hlf hcr hnext ih =>
    rw [stripUnits, List.map_cons, ← ih]
    · exact hblank u _
    · exact hlf
    · exact hcr
    · exact hnext

end Marks

section Texts

variable {c d : Char} {rest : List Nat}

theorem eq_of_mem_units (hd : d.toNat < 0xd800) (h : d.toNat ∈ units c) : c = d := by
  rw [units] at h
  split at h
  · exact Char.toNat_inj.mp (List.mem_singleton.mp h).symm
  · simp only [List.mem_cons, List.not_mem_nil, or_false] at h
    omega

theorem head_units {cs : List Char} (hd : d.toNat < 0xd800) (h : (cs.flatMap units).head? = some d.toNat) :
    cs.head? = some d := by
  cases cs with
  | nil => cases h
  | cons c cs =>
    have hne : units c ≠ [] := by rw [units]; split <;> exact List.cons_ne_nil _ _
    rw [List.flatMap_cons, List.head?_append_of_ne_nil _ hne] at h
    rw [List.head?_cons, eq_of_mem_units hd (List.mem_of_mem_head? h)]

theorem units_cases (c : Char) : (c.toNat < 65536 ∧ units c = [c.toNat]) ∨
    (¬ c.toNat < 65536 ∧ ∃ u v, units c = [u, v] ∧ ∀ k < 0xd800, u ≠ k ∧ v ≠ k) := by
  by_cases h : c.toNat < 65536
  · exact .inl ⟨h, if_pos h⟩
  · exact .inr ⟨h, _, _, if_neg h, fun k hk => ⟨by omega, by omega⟩⟩

theorem stripUnits_code (hq : u ≠ QUOTE) (h : ¬ (u = HYPHEN ∧ rest.head? = some HYPHEN)) :
    stripUnits .code (u :: rest) = u :: stripUnits .code rest := by
  rw [stripUnits]
  · exact hq
  · rintro vs rfl rfl
    exact h ⟨rfl, rfl⟩

theorem stripUnits_quoted (hq : u ≠ QUOTE) :
    stripUnits .quoted (u :: rest) = u :: stripUnits .quoted rest := by
  rw [stripUnits]
  exact hq

theorem stripUnits_comment (hlf : u ≠ LF) (hcr : u ≠ CR) (h : ¬ (u = HYPHEN ∧ rest.head? = some HYPHEN)) :
    stripUnits .comment (u :: rest) = (if u = TAB then TAB else SPACE) :: stripUnits .comment rest := by
  rw [stripUnits]
  · exact hlf
  · exact hcr
  · rintro vs rfl rfl
    exact h ⟨rfl, rfl⟩

theorem strip_code_units (hq : c ≠ '\x22') (h : ¬ (c = '-' ∧ rest.head? = some HYPHEN)) :
    stripUnits .code (units c ++ rest) = units c ++ stripUnits .code rest := by
  obtain ⟨-, hu⟩ | ⟨-, u, v, hu, hne⟩ := units_cases c
  · rw [hu]
    exact stripUnits_code (fun he => hq (Char.toNat_inj.mp he)) fun hh => h ⟨Char.toNat_inj.mp hh.1, hh.2⟩
  · have hquote := hne QUOTE (by decide)
    have hhyphen := hne HYPHEN (by decide)
    rw [hu]
    exact (stripUnits_code hquote.1 fun hh => hhyphen.1 hh.1).trans
      (congrArg _ (stripUnits_code hquote.2 fun hh => hhyphen.2 hh.1))

theorem strip_quoted_units (hq : c ≠ '\x22') :
    stripUnits .quoted (units c ++ rest) = units c ++ stripUnits .quoted rest := by
  obtain ⟨-, hu⟩ | ⟨-, u, v, hu, hne⟩ := units_cases c
  · rw [hu]
    exact stripUnits_quoted fun he => hq (Char.toNat_inj.mp he)
  · have hquote := hne QUOTE (by decide)
    rw [hu]
    exact (stripUnits_quoted hquote.1).trans (congrArg _ (stripUnits_quoted hquote.2))

theorem strip_comment_units (hlf : c ≠ '\n') (hcr : c ≠ '\r') (h : ¬ (c = '-' ∧ rest.head? = some HYPHEN)) :
    stripUnits .comment (units c ++ rest) = (blanks c).flatMap units ++ stripUnits .comment rest := by
  obtain ⟨hc, hu⟩ | ⟨hc, u, v, hu, hne⟩ := units_cases c
  · have hstrip := stripUnits_comment (fun he => hlf (Char.toNat_inj.mp he))
      (fun he => hcr (Char.toNat_inj.mp he))
      fun hh => h ⟨Char.toNat_inj.mp hh.1, hh.2⟩
    rw [hu]
    refine hstrip.trans ?_
    have htab : c.toNat = TAB ↔ c = '\t' := ⟨fun he => Char.toNat_inj.mp he, fun he => he ▸ rfl⟩
    by_cases ht : c = '\t'
    · rw [if_pos (htab.mpr ht), blanks, if_pos ht]
      rfl
    · rw [if_neg (ht ∘ htab.mp), blanks, if_neg ht, if_pos hc]
      rfl
  · have ht : c ≠ '\t' := fun he => hc (he ▸ by decide)
    have hnlf := hne LF (by decide)
    have hncr := hne CR (by decide)
    have hhyphen := hne HYPHEN (by decide)
    have htab := hne TAB (by decide)
    rw [hu, blanks, if_neg ht, if_neg hc]
    refine (stripUnits_comment hnlf.1 hncr.1 fun hh => hhyphen.1 hh.1).trans ?_
    rw [if_neg htab.1]
    refine congrArg _ ((stripUnits_comment hnlf.2 hncr.2 fun hh => hhyphen.2 hh.1).trans ?_)
    rw [if_neg htab.2]
    rfl

/-- The scan of the characters is the scan of their units. -/
theorem stripUnits_text (s : Scan) (text : List Char) :
    (stripFrom s text).flatMap units = stripUnits s (text.flatMap units) := by
  have hhead {c : Char} {cs : List Char} (hnext : ∀ ds, c = '-' → cs = '-' :: ds → False) :
      ¬ (c = '-' ∧ (cs.flatMap units).head? = some HYPHEN) := by
    rintro ⟨hc, hh⟩
    obtain ⟨ds, hds⟩ := List.head?_eq_some_iff.mp (head_units (d := '-') (by decide) hh)
    exact hnext ds hc hds
  fun_induction stripFrom s text with
  | case1 s => rw [List.flatMap_nil, stripUnits]
  | case2 cs ih => exact congrArg (QUOTE :: ·) ih
  | case3 cs ih => exact congrArg (SPACE :: SPACE :: ·) ih
  | case4 c cs hq hnext ih => rw [List.flatMap_cons, List.flatMap_cons, ih, strip_code_units hq (hhead hnext)]
  | case5 cs ih => exact congrArg (QUOTE :: ·) ih
  | case6 c cs hq ih => rw [List.flatMap_cons, List.flatMap_cons, ih, strip_quoted_units hq]
  | case7 cs ih => exact congrArg (LF :: ·) ih
  | case8 cs ih => exact congrArg (CR :: ·) ih
  | case9 cs ih => exact congrArg (SPACE :: SPACE :: ·) ih
  | case10 c cs hlf hcr hnext ih =>
    rw [List.flatMap_append, List.flatMap_cons, ih, strip_comment_units hlf hcr (hhead hnext)]

theorem stripComments_text (text : List Char) :
    (MibParserUtils.stripComments text).flatMap units = stripComments (text.flatMap units) :=
  stripUnits_text .code text

theorem shownUnit_cleared (m : Scan × Nat) : shownUnit (cleared m) = shownUnit m := by
  obtain ⟨place, u⟩ := m
  cases place <;> rfl

theorem cleared_place (m : Scan × Nat) : ((cleared m).1 = .quoted ↔ m.1 = .quoted) ∧
    (cleared m).1 ≠ .comment := by
  obtain ⟨place, u⟩ := m
  cases place <;> simp [cleared]

theorem mark_strip (text : List Nat) : mark (stripComments text) = (mark text).map cleared :=
  markUnits_strip .code text

theorem getElem_strip (text : List Nat) (i : Nat) :
    (stripComments text)[i]? = (mark text)[i]?.map shownUnit := by
  rw [stripComments, stripUnits_eq, List.getElem?_map, mark]

theorem getElem_mark (text : List Nat) (i : Nat) : text[i]? = (mark text)[i]?.map (·.2) := by
  rw [← List.getElem?_map, mark, markUnits_snd]

theorem strip_lines (text : List Nat) (i : Nat) {u : Nat} (hu : u ∈ [LF, CR]) :
    (stripComments text)[i]? = some u ↔ text[i]? = some u := by
  rw [getElem_strip, getElem_mark text]
  cases hm : (mark text)[i]? with
  | none => exact Iff.rfl
  | some m =>
    obtain ⟨place, v⟩ := m
    cases place with
    | code => exact Iff.rfl
    | quoted => exact Iff.rfl
    | comment =>
      have hv := markUnits_comment .code text _ (List.mem_of_getElem? hm) rfl
      have hshown : shownUnit (.comment, v) ∉ [LF, CR] := by
        rw [shownUnit]
        split <;> decide
      have hplain : v ∉ [LF, CR] := by simpa using hv
      refine ⟨fun h => ?_, fun h => ?_⟩
      · exact absurd (Option.some.inj h ▸ hu) hshown
      · have heq : v = u := Option.some.inj h
        exact absurd (heq ▸ hu) hplain

theorem strip_hyphen (text : List Nat) (i : Nat) {place : Scan}
    (h : (mark (stripComments text))[i]? = some (place, HYPHEN)) (hplace : place ≠ .quoted) :
    (stripComments text)[i + 1]? ≠ some HYPHEN := by
  have hcode : place = .code := by
    obtain ⟨m, -, hm⟩ := List.mem_map.mp (mark_strip text ▸ List.mem_of_getElem? h)
    have hne := (cleared_place m).2
    rw [hm] at hne
    cases place with
    | code => rfl
    | quoted => exact absurd rfl hplace
    | comment => exact absurd rfl hne
  rw [getElem_mark (stripComments text)]
  intro hnext
  obtain ⟨n, hn, hhyphen⟩ := Option.map_eq_some_iff.mp hnext
  obtain ⟨hi, hget⟩ := List.getElem?_eq_some_iff.mp h
  obtain ⟨hj, hgetn⟩ := List.getElem?_eq_some_iff.mp hn
  have hchain := List.isChain_iff_getElem.mp (markUnits_hyphen .code (stripComments text)) i hj
  exact hchain (hget.trans (hcode ▸ rfl)) (hgetn ▸ hhyphen)

/-- Comments become blanks in place, and nothing else changes. -/
theorem strip_preserves (text : List Nat) :
    (mark text).map (·.2) = text ∧ (stripComments text).length = text.length ∧
      (∀ i : Nat, ∀ u ∈ [LF, CR], (stripComments text)[i]? = some u ↔ text[i]? = some u) ∧
      (∀ (i : Nat) place u, (mark text)[i]? = some (place, u) → place ≠ .comment →
        (stripComments text)[i]? = some u) ∧
      (mark (stripComments text)).map (fun m => decide (m.1 = .quoted)) =
        (mark text).map (fun m => decide (m.1 = .quoted)) ∧
      (∀ (i : Nat) place, (mark (stripComments text))[i]? = some (place, HYPHEN) → place ≠ .quoted →
        (stripComments text)[i + 1]? ≠ some HYPHEN) ∧
      stripComments (stripComments text) = stripComments text := by
  refine ⟨markUnits_snd .code text, ?_, fun i u hu => strip_lines text i hu, ?_, ?_,
    fun i place h hplace => strip_hyphen text i h hplace, ?_⟩
  · have hlength := congrArg List.length (markUnits_snd .code text)
    rwa [List.length_map, ← List.length_map shownUnit, ← stripUnits_eq] at hlength
  · intro i place u h hplace
    rw [getElem_strip, h]
    cases place with
    | comment => exact absurd rfl hplace
    | code => rfl
    | quoted => rfl
  · rw [mark_strip, List.map_map]
    exact List.map_congr_left fun m _ => decide_eq_decide.mpr (cleared_place m).1
  · have hstrip (us : List Nat) : stripComments us = (mark us).map shownUnit := stripUnits_eq .code us
    rw [hstrip (stripComments text), mark_strip, List.map_map, hstrip text]
    exact List.map_congr_left fun m _ => shownUnit_cleared m

end Texts

end Polaris.MibComments
