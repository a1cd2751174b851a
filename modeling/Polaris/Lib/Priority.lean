import Mathlib.Data.List.Basic
import Mathlib.Data.List.Perm.Basic

namespace Polaris.Lib.Priority

variable {σ ρ κ α : Type} [DecidableEq κ]

/-- Rules in the order of their rank over sources that may be of a kind. -/
structure Scheme (σ ρ κ α : Type) where
  kind : σ → Option κ
  target : ρ → κ
  value : ρ → σ → Option α
  rules : List ρ

namespace Scheme

section Selection

variable (S : Scheme σ ρ κ α) (sources : List σ)

def candidate (k : κ) : Option σ := sources.find? fun s => S.kind s = some k

def answer (r : ρ) : Option α := (S.candidate sources (S.target r)).bind (S.value r)

/-- The first rule decides that has an answer from the first source of its
kind. -/
def select : Option (κ × α) := S.rules.findSome? fun r => (S.answer sources r).map (S.target r, ·)

def speaks (s : σ) : Bool := S.rules.any fun r => S.kind s = some (S.target r) && (S.value r s).isSome

def leader (k : κ) : Option σ := sources.find? fun s => S.kind s = some k && S.speaks s

def best (r : ρ) : Option α := (S.leader sources (S.target r)).bind (S.value r)

/-- Every source of the kind that the best answers come from has a value. -/
def Settled : Prop :=
  ∀ r ∈ S.rules.find? fun r => (S.best sources r).isSome, ∀ s ∈ sources, S.kind s = some (S.target r) →
    S.speaks s = true

instance : Decidable (S.Settled sources) :=
  inferInstanceAs (Decidable (∀ r ∈ S.rules.find? fun r => (S.best sources r).isSome, ∀ s ∈ sources, _ → _))

def speakers (k : κ) : List σ := sources.filter fun s => S.kind s = some k && S.speaks s

/-- Another order of the sources, in which those of a kind that have a value
follow each other as before. -/
structure Reordered (sources sources' : List σ) : Prop where
  perm : sources'.Perm sources
  ties : ∀ k, S.speakers sources' k = S.speakers sources k

end Selection

section Answers

variable {S : Scheme σ ρ κ α} {sources sources' : List σ} {r : ρ} {s : σ} {k : κ}

theorem speaks_iff : S.speaks s = true ↔ ∃ r ∈ S.rules, S.kind s = some (S.target r) ∧
    (S.value r s).isSome = true := by
  rw [speaks, List.any_eq_true]
  simp only [Bool.and_eq_true, decide_eq_true_eq]

theorem value_of_silent (hr : r ∈ S.rules) (hkind : S.kind s = some (S.target r)) (h : S.speaks s = false) :
    S.value r s = none := by
  by_contra hne
  have hspeaks := speaks_iff.mpr ⟨r, hr, hkind, Option.isSome_iff_ne_none.mpr hne⟩
  rw [h] at hspeaks
  cases hspeaks

theorem candidate_cases (S : Scheme σ ρ κ α) (sources : List σ) (k : κ) :
    S.candidate sources k = S.leader sources k ∨
    ∃ u, S.candidate sources k = some u ∧ S.kind u = some k ∧ S.speaks u = false := by
  induction sources with
  | nil => exact .inl rfl
  | cons s sources ih =>
    rw [candidate, leader, List.find?_cons, List.find?_cons]
    by_cases hkind : S.kind s = some k
    · rw [decide_eq_true hkind, Bool.true_and]
      cases hs : S.speaks s with
      | true => exact .inl rfl
      | false => exact .inr ⟨s, rfl, hkind, hs⟩
    · rw [decide_eq_false hkind, Bool.false_and]
      exact ih

theorem answer_cases (hr : r ∈ S.rules) (sources : List σ) :
    S.answer sources r = none ∨ S.answer sources r = S.best sources r := by
  obtain h | ⟨u, hu, hkind, hsilent⟩ := S.candidate_cases sources (S.target r)
  · rw [answer, h, ← best]
    exact .inr rfl
  · rw [answer, hu]
    exact .inl (value_of_silent hr hkind hsilent)

theorem leader_eq_head (S : Scheme σ ρ κ α) (sources : List σ) (k : κ) :
    S.leader sources k = (S.speakers sources k).head? := by
  rw [leader, speakers, List.head?_filter]

theorem Reordered.best (h : S.Reordered sources sources') (r : ρ) : S.best sources' r = S.best sources r := by
  rw [Scheme.best, Scheme.best, leader_eq_head, leader_eq_head, h.ties]

theorem Reordered.settled (h : S.Reordered sources sources') (hs : S.Settled sources) :
    S.Settled sources' := by
  intro r hr s hmem
  have hbest : (fun r => (S.best sources' r).isSome) = fun r => (S.best sources r).isSome := by
    funext r
    rw [h.best]
  rw [hbest] at hr
  exact hs r hr s (h.perm.mem_iff.mp hmem)

theorem select_none (h : ∀ r ∈ S.rules, S.answer sources r = none) : S.select sources = none := by
  rw [select, List.findSome?_eq_none_iff]
  intro r hr
  rw [h r hr]
  rfl

theorem select_append {before after : List ρ} {v : α} (hrules : S.rules = before ++ r :: after)
    (hbefore : ∀ b ∈ before, S.answer sources b = none) (hr : S.answer sources r = some v) :
    S.select sources = some (S.target r, v) := by
  have hnone : (before.findSome? fun b => (S.answer sources b).map (S.target b, ·)) = none := by
    rw [List.findSome?_eq_none_iff]
    intro b hb
    rw [hbefore b hb]
    rfl
  rw [select, hrules, List.findSome?_append, hnone, Option.none_or, List.findSome?_cons, hr]
  rfl

/-- Where the kind is settled, the best answers are the ones selected. -/
theorem select_settled (h : S.Settled sources) :
    S.select sources = S.rules.findSome? fun r => (S.best sources r).map (S.target r, ·) := by
  cases hfind : S.rules.find? fun r => (S.best sources r).isSome with
  | none =>
    have hnone : ∀ r ∈ S.rules, S.best sources r = none := by
      intro r hr
      have hnot := List.find?_eq_none.mp hfind r hr
      rwa [Option.isSome_iff_ne_none, not_not] at hnot
    rw [select_none fun r hr => ?_]
    · rw [Eq.comm, List.findSome?_eq_none_iff]
      intro r hr
      rw [hnone r hr]
      rfl
    · obtain hr' | hr' := answer_cases hr sources
      · exact hr'
      · rw [hr', hnone r hr]
  | some r =>
    obtain ⟨hsome, before, after, hrules, hbefore⟩ := List.find?_eq_some_iff_append.mp hfind
    obtain ⟨v, hv⟩ := Option.isSome_iff_exists.mp hsome
    have hr : r ∈ S.rules := List.mem_of_find?_eq_some hfind
    have hbefore' : ∀ b ∈ before, S.best sources b = none := by
      intro b hb
      have hnot := hbefore b hb
      rwa [Bool.not_eq_true', Option.isSome_eq_false_iff, Option.isNone_iff_eq_none] at hnot
    have hanswer : S.answer sources r = some v := by
      obtain hlead | ⟨u, hu, hkind, hsilent⟩ := S.candidate_cases sources (S.target r)
      · rw [answer, hlead, ← Scheme.best, hv]
      · have hspeaks := h r hfind u (List.mem_of_find?_eq_some hu) hkind
        rw [hsilent] at hspeaks
        cases hspeaks
    have hearly : ∀ b ∈ before, S.answer sources b = none := by
      intro b hb
      have hmem : b ∈ S.rules := hrules ▸ List.mem_append_left _ hb
      obtain hb' | hb' := answer_cases hmem sources
      · exact hb'
      · rw [hb', hbefore' b hb]
    have hnone : (before.findSome? fun b => (S.best sources b).map (S.target b, ·)) = none := by
      rw [List.findSome?_eq_none_iff]
      intro b hb
      rw [hbefore' b hb]
      rfl
    rw [select_append hrules hearly hanswer, hrules, List.findSome?_append, hnone, Option.none_or,
      List.findSome?_cons, hv]
    rfl

end Answers

section Orders

variable {S : Scheme σ ρ κ α} {sources : List σ} {r : ρ} {s u w : σ} {k : κ}

theorem speakers_cons (s : σ) (sources : List σ) (k : κ) : S.speakers (s :: sources) k =
    if S.kind s = some k ∧ S.speaks s = true then s :: S.speakers sources k else S.speakers sources k := by
  rw [speakers, List.filter_cons]
  simp only [Bool.and_eq_true, decide_eq_true_eq]
  rfl

theorem speakers_append (before after : List σ) (k : κ) :
    S.speakers (before ++ after) k = S.speakers before k ++ S.speakers after k := List.filter_append ..

theorem silent_first (hu : u ∈ sources) (hsilent : S.speaks u = false) :
    ∃ rest, S.Reordered sources (u :: rest) := by
  obtain ⟨before, after, rfl⟩ := List.append_of_mem hu
  refine ⟨before ++ after, List.perm_middle.symm, fun k => ?_⟩
  have hnot : ¬ (S.kind u = some k ∧ S.speaks u = true) := by
    rintro ⟨-, h⟩
    rw [hsilent] at h
    cases h
  rw [speakers_cons, if_neg hnot, speakers_append, speakers_append, speakers_cons, if_neg hnot]

theorem leader_first (hw : S.leader sources k = some w) : ∃ rest, S.Reordered sources (w :: rest) := by
  obtain ⟨hkind, before, after, rfl, hbefore⟩ := List.find?_eq_some_iff_append.mp hw
  rw [Bool.and_eq_true, decide_eq_true_eq] at hkind
  refine ⟨before ++ after, List.perm_middle.symm, fun k' => ?_⟩
  rw [speakers_cons, speakers_append, speakers_append, speakers_cons]
  by_cases hk : S.kind w = some k' ∧ S.speaks w = true
  · obtain rfl := Option.some.inj (hkind.1.symm.trans hk.1)
    have hnil : S.speakers before k = [] := by
      rw [speakers, List.filter_eq_nil_iff]
      intro s hs hmem
      have hnot := hbefore s hs
      rw [hmem] at hnot
      cases hnot
    rw [if_pos hk, if_pos hk, hnil]
    rfl
  · rw [if_neg hk, if_neg hk]

theorem candidate_cons (hkind : S.kind s = some k) : S.candidate (s :: sources) k = some s := by
  rw [candidate, List.find?_cons, decide_eq_true hkind]

theorem select_leader_first {before after : List ρ} {v : α} {rest : List σ}
    (hrules : S.rules = before ++ r :: after)
    (hbefore : ∀ b ∈ before, S.best sources b = none) (hkind : S.kind w = some (S.target r))
    (hv : S.value r w = some v)
    (h : S.Reordered sources (w :: rest)) : S.select (w :: rest) = some (S.target r, v) := by
  apply select_append hrules
  · intro b hb
    have hmem : b ∈ S.rules := hrules ▸ List.mem_append_left _ hb
    obtain hb' | hb' := answer_cases hmem (w :: rest)
    · exact hb'
    · rw [hb', h.best, hbefore b hb]
  · rw [answer, candidate_cons hkind]
    exact hv

theorem select_silent_first {rest : List σ} {v : α} (hkind : S.kind u = some k)
    (hsilent : S.speaks u = false) :
    S.select (u :: rest) ≠ some (k, v) := by
  intro hselect
  obtain ⟨r, hr, hanswer⟩ := List.exists_of_findSome?_eq_some hselect
  obtain ⟨v', hv', heq⟩ := Option.map_eq_some_iff.mp hanswer
  obtain ⟨rfl, -⟩ := Prod.mk.inj heq
  rw [answer, candidate_cons hkind] at hv'
  have hnone := value_of_silent hr hkind hsilent
  rw [Option.bind_some, hnone] at hv'
  cases hv'

end Orders

section Invariance

variable (S : Scheme σ ρ κ α) (sources : List σ)

theorem silent_of_settled (h : S.Settled sources) (hnone : S.select sources = none) : ∀ s ∈ sources,
    S.speaks s = false := by
  intro s hs
  by_contra hspeaks
  rw [Bool.not_eq_false] at hspeaks
  obtain ⟨r, hr, hkind, -⟩ := speaks_iff.mp hspeaks
  cases hlead : S.leader sources (S.target r) with
  | none =>
    have hnot := List.find?_eq_none.mp hlead s hs
    rw [decide_eq_true hkind, hspeaks] at hnot
    exact hnot rfl
  | some w =>
    have hw := List.find?_some hlead
    rw [Bool.and_eq_true, decide_eq_true_eq] at hw
    obtain ⟨r', hr', hkind', hvalue⟩ := speaks_iff.mp hw.2
    have htarget : S.target r' = S.target r := Option.some.inj (hkind'.symm.trans hw.1)
    have hbest : S.best sources r' = S.value r' w := by
      rw [best, htarget, hlead]
      rfl
    rw [select_settled h, List.findSome?_eq_none_iff] at hnone
    have hgone := hnone r' hr'
    rw [Option.map_eq_none_iff, hbest] at hgone
    rw [hgone] at hvalue
    cases hvalue

theorem select_free_iff :
    ((∀ sources', S.Reordered sources sources' → S.select sources' = S.select sources) ∧
      (S.select sources = none → ∀ s ∈ sources, S.speaks s = false)) ↔ S.Settled sources := by
  constructor
  · rintro ⟨hfree, -⟩ r hr u hu hkind
    obtain ⟨hsome, before, after, hrules, hbefore⟩ := List.find?_eq_some_iff_append.mp hr
    obtain ⟨v, hv⟩ := Option.isSome_iff_exists.mp hsome
    obtain ⟨w, hlead, hvalue⟩ := Option.bind_eq_some_iff.mp hv
    have hbefore' : ∀ b ∈ before, S.best sources b = none := by
      intro b hb
      have hnot := hbefore b hb
      rwa [Bool.not_eq_true', Option.isSome_eq_false_iff, Option.isNone_iff_eq_none] at hnot
    have hw := List.find?_some hlead
    rw [Bool.and_eq_true, decide_eq_true_eq] at hw
    by_contra hsilent
    rw [Bool.not_eq_true] at hsilent
    obtain ⟨rest, hrest⟩ := leader_first hlead
    obtain ⟨rest', hrest'⟩ := silent_first hu hsilent
    have hselect : S.select sources = some (S.target r, v) :=
      (hfree _ hrest).symm.trans (select_leader_first hrules hbefore' hw.1 hvalue hrest)
    exact select_silent_first hkind hsilent ((hfree _ hrest').trans hselect)
  · intro h
    refine ⟨fun sources' hreordered => ?_, S.silent_of_settled sources h⟩
    rw [select_settled h, select_settled (hreordered.settled h)]
    apply congrArg fun f => S.rules.findSome? f
    funext r
    rw [hreordered.best]

end Invariance

end Scheme

end Polaris.Lib.Priority
