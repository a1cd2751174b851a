import Mathlib.Data.Set.Finite.Basic
import Mathlib.Order.WellFounded
import Polaris.Lib.Reach

namespace Polaris.Lib.Probe

open Relation Polaris.Lib.Reach

section Induction

variable {α : Type} {next : α → List α} {nodes : List α}

/-- An acyclic graph with finitely many items that lead anywhere can be
climbed by induction. -/
theorem acyclic_induction (h : Acyclic (Follows next)) (hnodes : ∀ a, next a ≠ [] → a ∈ nodes) {P : α → Prop}
    (hstep : ∀ a, (∀ b ∈ next a, P b) → P a) (a : α) : P a := by
  have : Finite {a // a ∈ nodes} := (List.finite_toSet nodes).to_subtype
  let above : {a // a ∈ nodes} → {a // a ∈ nodes} → Prop := fun b a => TransGen (Follows next) a.1 b.1
  have : IsTrans _ above := ⟨fun a b c hab hbc => TransGen.trans hbc hab⟩
  have : Std.Irrefl above := ⟨fun a ha => h a.1 ha⟩
  have hinside : ∀ x : {a // a ∈ nodes}, P x.1 := by
    intro x
    induction x using (Finite.wellFounded_of_trans_of_irrefl above).induction with
    | _ x ih =>
      refine hstep x.1 fun b hb => ?_
      by_cases hmem : b ∈ nodes
      · exact ih ⟨b, hmem⟩ (.single hb)
      · refine hstep b fun c hc => ?_
        exact absurd (hnodes b (List.ne_nil_of_mem hc)) hmem
  by_cases ha : a ∈ nodes
  · exact hinside ⟨a, ha⟩
  · exact hstep a fun b hb => absurd (hnodes a (List.ne_nil_of_mem hb)) ha

end Induction

section Answers

variable {α : Type}

/-- Where the answer to a question comes from. -/
inductive Found (kind : α → Bool ⊕ List α) : α → Prop
  | here {a} (h : kind a = .inl true) : Found kind a
  | next {a b ns} (h : kind a = .inr ns) (hb : b ∈ ns) (found : Found kind b) : Found kind a

def Leads (kind : α → Bool ⊕ List α) (a b : α) : Prop := ∃ ns, kind a = .inr ns ∧ b ∈ ns

variable {kind : α → Bool ⊕ List α}

theorem found_iff {a : α} : Found kind a ↔ kind a = .inl true ∨ ∃ b, Leads kind a b ∧ Found kind b := by
  constructor
  · intro h
    cases h with
    | here h => exact .inl h
    | next h hb found => exact .inr ⟨_, ⟨_, h, hb⟩, found⟩
  · rintro (h | ⟨b, ⟨ns, h, hb⟩, found⟩)
    · exact .here h
    · exact .next h hb found

theorem found_iff_reach {a : α} : Found kind a ↔ ∃ g, ReflTransGen (Leads kind) a g ∧ kind g = .inl true := by
  constructor
  · intro h
    induction h with
    | here h => exact ⟨_, .refl, h⟩
    | next h hb _ ih =>
      obtain ⟨g, hreach, hg⟩ := ih
      exact ⟨g, .head ⟨_, h, hb⟩ hreach, hg⟩
  · rintro ⟨g, hreach, hg⟩
    induction hreach using ReflTransGen.head_induction_on with
    | refl => exact .here hg
    | head hab _ ih =>
      obtain ⟨ns, h, hb⟩ := hab
      exact .next h hb ih

def someOf (probe : α → List α → Bool × List α) : List α → List α → Bool × List α
  | [], seen => (false, seen)
  | a :: as, seen =>
    match probe a seen with
    | (true, seen) => (true, seen)
    | (false, seen) => someOf probe as seen

/-- What a search promises that starts from items that answered no or that
it cannot come back to. -/
def Answers (kind : α → Bool ⊕ List α) (found : Prop) (seen : List α) (result : Bool × List α) : Prop :=
  (result.1 = true ↔ found) ∧ seen ⊆ result.2 ∧ (result.1 = false → ∀ v ∈ result.2, v ∈ seen ∨ ¬ Found kind v)

theorem someOf_answers {ask : α → List α → Bool × List α} {as seen : List α}
    (hask : ∀ a ∈ as, ∀ seen', seen ⊆ seen' → (∀ v ∈ seen', v ∈ seen ∨ ¬ Found kind v) →
      Answers kind (Found kind a) seen' (ask a seen')) :
    Answers kind (∃ a ∈ as, Found kind a) seen (someOf ask as seen) := by
  suffices ∀ seen', seen ⊆ seen' → (∀ v ∈ seen', v ∈ seen ∨ ¬ Found kind v) →
      Answers kind (∃ a ∈ as, Found kind a) seen' (someOf ask as seen') from
    this seen (fun _ h => h) fun _ h => .inl h
  induction as with
  | nil =>
    intro seen' _ _
    exact ⟨iff_of_false Bool.false_ne_true fun ⟨a, ha, _⟩ => absurd ha List.not_mem_nil, fun _ h => h,
      fun _ _ h => .inl h⟩
  | cons a as ih =>
    intro seen' hsub hseen
    obtain ⟨hanswer, hgrows, hno⟩ := hask a List.mem_cons_self seen' hsub hseen
    rw [someOf]
    cases hres : ask a seen' with
    | mk answer seen'' =>
      rw [hres] at hanswer hgrows hno
      cases answer with
      | true =>
        refine ⟨iff_of_true rfl ⟨a, List.mem_cons_self, hanswer.mp rfl⟩, hgrows,
          fun h => absurd h.symm Bool.false_ne_true⟩
      | false =>
        have hnot : ¬ Found kind a := fun h => Bool.false_ne_true (hanswer.mpr h)
        have hseen'' : ∀ v ∈ seen'', v ∈ seen ∨ ¬ Found kind v := by
          intro v hv
          obtain hv | hv := hno rfl v hv
          · exact hseen v hv
          · exact .inr hv
        obtain ⟨hanswer', hgrows', hno'⟩ := ih (fun b hb => hask b (List.mem_cons_of_mem _ hb)) seen''
          (List.Subset.trans hsub hgrows) hseen''
        refine ⟨hanswer'.trans ?_, List.Subset.trans hgrows hgrows', fun h v hv => ?_⟩
        · simp only [List.mem_cons, exists_eq_or_imp, hnot, false_or]
        · obtain hv | hv := hno' h v hv
          · exact hno rfl v hv
          · exact .inr hv

end Answers

section Search

variable {α : Type} [DecidableEq α]

/-- Looks for an item that answers yes. An item answers for itself, or passes
the question on; one that was asked before answers no. -/
def probe (kind : α → Bool ⊕ List α) : Nat → α → List α → Bool × List α
  | 0, _, seen => (false, seen)
  | fuel + 1, a, seen =>
    if a ∈ seen then (false, seen)
    else
      match kind a with
      | .inl answer => (answer, a :: seen)
      | .inr next => someOf (probe kind fuel) next (a :: seen)

variable {kind : α → Bool ⊕ List α} {nodes : List α}

def unseen (nodes seen : List α) : Nat := (nodes.filter (· ∉ seen)).length

theorem unseen_le {seen seen' : List α} (h : seen ⊆ seen') : unseen nodes seen' ≤ unseen nodes seen := by
  refine (List.monotone_filter_right nodes fun a ha => ?_).length_le
  rw [decide_eq_true_eq] at ha ⊢
  exact fun hs => ha (h hs)

theorem unseen_lt {seen : List α} {a : α} (ha : a ∈ nodes) (hs : a ∉ seen) : unseen nodes (a :: seen) <
    unseen nodes seen := by
  have hsplit := List.length_eq_length_filter_add (l := nodes.filter (· ∉ seen)) fun b => decide (b ≠ a)
  have heq : nodes.filter (· ∉ a :: seen) = (nodes.filter (· ∉ seen)).filter fun b => decide (b ≠ a) := by
    rw [List.filter_filter]
    refine List.filter_congr fun b _ => ?_
    simp [not_or]
  have hmem : a ∈ (nodes.filter (· ∉ seen)).filter fun b => !decide (b ≠ a) :=
    List.mem_filter.mpr ⟨List.mem_filter.mpr ⟨ha, decide_eq_true hs⟩, by simp⟩
  have hpos := List.length_pos_of_mem hmem
  rw [unseen, unseen, heq, hsplit]
  omega

theorem probe_answers (hacyclic : Acyclic (Leads kind)) (hnodes : ∀ a ns, kind a = .inr ns → a ∈ nodes)
    {fuel : Nat}
    {a : α} {seen : List α} (hfuel : unseen nodes seen < fuel)
    (hseen : ∀ v ∈ seen, ReflTransGen (Leads kind) a v → ¬ Found kind v) :
    Answers kind (Found kind a) seen (probe kind fuel a seen) := by
  induction fuel generalizing a seen with
  | zero => exact absurd hfuel (Nat.not_lt_zero _)
  | succ fuel ih =>
    rw [probe]
    split_ifs with hmem
    · exact ⟨iff_of_false Bool.false_ne_true (hseen a hmem .refl), fun _ h => h, fun _ _ h => .inl h⟩
    · cases hkind : kind a with
      | inl answer =>
        have hfound : answer = true ↔ Found kind a := by
          rw [found_iff, hkind]
          refine ⟨fun h => .inl (congrArg _ h), ?_⟩
          rintro (h | ⟨b, ⟨ns, hns, -⟩, -⟩)
          · exact Sum.inl.inj h
          · rw [hkind] at hns
            cases hns
        refine ⟨hfound, List.subset_cons_self a seen, fun h v hv => ?_⟩
        have h : answer = false := h
        obtain rfl | hv := List.mem_cons.mp hv
        · exact .inr fun hf => Bool.false_ne_true (h.symm.trans (hfound.mpr hf))
        · exact .inl hv
      | inr ns =>
        have hlead : ∀ b ∈ ns, Leads kind a b := fun b hb => ⟨ns, hkind, hb⟩
        have hfresh := unseen_lt (hnodes a ns hkind) hmem
        have hsome : Answers kind (∃ b ∈ ns, Found kind b) (a :: seen)
          (someOf (probe kind fuel) ns (a :: seen)) := by
          refine someOf_answers fun b hb seen' hsub hno => ?_
          refine ih (Nat.lt_of_le_of_lt (unseen_le hsub) (by omega)) fun v hv hreach => ?_
          obtain hv | hv := hno v hv
          · obtain rfl | hv := List.mem_cons.mp hv
            · exact absurd hreach (acyclic_no_return hacyclic (hlead b hb))
            · exact hseen v hv (.head (hlead b hb) hreach)
          · exact hv
        have hfound : (∃ b ∈ ns, Found kind b) ↔ Found kind a := by
          rw [found_iff, hkind]
          refine ⟨fun ⟨b, hb, hf⟩ => .inr ⟨b, hlead b hb, hf⟩, ?_⟩
          rintro (h | ⟨b, ⟨ns', hns, hb⟩, hf⟩)
          · cases h
          · rw [hkind] at hns
            cases hns
            exact ⟨b, hb, hf⟩
        obtain ⟨hanswer, hgrows, hno⟩ := hsome
        refine ⟨hanswer.trans hfound, List.Subset.trans (List.subset_cons_self a seen) hgrows,
          fun h v hv => ?_⟩
        obtain hv | hv := hno h v hv
        · obtain rfl | hv := List.mem_cons.mp hv
          · refine .inr fun hf => ?_
            rw [hanswer.mpr (hfound.mpr hf)] at h
            cases h
          · exact .inl hv
        · exact .inr hv

end Search

end Polaris.Lib.Probe
