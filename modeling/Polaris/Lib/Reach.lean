import Mathlib.Algebra.BigOperators.Group.List.Basic
import Mathlib.Algebra.Order.BigOperators.Group.List
import Mathlib.Algebra.Order.Group.Nat
import Mathlib.Algebra.Order.Ring.Nat
import Mathlib.Logic.Relation

namespace Polaris.Lib.Reach

section Queue

variable {α σ ε : Type}

/-- Visits the head of a queue until the queue is empty or a visit stops. A
visit names the items that go to its end. -/
def drain (visit : σ → α → Except ε (σ × List α)) : Nat → σ → List α → Except ε (σ × List α)
  | 0, s, queue => .ok (s, queue)
  | _ + 1, s, [] => .ok (s, [])
  | n + 1, s, a :: queue =>
    match visit s a with
    | .error e => .error e
    | .ok (s', more) => drain visit n s' (queue ++ more)

variable {visit : σ → α → Except ε (σ × List α)} {I : σ → List α → Prop} {n : Nat} {s s' : σ}
  {queue rest : List α} {e : ε}

theorem drain_invariant
    (hvisit : ∀ s a queue s' more, I s (a :: queue) → visit s a = .ok (s', more) → I s' (queue ++ more))
    (h : I s queue) (hd : drain visit n s queue = .ok (s', rest)) : I s' rest := by
  induction n generalizing s queue with
  | zero =>
    cases hd
    exact h
  | succ n ih =>
    cases queue with
    | nil =>
      cases hd
      exact h
    | cons a queue =>
      rw [drain] at hd
      split at hd
      next => cases hd
      next s₁ more hv => exact ih (hvisit s a queue s₁ more h hv) hd

theorem drain_error
    (hvisit : ∀ s a queue s' more, I s (a :: queue) → visit s a = .ok (s', more) → I s' (queue ++ more))
    (h : I s queue) (hd : drain visit n s queue = .error e) :
    ∃ s' a queue', I s' (a :: queue') ∧ visit s' a = .error e := by
  induction n generalizing s queue with
  | zero => cases hd
  | succ n ih =>
    cases queue with
    | nil => cases hd
    | cons a queue =>
      rw [drain] at hd
      split at hd
      next e' hv =>
        cases hd
        exact ⟨s, a, queue, h, hv⟩
      next s₁ more hv => exact ih (hvisit s a queue s₁ more h hv) hd

/-- Fuel for what stands in the queue and what can still be appended
empties the queue. -/
theorem drain_ends {weight : σ → Nat}
    (hvisit : ∀ s a s' more, visit s a = .ok (s', more) → weight s' + more.length ≤ weight s)
    (hn : weight s + queue.length ≤ n) (hd : drain visit n s queue = .ok (s', rest)) : rest = [] := by
  induction n generalizing s queue with
  | zero =>
    cases hd
    exact List.length_eq_zero_iff.mp (by omega)
  | succ n ih =>
    cases queue with
    | nil =>
      cases hd
      rfl
    | cons a queue =>
      rw [drain] at hd
      split at hd
      next => cases hd
      next s₁ more hv =>
        refine ih ?_ hd
        have hle := hvisit s a s₁ more hv
        rw [List.length_cons] at hn
        rw [List.length_append]
        omega

end Queue

section Search

variable {α ε : Type}

def Follows (next : α → List α) (a b : α) : Prop := b ∈ next a

variable [DecidableEq α] (next : α → List α) (goal : α) (e : ε)

def look (seen : List α) (a : α) : Except ε (List α × List α) :=
  if a = goal then .error e else if a ∈ seen then .ok (seen, []) else .ok (a :: seen, next a)

def ahead (nodes seen : List α) : Nat := ((nodes.filter (· ∉ seen)).map fun a => (next a).length).sum

def search (nodes : List α) (queue : List α) : Except ε (List α × List α) :=
  drain (look next goal e) (ahead next nodes [] + queue.length) [] queue

variable {next goal e} {nodes queue seen rest : List α}

theorem look_ahead (hnodes : ∀ a, next a ≠ [] → a ∈ nodes) (s : List α) (a : α) (s' more : List α)
    (h : look next goal e s a = .ok (s', more)) :
    ahead next nodes s' + more.length ≤ ahead next nodes s := by
  rw [look] at h
  split at h
  next => cases h
  next =>
    split at h
    next =>
      cases h
      exact Nat.le_refl _
    next hs =>
      cases h
      by_cases ha : a ∈ nodes
      · have hperm := List.filter_append_perm (fun b => decide (b ≠ a)) (nodes.filter (· ∉ s))
        have hsum := (hperm.map fun b => (next b).length).sum_eq
        rw [List.map_append, List.sum_append, List.filter_filter, List.filter_filter] at hsum
        have hmem : a ∈ nodes.filter fun b => !decide (b ≠ a) && decide (b ∉ s) :=
          List.mem_filter.mpr ⟨ha, by simp [hs]⟩
        have hle := List.single_le_sum (l := (nodes.filter fun b => !decide (b ≠ a) && decide (b ∉ s)).map
          fun b => (next b).length) (fun _ _ => Nat.zero_le _) _ (List.mem_map_of_mem hmem)
        have heq : (nodes.filter (· ∉ a :: s)) = nodes.filter fun b => decide (b ≠ a) && decide (b ∉ s) := by
          refine List.filter_congr fun b _ => ?_
          simp [not_or]
        rw [ahead, ahead, heq]
        omega
      · have hnil : next a = [] := by
          by_contra hne
          exact ha (hnodes a hne)
        have heq : nodes.filter (· ∉ a :: s) = nodes.filter (· ∉ s) := by
          refine List.filter_congr fun b hb => ?_
          have hba : b ≠ a := fun h => ha (h ▸ hb)
          simp [hba]
        rw [ahead, ahead, heq, hnil]
        exact Nat.le_refl _

/-- What is seen is not the goal, and leads only to what is seen or queued. -/
def Closed (next : α → List α) (goal : α) (start seen queue : List α) : Prop :=
  (∀ a ∈ start, a ∈ seen ∨ a ∈ queue) ∧ ∀ a ∈ seen, a ≠ goal ∧ ∀ b ∈ next a, b ∈ seen ∨ b ∈ queue

theorem closed_look (start : List α) (s : List α) (a : α) (q s' more : List α)
    (hc : Closed next goal start s (a :: q)) (h : look next goal e s a = .ok (s', more)) :
    Closed next goal start s' (q ++ more) := by
  rw [look] at h
  split at h
  next => cases h
  next hgoal =>
    split at h
    next hs =>
      cases h
      have hmove : ∀ b, b ∈ s ∨ b ∈ a :: q → b ∈ s ∨ b ∈ q ++ [] := by
        rintro b (hb | hb)
        · exact .inl hb
        · obtain rfl | hb := List.mem_cons.mp hb
          · exact .inl hs
          · exact .inr (List.mem_append_left [] hb)
      exact ⟨fun b hb => hmove b (hc.1 b hb),
        fun b hb => ⟨(hc.2 b hb).1, fun x hx => hmove x ((hc.2 b hb).2 x hx)⟩⟩
    next hs =>
      cases h
      have hmove : ∀ b, b ∈ s ∨ b ∈ a :: q → b ∈ a :: s ∨ b ∈ q ++ next a := by
        rintro b (hb | hb)
        · exact .inl (List.mem_cons_of_mem a hb)
        · obtain rfl | hb := List.mem_cons.mp hb
          · exact .inl List.mem_cons_self
          · exact .inr (List.mem_append_left _ hb)
      refine ⟨fun b hb => hmove b (hc.1 b hb), fun b hb => ?_⟩
      obtain rfl | hb := List.mem_cons.mp hb
      · exact ⟨hgoal, fun x hx => .inr (List.mem_append_right q hx)⟩
      · exact ⟨(hc.2 b hb).1, fun x hx => hmove x ((hc.2 b hb).2 x hx)⟩

theorem search_error (h : search next goal e nodes queue = .error e) :
    ∃ q ∈ queue, Relation.ReflTransGen (Follows next) q goal := by
  obtain ⟨seen, a, rest, hreach, hlook⟩ := drain_error
    (I := fun _ queue' => ∀ b ∈ queue', ∃ q ∈ queue, Relation.ReflTransGen (Follows next) q b)
    (fun s a q s' more hq hv b hb => by
      obtain hb | hb := List.mem_append.mp hb
      · exact hq b (List.mem_cons_of_mem a hb)
      · rw [look] at hv
        split at hv
        next => cases hv
        next =>
          split at hv
          next =>
            cases hv
            cases hb
          next =>
            cases hv
            obtain ⟨q₀, hq₀, hr⟩ := hq a List.mem_cons_self
            exact ⟨q₀, hq₀, hr.tail hb⟩)
    (fun b hb => ⟨b, hb, .refl⟩) h
  have hgoal : a = goal := by
    by_contra hne
    rw [look, if_neg hne] at hlook
    split at hlook <;> cases hlook
  exact hgoal ▸ hreach a List.mem_cons_self

theorem search_ok (hnodes : ∀ a, next a ≠ [] → a ∈ nodes)
    (h : search next goal e nodes queue = .ok (seen, rest)) :
    ∀ q ∈ queue, ¬ Relation.ReflTransGen (Follows next) q goal := by
  have hnil : rest = [] := drain_ends (look_ahead hnodes) (Nat.le_refl _) h
  have hc : Closed next goal queue seen rest :=
    drain_invariant (I := Closed next goal queue) (closed_look queue)
      ⟨fun a ha => .inr ha, fun a ha => absurd ha List.not_mem_nil⟩ h
  subst hnil
  intro q hq hreach
  have hseen : ∀ b, Relation.ReflTransGen (Follows next) q b → b ∈ seen := by
    intro b hb
    induction hb with
    | refl => exact (hc.1 q hq).resolve_right List.not_mem_nil
    | tail _ hbc ih => exact ((hc.2 _ ih).2 _ hbc).resolve_right List.not_mem_nil
  exact (hc.2 goal (hseen goal hreach)).1 rfl

theorem search_error_iff (hnodes : ∀ a, next a ≠ [] → a ∈ nodes) :
    search next goal e nodes queue = .error e ↔ ∃ q ∈ queue, Relation.ReflTransGen (Follows next) q goal := by
  refine ⟨search_error, fun ⟨q, hq, hreach⟩ => ?_⟩
  cases h : search next goal e nodes queue with
  | ok r => exact absurd hreach (search_ok hnodes h q hq)
  | error e' =>
    obtain ⟨seen, a, rest, -, hlook⟩ :=
      drain_error (I := fun _ _ => True) (fun _ _ _ _ _ _ _ => trivial) trivial h
    rw [look] at hlook
    split at hlook
    next => exact hlook.symm
    next => split at hlook <;> cases hlook

end Search

section Acyclic

open Relation

variable {α : Type*} {r r' : α → α → Prop}

def Acyclic (r : α → α → Prop) : Prop := ∀ a, ¬ TransGen r a a

theorem path_cases {S : α → Prop} (hsame : ∀ a b, ¬ S a → r' a b → r a b) {a b : α} (h : TransGen r' a b) :
    TransGen r a b ∨ ∃ c d, S c ∧ ReflTransGen r' a c ∧ r' c d ∧ ReflTransGen r' d b := by
  induction h with
  | single hab =>
    by_cases hs : S a
    · exact .inr ⟨a, _, hs, .refl, hab, .refl⟩
    · exact .inl (.single (hsame _ _ hs hab))
  | @tail b c hpath hbc ih =>
    obtain hold | ⟨c, d, hs, hac, hcd, hd⟩ := ih
    · by_cases hs : S b
      · exact .inr ⟨b, c, hs, hpath.to_reflTransGen, hbc, .refl⟩
      · exact .inl (hold.tail (hsame _ _ hs hbc))
    · exact .inr ⟨c, d, hs, hac, hcd, hd.tail hbc⟩

theorem acyclic_of_changed {S : α → Prop} (hsame : ∀ a b, ¬ S a → r' a b → r a b) (hr : Acyclic r)
    (hs : ∀ c d, S c → r' c d → ¬ ReflTransGen r' d c) : Acyclic r' := by
  intro a ha
  obtain hold | ⟨c, d, hc, hac, hcd, hda⟩ := path_cases hsame ha
  · exact hr a hold
  · exact hs c d hc hcd (hda.trans hac)

theorem acyclic_no_return {a b : α} (hr : Acyclic r) (hab : r a b) : ¬ ReflTransGen r b a :=
  fun h => hr a (TransGen.head' hab h)

theorem acyclic_of_rank {rank : α → Nat} (h : ∀ a b, r a b → rank b < rank a) : Acyclic r := by
  intro a ha
  have hlt : rank a < rank a := by
    suffices ∀ b, TransGen r a b → rank b < rank a from this a ha
    intro b hb
    induction hb with
    | single hab => exact h _ _ hab
    | tail _ hbc ih => exact Nat.lt_trans (h _ _ hbc) ih
  exact Nat.lt_irrefl _ hlt

/-- Paths into an item do not depend on the edges out of it. -/
theorem reach_congr {c : α} (h : ∀ a b, a ≠ c → r a b → r' a b) {a : α} (hreach : ReflTransGen r a c) :
    ReflTransGen r' a c := by
  induction hreach using ReflTransGen.head_induction_on with
  | refl => exact .refl
  | @head a b hab _ ih =>
    by_cases ha : a = c
    · subst ha
      exact .refl
    · exact .head (h a b ha hab) ih

/-- The edges out of one item replaced: what it now leads to must not lead
to it by the old edges. -/
theorem acyclic_replace {c : α} {T : α → Prop} (hr : Acyclic r) (hsame : ∀ a b, a ≠ c → (r' a b ↔ r a b))
    (hnew : ∀ b, r' c b ↔ T b) : Acyclic r' ↔ ∀ b, T b → ¬ ReflTransGen r b c := by
  refine ⟨fun h b hb hreach => ?_, fun h => ?_⟩
  · have hreach' : ReflTransGen r' b c := reach_congr (fun a d ha hd => (hsame a d ha).mpr hd) hreach
    exact acyclic_no_return h ((hnew b).mpr hb) hreach'
  · apply acyclic_of_changed (S := (· = c)) (fun a b ha hab => (hsame a b ha).mp hab) hr
    rintro a d rfl had hreach
    exact h d ((hnew d).mp had) (reach_congr (fun b e hb he => (hsame b e hb).mp he) hreach)

end Acyclic

end Polaris.Lib.Reach
