import Polaris.Lib.Worklist
import Mathlib.Logic.Function.Basic
import Mathlib.Logic.Function.Iterate

namespace Polaris.Lib.Rounds

open Polaris.Lib.Worklist

variable {ι τ κ σ : Type} [DecidableEq κ]

section Names

variable (ready : ι → (κ → Bool) → Bool) (gives : ι → κ)

/-- What is known once a pass that began with `known` has been over the
items, from the last to the first. -/
def supplied (known : κ → Bool) : List ι → κ → Bool
  | [] => known
  | x :: items =>
    let before := supplied known items
    if ready x before then Function.update before (gives x) true else before

def inTurn (known : κ → Bool) (x : ι) (behind : List ι) : Bool := ready x (supplied ready gives known behind)

variable (items : List ι) (start : κ → Bool)

def knownAfter : Nat → κ → Bool
  | 0 => start
  | k + 1 => supplied ready gives (knownAfter k) items

def taken : Nat → ι → List ι → Bool
  | 0, _, _ => false
  | k + 1, x, behind => inTurn ready gives (knownAfter ready gives items start k) x behind

/-- The item is taken in that pass, and in no one before. -/
def Opens (k : Nat) (x : ι) (behind : List ι) : Prop :=
  taken ready gives items start k x behind = false ∧ taken ready gives items start (k + 1) x behind = true

def left (done : ι → List ι → Bool) : List ι → List ι
  | [] => []
  | x :: items => if done x items then left done items else x :: left done items

/-- The first item of its name that is done after the pass and was not
before. -/
def firstNew (done done' : ι → List ι → Bool) (n : κ) : List ι → Option ι
  | [] => none
  | x :: items =>
    if gives x = n ∧ done x items = false ∧ done' x items = true then some x else firstNew done done' n items

def writer (n : κ) : Nat → Option ι
  | 0 => none
  | k + 1 => (firstNew gives (taken ready gives items start k) (taken ready gives items start (k + 1)) n
      items).or (writer n k)

/-- More known names make no item wait. -/
def Monotone : Prop := ∀ x A B, (∀ p, A p = true → B p = true) → ready x A = true → ready x B = true

variable {ready gives items start} {known known' : κ → Bool} {x : ι} {behind rest : List ι}

theorem supplied_cons {p : κ} (h : supplied ready gives known rest p = true) :
    supplied ready gives known (x :: rest) p = true := by
  simp only [supplied]
  split_ifs
  · by_cases hp : p = gives x
    · rw [hp, Function.update_self]
    · rwa [Function.update_of_ne hp]
  · exact h

theorem supplied_known {p : κ} (h : known p = true) : supplied ready gives known rest p = true := by
  induction rest with
  | nil => exact h
  | cons x rest ih => exact supplied_cons ih

theorem supplied_append {ahead : List ι} {p : κ} (h : supplied ready gives known rest p = true) :
    supplied ready gives known (ahead ++ rest) p = true := by
  induction ahead with
  | nil => exact h
  | cons x ahead ih => exact supplied_cons ih

theorem supplied_mono (hm : Monotone ready) (h : ∀ p, known p = true → known' p = true) :
    ∀ p, supplied ready gives known rest p = true → supplied ready gives known' rest p = true := by
  induction rest with
  | nil => exact h
  | cons x rest ih =>
    intro p hp
    simp only [supplied] at hp ⊢
    by_cases hx : ready x (supplied ready gives known rest) = true
    · rw [if_pos hx] at hp
      rw [if_pos (hm x _ _ ih hx)]
      by_cases hpx : p = gives x
      · rw [hpx, Function.update_self]
      · rw [Function.update_of_ne hpx] at hp ⊢
        exact ih p hp
    · rw [if_neg hx] at hp
      split_ifs
      · by_cases hpx : p = gives x
        · rw [hpx, Function.update_self]
        · rw [Function.update_of_ne hpx]
          exact ih p hp
      · exact ih p hp

theorem inTurn_gives (h : inTurn ready gives known x behind = true) :
    supplied ready gives known (x :: behind) (gives x) = true := by
  have hready : ready x (supplied ready gives known behind) = true := h
  simp only [supplied, hready, if_true, Function.update_self]

theorem taken_succ (hm : Monotone ready) (k : Nat) (h : taken ready gives items start k x behind = true) :
    taken ready gives items start (k + 1) x behind = true := by
  cases k with
  | zero => cases h
  | succ k => exact hm x _ _ (supplied_mono hm fun _ => supplied_known) h

theorem taken_mono (hm : Monotone ready) {j k : Nat} (hjk : j ≤ k)
    (h : taken ready gives items start j x behind = true) :
    taken ready gives items start k x behind = true := by
  induction hjk with
  | refl => exact h
  | step _ ih => exact taken_succ hm _ ih

theorem taken_known {k : Nat} (hx : x :: behind <:+ items)
    (h : taken ready gives items start k x behind = true) :
    knownAfter ready gives items start k (gives x) = true := by
  cases k with
  | zero => cases h
  | succ k =>
    obtain ⟨ahead, rfl⟩ := hx
    exact supplied_append (inTurn_gives h)

theorem exists_opens {k : Nat} (h : taken ready gives items start k x behind = true) :
    ∃ j < k, Opens ready gives items start j x behind := by
  induction k with
  | zero => cases h
  | succ k ih =>
    cases hk : taken ready gives items start k x behind with
    | true =>
      obtain ⟨j, hj, ho⟩ := ih hk
      exact ⟨j, Nat.lt_succ_of_lt hj, ho⟩
    | false => exact ⟨k, Nat.lt_succ_self k, hk, h⟩

theorem mem_left {done : ι → List ι → Bool} (hx : x :: behind <:+ items) (h : done x behind = false) :
    x ∈ left done items := by
  induction items with
  | nil => simp at hx
  | cons y items ih =>
    obtain heq | hx := List.suffix_cons_iff.mp hx
    · cases heq
      simp [left, h]
    · simp only [left]
      split_ifs
      · exact ih hx
      · exact List.mem_cons_of_mem y (ih hx)

theorem firstNew_eq_some {done done' : ι → List ι → Bool} {n : κ}
    (h : firstNew gives done done' n items = some x) :
    ∃ ahead behind, items = ahead ++ x :: behind ∧ gives x = n ∧ done x behind = false ∧
      done' x behind = true ∧
      ∀ y after, y :: after <:+ items → gives y = n → done y after = false → done' y after = true →
        y :: after <:+ x :: behind := by
  induction items with
  | nil => cases h
  | cons a items ih =>
    simp only [firstNew] at h
    split_ifs at h with hnew
    · cases h
      exact ⟨[], items, rfl, hnew.1, hnew.2.1, hnew.2.2, fun y after hy _ _ _ => hy⟩
    · obtain ⟨ahead, behind, rfl, hname, hold, hdone, hfirst⟩ := ih h
      refine ⟨a :: ahead, behind, rfl, hname, hold, hdone, fun y after hy hn ho hd => ?_⟩
      obtain heq | hy := List.suffix_cons_iff.mp hy
      · cases heq
        exact absurd ⟨hn, ho, hd⟩ hnew
      · exact hfirst y after hy hn ho hd

theorem firstNew_eq_none {done done' : ι → List ι → Bool} {n : κ}
    (h : firstNew gives done done' n items = none)
    {y : ι} {after : List ι} (hy : y :: after <:+ items) (hn : gives y = n) (ho : done y after = false) :
    done' y after = false := by
  induction items with
  | nil => simp at hy
  | cons a items ih =>
    simp only [firstNew] at h
    split_ifs at h with hnew
    obtain heq | hy := List.suffix_cons_iff.mp hy
    · cases heq
      simpa [hn, ho] using hnew
    · exact ih h hy

theorem writer_eq_some {n : κ} {K : Nat} (h : writer ready gives items start n K = some x) :
    ∃ k < K, ∃ ahead behind, items = ahead ++ x :: behind ∧ gives x = n ∧
      Opens ready gives items start k x behind ∧
      ∀ j < K, ∀ y after, y :: after <:+ items → gives y = n → Opens ready gives items start j y after →
        j ≤ k ∧ (j = k → y :: after <:+ x :: behind) := by
  induction K with
  | zero => cases h
  | succ K ih =>
    obtain h | ⟨hnone, h⟩ := Option.or_eq_some_iff.mp h
    · obtain ⟨ahead, behind, hitems, hname, hold, hdone, hfirst⟩ := firstNew_eq_some h
      refine ⟨K, Nat.lt_succ_self K, ahead, behind, hitems, hname, ⟨hold, hdone⟩, ?_⟩
      intro j hj y after hy hn hopens
      refine ⟨Nat.le_of_lt_succ hj, ?_⟩
      rintro rfl
      exact hfirst y after hy hn hopens.1 hopens.2
    · obtain ⟨k, hk, ahead, behind, hitems, hname, hopens, hlast⟩ := ih h
      refine ⟨k, Nat.lt_succ_of_lt hk, ahead, behind, hitems, hname, hopens, ?_⟩
      intro j hj y after hy hn hj'
      obtain rfl | hlt := Nat.eq_or_lt_of_le (Nat.le_of_lt_succ hj)
      · have hno := firstNew_eq_none hnone hy hn hj'.1
        rw [hj'.2] at hno
        cases hno
      · exact hlast j hlt y after hy hn hj'

theorem writer_eq_none {n : κ} {K : Nat} (h : writer ready gives items start n K = none) {j : Nat}
    (hj : j < K) {y : ι} {after : List ι} (hy : y :: after <:+ items) (hn : gives y = n) :
    ¬ Opens ready gives items start j y after := by
  induction K with
  | zero => cases hj
  | succ K ih =>
    obtain ⟨hnone, h⟩ := Option.or_eq_none_iff.mp h
    obtain rfl | hlt := Nat.eq_or_lt_of_le (Nat.le_of_lt_succ hj)
    · intro hopens
      have hno := firstNew_eq_none hnone hy hn hopens.1
      rw [hopens.2] at hno
      cases hno
    · exact ih h hlt

end Names

section Passes

/-- How the items of a worklist act on what is known and on what the names
have from the items. -/
structure Supplies (apply : ι → τ → Option τ) (ready : ι → (κ → Bool) → Bool) (gives : ι → κ)
    (label : ι → σ) (has : τ → κ → Bool) (tag : τ → κ → Option σ) : Prop where
  monotone : Monotone ready
  applies : ∀ x t, (apply x t).isSome = ready x (has t)
  has_apply : ∀ x t t', apply x t = some t' → has t' = Function.update (has t) (gives x) true
  tag_apply : ∀ x t t', apply x t = some t' → tag t' = Function.update (tag t) (gives x) (some (label x))

variable {apply : ι → τ → Option τ} {ready : ι → (κ → Bool) → Bool} {gives : ι → κ} {label : ι → σ}
  {has : τ → κ → Bool} {tag : τ → κ → Option σ} {items : List ι} {t : τ}

/-- A pass over the items that are not done takes those that are in turn. -/
theorem pass_left (h : Supplies apply ready gives label has tag) {done : ι → List ι → Bool}
    (hdone : ∀ x behind, x :: behind <:+ items → done x behind = true →
      inTurn ready gives (has t) x behind = true ∧ has t (gives x) = true) :
    (Worklist.pass apply (left done items) t).1 = left (inTurn ready gives (has t)) items ∧
      has (Worklist.pass apply (left done items) t).2 = supplied ready gives (has t) items ∧
      ∀ n, tag (Worklist.pass apply (left done items) t).2 n =
        ((firstNew gives done (inTurn ready gives (has t)) n items).map label).or (tag t n) := by
  induction items with
  | nil => simp [left, Worklist.pass, supplied, firstNew]
  | cons x items ih =>
    obtain ⟨hleft, hhas, htag⟩ := ih fun y behind hy => hdone y behind (hy.trans (List.suffix_cons x items))
    by_cases hx : done x items = true
    · obtain ⟨hturn, hknown⟩ := hdone x items (List.suffix_refl _) hx
      have hready : ready x (supplied ready gives (has t) items) = true := hturn
      have hsame : Function.update (supplied ready gives (has t) items) (gives x) true =
          supplied ready gives (has t) items := by
        rw [Function.update_eq_self_iff]
        exact (supplied_known hknown).symm
      refine ⟨?_, ?_, fun n => ?_⟩
      · simp only [left, hx, hturn, if_true]
        exact hleft
      · simp only [left, hx, if_true, supplied, hready, hsame]
        exact hhas
      · simp only [left, hx, if_true, firstNew, Bool.true_eq_false, false_and, and_false, if_false]
        exact htag n
    · have hnot : done x items = false := by simpa using hx
      have hready := h.applies x (Worklist.pass apply (left done items) t).2
      rw [hhas] at hready
      cases happly : apply x (Worklist.pass apply (left done items) t).2 with
      | some t' =>
        have hpass : Worklist.pass apply (left done (x :: items))
          t = ((Worklist.pass apply (left done items) t).1, t') := by
          simp only [left, hnot, Bool.false_eq_true, if_false, Worklist.pass, happly]
        have hsome : ready x (supplied ready gives (has t) items) = true := by
          rw [← hready, happly]
          rfl
        have hturn : inTurn ready gives (has t) x items = true := hsome
        rw [hpass]
        refine ⟨?_, ?_, fun n => ?_⟩
        · simp only [left, hturn, if_true]
          exact hleft
        · simp only [supplied, hsome, if_true]
          rw [h.has_apply x _ _ happly, hhas]
        · rw [h.tag_apply x _ _ happly]
          by_cases hn : n = gives x
          · subst hn
            simp [firstNew, hnot, hturn]
          · rw [Function.update_of_ne hn]
            simp only [firstNew, Ne.symm hn, false_and, if_false]
            exact htag n
      | none =>
        have hpass : Worklist.pass apply (left done (x :: items)) t =
            (x :: (Worklist.pass apply (left done items) t).1,
              (Worklist.pass apply (left done items) t).2) := by
          simp only [left, hnot, Bool.false_eq_true, if_false, Worklist.pass, happly]
        have hwait : ready x (supplied ready gives (has t) items) = false := by
          rw [← hready, happly]
          rfl
        have hturn : inTurn ready gives (has t) x items = false := hwait
        rw [hpass]
        refine ⟨?_, ?_, fun n => ?_⟩
        · simp only [left, hturn, Bool.false_eq_true, if_false, hleft]
        · simp only [supplied, hwait, Bool.false_eq_true, if_false]
          exact hhas
        · simp only [firstNew, hturn, Bool.false_eq_true, and_false, if_false]
          exact htag n

def passes (apply : ι → τ → Option τ) (items : List ι) (t : τ) (k : Nat) : List ι × τ :=
  (fun p => Worklist.pass apply p.1 p.2)^[k] (items, t)

theorem passes_succ (k : Nat) :
    passes apply items t (k + 1) = Worklist.pass apply (passes apply items t k).1
      (passes apply items t k).2 :=
  Function.iterate_succ_apply' _ _ _

theorem settle_passes (n : Nat) : settle apply n items t = (passes apply items t n).2 := by
  induction n generalizing items t with
  | zero => rfl
  | succ n ih =>
    simp only [settle]
    split_ifs with hp
    · exact ih
    · obtain ⟨hsame, -⟩ := pass_stuck hp
      have hfixed : passes apply items t (n + 1) = (items, t) := Function.iterate_fixed hsame (n + 1)
      rw [hfixed, hsame]

/-- As many passes as there are items reach the end. -/
theorem passes_stuck :
    Worklist.pass apply (passes apply items t items.length).1 (passes apply items t items.length).2 =
      passes apply items t items.length := by
  have hshrinks : ∀ k, Worklist.pass apply (passes apply items t k).1 (passes apply items t k).2 =
      passes apply items t k ∨ (passes apply items t k).1.length + k ≤ items.length := by
    intro k
    induction k with
    | zero => exact .inr (Nat.le_refl _)
    | succ k ih =>
      obtain hstuck | hle := ih
      · left
        rw [passes_succ, hstuck, hstuck]
      · by_cases hp : (Worklist.pass apply (passes apply items t k).1 (passes apply items t k).2).1.length <
            (passes apply items t k).1.length
        · right
          rw [passes_succ]
          omega
        · left
          obtain ⟨hsame, -⟩ := pass_stuck hp
          rw [passes_succ, hsame]
          exact hsame
  obtain hstuck | hle := hshrinks items.length
  · exact hstuck
  · have hnil : (passes apply items t items.length).1 = [] := List.length_eq_zero_iff.mp (by omega)
    refine Prod.ext ?_ ?_
    · rw [hnil]
      rfl
    · rw [hnil]
      rfl

variable (t) in
theorem passes_stable {k : Nat} (hk : items.length ≤ k) :
    passes apply items t k = passes apply items t items.length := by
  induction hk with
  | refl => rfl
  | step _ ih => rw [passes_succ, ih, passes_stuck]

variable (items t) in
theorem passes_state (h : Supplies apply ready gives label has tag) (k : Nat) :
    (passes apply items t k).1 = left (taken ready gives items (has t) k) items ∧
      has (passes apply items t k).2 = knownAfter ready gives items (has t) k ∧
      ∀ n, tag (passes apply items t k).2 n =
        ((writer ready gives items (has t) n k).map label).or (tag t n) := by
  induction k with
  | zero =>
    have hall : ∀ items : List ι, left (taken ready gives items (has t) 0) items = items := by
      intro items
      have hnone : ∀ rest : List ι, left (fun _ _ => false) rest = rest := by
        intro rest
        induction rest with
        | nil => rfl
        | cons x rest ih => simp [left, ih]
      exact hnone items
    exact ⟨(hall items).symm, rfl, fun n => by simp [passes, writer]⟩
  | succ k ih =>
    obtain ⟨hleft, hhas, htag⟩ := ih
    have hturn : inTurn ready gives (has (passes apply items t k).2) =
        taken ready gives items (has t) (k + 1) := by
      rw [hhas]
      rfl
    have hpass := pass_left (t := (passes apply items t k).2) h (fun x behind hx hd => by
      rw [hturn, hhas]
      exact ⟨taken_succ h.monotone k hd, taken_known hx hd⟩)
    rw [← hleft, ← passes_succ, hturn] at hpass
    refine ⟨hpass.1, ?_, fun n => ?_⟩
    · rw [hpass.2.1, hhas]
      rfl
    · rw [hpass.2.2 n, htag n, writer, Option.map_or, Option.or_assoc]

theorem taken_ready (hm : Monotone ready) {start : κ → Bool} {k : Nat} {x : ι} {behind : List ι}
    (hx : x :: behind <:+ items) (h : taken ready gives items start k x behind = true) :
    ready x (knownAfter ready gives items start k) = true := by
  cases k with
  | zero => cases h
  | succ k =>
    obtain ⟨ahead, rfl⟩ := hx
    exact hm x _ _ (fun p hp => supplied_append (supplied_cons hp)) h

theorem opens_lt (h : Supplies apply ready gives label has tag) {k : Nat} {x : ι} {behind : List ι}
    (hx : x :: behind <:+ items) (ho : Opens ready gives items (has t) k x behind) : k < items.length := by
  by_contra hge
  have hk : items.length ≤ k := Nat.le_of_not_lt hge
  obtain ⟨hleft, hhas, -⟩ := passes_state items t h items.length
  obtain ⟨-, hlater, -⟩ := passes_state items t h k
  rw [passes_stable t hk, hhas] at hlater
  have hwait : taken ready gives items (has t) items.length x behind = false := by
    cases htaken : taken ready gives items (has t) items.length x behind with
    | false => rfl
    | true =>
      have hold := ho.1
      rw [taken_mono h.monotone hk htaken] at hold
      cases hold
  have hmem := mem_left hx hwait
  rw [← hleft] at hmem
  have hstuck : ¬ (Worklist.pass apply (passes apply items t items.length).1
      (passes apply items t items.length).2).1.length < (passes apply items t items.length).1.length := by
    rw [passes_stuck]
    exact Nat.lt_irrefl _
  have hnone := (pass_stuck hstuck).2 x hmem
  have happlies := h.applies x (passes apply items t items.length).2
  rw [hnone, hhas, hlater] at happlies
  have hready := taken_ready h.monotone hx ho.2
  have hnext : knownAfter ready gives items (has t) (k + 1) = knownAfter ready gives items (has t) k := by
    obtain ⟨-, hnext, -⟩ := passes_state items t h (k + 1)
    rw [passes_stable t (Nat.le_succ_of_le hk), hhas, hlater] at hnext
    exact hnext.symm
  rw [hnext, ← happlies] at hready
  cases hready

/-- What a name has from the items when the worklist is settled. -/
theorem settle_tag (h : Supplies apply ready gives label has tag) (n : κ) :
    tag (settle apply items.length items t) n =
      ((writer ready gives items (has t) n items.length).map label).or (tag t n) := by
  rw [settle_passes]
  exact (passes_state items t h items.length).2.2 n

theorem settle_ready_iff (h : Supplies apply ready gives label has tag) {x : ι} {behind : List ι}
    (hx : x :: behind <:+ items) :
    ready x (has (settle apply items.length items t)) = true ↔
      ∃ k, Opens ready gives items (has t) k x behind := by
  rw [settle_passes, (passes_state items t h items.length).2.1]
  constructor
  · intro hready
    have hturn : taken ready gives items (has t) (items.length + 1) x behind = true :=
      h.monotone x _ _ (fun _ => supplied_known) hready
    obtain ⟨k, -, ho⟩ := exists_opens hturn
    exact ⟨k, ho⟩
  · rintro ⟨k, ho⟩
    exact taken_ready h.monotone hx (taken_mono h.monotone (opens_lt h hx ho) ho.2)

end Passes

end Polaris.Lib.Rounds
