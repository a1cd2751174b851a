import Polaris.DependencySuppression

namespace Polaris.DependencyOutages

open Polaris.DependencyTree Polaris.DependencySuppression Polaris.Lib.Probe Polaris.Lib.Reach

section Outages

def evaluateOnClock (clock : Nat → Nat) (states : List SuppressionAssetState) (parentsByChild : ParentMap) :
    Suppressed :=
  (sorted states).zipIdx.foldl (fun result s => evaluateOne (clock s.2) states parentsByChild result s.1)
    (unsuppressed states)

/-- The same asset, which may have gone down or have been put under test. -/
structure Worse (clock : Nat → Nat) (s s' : SuppressionAssetState) : Prop where
  id : s'.id = s.id
  layer : s'.layer = s.layer
  monitored : s'.monitored = s.monitored
  status : s'.monitorStatus = s.monitorStatus ∨ s'.monitorStatus = some "down"
  tested : ∀ i, testing (clock i) s = true → testing (clock i) s' = true

def Within (result result' : Suppressed) : Prop := ∀ id, result id = some true → result' id = some true

end Outages

section Sorting

variable {α β : Type} {R : α → β → Prop} {f : α → Nat} {g : β → Nat} {a : α} {b : β} {l : List α}
  {l' : List β}

theorem forall₂_orderedInsert (hkey : ∀ a b, R a b → g b = f a) (hab : R a b) (h : List.Forall₂ R l l') :
    List.Forall₂ R (l.orderedInsert (fun x y => f x ≤ f y) a)
      (l'.orderedInsert (fun x y => g x ≤ g y) b) := by
  induction h with
  | nil => exact .cons hab .nil
  | @cons x y l l' hxy hl ih =>
    rw [List.orderedInsert_cons, List.orderedInsert_cons, hkey a b hab, hkey x y hxy]
    by_cases hle : f a ≤ f x
    · rw [if_pos hle, if_pos hle]
      exact .cons hab (.cons hxy hl)
    · rw [if_neg hle, if_neg hle]
      exact .cons hxy ih

theorem forall₂_insertionSort (hkey : ∀ a b, R a b → g b = f a) (h : List.Forall₂ R l l') :
    List.Forall₂ R (l.insertionSort fun x y => f x ≤ f y) (l'.insertionSort fun x y => g x ≤ g y) := by
  induction h with
  | nil => exact .nil
  | cons hab _ ih => exact forall₂_orderedInsert hkey hab ih

end Sorting

section Step

variable {clock : Nat → Nat} {states states' : List SuppressionAssetState} {parentsByChild : ParentMap}
  {result result' : Suppressed} {s s' : SuppressionAssetState} {i : Nat} {id : String}

theorem stateById_worse (h : List.Forall₂ (Worse clock) states states') (id : String) :
    (stateById states id = none ∧ stateById states' id = none) ∨
      ∃ s s', stateById states id = some s ∧ stateById states' id = some s' ∧ Worse clock s s' := by
  rw [stateById, stateById]
  have hrev := List.forall₂_reverse_iff.mpr h
  generalize states.reverse = l, states'.reverse = l' at hrev
  induction hrev with
  | nil => exact .inl ⟨rfl, rfl⟩
  | @cons s s' _ _ hss _ ih =>
    rw [List.find?_cons, List.find?_cons, hss.id]
    by_cases hid : s.id = id
    · rw [decide_eq_true hid]
      exact .inr ⟨s, s', rfl, rfl, hss⟩
    · rw [decide_eq_false hid]
      exact ih

theorem ok_worse (h : List.Forall₂ (Worse clock) states states') (hwithin : Within result result')
    (hok : Ok (clock i) states' parentsByChild result' id) :
    Ok (clock i) states parentsByChild result id := by
  have hcases : ∀ a s s', stateById states a = some s → stateById states' a = some s' → Worse clock s s' →
      testing (clock i) s' = false → testing (clock i) s = false := by
    intro a s s' _ _ hworse htest
    by_contra hs
    rw [hworse.tested i (Bool.not_eq_false _ ▸ hs)] at htest
    cases htest
  induction hok with
  | @here a hyes =>
    apply Found.here
    rw [verdict_true] at hyes ⊢
    intro s hs
    obtain ⟨hnone, -⟩ | ⟨t, s', ht, hs', hworse⟩ := stateById_worse h a
    · rw [hnone] at hs
      cases hs
    obtain rfl := Option.some.inj (ht.symm.trans hs)
    obtain ⟨hidle, hends⟩ := hyes s' hs'
    refine ⟨hcases a t s' ht hs' hworse hidle, ?_⟩
    rw [hworse.monitored] at hends
    by_cases hm : t.monitored = true
    · rw [if_pos hm] at hends ⊢
      obtain ⟨hup, hfree⟩ := hends
      refine ⟨?_, fun hsup => hfree (hwithin a hsup)⟩
      obtain hsame | hdown := hworse.status
      · rwa [← hsame]
      · exact absurd hdown hup
    · rw [if_neg hm] at hends ⊢
      exact hends
  | @next a b ns hns hb _ ih =>
    obtain ⟨s', hs', htest, hm, hmem⟩ := leads_verdict.mp ⟨ns, hns, hb⟩
    obtain ⟨-, hnone⟩ | ⟨s, t, hs, ht, hworse⟩ := stateById_worse h a
    · rw [hnone] at hs'
      cases hs'
    obtain rfl := Option.some.inj (ht.symm.trans hs')
    have hthrough : Through (clock i) states parentsByChild a b :=
      ⟨s, hs, hcases a s t hs ht hworse htest, by rw [← hworse.monitored, hm], hmem⟩
    obtain ⟨ns', hns', hb'⟩ := leads_verdict.mpr hthrough
    exact .next hns' hb' ih

theorem evaluateOne_within (hacyclic : Acyclic (Follows (parentsOf parentsByChild)))
    (h : List.Forall₂ (Worse clock) states states') (hwithin : Within result result') (hss : Worse clock s s')
    (i : Nat) :
    Within (evaluateOne (clock i) states parentsByChild result s)
      (evaluateOne (clock i) states' parentsByChild result' s') := by
  intro id hid
  by_cases heq : id = s.id
  · subst heq
    obtain ⟨hparents, hnone⟩ := (evaluateOne_self hacyclic s).mp hid
    have hself : evaluateOne (clock i) states' parentsByChild result' s' s'.id = some true ↔ _ :=
      evaluateOne_self hacyclic s'
    rw [hss.id] at hself
    exact hself.mpr ⟨hparents, fun p hp hok => hnone p hp (ok_worse h hwithin hok)⟩
  · rw [evaluateOne_of_ne heq] at hid
    rw [evaluateOne_of_ne (by rwa [hss.id])]
    exact hwithin id hid

theorem evaluate_within (hacyclic : Acyclic (Follows (parentsOf parentsByChild)))
    (h : List.Forall₂ (Worse clock) states states') {l l' : List SuppressionAssetState}
    (hl : List.Forall₂ (Worse clock) l l') (hwithin : Within result result') (n : Nat) :
    Within ((l.zipIdx n).foldl
      (fun result s => evaluateOne (clock s.2) states parentsByChild result s.1) result)
      ((l'.zipIdx n).foldl
        (fun result s => evaluateOne (clock s.2) states' parentsByChild result s.1) result') := by
  induction hl generalizing result result' n with
  | nil => exact hwithin
  | cons hss _ ih => exact ih (evaluateOne_within hacyclic h hwithin hss n) (n + 1)

end Step

section Monotone

/-- One more failure never takes a suppression back. -/
theorem suppression_monotone (clock : Nat → Nat) (states states' : List SuppressionAssetState)
    (parentsByChild : ParentMap)
    (hacyclic : Acyclic (Follows (parentsOf parentsByChild))) (h : List.Forall₂ (Worse clock) states states')
    (id : String)
    (hid : evaluateOnClock clock states parentsByChild id = some true) :
    evaluateOnClock clock states' parentsByChild id = some true := by
  have hsorted : List.Forall₂ (Worse clock) (sorted states) (sorted states') := by
    apply forall₂_insertionSort
    · intro s s' hss
      rw [sortLayer, sortLayer, hss.layer]
    · exact h
  refine evaluate_within hacyclic h hsorted (fun id hid => ?_) 0 id hid
  exact absurd hid (unsuppressed_ne_true states id)

/-- With a clock that stands still this is the evaluation at one time. -/
theorem evaluateOnClock_const (now : Nat) (states : List SuppressionAssetState) (parentsByChild : ParentMap) :
    evaluateOnClock (fun _ => now) states parentsByChild = evaluateSuppression now states parentsByChild := by
  have hfold : ∀ (l : List SuppressionAssetState) (n : Nat) (result : Suppressed),
      (l.zipIdx n).foldl (fun result s => evaluateOne now states parentsByChild result s.1) result =
        l.foldl (evaluateOne now states parentsByChild) result := by
    intro l
    induction l with
    | nil => exact fun _ _ => rfl
    | cons s l ih => exact fun n result => ih (n + 1) _
  exact hfold (sorted states) 0 (unsuppressed states)

variable (clock : Nat → Nat)

def takeDown (ids : List String) (s : SuppressionAssetState) : SuppressionAssetState :=
  if s.id ∈ ids then { s with monitorStatus := some "down" } else s

def putUnderTest (ids : List String) (til : Nat) (s : SuppressionAssetState) : SuppressionAssetState :=
  if s.id ∈ ids then { s with dependencyTestUntil := some til } else s

theorem worse_takeDown (ids : List String) (s : SuppressionAssetState) : Worse clock s (takeDown ids s) := by
  rw [takeDown]
  split_ifs
  · exact ⟨rfl, rfl, rfl, .inr rfl, fun _ h => h⟩
  · exact ⟨rfl, rfl, rfl, .inl rfl, fun _ h => h⟩

theorem forall₂_map {f : SuppressionAssetState → SuppressionAssetState} (h : ∀ s, Worse clock s (f s))
    (states : List SuppressionAssetState) : List.Forall₂ (Worse clock) states (states.map f) := by
  rw [List.forall₂_map_right_iff, List.forall₂_same]
  exact fun s _ => h s

theorem suppression_survives_second_outage :
    evaluateOnClock (fun _ => 0) ((siteStates (some 2)).map (putUnderTest ["core"] 5)) siteParents
      "acc" = some true ∧
      evaluateOnClock (fun _ => 0) (((siteStates (some 2)).map (putUnderTest ["core"] 5)).map
        (takeDown ["core", "acc"])) siteParents "acc" = some true := by
  have hbefore : evaluateOnClock (fun _ => 0) ((siteStates (some 2)).map (putUnderTest ["core"] 5))
      siteParents "acc" = some true := by decide +kernel
  exact ⟨hbefore, suppression_monotone (fun _ => 0) _ _ siteParents site_acyclic
    (forall₂_map _ (worse_takeDown _ ["core", "acc"]) _) "acc" hbefore⟩

end Monotone

end Polaris.DependencyOutages
