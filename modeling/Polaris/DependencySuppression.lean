import Polaris.DependencyCycles
import Polaris.Lib.Assoc
import Polaris.Lib.Probe

namespace Polaris.DependencySuppression

open Relation Polaris.Lib Polaris.DependencyTree Polaris.DependencyCycles Polaris.Lib.Probe Polaris.Lib.Reach

section Evaluation

structure SuppressionAssetState where
  id : String
  layer : Option Nat
  monitored : Bool
  monitorStatus : Option String
  dependencyTestUntil : Option Nat := none
  deriving DecidableEq

abbrev ParentMap := List (String × List String)

def parentsOf (parentsByChild : ParentMap) (id : String) : List String :=
  ((parentsByChild.find? (·.1 = id)).map Prod.snd).getD []

def MAX_SAFE_INTEGER : Nat := 2 ^ 53 - 1

def sortLayer (s : SuppressionAssetState) : Nat := s.layer.getD MAX_SAFE_INTEGER

def sorted (states : List SuppressionAssetState) : List SuppressionAssetState :=
  states.insertionSort fun a b => sortLayer a ≤ sortLayer b

variable (now : Nat) (states : List SuppressionAssetState) (parentsByChild : ParentMap)

def stateById (id : String) : Option SuppressionAssetState := states.reverse.find? (·.id = id)

def testing (s : SuppressionAssetState) : Bool := s.dependencyTestUntil.any (now < ·)

abbrev Suppressed := String → Option Bool

variable (result : Suppressed)

/-- The depth of the recursion is bounded by fuel: each level has seen one
more unmonitored asset. -/
def isParentOk : Nat → String → List String → Bool × List String
  | 0, _, visited => (false, visited)
  | fuel + 1, parentId, visited =>
    if parentId ∈ visited then (false, visited)
    else
      match stateById states parentId with
      | none => (true, parentId :: visited)
      | some ps =>
        if testing now ps then (false, parentId :: visited)
        else if !ps.monitored then
          let grand := parentsOf parentsByChild parentId
          if grand = [] then (true, parentId :: visited)
            else someOf (isParentOk fuel) grand (parentId :: visited)
        else (ps.monitorStatus ≠ some "down" && !(result parentId).getD false, parentId :: visited)

def anyParentOk (parents : List String) : Bool :=
  (someOf (isParentOk now states parentsByChild result (states.length + 1)) parents []).1

def evaluateOne (s : SuppressionAssetState) : Suppressed :=
  let parents := parentsOf parentsByChild s.id
  if parents = [] then Function.update result s.id (some false)
  else Function.update result s.id (some !anyParentOk now states parentsByChild result parents)

def unsuppressed : Suppressed :=
  (sorted states).foldl (fun result s => Function.update result s.id (some false)) fun _ => none

/-- One reading of the clock stands for all that one evaluation takes. -/
def evaluateSuppression : Suppressed :=
  (sorted states).foldl (evaluateOne now states parentsByChild) (unsuppressed states)

end Evaluation

section Parents

def setParents (m : ParentMap) (child : String) (parents : List String) : ParentMap :=
  if m.any (·.1 = child) then m.map fun p => if p.1 = child then (child, parents) else p
  else m ++ [(child, parents)]

def collectParents (rows : List Row) : ParentMap :=
  rows.foldl (fun m r => setParents m r.assetId (parentsOf m r.assetId ++ [r.parentAssetId])) []

def loadEffectiveParents (rows : List Row) : ParentMap :=
  let overridesByChild := collectParents (rows.filter (·.source = .override))
  let computedByChild := collectParents (rows.filter (·.source ≠ .override))
  (computedByChild ++ overridesByChild).foldl (fun m p => setParents m p.1 p.2) []

variable {m : ParentMap} {rows : List Row} {child id : String} {parents : List String}

theorem parentsOf_setParents : parentsOf (setParents m child parents) id = if id = child then parents
    else parentsOf m id := by
  have hset : parentsOf (setParents m child parents) id =
    (Assoc.get (Assoc.set m child parents) id).getD [] := rfl
  rw [hset, Assoc.get_set]
  split_ifs
  · rfl
  · rfl

/-- Every key of a map has one set of parents, and not the empty one. -/
def Grouped (m : ParentMap) : Prop := ∀ p ∈ m, p.2 = parentsOf m p.1 ∧ p.2 ≠ []

theorem Grouped.set (h : Grouped m) (hne : parents ≠ []) : Grouped (setParents m child parents) := by
  intro p hp
  rw [parentsOf_setParents]
  have hcases : p = (child, parents) ∨ (p ∈ m ∧ (p.1 = child → p.2 = parents)) := by
    rw [setParents] at hp
    split_ifs at hp with hany
    · obtain ⟨q, hq, rfl⟩ := List.mem_map.mp hp
      split_ifs with hc
      · exact .inl rfl
      · exact .inr ⟨hq, fun he => absurd he hc⟩
    · obtain hp | hp := List.mem_append.mp hp
      · exact .inr ⟨hp, fun he => absurd (List.any_eq_true.mpr ⟨p, hp, decide_eq_true he⟩) hany⟩
      · exact .inl (List.mem_singleton.mp hp)
  obtain rfl | ⟨hmem, hsame⟩ := hcases
  · exact ⟨(if_pos rfl).symm, hne⟩
  · refine ⟨?_, (h p hmem).2⟩
    split_ifs with hc
    · exact hsame hc
    · exact (h p hmem).1

theorem Grouped.any (h : Grouped m) : m.any (·.1 = id) = true ↔ parentsOf m id ≠ [] := by
  rw [List.any_eq_true]
  constructor
  · rintro ⟨p, hp, hid⟩
    obtain ⟨heq, hne⟩ := h p hp
    rw [decide_eq_true_eq] at hid
    rwa [heq, hid] at hne
  · intro hne
    rw [parentsOf] at hne
    cases hf : m.find? fun p => decide (p.1 = id) with
    | none =>
      rw [hf] at hne
      exact absurd rfl hne
    | some p =>
      have hid := List.find?_some hf
      exact ⟨p, List.mem_of_find?_eq_some hf, hid⟩

theorem collect_spec (h : Grouped m) : Grouped (rows.foldl (fun m r =>
      setParents m r.assetId (parentsOf m r.assetId ++ [r.parentAssetId])) m) ∧
    parentsOf (rows.foldl
      (fun m r => setParents m r.assetId (parentsOf m r.assetId ++ [r.parentAssetId])) m) id =
      parentsOf m id ++ (rows.filter (·.assetId = id)).map Row.parentAssetId := by
  induction rows generalizing m with
  | nil => exact ⟨h, (List.append_nil _).symm⟩
  | cons r rows ih =>
    have hset : Grouped (setParents m r.assetId (parentsOf m r.assetId ++ [r.parentAssetId])) :=
      h.set (List.append_ne_nil_of_right_ne_nil _ (List.cons_ne_nil _ _))
    obtain ⟨hgrouped, hparents⟩ := ih hset
    refine ⟨hgrouped, ?_⟩
    rw [List.foldl_cons, hparents, parentsOf_setParents, List.filter_cons]
    by_cases hid : r.assetId = id
    · rw [if_pos hid.symm, if_pos (decide_eq_true hid), hid, List.map_cons, List.append_assoc]
      rfl
    · rw [if_neg (Ne.symm hid), if_neg (by simpa using hid)]

theorem grouped_collectParents (rows : List Row) : Grouped (collectParents rows) :=
  (@collect_spec [] rows "" fun _ hp => absurd hp List.not_mem_nil).1

theorem parentsOf_collectParents (rows : List Row) (id : String) :
    parentsOf (collectParents rows) id = (rows.filter (·.assetId = id)).map Row.parentAssetId :=
  (collect_spec fun _ hp => absurd hp List.not_mem_nil).2

theorem parentsOf_foldl {l : ParentMap} {f : String → List String} (hf : ∀ p ∈ l, p.2 = f p.1) :
    parentsOf (l.foldl (fun m p => setParents m p.1 p.2) m) id = if l.any (·.1 = id) then f id
      else parentsOf m id := by
  induction l generalizing m with
  | nil => rfl
  | cons p l ih =>
    rw [List.foldl_cons, ih fun q hq => hf q (List.mem_cons_of_mem _ hq), parentsOf_setParents, List.any_cons]
    by_cases hl : l.any (·.1 = id) = true
    · rw [hl, Bool.or_true]
      rfl
    · rw [Bool.not_eq_true] at hl
      rw [hl, Bool.or_false]
      by_cases hp : p.1 = id
      · rw [if_pos hp.symm, decide_eq_true hp, hf p List.mem_cons_self, hp]
        rfl
      · rw [if_neg (Ne.symm hp), decide_eq_false hp]

theorem parentsOf_loadEffectiveParents :
    parentsOf (loadEffectiveParents rows) id = effectiveParentsOf rows id := by
  have hparents : ∀ source : Source, ∀ q : Row → Bool, (∀ r, q r = decide (r.source = source)) →
      ((rows.filter q).filter (·.assetId = id)).map Row.parentAssetId = parentsFrom rows source id := by
    intro source q hq
    rw [parentsFrom, List.filter_filter]
    refine congrArg _ (List.filter_congr fun r _ => ?_)
    rw [hq, Bool.and_comm]
  have hcomputed : ∀ r : Row, decide (r.source ≠ .override) = decide (r.source = .computed) := by
    intro r
    cases r.source <;> rfl
  rw [loadEffectiveParents, List.foldl_append, parentsOf_foldl fun p hp => (grouped_collectParents _ p hp).1,
    parentsOf_foldl fun p hp => (grouped_collectParents _ p hp).1]
  have ho : parentsOf (collectParents (rows.filter (·.source = .override))) id =
    parentsFrom rows .override id :=
    (parentsOf_collectParents _ _).trans (hparents .override _ fun _ => rfl)
  have hc : parentsOf (collectParents (rows.filter (·.source ≠ .override))) id =
    parentsFrom rows .computed id :=
    (parentsOf_collectParents _ _).trans (hparents .computed _ hcomputed)
  rw [effectiveParentsOf, ← ho, ← hc]
  by_cases hempty : parentsOf (collectParents (rows.filter (·.source = .override))) id = []
  · have hno : ¬ (collectParents (rows.filter (·.source = .override))).any (·.1 = id) = true :=
      fun hany => (grouped_collectParents _).any.mp hany hempty
    rw [if_neg hno, if_pos hempty]
    split_ifs with hany
    · rfl
    · have hnone := not_not.mp (mt (grouped_collectParents _).any.mpr hany)
      exact hnone.symm
  · rw [if_pos ((grouped_collectParents _).any.mpr hempty), if_neg hempty]

end Parents

section Equation

variable (now : Nat) (states : List SuppressionAssetState) (parentsByChild : ParentMap)

/-- What a parent answers for itself, or whom it passes the question on to. -/
def verdict (result : Suppressed) (id : String) : Bool ⊕ List String :=
  match stateById states id with
  | none => .inl true
  | some ps =>
    if testing now ps then .inl false
    else if !ps.monitored then
      if parentsOf parentsByChild id = [] then .inl true else .inr (parentsOf parentsByChild id)
    else .inl (ps.monitorStatus ≠ some "down" && !(result id).getD false)

def Ok (result : Suppressed) : String → Prop := Found (verdict now states parentsByChild result)

/-- An asset is suppressed just when it has parents and none of them is ok. -/
def Solves (result : Suppressed) : Prop :=
  ∀ s ∈ states, result s.id = some true ↔
    parentsOf parentsByChild s.id ≠ [] ∧ ∀ p ∈ parentsOf parentsByChild s.id,
      ¬ Ok now states parentsByChild result p

def link (id : String) : Bool ⊕ List String :=
  match stateById states id with
  | none => .inl true
  | some ps =>
    if testing now ps || ps.monitored && ps.monitorStatus = some "down" then .inl false
    else if parentsOf parentsByChild id = [] then .inl true
    else .inr (parentsOf parentsByChild id)

/-- Some way up leads over assets that are neither down nor under test to
one without parents, or to an unknown one. -/
def Live : String → Prop := Found (link now states parentsByChild)

def CutOff (id : String) : Prop :=
  parentsOf parentsByChild id ≠ [] ∧ ∀ p ∈ parentsOf parentsByChild id, ¬ Live now states parentsByChild p

/-- One step up from an unmonitored asset. -/
def Through (a b : String) : Prop :=
  ∃ s, stateById states a = some s ∧ testing now s = false ∧ s.monitored = false ∧
    b ∈ parentsOf parentsByChild a

/-- Whenever an asset is cut off, the monitored assets that it asks and that
are not down themselves come before it. -/
def InOrder : Prop :=
  ∀ s ∈ states, CutOff now states parentsByChild s.id → ∀ p ∈ parentsOf parentsByChild s.id, ∀ g ∈ states,
    ReflTransGen (Through now states parentsByChild) p g.id → g.monitored = true → testing now g = false →
    g.monitorStatus ≠ some "down" → [g, s].Sublist (sorted states)

variable {now states parentsByChild} {result : Suppressed} {id p : String}

theorem ok_iff : Ok now states parentsByChild result id ↔
    ∀ ps, stateById states id = some ps → testing now ps = false ∧
      if ps.monitored then ps.monitorStatus ≠ some "down" ∧ result id ≠ some true
      else parentsOf parentsByChild id = [] ∨ ∃ q ∈ parentsOf parentsByChild id,
        Ok now states parentsByChild result q := by
  rw [Ok, found_iff]
  cases hs : stateById states id with
  | none =>
    refine iff_of_true (.inl ?_) fun ps h => nomatch h
    rw [verdict, hs]
  | some ps =>
    simp only [Option.some.injEq, forall_eq', Leads, verdict, hs]
    cases testing now ps with
    | true => simp
    | false =>
      cases hm : ps.monitored with
      | true =>
        cases result id with
        | none => simp
        | some b => cases b <;> simp
      | false =>
        by_cases hnil : parentsOf parentsByChild id = []
        · simp [hnil]
        · simp [hnil]

theorem live_iff : Live now states parentsByChild id ↔
    ∀ ps, stateById states id = some ps → testing now ps = false ∧
      if ps.monitored then ps.monitorStatus ≠ some "down" ∧ ¬ CutOff now states parentsByChild id
      else parentsOf parentsByChild id = [] ∨ ∃ q ∈ parentsOf parentsByChild id,
        Live now states parentsByChild q := by
  rw [Live, found_iff]
  cases hs : stateById states id with
  | none =>
    refine iff_of_true (.inl ?_) fun ps h => nomatch h
    rw [link, hs]
  | some ps =>
    simp only [Option.some.injEq, forall_eq', Leads, link, hs, CutOff, Live]
    cases testing now ps with
    | true => simp
    | false =>
      by_cases hnil : parentsOf parentsByChild id = []
      · cases hm : ps.monitored with
        | true => by_cases hdown : ps.monitorStatus = some "down" <;> simp [hnil, hdown]
        | false => simp [hnil]
      · cases hm : ps.monitored with
        | true => by_cases hdown : ps.monitorStatus = some "down" <;> simp [hnil, hdown]
        | false => simp [hnil]

theorem known_mem {ps : SuppressionAssetState} (h : stateById states id = some ps) :
    ps ∈ states ∧ ps.id = id := by
  have hid := List.find?_some h
  rw [decide_eq_true_eq] at hid
  exact ⟨List.mem_reverse.mp (List.mem_of_find?_eq_some h), hid⟩

theorem stateById_of_mem {s : SuppressionAssetState} (hids : (states.map SuppressionAssetState.id).Nodup)
    (hs : s ∈ states) :
    stateById states s.id = some s := by
  cases hf : stateById states s.id with
  | none =>
    have hnot := List.find?_eq_none.mp hf s (List.mem_reverse.mpr hs)
    exact absurd (decide_eq_true rfl) hnot
  | some ps =>
    obtain ⟨hmem, hid⟩ := known_mem hf
    rw [List.inj_on_of_nodup_map hids hmem hs hid]

theorem leads_verdict {a b : String} : Leads (verdict now states parentsByChild result) a b ↔
    Through now states parentsByChild a b := by
  rw [Leads, Through, verdict]
  cases stateById states a with
  | none => simp
  | some ps =>
    cases ht : testing now ps with
    | true => simp [ht]
    | false =>
      cases hm : ps.monitored with
      | true => simp [ht, hm]
      | false =>
        by_cases hnil : parentsOf parentsByChild a = []
        · simp [hnil, ht, hm]
        · simp [hnil, ht, hm]

def Ends (now : Nat) (states : List SuppressionAssetState) (parentsByChild : ParentMap)
    (result : Suppressed) (g : String) :
    Prop :=
  ∀ ps, stateById states g = some ps → testing now ps = false ∧
    if ps.monitored then ps.monitorStatus ≠ some "down" ∧
      result g ≠ some true else parentsOf parentsByChild g = []

theorem verdict_true : verdict now states parentsByChild result id = .inl true ↔
    Ends now states parentsByChild result id := by
  rw [verdict, Ends]
  cases stateById states id with
  | none => simp
  | some ps =>
    cases ht : testing now ps with
    | true => simp [ht]
    | false =>
      cases hm : ps.monitored with
      | true =>
        cases result id with
        | none => simp [ht, hm]
        | some b => cases b <;> simp [ht, hm]
      | false =>
        by_cases hnil : parentsOf parentsByChild id = []
        · simp [hnil, ht, hm]
        · simp [hnil, ht, hm]

theorem ok_iff_reach : Ok now states parentsByChild result p ↔
    ∃ g, ReflTransGen (Through now states parentsByChild) p g ∧ Ends now states parentsByChild result g := by
  have hleads : Leads (verdict now states parentsByChild result) = Through now states parentsByChild := by
    funext a b
    exact propext leads_verdict
  rw [Ok, found_iff_reach, hleads]
  exact exists_congr fun g => and_congr_right fun _ => verdict_true

theorem through_follows {a b : String} (h : Through now states parentsByChild a b) :
    Follows (parentsOf parentsByChild) a b := by
  obtain ⟨-, -, -, -, hb⟩ := h
  exact hb

theorem key_of_parents (h : parentsOf parentsByChild id ≠ []) : id ∈ parentsByChild.map Prod.fst := by
  rw [parentsOf] at h
  cases hf : parentsByChild.find? fun p => decide (p.1 = id) with
  | none =>
    rw [hf] at h
    exact absurd rfl h
  | some p =>
    have hid := List.find?_some hf
    rw [decide_eq_true_eq] at hid
    exact List.mem_map.mpr ⟨p, List.mem_of_find?_eq_some hf, hid⟩

/-- What is cut off is the one solution. -/
theorem live_iff_ok (hacyclic : Acyclic (Follows (parentsOf parentsByChild)))
    (hresult : ∀ s ∈ states, result s.id = some true ↔ CutOff now states parentsByChild s.id) (a : String) :
    Live now states parentsByChild a ↔ Ok now states parentsByChild result a := by
  refine acyclic_induction (P := fun a => Live now states parentsByChild a ↔
    Ok now states parentsByChild result a)
    hacyclic (fun a ha => key_of_parents ha) (fun a ih => ?_) a
  rw [live_iff, ok_iff]
  refine forall₂_congr fun ps hps => and_congr_right fun _ => ?_
  obtain ⟨hmem, rfl⟩ := known_mem hps
  split_ifs
  · rw [ne_eq, ne_eq, hresult ps hmem]
  · refine or_congr_right (exists_congr fun q => and_congr_right fun hq => ih q hq)

theorem solves_cutOff (hacyclic : Acyclic (Follows (parentsOf parentsByChild)))
    (hresult : ∀ s ∈ states, result s.id = some true ↔ CutOff now states parentsByChild s.id) :
    Solves now states parentsByChild result := by
  intro s hs
  rw [hresult s hs, CutOff]
  refine and_congr_right fun _ => forall₂_congr fun p _ => not_congr ?_
  exact live_iff_ok hacyclic hresult p

theorem cutOff_of_solves (hacyclic : Acyclic (Follows (parentsOf parentsByChild)))
    (hsolves : Solves now states parentsByChild result) :
    ∀ s ∈ states, result s.id = some true ↔ CutOff now states parentsByChild s.id := by
  have hok : ∀ a, Live now states parentsByChild a ↔ Ok now states parentsByChild result a := by
    refine acyclic_induction (P := fun a => Live now states parentsByChild a ↔
      Ok now states parentsByChild result a)
      hacyclic (fun a ha => key_of_parents ha) fun a ih => ?_
    rw [live_iff, ok_iff]
    refine forall₂_congr fun ps hps => and_congr_right fun _ => ?_
    obtain ⟨hmem, rfl⟩ := known_mem hps
    split_ifs
    · rw [ne_eq, ne_eq, hsolves ps hmem, CutOff]
      refine and_congr_right fun _ =>
        not_congr (and_congr_right fun _ => forall₂_congr fun p hp => not_congr (ih p hp))
    · exact or_congr_right (exists_congr fun q => and_congr_right fun hq => ih q hq)
  intro s hs
  rw [hsolves s hs, CutOff]
  exact and_congr_right fun _ => forall₂_congr fun p _ => not_congr (hok p).symm

end Equation

section Order

variable {now : Nat} {states : List SuppressionAssetState} {parentsByChild : ParentMap} {result : Suppressed}
  {id : String}

theorem isParentOk_eq (fuel : Nat) : isParentOk now states parentsByChild result fuel =
    probe (verdict now states parentsByChild result) fuel := by
  induction fuel with
  | zero => rfl
  | succ fuel ih =>
    funext parentId visited
    rw [isParentOk, probe, ih, verdict]
    by_cases hvisited : parentId ∈ visited
    · rw [if_pos hvisited, if_pos hvisited]
    · rw [if_neg hvisited, if_neg hvisited]
      cases stateById states parentId with
      | none => rfl
      | some ps =>
        dsimp only
        split_ifs <;> rfl

theorem unseen_nil (ids : List String) : unseen ids [] = ids.length := by
  rw [unseen, List.filter_eq_self.mpr]
  intro a _
  exact decide_eq_true List.not_mem_nil

theorem anyParentOk_iff (hacyclic : Acyclic (Follows (parentsOf parentsByChild))) (parents : List String) :
    anyParentOk now states parentsByChild result parents = true ↔ ∃ p ∈ parents,
      Ok now states parentsByChild result p := by
  have hleads : Acyclic (Leads (verdict now states parentsByChild result)) := fun a h =>
    hacyclic a (TransGen.mono (fun _ _ hab => through_follows (leads_verdict.mp hab)) a a h)
  have hnodes : ∀ a ns, verdict now states parentsByChild result a = .inr ns →
    a ∈ states.map SuppressionAssetState.id := by
    intro a ns hns
    rw [verdict] at hns
    cases hs : stateById states a with
    | none =>
      rw [hs] at hns
      cases hns
    | some ps =>
      obtain ⟨hmem, rfl⟩ := known_mem hs
      exact List.mem_map_of_mem hmem
  have hanswers : Answers (verdict now states parentsByChild result)
      (∃ p ∈ parents, Found (verdict now states parentsByChild result) p) []
      (someOf (probe (verdict now states parentsByChild result) (states.length + 1)) parents []) := by
    refine someOf_answers fun a _ seen _ hseen => ?_
    refine probe_answers hleads hnodes ?_ fun v hv _ => (hseen v hv).resolve_left List.not_mem_nil
    have hle : unseen (states.map SuppressionAssetState.id) seen ≤
      unseen (states.map SuppressionAssetState.id) [] :=
      unseen_le (List.nil_subset seen)
    rw [unseen_nil, List.length_map] at hle
    omega
  rw [anyParentOk, isParentOk_eq]
  exact hanswers.1

theorem evaluateOne_self (hacyclic : Acyclic (Follows (parentsOf parentsByChild)))
    (s : SuppressionAssetState) :
    evaluateOne now states parentsByChild result s s.id = some true ↔
      parentsOf parentsByChild s.id ≠ [] ∧ ∀ p ∈ parentsOf parentsByChild s.id,
        ¬ Ok now states parentsByChild result p := by
  rw [evaluateOne]
  split_ifs with hnil
  · rw [Function.update_self]
    exact iff_of_false (fun h => nomatch h) fun h => h.1 hnil
  · rw [Function.update_self, Option.some.injEq, Bool.not_eq_true', Bool.eq_false_iff, ne_eq,
      anyParentOk_iff hacyclic]
    simp [hnil]

theorem evaluateOne_of_ne {s : SuppressionAssetState} (h : id ≠ s.id) :
    evaluateOne now states parentsByChild result s id = result id := by
  rw [evaluateOne]
  split_ifs <;> exact Function.update_of_ne h _ _

theorem foldl_untouched {l : List SuppressionAssetState} (h : id ∉ l.map SuppressionAssetState.id) :
    l.foldl (evaluateOne now states parentsByChild) result id = result id := by
  induction l generalizing result with
  | nil => rfl
  | cons s l ih =>
    obtain ⟨hs, hl⟩ := not_or.mp (mt List.mem_cons.mpr h)
    rw [List.foldl_cons, ih hl, evaluateOne_of_ne hs]

theorem sorted_perm (states : List SuppressionAssetState) :
    (sorted states).Perm states := List.perm_insertionSort _ _

theorem unsuppressed_ne_true (states : List SuppressionAssetState) (id : String) :
    unsuppressed states id ≠ some true := by
  rw [unsuppressed]
  refine List.foldlRecOn (motive := fun r : Suppressed => r id ≠ some true) (sorted states) _
    (fun h => nomatch h)
    fun r hr s _ => ?_
  by_cases hid : id = s.id
  · rw [hid, Function.update_self]
    exact fun h => nomatch h
  · rwa [Function.update_of_ne hid]

variable {pre post : List SuppressionAssetState} {g s : SuppressionAssetState}

theorem before_iff (hnodup : (pre ++ s :: post).Nodup) : [g, s].Sublist (pre ++ s :: post) ↔ g ∈ pre := by
  obtain ⟨-, hpost, hdisjoint⟩ := List.nodup_append.mp hnodup
  constructor
  · intro h
    obtain ⟨l₁, l₂, heq, h₁, h₂⟩ := List.sublist_append_iff.mp h
    cases l₁ with
    | nil =>
      rw [List.nil_append] at heq
      subst heq
      have htail : [s].Sublist post := by
        cases h₂ with
        | cons _ h => exact (List.sublist_cons_self g [s]).trans h
        | cons_cons _ h => exact h
      exact absurd (List.singleton_sublist.mp htail) (List.nodup_cons.mp hpost).1
    | cons a l₁ =>
      rw [List.cons_append, List.cons.injEq] at heq
      exact heq.1 ▸ h₁.subset List.mem_cons_self
  · intro hg
    exact (List.singleton_sublist.mpr hg).append (List.singleton_sublist.mpr List.mem_cons_self)

/-- What an asset was given, from what was known when its turn came. -/
theorem evaluated (hacyclic : Acyclic (Follows (parentsOf parentsByChild)))
    (hids : (states.map SuppressionAssetState.id).Nodup)
    (h : sorted states = pre ++ s :: post) : evaluateSuppression now states parentsByChild s.id = some true ↔
      parentsOf parentsByChild s.id ≠ [] ∧ ∀ p ∈ parentsOf parentsByChild s.id,
        ¬ Ok now states parentsByChild (pre.foldl (evaluateOne now states parentsByChild)
          (unsuppressed states)) p := by
  have hnodup : ((pre ++ s :: post).map SuppressionAssetState.id).Nodup :=
    h ▸ ((sorted_perm states).map SuppressionAssetState.id).nodup_iff.mpr hids
  rw [List.map_append, List.map_cons] at hnodup
  have hpost := (List.nodup_cons.mp (List.nodup_append.mp hnodup).2.1).1
  rw [evaluateSuppression, h, List.foldl_append, List.foldl_cons, foldl_untouched hpost,
    evaluateOne_self hacyclic]

/-- What is known of an asset when another has its turn: its final value if
it came before, and otherwise nothing. -/
theorem known_before (hids : (states.map SuppressionAssetState.id).Nodup) (h : sorted states = pre ++ post)
    (hg : g ∈ states) :
    pre.foldl (evaluateOne now states parentsByChild) (unsuppressed states) g.id = some true ↔
      g ∈ pre ∧ evaluateSuppression now states parentsByChild g.id = some true := by
  have hnodup : ((pre ++ post).map SuppressionAssetState.id).Nodup :=
    h ▸ ((sorted_perm states).map SuppressionAssetState.id).nodup_iff.mpr hids
  rw [List.map_append] at hnodup
  obtain ⟨-, -, hdisjoint⟩ := List.nodup_append.mp hnodup
  by_cases hmem : g ∈ pre
  · have hpost : g.id ∉ post.map SuppressionAssetState.id := fun hin =>
      hdisjoint g.id (List.mem_map_of_mem hmem) g.id hin rfl
    rw [evaluateSuppression, h, List.foldl_append, foldl_untouched hpost]
    exact (and_iff_right hmem).symm
  · have hpre : g.id ∉ pre.map SuppressionAssetState.id := by
      intro hin
      obtain ⟨g', hg', hid⟩ := List.mem_map.mp hin
      have hsorted : g' ∈ sorted states := h ▸ List.mem_append_left _ hg'
      exact hmem (List.inj_on_of_nodup_map hids ((sorted_perm states).mem_iff.mp hsorted) hg hid ▸ hg')
    rw [foldl_untouched hpre]
    exact iff_of_false (unsuppressed_ne_true states g.id) fun hf => hmem hf.1

end Order

section Solution

variable {now : Nat} {states : List SuppressionAssetState} {parentsByChild : ParentMap}

open Classical in
noncomputable def cutOff (now : Nat) (states : List SuppressionAssetState) (parentsByChild : ParentMap) :
  Suppressed :=
  fun id => some (decide (CutOff now states parentsByChild id))

open Classical in
theorem cutOff_iff {id : String} : cutOff now states parentsByChild id = some true ↔
    CutOff now states parentsByChild id := by
  rw [cutOff, Option.some.injEq, decide_eq_true_eq]

theorem live_iff_reach (hacyclic : Acyclic (Follows (parentsOf parentsByChild))) {p : String} :
    Live now states parentsByChild p ↔ ∃ g, ReflTransGen (Through now states parentsByChild) p g ∧
      Ends now states parentsByChild (cutOff now states parentsByChild) g := by
  have hcut : ∀ s ∈ states, cutOff now states parentsByChild s.id = some true ↔
    CutOff now states parentsByChild s.id :=
    fun _ _ => cutOff_iff
  rw [live_iff_ok hacyclic hcut, ok_iff_reach]

/-- In order, each asset is given what it should be, its ancestors first. -/
theorem evaluated_in_order (hacyclic : Acyclic (Follows (parentsOf parentsByChild)))
    (hids : (states.map SuppressionAssetState.id).Nodup) (horder : InOrder now states parentsByChild)
    (n : Nat) : ∀ pre s post, sorted states = pre ++ s :: post → pre.length = n →
      (evaluateSuppression now states parentsByChild s.id = some true ↔
        CutOff now states parentsByChild s.id) := by
  induction n using Nat.strong_induction_on with
  | _ n ih =>
    intro pre s post hsplit hlen
    have hnodup : (pre ++ s :: post).Nodup :=
      hsplit ▸ (sorted_perm states).nodup_iff.mpr (List.Nodup.of_map _ hids)
    have hmem : ∀ g, g ∈ pre ++ s :: post ↔ g ∈ states := fun g => hsplit ▸ (sorted_perm states).mem_iff
    have hknown := fun g hg => @known_before now states parentsByChild pre (s :: post) g hids hsplit hg
    have hearlier : ∀ g ∈ pre, (evaluateSuppression now states parentsByChild g.id = some true ↔
        CutOff now states parentsByChild g.id) := by
      intro g hg
      obtain ⟨p₁, p₂, rfl⟩ := List.append_of_mem hg
      refine ih p₁.length ?_ p₁ g (p₂ ++ s :: post) ?_ rfl
      · rw [← hlen, List.length_append, List.length_cons]
        omega
      · rw [hsplit, List.append_assoc, List.cons_append]
    rw [evaluated hacyclic hids hsplit, CutOff]
    refine and_congr_right fun hparents => ⟨fun h p hp hlive => h p hp ?_, fun h p hp hok => ?_⟩
    · obtain ⟨g, hreach, hends⟩ := (live_iff_reach hacyclic).mp hlive
      refine ok_iff_reach.mpr ⟨g, hreach, fun ps hps => ?_⟩
      obtain ⟨hidle, hcase⟩ := hends ps hps
      obtain ⟨hin, rfl⟩ := known_mem hps
      refine ⟨hidle, ?_⟩
      split_ifs at hcase ⊢
      · refine ⟨hcase.1, fun htrue => hcase.2 (cutOff_iff.mpr ?_)⟩
        obtain ⟨hpre, hfinal⟩ := (hknown ps hin).mp htrue
        exact (hearlier ps hpre).mp hfinal
      · exact hcase
    · obtain ⟨g, hreach, hends⟩ := ok_iff_reach.mp hok
      refine h p hp ((live_iff_reach hacyclic).mpr ⟨g, hreach, fun ps hps => ?_⟩)
      obtain ⟨hidle, hcase⟩ := hends ps hps
      obtain ⟨hin, rfl⟩ := known_mem hps
      refine ⟨hidle, ?_⟩
      split_ifs at hcase ⊢ with hmonitored
      · refine ⟨hcase.1, fun hcut => ?_⟩
        have hbefore := horder s ((hmem s).mp (List.mem_append_right _ List.mem_cons_self)) ⟨hparents,
          h⟩ p hp ps hin hreach
          hmonitored hidle hcase.1
        rw [hsplit, before_iff hnodup] at hbefore
        exact hcase.2 ((hknown ps hin).mpr ⟨hbefore, (hearlier ps hbefore).mpr (cutOff_iff.mp hcut)⟩)
      · exact hcase

/-- The single pass solves the all-down equation just when it comes to the
ancestors that decide before the assets that are cut off. -/
theorem suppression_solves_iff (now : Nat) (states : List SuppressionAssetState) (parentsByChild : ParentMap)
    (hids : (states.map SuppressionAssetState.id).Nodup)
    (hacyclic : Acyclic (Follows (parentsOf parentsByChild))) :
    Solves now states parentsByChild (evaluateSuppression now states parentsByChild) ↔
      InOrder now states parentsByChild := by
  constructor
  · intro hsolves s hs hcut p hp g hg hreach hmonitored hidle hup
    have hfinal := (cutOff_of_solves hacyclic hsolves s hs).mpr hcut
    obtain ⟨pre, post, hsplit⟩ := List.append_of_mem ((sorted_perm states).mem_iff.mpr hs)
    have hnodup : (pre ++ s :: post).Nodup :=
      hsplit ▸ (sorted_perm states).nodup_iff.mpr (List.Nodup.of_map _ hids)
    rw [hsplit, before_iff hnodup]
    by_contra hpre
    refine ((evaluated hacyclic hids hsplit).mp hfinal).2 p hp
      (ok_iff_reach.mpr ⟨g.id, hreach, fun ps hps => ?_⟩)
    obtain rfl := Option.some.inj ((stateById_of_mem hids hg).symm.trans hps)
    rw [if_pos hmonitored]
    exact ⟨hidle, hup, fun htrue => hpre ((known_before hids hsplit hg).mp htrue).1⟩
  · intro horder
    refine solves_cutOff hacyclic fun s hs => ?_
    obtain ⟨pre, post, hsplit⟩ := List.append_of_mem ((sorted_perm states).mem_iff.mpr hs)
    exact evaluated_in_order hacyclic hids horder pre.length pre s post hsplit rfl

def siteStates (coreLayer : Option Nat) : List SuppressionAssetState :=
  [⟨"fg", some 1, true, some "down", none⟩, ⟨"acc", some 3, true, some "up", none⟩,
    ⟨"core", coreLayer, true, some "up", none⟩]

def siteParents : ParentMap := [("core", ["fg"]), ("acc", ["core"])]

theorem site_acyclic : Acyclic (Follows (parentsOf siteParents)) := by
  let rank : String → Nat := fun id => if id = "acc" then 2 else if id = "core" then 1 else 0
  refine @acyclic_of_rank _ _ rank fun a b hab => ?_
  rw [Follows, parentsOf, siteParents, List.find?_cons, List.find?_cons, List.find?_nil] at hab
  by_cases hcore : a = "core"
  · subst hcore
    obtain rfl := List.mem_singleton.mp (show b ∈ ["fg"] from hab)
    decide
  · by_cases hacc : a = "acc"
    · subst hacc
      obtain rfl := List.mem_singleton.mp (show b ∈ ["core"] from hab)
      decide
    · rw [decide_eq_false (Ne.symm hcore), decide_eq_false (Ne.symm hacc)] at hab
      cases hab

theorem site_through {a b : String} : ¬ Through 0 (siteStates (some 2)) siteParents a b := by
  rintro ⟨s, hs, -, hunmonitored, -⟩
  obtain ⟨hmem, -⟩ := known_mem hs
  have hall : ∀ s ∈ siteStates (some 2), s.monitored = true := by decide
  rw [hall s hmem] at hunmonitored
  cases hunmonitored

theorem suppression_solves_site :
    Solves 0 (siteStates (some 2)) siteParents (evaluateSuppression 0 (siteStates (some 2)) siteParents) := by
  refine (suppression_solves_iff 0 (siteStates (some 2)) siteParents (by decide) site_acyclic).mpr ?_
  intro s hs _ p hp g hg hreach _ _ hup
  have hsame : p = g.id := (ReflTransGen.cases_head hreach).elim (fun h => h) fun ⟨_, hstep, _⟩ =>
    absurd hstep site_through
  subst hsame
  clear hreach
  have hall : ∀ s ∈ siteStates (some 2), ∀ g ∈ siteStates (some 2), g.id ∈ parentsOf siteParents s.id →
      g.monitorStatus ≠ some "down" → [g, s].Sublist (sorted (siteStates (some 2))) := by
    decide +kernel
  exact hall s hs g hg hp hup

/-- An override puts the access switch under a core switch that has no layer
of its own: the core switch is evaluated last. -/
theorem override_parent_settles_late :
    ¬ Solves 0 (siteStates none) siteParents (evaluateSuppression 0 (siteStates none) siteParents) := by
  intro hsolves
  have hacc := hsolves ⟨"acc", some 3, true, some "up", none⟩ (by decide)
  have hcore : evaluateSuppression 0 (siteStates none) siteParents "core" = some true := by decide +kernel
  have hmissed : evaluateSuppression 0 (siteStates none) siteParents "acc" = some false := by decide +kernel
  have hblocked : ¬ Ok 0 (siteStates none) siteParents (evaluateSuppression 0 (siteStates none) siteParents)
    "core" := by
    intro hok
    have hrule := ok_iff.mp hok ⟨"core", none, true, some "up", none⟩ (by decide +kernel)
    exact hrule.2.2 hcore
  have hsuppressed := hacc.mpr ⟨by decide +kernel, fun p hp => ?_⟩
  · rw [hmissed] at hsuppressed
    cases hsuppressed
  · obtain rfl := List.mem_singleton.mp (show p ∈ ["core"] from hp)
    exact hblocked

end Solution

end Polaris.DependencySuppression
