import Polaris.AssetQuarantine
import Polaris.Lib.Runs

namespace Polaris.QuarantineRuns

open Polaris.Lib.Runs Polaris.Lib.Faults Polaris.Cidr Polaris.Transport Polaris.QuarantinePush
  Polaris.AssetQuarantine

inductive Event
  | quarantineAsset (c : QuarantineCall)
  | releaseQuarantine (c : ReleaseCall)
  | decommissionStaleAssets (c : DecommissionRun)

/-- The world together with every device name a release has reported as not
unpushed. -/
structure Watched where
  world : World
  reported : List String

def reportedBy (r : Except Failure ReleaseResult) : List String :=
  match r with
  | .ok result => result.failedToUnpush.map (·.1)
  | .error _ => []

def step (w : Watched) : Event → Watched
  | .quarantineAsset c => ⟨(AssetQuarantine.quarantineAsset w.world c).1, w.reported⟩
  | .releaseQuarantine c =>
    let (world, result) := AssetQuarantine.releaseQuarantine w.world c
    ⟨world, w.reported ++ reportedBy result⟩
  | .decommissionStaleAssets c => ⟨AssetQuarantine.decommissionStaleAssets w.world c, w.reported⟩

/-- A FortiGate that holds the asset's target and was never reported. -/
def Held (w : Watched) (gate : Gate) : Prop := (w.world.gates gate).isSome ∧ gate.1 ∉ w.reported

def Recorded (asset : Asset) (gate : Gate) : Prop :=
  asset.status = .quarantined ∧ ∃ record ∈ asset.quarantineTargets, record.gate = gate

/-- Every target held can be released: the asset is quarantined and has a
record for the FortiGate. -/
def Releasable (w : Watched) : Prop :=
  ∀ gate, Held w gate → ∃ asset ∈ w.world.asset, Recorded asset gate

def goalGates (c : QuarantineCall) : List Gate :=
  (goals c).map fun goal => (goal.1.fortigateDevice, goal.2.id)

section Pushes

variable {c : QuarantineCall} {asset : Asset} {gates : Gate → Target}

theorem pushTo_record (goal : AssetSighting × Integration) :
    (pushTo c asset gates goal).2.gate = (goal.1.fortigateDevice, goal.2.id) := by
  unfold pushTo
  dsimp only
  split
  · rfl
  · split <;> rfl

theorem pushTo_other {goal : AssetSighting × Integration} {gate : Gate}
    (h : gate ≠ (goal.1.fortigateDevice, goal.2.id)) :
    (pushTo c asset gates goal).1 gate = gates gate := by
  unfold pushTo
  dsimp only
  split
  · rfl
  · split <;> exact Function.update_of_ne h _ _

variable (c asset gates) in
theorem pushAll_records (gs : List (AssetSighting × Integration)) :
    ((pushAll c asset gates gs).2.map (·.gate)) =
      gs.map fun goal => (goal.1.fortigateDevice, goal.2.id) := by
  induction gs generalizing gates with
  | nil => rfl
  | cons goal gs ih =>
    simp only [pushAll, List.map_cons, pushTo_record, ih]

theorem pushAll_other {gs : List (AssetSighting × Integration)} {gate : Gate}
    (h : gate ∉ gs.map fun goal => (goal.1.fortigateDevice, goal.2.id)) :
    (pushAll c asset gates gs).1 gate = gates gate := by
  induction gs generalizing gates with
  | nil => rfl
  | cons goal gs ih =>
    rw [List.map_cons, List.mem_cons, not_or] at h
    exact (ih h.2).trans (pushTo_other h.1)

end Pushes

section Unpushes

variable {c : ReleaseCall} {gates : Gate → Target}

/-- A delete the device refuses as not found finds no target there. -/
def Honest (c : ReleaseCall) (gates : Gate → Target) (gate : Gate) : Prop :=
  ∀ e, c.deletes gate = .failed e → isNotFound e.message → gates gate = none

theorem deleteTarget_cases {o : Outcome Failure} {target : Target}
    (h : ∀ e, o = .failed e → isNotFound e.message → target = none) :
    (deleteTarget o target).1 = none ∨ ∃ e, (deleteTarget o target).2 = .error e := by
  cases o with
  | answered => exact .inl rfl
  | failed e =>
    by_cases he : isNotFound e.message
    · exact .inl (h e rfl he)
    · exact .inr ⟨e, by simp [deleteTarget, call, he]⟩
  | lost e => exact .inl rfl

theorem deleteTarget_none {o : Outcome Failure} : (deleteTarget o none).1 = none := by
  cases o <;> rfl

theorem unpushFrom_cases {record : QuarantineTargetRecord} (h : Honest c gates record.gate) :
    (unpushFrom c gates record).1 record.gate = none ∨
      ∃ e, (unpushFrom c gates record).2 = .error e := by
  unfold unpushFrom
  split
  · exact .inr ⟨_, rfl⟩
  · split
    · exact .inr ⟨_, rfl⟩
    · dsimp only
      rw [Function.update_self]
      exact deleteTarget_cases h

variable (c) in
theorem unpushFrom_gone (record : QuarantineTargetRecord) {gate : Gate} (h : gates gate = none) :
    (unpushFrom c gates record).1 gate = none := by
  unfold unpushFrom
  split
  · exact h
  · split
    · exact h
    · dsimp only
      by_cases hg : gate = record.gate
      · subst hg
        rw [Function.update_self, h]
        exact deleteTarget_none
      · rw [Function.update_of_ne hg]
        exact h

theorem unpushAll_gone {records : List QuarantineTargetRecord} {gate : Gate} (h : gates gate = none) :
    (unpushAll c gates records).1 gate = none := by
  induction records generalizing gates with
  | nil => exact h
  | cons record records ih =>
    have hrest := ih (unpushFrom_gone c record h)
    unfold unpushAll
    dsimp only
    split <;> exact hrest

theorem Honest.unpushFrom {gate : Gate} (h : Honest c gates gate) (record : QuarantineTargetRecord) :
    Honest c (unpushFrom c gates record).1 gate :=
  fun e he hn => unpushFrom_gone c record (h e he hn)

theorem unpushAll_cases {records : List QuarantineTargetRecord} {record : QuarantineTargetRecord}
    (hmem : record ∈ records) (h : ∀ r ∈ records, Honest c gates r.gate) :
    (unpushAll c gates records).1 record.gate = none ∨
      record.fortigateDevice ∈ (unpushAll c gates records).2.2.map (·.1) := by
  induction records generalizing gates with
  | nil => cases hmem
  | cons first rest ih =>
    unfold unpushAll
    dsimp only
    obtain rfl | hmem := List.mem_cons.mp hmem
    · obtain hnone | ⟨e, he⟩ := unpushFrom_cases (h record (by simp))
      · refine .inl ?_
        split <;> exact unpushAll_gone hnone
      · rw [he]
        exact .inr (by simp)
    · have hrest := ih hmem (fun r hr => (h r (by simp [hr])).unpushFrom first)
      split
      · exact hrest
      · exact hrest.imp_right (List.mem_cons_of_mem _)

end Unpushes

section Conditions

/-- A create that took effect can be taken back. -/
def RollsBack (faults : PushFaults) : Prop := faults.post.applies → faults.rollback.applies

/-- A call that records its pushes covers every FortiGate that holds the
target; one whose pushes all fail takes its creates back; a release is told
the truth about targets not found; and an asset whose target is held is not
found stale. -/
def Covers (w : Watched) : Event → Prop
  | .quarantineAsset c => ∀ asset ∈ w.world.asset, checkAsset c asset = .ok () →
    if synced (pushAll c asset w.world.gates (goals c)).2 = [] then
      ∀ gate ∈ goalGates c, w.world.gates gate = none → RollsBack (c.faults gate)
    else ∀ gate, Held w gate → gate ∈ goalGates c
  | .releaseQuarantine c => ∀ asset ∈ w.world.asset, ∀ record ∈ asset.quarantineTargets,
    Honest c w.world.gates record.gate
  | .decommissionStaleAssets c => ∀ asset ∈ w.world.asset, ∀ gate, Held w gate → ¬ isStale c asset

theorem getTarget_absent (o : Outcome Failure) :
    getTarget o none = .ok none ∨ ∃ e, getTarget o none = .error e := by
  cases o with
  | answered => exact .inl rfl
  | failed e | lost e =>
    by_cases h : isNotFound e.message
    · exact .inl (by simp [getTarget, fetch, h])
    · exact .inr ⟨e, by simp [getTarget, fetch, h]⟩

theorem deleteTarget_applies {o : Outcome Failure} {target : Target} (h : o.applies) :
    (deleteTarget o target).1 = none := by
  cases o with
  | failed e => cases h
  | answered | lost e => rfl

theorem pushDesired_absent {faults : PushFaults} {name : String} {e : Failure} {desired : List String}
    (hr : RollsBack faults) (h : (pushDesired faults name desired none).2 = .error e) :
    (pushDesired faults name desired none).1 = none := by
  unfold pushDesired at h ⊢
  obtain hg | ⟨e', hg⟩ := getTarget_absent faults.get
  · rw [hg] at h ⊢
    dsimp only at h ⊢
    split at h
    · cases h
    · simp only [writeTarget, call_fst, Option.isNone_none, if_true]
      by_cases hp : faults.post.applies
      · exact deleteTarget_applies (hr hp)
      · rw [if_neg hp]
        exact deleteTarget_none
  · rw [hg]

theorem push_absent {assetId deviceName : String} {e : Failure} {macs : List String}
    {faults : PushFaults}
    (hr : RollsBack faults)
    (h : (pushQuarantineToFortigate assetId deviceName macs faults none).2 = .error e) :
    (pushQuarantineToFortigate assetId deviceName macs faults none).1 = none := by
  unfold pushQuarantineToFortigate at h ⊢
  dsimp only at h ⊢
  split_ifs at h ⊢
  · rfl
  · rfl
  · rfl
  · exact pushDesired_absent hr h

section Pushes

variable {c : QuarantineCall} {asset : Asset} {gates : Gate → Target} {gate : Gate}

theorem pushTo_absent {goal : AssetSighting × Integration}
    (hr : gate = (goal.1.fortigateDevice, goal.2.id) → RollsBack (c.faults gate))
    (hs : (pushTo c asset gates goal).2.status ≠ .synced) (h : gates gate = none) :
    (pushTo c asset gates goal).1 gate = none := by
  by_cases hg : gate = (goal.1.fortigateDevice, goal.2.id)
  · have hr := hr hg
    subst hg
    cases hb : buildTransportForIntegration goal.2 goal.1.fortigateDevice
        (c.faults (goal.1.fortigateDevice, goal.2.id)).mgmtIp with
    | error e => simpa only [pushTo, hb] using h
    | ok t =>
      cases hp : pushQuarantineToFortigate asset.id goal.1.fortigateDevice (macsForAsset asset)
          (c.faults (goal.1.fortigateDevice, goal.2.id)) (gates (goal.1.fortigateDevice, goal.2.id)) with
      | mk target result =>
        cases result with
        | ok pushedMacs => simp [pushTo, hb, hp] at hs
        | error e =>
          simp only [pushTo, hb, hp, Function.update_self]
          rw [h] at hp
          have habsent := push_absent hr (congrArg Prod.snd hp)
          rwa [hp] at habsent
  · rw [pushTo_other hg]
    exact h

/-- When no push succeeds no target appears. -/
theorem pushAll_absent {gs : List (AssetSighting × Integration)}
    (hr : gate ∈ gs.map (fun goal => (goal.1.fortigateDevice, goal.2.id)) → RollsBack (c.faults gate))
    (hs : synced (pushAll c asset gates gs).2 = []) (h : gates gate = none) :
    (pushAll c asset gates gs).1 gate = none := by
  induction gs generalizing gates with
  | nil => exact h
  | cons goal gs ih =>
    rw [List.map_cons] at hr
    have hall : ∀ r ∈ (pushAll c asset gates (goal :: gs)).2, r.status ≠ .synced := by
      intro r hmem
      simpa using List.filter_eq_nil_iff.mp hs r hmem
    have hfirst := pushTo_absent (fun hg => hr (hg ▸ List.mem_cons_self))
      (hall (pushTo c asset gates goal).2 List.mem_cons_self) h
    refine ih (fun hg => hr (List.mem_cons_of_mem _ hg)) ?_ hfirst
    refine List.filter_eq_nil_iff.mpr fun r hmem => ?_
    simpa using hall r (List.mem_cons_of_mem _ hmem)

end Pushes

end Conditions

section Steps

variable {w : Watched}

theorem quarantineAsset_cases (w : World) (c : QuarantineCall) :
    (AssetQuarantine.quarantineAsset w c).1 = w ∨
    ∃ asset ∈ w.asset, checkAsset c asset = .ok () ∧
      ((synced (pushAll c asset w.gates (goals c)).2 = [] ∧
          (AssetQuarantine.quarantineAsset w c).1 = ⟨w.asset, (pushAll c asset w.gates (goals c)).1⟩) ∨
        (synced (pushAll c asset w.gates (goals c)).2 ≠ [] ∧
          (AssetQuarantine.quarantineAsset w c).1 =
            ⟨some (stampQuarantine c asset (pushAll c asset w.gates (goals c)).2),
              (pushAll c asset w.gates (goals c)).1⟩)) := by
  unfold AssetQuarantine.quarantineAsset
  split
  · exact .inl rfl
  · rename_i asset ha
    split
    · exact .inl rfl
    · rename_i hcheck
      refine .inr ⟨asset, ha, hcheck, ?_⟩
      dsimp only
      split_ifs with hs
      · exact .inl ⟨hs, rfl⟩
      · exact .inr ⟨hs, rfl⟩

theorem quarantine_releasable {c : QuarantineCall} (hw : Releasable w)
    (hc : Covers w (.quarantineAsset c)) : Releasable (step w (.quarantineAsset c)) := by
  rintro gate ⟨hsome, hrep⟩
  obtain heq | ⟨asset, ha, hcheck, ⟨hs, heq⟩ | ⟨hs, heq⟩⟩ := quarantineAsset_cases w.world c
  · simp only [step, heq] at hsome ⊢
    exact hw gate ⟨hsome, hrep⟩
  · have hback := hc asset ha hcheck
    rw [if_pos hs] at hback
    simp only [step, heq] at hsome ⊢
    cases hold : w.world.gates gate with
    | none =>
      rw [pushAll_absent (fun hg => hback gate hg hold) hs hold] at hsome
      cases hsome
    | some target => exact hw gate ⟨by rw [hold]; rfl, hrep⟩
  · have hcover := hc asset ha hcheck
    rw [if_neg hs] at hcover
    simp only [step, heq] at hsome ⊢
    have hgoal : gate ∈ goalGates c := by
      by_contra hno
      rw [pushAll_other hno] at hsome
      exact hno (hcover gate ⟨hsome, hrep⟩)
    refine ⟨_, rfl, rfl, ?_⟩
    rw [goalGates, ← pushAll_records c asset w.world.gates] at hgoal
    exact List.mem_map.mp hgoal

theorem release_gone {c : ReleaseCall} {world : World} {result : ReleaseResult} (hw : Releasable w)
    (hc : Covers w (.releaseQuarantine c))
    (h : AssetQuarantine.releaseQuarantine w.world c = (world, .ok result)) {gate : Gate}
    (hrep : gate.1 ∉ w.reported) (hres : gate.1 ∉ result.failedToUnpush.map (·.1)) :
    world.gates gate = none := by
  unfold AssetQuarantine.releaseQuarantine at h
  cases ha : w.world.asset with
  | none =>
    rw [ha] at h
    cases h
  | some asset =>
    rw [ha] at h
    dsimp only at h
    split_ifs at h
    · cases h
    · cases h
    · cases h
      cases hold : w.world.gates gate with
      | none => exact unpushAll_gone hold
      | some target =>
        obtain ⟨a, hmem, _, record, hrec, rfl⟩ := hw gate ⟨by rw [hold]; rfl, hrep⟩
        cases ha.symm.trans hmem
        exact (unpushAll_cases hrec (hc asset ha)).resolve_right hres

theorem release_releasable {c : ReleaseCall} (hw : Releasable w)
    (hc : Covers w (.releaseQuarantine c)) : Releasable (step w (.releaseQuarantine c)) := by
  intro gate hheld
  obtain ⟨hsome, hrep⟩ := hheld
  cases h : AssetQuarantine.releaseQuarantine w.world c with
  | mk world result =>
    simp only [step, h, List.mem_append, not_or] at hsome hrep ⊢
    cases result with
    | ok result =>
      rw [release_gone hw hc h hrep.1 hrep.2] at hsome
      cases hsome
    | error e =>
      have hsame : world = w.world := by
        unfold AssetQuarantine.releaseQuarantine at h
        split at h
        · cases h
          rfl
        · dsimp only at h
          split_ifs at h <;> cases h <;> rfl
      rw [hsame] at hsome ⊢
      exact hw gate ⟨hsome, hrep.1⟩

theorem decommission_releasable {c : DecommissionRun} (hw : Releasable w)
    (hc : Covers w (.decommissionStaleAssets c)) :
    Releasable (step w (.decommissionStaleAssets c)) := by
  intro gate hheld
  have hold : Held w gate := hheld
  obtain ⟨asset, hmem, hrec⟩ := hw gate hold
  refine ⟨asset, ?_, hrec⟩
  rw [Option.mem_def] at hmem
  simp [step, AssetQuarantine.decommissionStaleAssets, hmem, hc asset hmem gate hold]

theorem step_releasable (w : Watched) (e : Event) (hw : Releasable w) (hc : Covers w e) :
    Releasable (step w e) := by
  cases e with
  | quarantineAsset c => exact quarantine_releasable hw hc
  | releaseQuarantine c => exact release_releasable hw hc
  | decommissionStaleAssets c => exact decommission_releasable hw hc

end Steps

/-- In every run that meets the condition each FortiGate holding the target
is recorded on a quarantined asset unless a release reported it, and a
release that reports nothing leaves no target on a FortiGate never reported. -/
theorem targets_stay_releasable (asset : Option Asset) (es : List Event)
    (hes : Along step Covers ⟨⟨asset, fun _ => none⟩, []⟩ es) :
    let w := es.foldl step ⟨⟨asset, fun _ => none⟩, []⟩
    Releasable w ∧ ∀ c world result, Covers w (.releaseQuarantine c) →
      AssetQuarantine.releaseQuarantine w.world c = (world, .ok result) →
      result.failedToUnpush = [] → ∀ gate, gate.1 ∉ w.reported → world.gates gate = none := by
  have hw := foldl_invariant step_releasable (I := Releasable)
    (fun gate hheld => by cases hheld.1) hes
  refine ⟨hw, fun c world result hc h hempty gate hrep => ?_⟩
  exact release_gone hw hc h hrep (by simp [hempty])

section Site

def laptop : Asset :=
  { id := "a1b2", hostname := some "laptop", macAddress := some "AA-BB-CC-DD-EE-FF", lastSeen := some 5 }

def start : Watched := ⟨⟨some laptop, fun _ => none⟩, []⟩

def sites : List Integration := [{ id := "i1" }, { id := "i2" }]

def sighting (device integration : String) : AssetSighting := ⟨device, some integration, 0⟩

def quarantine (sightings : List AssetSighting) (scope : Option (List String)) : Event :=
  .quarantineAsset { assetId := "a1b2", actor := "user:ops", sightings := sightings,
                     tokenIntegrationIds := scope, integrations := sites }

def releaseCall : ReleaseCall := { assetId := "a1b2", actor := "user:ops", integrations := sites }

def oneSite : List Event :=
  [quarantine [sighting "fg1" "i1"] none, .decommissionStaleAssets ⟨6, 3, 10⟩]

theorem oneSite_covers : Along step Covers start oneSite := by
  refine ⟨?_, ?_, trivial⟩
  · intro asset ha hcheck
    cases ha
    rw [if_neg (by decide +kernel)]
    rintro gate ⟨hsome, _⟩
    cases hsome
  · have hfresh : ∀ asset ∈ (step start (quarantine [sighting "fg1" "i1"] none)).world.asset,
        ¬ isStale ⟨6, 3, 10⟩ asset := by decide +kernel
    exact fun asset ha _ _ => hfresh asset ha

theorem targets_stay_releasable_site :
    Along step Covers start oneSite ∧
      ((oneSite.foldl step start).world.gates ("fg1", "i1")).isSome ∧
      Releasable (oneSite.foldl step start) :=
  ⟨oneSite_covers, by decide +kernel, (targets_stay_releasable (some laptop) oneSite oneSite_covers).1⟩

/-- Quarantined on two sites by an operator, then again by a token for one of
them: the record of the other site is overwritten, and the token's release
reports nothing while the other FortiGate keeps its target. -/
def narrowed : List Event :=
  [quarantine [sighting "fg1" "i1", sighting "fg2" "i2"] none,
    quarantine [sighting "fg1" "i1", sighting "fg2" "i2"] (some ["i1"])]

theorem narrowed_token_orphans :
    ((narrowed.foldl step start).world.gates ("fg2", "i2")).isSome ∧
      ¬ Releasable (narrowed.foldl step start) ∧
      reportedBy (AssetQuarantine.releaseQuarantine (narrowed.foldl step start).world
        { releaseCall with tokenIntegrationIds := some ["i1"] }).2 = [] ∧
      ((AssetQuarantine.releaseQuarantine (narrowed.foldl step start).world
        { releaseCall with tokenIntegrationIds := some ["i1"] }).1.gates ("fg2", "i2")).isSome := by
  refine ⟨by decide +kernel, fun h => ?_, by decide +kernel, by decide +kernel⟩
  obtain ⟨asset, hasset, _, hrec⟩ := h ("fg2", "i2") ⟨by decide +kernel, by decide +kernel⟩
  have hgates : ∀ a ∈ (narrowed.foldl step start).world.asset,
      ∀ record ∈ a.quarantineTargets, record.gate ≠ ("fg2", "i2") := by decide +kernel
  obtain ⟨record, hmem, hgate⟩ := hrec
  exact hgates asset hasset record hmem hgate

end Site

end Polaris.QuarantineRuns
