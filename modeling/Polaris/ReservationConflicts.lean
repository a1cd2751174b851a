import Polaris.Lib.Runs
import Polaris.ReservationSync

namespace Polaris.ReservationConflicts

open Polaris.Lib.Runs Polaris.Lib.Store Polaris.ReservationSync Polaris.Reservations
open Polaris.ConflictResolution hiding Asset Db
open Polaris.DhcpAssociation

section Ledger

/-- The tables, and which conflicts were accepted or rejected on request, each
as it stood, and when. -/
structure Ledger where
  db : ReservationSync.Db
  decisions : List (Conflict × Nat) := []

inductive Op
  | propose (integrationId : String) (now : Nat) (p : Proposed)
  | echo (c : Call) (entry : DhcpEntry)
  | accept (conflictId : Nat) (actor : Option String) (now : Nat)
  | reject (conflictId : Nat) (actor : Option String) (now : Nat)

variable (reservationId : Nat)

def requested (db : ReservationSync.Db) (conflictId now : Nat) : List (Conflict × Nat) :=
  ((db.conflicts.rows.find? fun r => r.id = conflictId && pendingFor reservationId r).map
    fun r => (r.data, now)).toList

/-- What befalls one reservation: a sync proposes values for it or sees its
own push of it, and operators decide its conflicts. -/
def step (s : Ledger) : Op → Ledger
  | .propose integrationId now p =>
    match s.db.reservations.find reservationId with
    | none => s
    | some row => { s with db := s.db.upsertConflict integrationId now reservationId p row.data.toReservation }
  | .echo c entry =>
    match s.db.reservations.find reservationId with
    | none => s
    | some row =>
      if row.data.sourceType = .manual ∧ (truthy row.data.pushedToId).isSome then
        { s with
          db := (s.db.updateReservation reservationId (ReservationSync.echo c entry)).rejectPending c.now
            reservationId }
      else s
  | .accept conflictId actor now =>
    { db := accept conflictId actor now s.db,
      decisions := s.decisions ++ requested reservationId s.db conflictId now }
  | .reject conflictId actor now =>
    { db := reject conflictId actor now s.db,
      decisions := s.decisions ++ requested reservationId s.db conflictId now }

def OnePending (t : Table (Table.noKey (α := Conflict))) : Prop :=
  ∀ r ∈ t.rows, ∀ r' ∈ t.rows, pendingFor reservationId r = true → pendingFor reservationId r' = true → r = r'

def Differs (p : Proposed) (r : SyncReservation) : Prop :=
  p.hostname ≠ r.hostname ∨ p.owner ≠ r.owner ∨ p.projectRef ≠ r.projectRef

def Raised (t : Table (Table.noKey (α := Conflict))) (p : Proposed) : Prop :=
  ∃ r ∈ t.rows, pendingFor reservationId r = true ∧ r.data.proposedHostname = p.hostname ∧
    r.data.proposedOwner = p.owner ∧
    r.data.proposedProjectRef = p.projectRef ∧ r.data.proposedNotes = p.notes ∧
      r.data.proposedSourceType = some p.sourceType

/-- An operator has decided a merge lately, and the row is not a manual one. -/
def Excused (s : Ledger) (row : Row SyncReservation) (now : Nat) : Prop :=
  row.data.sourceType ≠ .manual ∧
    ∃ d ∈ s.decisions, d.1.proposedSourceType.any (· ∈ MERGE_TYPES) = true ∧ now ≤ d.2 + THIRTY_DAYS

/-- A disagreement stands before an operator after the call that found it. -/
def Asks (s : Ledger) : Op → Prop
  | .propose integrationId now p => ∀ row ∈ s.db.reservations.find reservationId, Differs p row.data →
      Raised reservationId (step reservationId s (.propose integrationId now p)).db.conflicts p ∨
        Excused s row now
  | _ => True

/-- Where the thirty days are counted, they are those of an operator's
decision on a row that is not manual. -/
def Counted (s : Ledger) : Op → Prop
  | .propose _ now p => ∀ row ∈ s.db.reservations.find reservationId, Differs p row.data →
    p.sourceType ∈ MERGE_TYPES →
      (∀ r ∈ s.db.conflicts.rows, pendingFor reservationId r = false) →
      (∃ r ∈ s.db.conflicts.rows, recentlyResolved now reservationId r = true) → Excused s row now
  | _ => True

end Ledger

section Once

variable {reservationId : Nat} {t : Table (Table.noKey (α := Conflict))} {s : Ledger} {p : Proposed}

theorem onePending_amend {q : Row Conflict → Bool} {f : Conflict → Conflict} (h : OnePending reservationId t)
    (hf : ∀ r ∈ t.rows, pendingFor reservationId (amend q f r) = true → pendingFor reservationId r = true) :
    OnePending reservationId (t.amendWhere q f) := by
  intro r hr r' hr' hp hp'
  rw [(t.amendWhere_rows q f).1] at hr hr'
  obtain ⟨x, hx, rfl⟩ := List.mem_map.mp hr
  obtain ⟨x', hx', rfl⟩ := List.mem_map.mp hr'
  rw [h x hx x' hx' (hf x hx hp) (hf x' hx' hp')]

theorem onePending_append {data : Conflict} (h : ∀ r ∈ t.rows, pendingFor reservationId r = false) :
    OnePending reservationId (t.append data) := by
  have hlast : ∀ r ∈ (t.append data).rows, pendingFor reservationId r = true → r = ⟨t.nextId, data⟩ := by
    intro r hr hp
    rw [(t.append_rows data).1] at hr
    obtain hr | hr := List.mem_append.mp hr
    · rw [h r hr] at hp
      cases hp
    · exact List.mem_singleton.mp hr
  exact fun r hr r' hr' hp hp' => (hlast r hr hp).trans (hlast r' hr' hp').symm

theorem onePending_closed {q : Row Conflict → Bool} {f : Conflict → Conflict} (h : OnePending reservationId t)
    (hf : ∀ c, (f c).status ≠ .pending) : OnePending reservationId (t.amendWhere q f) := by
  refine onePending_amend h fun r _ hp => ?_
  cases hq : q r with
  | false => rwa [amend_of_neg hq] at hp
  | true =>
    rw [amend_of_pos hq, pendingFor, Bool.and_eq_true, decide_eq_true_eq, decide_eq_true_eq] at hp
    exact absurd hp.2 (hf r.data)

theorem onePending_upsert {integrationId : String} {now : Nat} {existing : Reservation}
    {db : ReservationSync.Db}
    (h : OnePending reservationId db.conflicts) :
    OnePending reservationId (db.upsertConflict integrationId now reservationId p existing).conflicts := by
  rw [Db.upsertConflict]
  split
  next => exact onePending_closed h fun _ => nofun
  next =>
    split
    next row _ =>
      refine onePending_amend h fun r _ hp => ?_
      cases hq : decide (r.id = row.id) with
      | false => rwa [amend_of_neg hq] at hp
      | true => rwa [amend_of_pos hq] at hp
    next hnone =>
      split
      next => exact h
      next =>
        refine onePending_append fun r hr => ?_
        exact Bool.eq_false_iff.mpr (List.find?_eq_none.mp hnone r hr)

theorem onePending_accept {conflictId now : Nat} {actor : Option String} {db : ReservationSync.Db}
    (h : OnePending reservationId db.conflicts) :
    OnePending reservationId (accept conflictId actor now db).conflicts := by
  rw [accept]
  split
  next => exact h
  next =>
    split
    next => exact h
    next => exact onePending_closed h fun _ => nofun

theorem onePending_reject {conflictId now : Nat} {actor : Option String} {db : ReservationSync.Db}
    (h : OnePending reservationId db.conflicts) :
    OnePending reservationId (reject conflictId actor now db).conflicts := by
  rw [reject]
  split
  next => exact h
  next => exact onePending_closed h fun _ => nofun

theorem onePending_step (h : OnePending reservationId s.db.conflicts) (op : Op) :
    OnePending reservationId (step reservationId s op).db.conflicts := by
  cases op with
  | propose integrationId now p =>
    rw [step]
    split
    next => exact h
    next => exact onePending_upsert h
  | echo c entry =>
    rw [step]
    split
    next => exact h
    next =>
      split
      next => exact onePending_closed h fun _ => nofun
      next => exact h
  | accept conflictId actor now => exact onePending_accept h
  | reject conflictId actor now => exact onePending_reject h

end Once

section Asked

variable {reservationId : Nat} {s : Ledger} {p : Proposed}

theorem conflictFields_nil {existing : Reservation} : conflictFields p existing = [] ↔
    p.hostname = existing.hostname ∧ p.owner = existing.owner ∧ p.projectRef = existing.projectRef := by
  simp only [conflictFields, List.append_eq_nil_iff, ite_eq_right_iff, List.cons_ne_self, imp_false,
    not_not, and_assoc]

theorem differs_iff {r : SyncReservation} : Differs p r ↔ conflictFields p r.toReservation ≠ [] := by
  rw [ne_eq, conflictFields_nil, not_and_or, not_and_or]
  rfl

/-- A call that finds a difference raises it, unless it finds a merge that
was decided lately and none that is pending. -/
theorem raised_upsert {db : ReservationSync.Db} {integrationId : String} {now : Nat} {existing : Reservation}
    (hdiff : conflictFields p existing ≠ []) :
    Raised reservationId (db.upsertConflict integrationId now reservationId p existing).conflicts p ↔
      ¬ (p.sourceType ∈ MERGE_TYPES ∧ (∀ r ∈ db.conflicts.rows, pendingFor reservationId r = false) ∧
        ∃ r ∈ db.conflicts.rows, recentlyResolved now reservationId r = true) := by
  rw [Db.upsertConflict, if_neg hdiff]
  split
  next row hrow =>
    have hpending := List.find?_some hrow
    have hmem := List.mem_of_find?_eq_some hrow
    refine iff_of_true
      ⟨⟨row.id, conflictData integrationId p (conflictFields p existing) row.data⟩, ?_, hpending,
      rfl, rfl, rfl,
      rfl, rfl⟩ fun ⟨_, hnone, _⟩ => ?_
    · rw [(db.conflicts.amendWhere_rows _ _).1, Table.mem_map_amend hmem]
      exact .inr rfl
    · rw [hnone row hmem] at hpending
      cases hpending
  next hnone =>
    have hquiet : ∀ r ∈ db.conflicts.rows, pendingFor reservationId r = false := fun r hr =>
      Bool.eq_false_iff.mpr (List.find?_eq_none.mp hnone r hr)
    split
    next hheld =>
      refine iff_of_false ?_ (not_not.mpr ⟨hheld.1, hquiet, List.any_eq_true.mp hheld.2⟩)
      rintro ⟨r, hr, hp, -⟩
      rw [hquiet r hr] at hp
      cases hp
    next hfree =>
      refine iff_of_true ⟨⟨db.conflicts.nextId, conflictData integrationId p (conflictFields p existing)
        { reservationId := some reservationId }⟩, ?_, ?_, rfl, rfl, rfl, rfl, rfl⟩ fun ⟨hmerge, _, hrecent⟩ =>
          hfree ⟨hmerge, List.any_eq_true.mpr hrecent⟩
      · rw [(db.conflicts.append_rows _).1]
        exact List.mem_append_right _ List.mem_cons_self
      · simp [pendingFor, conflictData]

theorem asks_iff (op : Op) : Asks reservationId s op ↔ Counted reservationId s op := by
  cases op with
  | propose integrationId now p =>
    refine forall₂_congr fun row hrow => forall_congr' fun hdiff => ?_
    rw [step, hrow]
    dsimp only
    rw [raised_upsert (differs_iff.mp hdiff)]
    constructor
    · intro h hmerge hquiet hrecent
      exact h.resolve_left (not_not.mpr ⟨hmerge, hquiet, hrecent⟩)
    · intro h
      by_cases hheld : p.sourceType ∈ MERGE_TYPES ∧
        (∀ r ∈ s.db.conflicts.rows, pendingFor reservationId r = false) ∧
          ∃ r ∈ s.db.conflicts.rows, recentlyResolved now reservationId r = true
      · exact .inr (h hheld.1 hheld.2.1 hheld.2.2)
      · exact .inl hheld
  | echo c entry => exact Iff.rfl
  | accept conflictId actor now => exact Iff.rfl
  | reject conflictId actor now => exact Iff.rfl

/-- Throughout a run one conflict at most is pending, and every call asks just
when the thirty days are counted from an operator's decision. -/
theorem disagreement_asked_iff (reservationId : Nat) (s : Ledger)
    (hone : OnePending reservationId s.db.conflicts) (ops : List Op) :
    (∀ k, OnePending reservationId ((ops.take k).foldl (step reservationId) s).db.conflicts) ∧
      (Along (step reservationId) (Asks reservationId) s ops ↔
        Along (step reservationId) (Counted reservationId) s ops) := by
  refine ⟨fun k => ?_, .mono fun _ op h => (asks_iff op).mp h, .mono fun _ op h => (asks_iff op).mpr h⟩
  exact List.foldlRecOn (motive := fun s : Ledger => OnePending reservationId s.db.conflicts) _ _ hone
    fun _ h op _ => onePending_step h op

instance (t : Table (Table.noKey (α := Conflict))) (p : Proposed) : Decidable (Raised reservationId t p) :=
  inferInstanceAs (Decidable (∃ r ∈ t.rows, _ ∧ _))

instance (s : Ledger) (row : Row SyncReservation) (now : Nat) : Decidable (Excused s row now) :=
  inferInstanceAs (Decidable (_ ∧ ∃ d ∈ s.decisions, _ ∧ _))

instance (p : Proposed) (r : SyncReservation) :
    Decidable (Differs p r) := inferInstanceAs (Decidable (_ ∨ _ ∨ _))

instance Counted.decidable (s : Ledger) : ∀ op, Decidable (Counted reservationId s op)
  | .propose _ now p => inferInstanceAs (Decidable (∀ row ∈ s.db.reservations.find reservationId,
    Differs p row.data →
      p.sourceType ∈ MERGE_TYPES → (∀ r ∈ s.db.conflicts.rows, pendingFor reservationId r = false) →
      (∃ r ∈ s.db.conflicts.rows, recentlyResolved now reservationId r = true) → Excused s row now))
  | .echo _ _ | .accept _ _ _ | .reject _ _ _ => isTrue trivial

instance Asks.decidable (s : Ledger) : ∀ op, Decidable (Asks reservationId s op)
  | .propose integrationId now p => inferInstanceAs (Decidable (∀ row ∈ s.db.reservations.find reservationId,
      Differs p row.data → Raised reservationId
        (step reservationId s (.propose integrationId now p)).db.conflicts p ∨
        Excused s row now))
  | .echo _ _ | .accept _ _ _ | .reject _ _ _ => isTrue trivial

def cameraRow (sourceType : SourceType) : SyncReservation :=
  { subnetId := "lan", ipAddress := some "10.0.0.9", hostname := some "camera", owner := some "facilities",
    sourceType := sourceType }

def cameraLedger (sourceType : SourceType) : Ledger :=
  { db :=
    { reservations := ((Table.empty rowKey).insert (cameraRow sourceType)).getD (Table.empty rowKey)
      conflicts := Table.empty _ } }

def leased (hostname : String) : Proposed := ⟨some hostname, some "facilities", none, none, .dhcpLease⟩

/-- A merge that an operator has declined is not raised again for a month. -/
def declined : List Op := [.propose "fmg" 0 (leased "cam-9"), .reject 0 (some "ops") 1000,
    .propose "fmg" 2000 (leased "cam-9")]

theorem declined_merge_asked_once :
    OnePending 0 (declined.foldl (step 0) (cameraLedger .dhcpReservation)).db.conflicts ∧
      Along (step 0) (Asks 0) (cameraLedger .dhcpReservation) declined := by
  have hone : OnePending 0 (cameraLedger .dhcpReservation).db.conflicts := fun _ hr =>
    absurd hr List.not_mem_nil
  obtain ⟨hpending, hasks⟩ := disagreement_asked_iff 0 (cameraLedger .dhcpReservation) hone declined
  exact ⟨hpending 3, hasks.mpr (by decide +kernel)⟩

/-- The device names itself anew, takes the old name back and drops it again. -/
def wavering : List Op :=
  [.propose "fmg" 0 (leased "cam-9"), .propose "fmg" 1000 (leased "camera"),
    .propose "fmg" 2000 (leased "cam-9")]

theorem closed_conflict_silences_row :
    ¬ Along (step 0) (Asks 0) (cameraLedger .dhcpReservation) wavering ∧
      ¬ Along (step 0) (Asks 0) (cameraLedger .manual) declined := by
  decide +kernel

end Asked

end Polaris.ReservationConflicts
