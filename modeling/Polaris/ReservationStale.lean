import Polaris.Lib.Runs
import Polaris.RefreshView

namespace Polaris.ReservationStale

open Polaris.Lib.Runs Polaris.Lib.Store Polaris.Netmask Polaris.Cidr Polaris.Transport Polaris.ReservationPush
  Polaris.Reservations Polaris.DnsResolved Polaris.SubnetRefresh Polaris.RefreshView

def dayMs : Nat := 24 * 60 * 60 * 1000

structure StaleColumns where
  createdAt : Nat := 0
  staleNotifiedAt : Option Nat := none
  staleSnoozedUntil : Option Nat := none
  staleIgnored : Bool := false
  deriving DecidableEq

/-- The tables, with the columns of the alert by the id of their row, the
baseline setting, and the time of the last call. -/
structure State where
  world : World
  stale : Nat → StaleColumns := fun _ => {}
  detectionStartedAt : Option Nat := none
  clock : Nat := 0

namespace State

variable (s : State)

def find (id : Nat) : Option (Row Reservation) := s.world.db.reservations.find id

def writeStale (id : Nat) (columns : StaleColumns) : State :=
  { s with stale := Function.update s.stale id columns }

end State

structure ReservationAlertEntry where
  id : Nat
  ipAddress : Option String
  hostname : Option String
  macAddress : Option String
  subnetCidr : String
  lastSeenLeased : Option Nat
  staleNotifiedAt : Option Nat
  daysSinceSeen : Nat
  fortigateDevice : Option String
  deriving DecidableEq

structure StaleEvent where
  resourceId : Nat
  resourceName : String
  message : String
  deriving DecidableEq

section Listing

variable (s : State)

def alertable (r : Row Reservation) : Bool :=
  r.data.status = .active && r.data.sourceType = .dhcpReservation

/-- Ascending by the last sighting, with those never seen at the end, and then
by creation. -/
def earlier (a b : Row Reservation) : Bool :=
  match a.data.lastSeenLeased, b.data.lastSeenLeased with
  | some x, some y => x < y || (x = y && (s.stale a.id).createdAt ≤ (s.stale b.id).createdAt)
  | some _, none => true
  | none, some _ => false
  | none, none => (s.stale a.id).createdAt ≤ (s.stale b.id).createdAt

def alertRows (ignored : Bool) : List (Row Reservation) :=
  (s.world.db.rows.filter fun r => alertable r && (s.stale r.id).staleIgnored = ignored).mergeSort (earlier s)

def entryOf (now lastSignal : Nat) (r : Row Reservation) : ReservationAlertEntry :=
  let subnet := s.world.db.findSubnet r.data.subnetId
  { id := r.id, ipAddress := r.data.ipAddress, hostname := r.data.hostname, macAddress := r.data.macAddress
    subnetCidr := (subnet.map (·.cidr)).getD "", lastSeenLeased := r.data.lastSeenLeased
    staleNotifiedAt := (s.stale r.id).staleNotifiedAt, daysSinceSeen := (now - lastSignal) / dayMs
    fortigateDevice := subnet.bind (·.fortigateDevice) }

def getDetectionStartedAt (now : Nat) : State × Nat :=
  match s.detectionStartedAt with
  | some t => (s, t)
  | none => ({ s with detectionStartedAt := some now }, now)

def lastSignal (startedAt : Nat) (r : Row Reservation) : Nat :=
  r.data.lastSeenLeased.getD (max (s.stale r.id).createdAt startedAt)

def snoozed (now : Nat) (id : Nat) : Bool := (s.stale id).staleSnoozedUntil.any (now < ·)

inductive ListMode
  | active | ignored
  deriving DecidableEq

def listStaleReservations (staleAfterDays now : Nat) : ListMode → State × List ReservationAlertEntry
  | .ignored =>
    (s, (alertRows s true).map fun r =>
      entryOf s now (r.data.lastSeenLeased.getD (s.stale r.id).createdAt) r)
  | .active =>
    if staleAfterDays = 0 then (s, [])
    else
      let (s', startedAt) := getDetectionStartedAt s now
      let cutoff : Int := now - staleAfterDays * dayMs
      (s', ((alertRows s false).filter fun r =>
          ! snoozed s now r.id && (lastSignal s startedAt r : Int) ≤ cutoff).map
        fun r => entryOf s now (lastSignal s startedAt r) r)

end Listing

section Calls

variable (staleAfterDays : Nat) (s : State)

def dayLabel (days : Nat) : String := toString days ++ " day" ++ if days = 1 then "" else "s"

def staleEvent (e : ReservationAlertEntry) : StaleEvent :=
  let ipLabel := e.ipAddress.getD "(no IP)"
  let sinceLabel := match e.lastSeenLeased with
    | some _ => dayLabel e.daysSinceSeen ++ " since last seen leased"
    | none => "never seen leased — " ++ dayLabel e.daysSinceSeen ++ " since detection baseline"
  let device := match truthy e.fortigateDevice with
    | some name => " (" ++ name ++ ")"
    | none => ""
  { resourceId := e.id, resourceName := (truthy e.hostname).getD ipLabel
    message := "DHCP reservation " ++ ipLabel ++ " on " ++ e.subnetCidr ++ device ++ " appears stale — " ++
      sinceLabel ++ "." }

/-- The rows that are told of in this run. -/
def due (now : Nat) : List ReservationAlertEntry :=
  (listStaleReservations s staleAfterDays now .active).2.filter (·.staleNotifiedAt = none)

def stamp (now : Nat) (s : State) (e : ReservationAlertEntry) : State :=
  s.writeStale e.id { s.stale e.id with staleNotifiedAt := some now }

def flagStaleReservations (now : Nat) : State × List StaleEvent :=
  if staleAfterDays = 0 then (s, [])
  else
    ((due staleAfterDays s now).foldl (stamp now) (listStaleReservations s staleAfterDays now .active).1,
      (due staleAfterDays s now).map staleEvent)

def findAlertable (verb : String) (id : Nat) : Except Failure Unit :=
  match s.find id with
  | none => .error (.app 404 ("Reservation " ++ toString id ++ " not found"))
  | some r =>
    if alertable r then .ok ()
    else .error (.app 409 ("Cannot " ++ verb ++ " — reservation must be active and dhcp_reservation (status=" ++
      r.data.status.text ++ ", sourceType=" ++ r.data.sourceType.text ++ ")"))

def snoozeReservation (id now : Nat) : State × Except Failure Nat :=
  if staleAfterDays = 0 then
    (s, .error (.app 409
      "Stale-reservation detection is disabled — set a non-zero threshold before snoozing alerts"))
  else match findAlertable s "snooze" id with
    | .error e => (s, .error e)
    | .ok () =>
      let snoozedUntil := now + staleAfterDays * dayMs
      (s.writeStale id { s.stale id with staleSnoozedUntil := some snoozedUntil, staleNotifiedAt := none },
        .ok snoozedUntil)

def setStaleIgnored (id : Nat) (staleIgnored : Bool) : State × Except Failure Bool :=
  match findAlertable s "ignore" id with
  | .error e => (s, .error e)
  | .ok () =>
    let columns := { s.stale id with staleIgnored := staleIgnored }
    (s.writeStale id (if staleIgnored then
        { columns with staleSnoozedUntil := none, staleNotifiedAt := none } else columns), .ok staleIgnored)

end Calls

section Runs

inductive Call
  | flag
  | snooze (id : Nat)
  | setIgnored (id : Nat) (staleIgnored : Bool)
  | refresh (subnetId : String) (actor : Option String) (leases : List MonitorEntry) (faults : RefreshFaults)

structure Event where
  time : Nat
  call : Call

variable (N : Package) (staleAfterDays : Nat) (s : State)

def perform (now : Nat) : Call → State
  | .flag => (flagStaleReservations staleAfterDays s now).1
  | .snooze id => (snoozeReservation staleAfterDays s id now).1
  | .setIgnored id staleIgnored => (setStaleIgnored s id staleIgnored).1
  | .refresh subnetId actor leases faults =>
    { s with world := (refreshSubnet N s.world subnetId actor now leases faults).1 }

def step (s : State) (e : Event) : State := { perform N staleAfterDays s e.time e.call with clock := e.time }

def emitted (e : Event) : List Nat :=
  match e.call with
  | .flag => (flagStaleReservations staleAfterDays s e.time).2.map (·.resourceId)
  | _ => []

def run (events : List Event) : State := events.foldl (step N staleAfterDays) s

end Runs

section Sightings

variable {db : Db} {id : Nat} {r : Row Reservation}

def lastSeen (db : Db) (id : Nat) : Option (Option Nat) :=
  (db.reservations.find id).map (·.data.lastSeenLeased)

theorem releaseGone_lastSeen {n : Counts} {v : Option Nat} {x : Row Reservation}
    (h : lastSeen db id = some v) :
    lastSeen (releaseGone db n x).1 id = some v := by
  obtain ⟨r, hr, rfl⟩ := Option.map_eq_some_iff.mp h
  change lastSeen (db.updateRow .refreshRelease x.id markReleased).1 id = _
  obtain ⟨_, t, -, ht, hc⟩ | ⟨vs, e, hc, -⟩ := Db.updateRow_cases db .refreshRelease x.id markReleased
  · rw [hc, lastSeen, Table.find_updateWhere ht hr]
    simp only [Option.map_some, amend]
    split <;> rfl
  · rw [hc]
    exact h

theorem reconcileScope_unseen {c : Scope} {fresh : List Fresh} {v : Option Nat}
    (hne : ∀ f ∈ fresh, ∀ x ∈ c.rows, x.data.ipAddress = some f.ip → x.id ≠ id)
    (h : lastSeen db id = some v) : lastSeen (reconcileScope c db fresh).1 id = some v := by
  obtain ⟨r, hr, hv⟩ := Option.map_eq_some_iff.mp h
  have hupsert : (loop (upsertFresh c) db {} fresh).1.reservations.find id = some r :=
    loop_invariant (I := fun db => db.reservations.find id = some r)
      (fun _ _ f hf hr => upsertFresh_other (hne f hf) hr) hr
  have hseen : lastSeen (loop (upsertFresh c) db {} fresh).1 id = some v := by
    rw [lastSeen, hupsert, Option.map_some, hv]
  rw [reconcileScope]
  split
  · next heq =>
    rw [heq] at hseen
    exact hseen
  · next heq =>
    rw [heq] at hseen
    exact loop_invariant (I := fun db => lastSeen db id = some v)
      (fun _ _ _ _ h => releaseGone_lastSeen h) hseen

end Sightings

section Columns

variable {staleAfterDays now id : Nat} {s : State}

theorem foldl_stamp_stale (now : Nat) (entries : List ReservationAlertEntry) (s : State) (id : Nat) :
    (entries.foldl (stamp now) s).stale id =
      if id ∈ entries.map (·.id) then { s.stale id with staleNotifiedAt := some now } else s.stale id := by
  induction entries generalizing s with
  | nil => rfl
  | cons e entries ih =>
    rw [List.foldl_cons, ih]
    simp only [List.map_cons, List.mem_cons]
    by_cases he : id = e.id
    · subst he
      simp [stamp, State.writeStale]
    · simp [stamp, State.writeStale, he]

theorem foldl_stamp_world (now : Nat) (entries : List ReservationAlertEntry) (s : State) :
    (entries.foldl (stamp now) s).world = s.world := by
  induction entries generalizing s with
  | nil => rfl
  | cons e entries ih => exact ih (stamp now s e)

theorem getDetectionStartedAt_frame (s : State) (now : Nat) :
    (getDetectionStartedAt s now).1.world = s.world ∧ (getDetectionStartedAt s now).1.stale = s.stale := by
  rw [getDetectionStartedAt]
  split <;> exact ⟨rfl, rfl⟩

theorem listStaleReservations_frame (s : State) (staleAfterDays now : Nat) :
    (listStaleReservations s staleAfterDays now .active).1.world = s.world ∧
      (listStaleReservations s staleAfterDays now .active).1.stale = s.stale := by
  rw [listStaleReservations]
  split
  · exact ⟨rfl, rfl⟩
  · exact getDetectionStartedAt_frame s now

/-- The row is stale, and nothing has been told of it. -/
structure Due (staleAfterDays : Nat) (s : State) (now id : Nat) : Prop where
  row : ∃ r, s.find id = some r ∧ alertable r ∧
    (lastSignal s (getDetectionStartedAt s now).2 r : Int) ≤ now - staleAfterDays * dayMs
  watched : (s.stale id).staleIgnored = false
  awake : snoozed s now id = false
  armed : (s.stale id).staleNotifiedAt = none

theorem mem_due (hdays : staleAfterDays ≠ 0) :
    id ∈ (due staleAfterDays s now).map (·.id) ↔ Due staleAfterDays s now id := by
  rw [due, listStaleReservations, if_neg hdays]
  simp only [List.mem_map, List.mem_filter, alertRows, List.mem_mergeSort, Bool.and_eq_true,
    Bool.not_eq_true', decide_eq_true_eq]
  constructor
  · rintro ⟨_, ⟨⟨r, ⟨⟨hr, ha, hw⟩, hz, hc⟩, rfl⟩, hn⟩, rfl⟩
    exact ⟨⟨r, Table.find_of_mem hr, ha, hc⟩, hw, hz, hn⟩
  · rintro ⟨⟨r, hr, ha, hc⟩, hw, hz, hn⟩
    obtain ⟨hmem, rfl⟩ := Table.mem_of_find hr
    exact ⟨_, ⟨⟨r, ⟨⟨hmem, ha, hw⟩, hz, hc⟩, rfl⟩, hn⟩, rfl⟩

theorem flag_stale (hdays : staleAfterDays ≠ 0) (id : Nat) :
    (flagStaleReservations staleAfterDays s now).1.stale id =
      if id ∈ (due staleAfterDays s now).map (·.id) then
        { s.stale id with staleNotifiedAt := some now } else s.stale id := by
  rw [flagStaleReservations, if_neg hdays, foldl_stamp_stale,
    (listStaleReservations_frame s staleAfterDays now).2]

theorem flag_world : (flagStaleReservations staleAfterDays s now).1.world = s.world := by
  rw [flagStaleReservations]
  split
  · rfl
  · exact (foldl_stamp_world _ _ _).trans (listStaleReservations_frame s staleAfterDays now).1

theorem snooze_world : (snoozeReservation staleAfterDays s id now).1.world = s.world := by
  rw [snoozeReservation]
  split
  · rfl
  · split <;> rfl

theorem setIgnored_world {b : Bool} : (setStaleIgnored s id b).1.world = s.world := by
  rw [setStaleIgnored]
  split <;> rfl

theorem emitted_flag (hdays : staleAfterDays ≠ 0) :
    emitted staleAfterDays s ⟨now, .flag⟩ = (due staleAfterDays s now).map (·.id) := by
  rw [emitted, flagStaleReservations, if_neg hdays, List.map_map]
  rfl

variable (N : Package) {e : Event}

/-- What a call does to the columns of a row. -/
inductive Turn (staleAfterDays id : Nat) (s : State) (e : Event) (after : StaleColumns) : Prop
  | told (call : e.call = .flag) (due : Due staleAfterDays s e.time id)
    (emitted : id ∈ emitted staleAfterDays s e)
    (after : after = { s.stale id with staleNotifiedAt := some e.time })
  | kept (emitted : id ∉ emitted staleAfterDays s e) (after : after = s.stale id)
  | snoozed (call : e.call = .snooze id) (emitted : id ∉ emitted staleAfterDays s e)
    (after : after = { s.stale id with
      staleSnoozedUntil := some (e.time + staleAfterDays * dayMs), staleNotifiedAt := none })
  | ignored (call : e.call = .setIgnored id true) (emitted : id ∉ emitted staleAfterDays s e)
    (after : after = { s.stale id with
      staleIgnored := true, staleSnoozedUntil := none, staleNotifiedAt := none })
  | unignored (call : e.call = .setIgnored id false) (emitted : id ∉ emitted staleAfterDays s e)
    (after : after = { s.stale id with staleIgnored := false })

theorem step_turn (hdays : staleAfterDays ≠ 0) (id : Nat) (s : State) (e : Event) :
    Turn staleAfterDays id s e ((step N staleAfterDays s e).stale id) := by
  obtain ⟨now, call⟩ := e
  cases call with
  | flag =>
    have hstale : (step N staleAfterDays s ⟨now, .flag⟩).stale id = _ := flag_stale hdays id
    by_cases hmem : id ∈ (due staleAfterDays s now).map (·.id)
    · rw [if_pos hmem] at hstale
      exact .told rfl ((mem_due hdays).mp hmem) (emitted_flag hdays ▸ hmem) hstale
    · rw [if_neg hmem] at hstale
      exact .kept (emitted_flag hdays ▸ hmem) hstale
  | snooze id' =>
    have hstale : (step N staleAfterDays s ⟨now, .snooze id'⟩).stale id =
      (snoozeReservation staleAfterDays s id' now).1.stale id := rfl
    rw [snoozeReservation, if_neg hdays] at hstale
    split at hstale
    · exact .kept List.not_mem_nil hstale
    · by_cases hid : id = id'
      · subst hid
        exact .snoozed rfl List.not_mem_nil (hstale.trans (Function.update_self _ _ _))
      · exact .kept List.not_mem_nil (hstale.trans (Function.update_of_ne hid _ _))
  | setIgnored id' b =>
    have hstale : (step N staleAfterDays s ⟨now, .setIgnored id' b⟩).stale id =
      (setStaleIgnored s id' b).1.stale id := rfl
    rw [setStaleIgnored] at hstale
    split at hstale
    · exact .kept List.not_mem_nil hstale
    · by_cases hid : id = id'
      · subst hid
        have hself := hstale.trans (Function.update_self _ _ _)
        cases b with
        | false => exact .unignored rfl List.not_mem_nil hself
        | true => exact .ignored rfl List.not_mem_nil hself
      · exact .kept List.not_mem_nil (hstale.trans (Function.update_of_ne hid _ _))
  | refresh subnetId actor leases faults => exact .kept List.not_mem_nil rfl

def shows (s : State) (id : Nat) (e : Event) : Bool :=
  match e.call with
  | .refresh subnetId _ leases faults =>
    match readDevice N s.world subnetId leases faults with
    | .error _ => false
    | .ok (_, _, fresh) =>
      (subnetRows s.world.db subnetId).any fun r =>
        r.id = id && fresh.any fun f => r.data.ipAddress = some f.ip
  | _ => false

def sightedAt (s : State) (id : Nat) : Option (Option Nat) := lastSeen s.world.db id

theorem refresh_unseen {subnetId : String} {actor : Option String} {leases : List MonitorEntry}
    {faults : RefreshFaults} {v : Option Nat}
    (hs : shows N s id ⟨now, .refresh subnetId actor leases faults⟩ = false) (h : sightedAt s id = some v) :
    lastSeen (refreshSubnet N s.world subnetId actor now leases faults).1.db id = some v := by
  rw [refreshSubnet]
  split
  · exact h
  · next subnet scopeId fresh hd =>
    simp only [shows, hd] at hs
    have hne : ∀ f ∈ fresh, ∀ x ∈ subnetRows s.world.db subnetId, x.data.ipAddress = some f.ip →
      x.id ≠ id := by
      intro f hf x hx hip hid
      rw [List.any_eq_false] at hs
      refine hs x hx ?_
      rw [Bool.and_eq_true, decide_eq_true_eq, List.any_eq_true]
      exact ⟨hid, f, hf, decide_eq_true hip⟩
    have hseen := reconcileScope_unseen
      (c := ⟨subnet, scopeId, subnetRows s.world.db subnetId, actor, now⟩) hne h
    split
    · next heq =>
      rw [heq] at hseen
      exact hseen
    · next heq =>
      rw [heq] at hseen
      exact hseen

variable (staleAfterDays) in
theorem step_unseen {v : Option Nat} (hs : shows N s id e = false) (h : sightedAt s id = some v) :
    sightedAt (step N staleAfterDays s e) id = some v := by
  obtain ⟨now, call⟩ := e
  cases call with
  | flag =>
    have hworld : (step N staleAfterDays s ⟨now, .flag⟩).world = s.world := flag_world
    rw [sightedAt, hworld]
    exact h
  | snooze id' =>
    have hworld : (step N staleAfterDays s ⟨now, .snooze id'⟩).world = s.world := snooze_world
    rw [sightedAt, hworld]
    exact h
  | setIgnored id' b =>
    have hworld : (step N staleAfterDays s ⟨now, .setIgnored id' b⟩).world = s.world := setIgnored_world
    rw [sightedAt, hworld]
    exact h
  | refresh subnetId actor leases faults => exact refresh_unseen N hs h

end Columns

section Rules

variable (N : Package) (staleAfterDays id : Nat)

/-- The refresh advances the time of the last sighting. -/
def Sighted (s : State) (e : Event) : Prop :=
  ∃ v, sightedAt s id = some v ∧ v ≠ some e.time ∧
    sightedAt (step N staleAfterDays s e) id = some (some e.time)

/-- A call that leaves the row unseen, not snoozed and not ignored, and does
not look for stale rows from the given time on. -/
def Silent (deadline : Nat) (s : State) (e : Event) : Prop :=
  shows N s id e = false ∧ e.call ≠ .snooze id ∧ e.call ≠ .setIgnored id true ∧
    (e.call = .flag → e.time < deadline)

/-- The rules of the alert for one row, over a run. -/
structure AlertRules (s : State) (events : List Event) : Prop where
  once : ∀ pre a mid b post, events = pre ++ a :: (mid ++ b :: post) →
    id ∈ emitted staleAfterDays (run N staleAfterDays s pre) a →
    id ∈ emitted staleAfterDays (run N staleAfterDays s (pre ++ a :: mid)) b →
    ∃ mid₁ e mid₂, mid = mid₁ ++ e :: mid₂ ∧ (e.call = .snooze id ∨ e.call = .setIgnored id true ∨
      Sighted N staleAfterDays id (run N staleAfterDays s (pre ++ a :: mid₁)) e)
  quiet : ∀ pre a post, events = pre ++ a :: post →
    id ∈ emitted staleAfterDays (run N staleAfterDays s pre) a →
    ((run N staleAfterDays s pre).stale id).staleIgnored = false ∧
      snoozed (run N staleAfterDays s pre) a.time id = false
  rearmed : ∀ pre e mid b post, events = pre ++ e :: (mid ++ b :: post) →
    Sighted N staleAfterDays id (run N staleAfterDays s pre) e →
    ((run N staleAfterDays s pre).stale id).staleIgnored = false →
    Along (step N staleAfterDays) (Silent N id (e.time + staleAfterDays * dayMs))
      (step N staleAfterDays (run N staleAfterDays s pre) e) mid →
    b.call = .flag → e.time + staleAfterDays * dayMs ≤ b.time →
    (∀ r ∈ (run N staleAfterDays s (pre ++ e :: mid)).find id, alertable r) →
    id ∈ emitted staleAfterDays (run N staleAfterDays s (pre ++ e :: mid)) b

def Timely (s : State) (e : Event) : Prop := s.clock ≤ e.time

/-- No refresh sees the row while its alert is latched. -/
def Clear (s : State) (e : Event) : Prop := (s.stale id).staleNotifiedAt ≠ none → shows N s id e = false

instance (s : State) (e : Event) : Decidable (Timely s e) := inferInstanceAs (Decidable (_ ≤ _))

instance (s : State) (e : Event) : Decidable (Clear N id s e) := inferInstanceAs (Decidable (_ → _))

variable {N staleAfterDays id} {s : State} {e : Event}

theorem run_append (pre mid : List Event) :
    run N staleAfterDays s (pre ++ e :: mid) =
      run N staleAfterDays (step N staleAfterDays (run N staleAfterDays s pre) e) mid := by
  rw [run, List.foldl_append]
  rfl

theorem emitted_due (hdays : staleAfterDays ≠ 0) (h : id ∈ emitted staleAfterDays s e) :
    Due staleAfterDays s e.time id ∧
      ((step N staleAfterDays s e).stale id).staleNotifiedAt = some e.time := by
  cases step_turn N hdays id s e with
  | told _ hdue _ hafter => exact ⟨hdue, congrArg StaleColumns.staleNotifiedAt hafter⟩
  | kept hnot _ => exact absurd h hnot
  | snoozed _ hnot _ => exact absurd h hnot
  | ignored _ hnot _ => exact absurd h hnot
  | unignored _ hnot _ => exact absurd h hnot

theorem latched_step (hdays : staleAfterDays ≠ 0) (hz : e.call ≠ .snooze id)
    (hi : e.call ≠ .setIgnored id true)
    (h : (s.stale id).staleNotifiedAt ≠ none) :
    ((step N staleAfterDays s e).stale id).staleNotifiedAt ≠ none := by
  cases step_turn N hdays id s e with
  | told _ _ _ hafter =>
    rw [hafter]
    exact nofun
  | kept _ hafter =>
    rw [hafter]
    exact h
  | snoozed hcall _ _ => exact absurd hcall hz
  | ignored hcall _ _ => exact absurd hcall hi
  | unignored _ _ hafter =>
    rw [hafter]
    exact h

theorem latched_run (hdays : staleAfterDays ≠ 0) {events : List Event}
    (hz : ∀ e ∈ events, e.call ≠ .snooze id ∧ e.call ≠ .setIgnored id true)
    (h : (s.stale id).staleNotifiedAt ≠ none) :
    ((run N staleAfterDays s events).stale id).staleNotifiedAt ≠ none := by
  induction events generalizing s with
  | nil => exact h
  | cons e events ih =>
    obtain ⟨hsnooze, hignore⟩ := hz e List.mem_cons_self
    exact ih (fun e' he' => hz e' (List.mem_cons_of_mem e he')) (latched_step hdays hsnooze hignore h)

/-- A snooze is set for one window. -/
def Short (staleAfterDays id : Nat) (s : State) : Prop :=
  ∀ u ∈ (s.stale id).staleSnoozedUntil, u ≤ s.clock + staleAfterDays * dayMs

theorem short_step (hdays : staleAfterDays ≠ 0) (s : State) (e : Event) (h : Short staleAfterDays id s)
    (ht : Timely s e) : Short staleAfterDays id (step N staleAfterDays s e) := by
  intro u hu
  change u ≤ e.time + staleAfterDays * dayMs
  have hold : ∀ u ∈ (s.stale id).staleSnoozedUntil, u ≤ e.time + staleAfterDays * dayMs :=
    fun u hu => (h u hu).trans (Nat.add_le_add_right ht _)
  cases step_turn N hdays id s e with
  | told _ _ _ hafter =>
    rw [hafter] at hu
    exact hold u hu
  | kept _ hafter =>
    rw [hafter] at hu
    exact hold u hu
  | snoozed _ _ hafter =>
    rw [hafter] at hu
    cases hu
    exact Nat.le_refl _
  | ignored _ _ hafter =>
    rw [hafter] at hu
    cases hu
  | unignored _ _ hafter =>
    rw [hafter] at hu
    exact hold u hu

/-- The row since its sighting. -/
structure Armed (staleAfterDays id time : Nat) (s : State) : Prop where
  seen : sightedAt s id = some (some time)
  armed : (s.stale id).staleNotifiedAt = none
  watched : (s.stale id).staleIgnored = false
  short : ∀ u ∈ (s.stale id).staleSnoozedUntil, u ≤ time + staleAfterDays * dayMs

theorem Due.silent_since {time now : Nat} (hdue : Due staleAfterDays s now id)
    (hseen : sightedAt s id = some (some time)) : time + staleAfterDays * dayMs ≤ now := by
  obtain ⟨r, hr, -, hsignal⟩ := hdue.row
  have hlast : r.data.lastSeenLeased = some time := by
    have hfind : s.world.db.reservations.find id = some r := hr
    rw [sightedAt, lastSeen, hfind] at hseen
    exact Option.some.inj hseen
  rw [lastSignal, hlast, Option.getD_some] at hsignal
  omega

theorem armed_step (hdays : staleAfterDays ≠ 0) {time : Nat} (s : State) (e : Event)
    (h : Armed staleAfterDays id time s) (hs : Silent N id (time + staleAfterDays * dayMs) s e) :
    Armed staleAfterDays id time (step N staleAfterDays s e) := by
  obtain ⟨hshow, hsnooze, hignore, hflag⟩ := hs
  have hseen := step_unseen staleAfterDays N hshow h.seen
  cases step_turn N hdays id s e with
  | told hcall hdue _ _ =>
    have hlate := hdue.silent_since h.seen
    exact absurd (hflag hcall) (Nat.not_lt.mpr hlate)
  | kept _ hafter =>
    refine ⟨hseen, ?_, ?_, ?_⟩
    · rw [hafter]
      exact h.armed
    · rw [hafter]
      exact h.watched
    · rw [hafter]
      exact h.short
  | snoozed hcall _ _ => exact absurd hcall hsnooze
  | ignored hcall _ _ => exact absurd hcall hignore
  | unignored _ _ hafter =>
    refine ⟨hseen, ?_, ?_, ?_⟩
    · rw [hafter]
      exact h.armed
    · rw [hafter]
    · rw [hafter]
      exact h.short

/-- A sighting while no alert is latched arms the row. -/
theorem Sighted.arms (hsight : Sighted N staleAfterDays id s e) (hclear : Clear N id s e) (htime : Timely s e)
    (hw : (s.stale id).staleIgnored = false) (hshort : Short staleAfterDays id s) :
    Armed staleAfterDays id e.time (step N staleAfterDays s e) := by
  obtain ⟨v, hv, hne, hseen⟩ := hsight
  have hshow : shows N s id e = true := by
    cases hshow : shows N s id e with
    | true => rfl
    | false =>
      have hkept := step_unseen staleAfterDays N hshow hv
      exact absurd (Option.some.inj (hkept.symm.trans hseen)) hne
  have hnone : (s.stale id).staleNotifiedAt = none := by
    by_contra hlatched
    exact absurd (hclear hlatched) (by simp [hshow])
  obtain ⟨now, call⟩ := e
  cases call with
  | refresh subnetId actor leases faults =>
    exact ⟨hseen, hnone, hw, fun u hu => (hshort u hu).trans (Nat.add_le_add_right htime _)⟩
  | flag => cases hshow
  | snooze _ => cases hshow
  | setIgnored _ _ => cases hshow

theorem Armed.due {time now : Nat} (h : Armed staleAfterDays id time s)
    (hnow : time + staleAfterDays * dayMs ≤ now) (halert : ∀ r ∈ s.find id, alertable r) :
    Due staleAfterDays s now id := by
  obtain ⟨r, hr, hlast⟩ := Option.map_eq_some_iff.mp h.seen
  refine ⟨⟨r, hr, halert r hr, ?_⟩, h.watched, ?_, h.armed⟩
  · rw [lastSignal, hlast, Option.getD_some]
    omega
  · cases hz : (s.stale id).staleSnoozedUntil with
    | none => rw [snoozed, hz, Option.any_none]
    | some u =>
      have hle := (h.short u hz).trans hnow
      rw [snoozed, hz, Option.any_some]
      exact decide_eq_false (Nat.not_lt.mpr hle)

/-- The rules hold in every run in which no refresh sees the row while its
alert is latched. -/
theorem alerts_rearm (N : Package) (staleAfterDays id : Nat) (s : State) (events : List Event)
    (hdays : staleAfterDays > 0) (hshort : Short staleAfterDays id s)
    (htimes : Along (step N staleAfterDays) Timely s events)
    (hclear : Along (step N staleAfterDays) (Clear N id) s events) :
    AlertRules N staleAfterDays id s events := by
  have hdays' : staleAfterDays ≠ 0 := Nat.ne_of_gt hdays
  refine ⟨?_, ?_, ?_⟩
  · rintro pre a mid b post - ha hb
    by_contra hnone
    have hmid : ∀ e ∈ mid, e.call ≠ .snooze id ∧ e.call ≠ .setIgnored id true := by
      intro e he
      obtain ⟨mid₁, mid₂, hsplit⟩ := List.append_of_mem he
      exact ⟨fun hcall => hnone ⟨mid₁, e, mid₂, hsplit, .inl hcall⟩,
        fun hcall => hnone ⟨mid₁, e, mid₂, hsplit, .inr (.inl hcall)⟩⟩
    have hlatched := (emitted_due (N := N) hdays' ha).2
    have harmed := (emitted_due (N := N) hdays' hb).1.armed
    rw [run_append] at harmed
    exact latched_run hdays' hmid (by simp [hlatched]) harmed
  · rintro pre a post - ha
    obtain ⟨hdue, -⟩ := emitted_due (N := N) hdays' ha
    exact ⟨hdue.watched, hdue.awake⟩
  · rintro pre e mid b post rfl hsight hw hsilent hflag hlate halert
    obtain ⟨htpre, hte, -⟩ := along_append.mp htimes
    obtain ⟨-, hce, -⟩ := along_append.mp hclear
    have hshort' : Short staleAfterDays id (run N staleAfterDays s pre) :=
      foldl_invariant (short_step hdays') hshort htpre
    have harmed := hsight.arms hce hte hw hshort'
    have hend : Armed staleAfterDays id e.time (run N staleAfterDays s (pre ++ e :: mid)) := by
      rw [run_append]
      exact foldl_invariant (armed_step hdays') harmed hsilent
    obtain ⟨now, call⟩ := b
    cases hflag
    rw [emitted_flag hdays', mem_due hdays']
    exact hend.due hlate halert

end Rules

section Scanner

/-- The scanner of the clinic, reserved on the device and last seen at the
beginning. -/
def scannerState : State where
  world := clinic [{ subnetId := "lan", ipAddress := some "10.0.0.5", hostname := some "scanner"
                     macAddress := some "aa:bb:cc:dd:ee:01", sourceType := .dhcpReservation
                     lastSeenLeased := some 0 }]

def refreshAt (time : Nat) : Event := ⟨time, .refresh "lan" none [] {}⟩

/-- An alert, a snooze, a sighting, and the alert of the next silence. -/
def snoozedEvents : List Event :=
  [⟨dayMs, .flag⟩, ⟨dayMs + 1, .snooze 0⟩, refreshAt (dayMs + 2), ⟨2 * dayMs, .flag⟩, ⟨2 * dayMs + 2, .flag⟩]

theorem alerts_rearm_scanner : AlertRules reference 1 0 scannerState snoozedEvents ∧
    0 ∈ emitted 1 (run reference 1 scannerState (snoozedEvents.take 4)) ⟨2 * dayMs + 2, .flag⟩ :=
  ⟨alerts_rearm reference 1 0 scannerState snoozedEvents (by decide) nofun (by decide +kernel)
    (by decide +kernel), by decide +kernel⟩

/-- The scanner comes back after its alert and falls silent again. -/
def returnedEvents : List Event := [⟨dayMs, .flag⟩, refreshAt (dayMs + 1), ⟨2 * dayMs + 1, .flag⟩]

theorem sighting_keeps_latch : Short 1 0 scannerState ∧
    Along (step reference 1) Timely scannerState returnedEvents ∧
    ¬ AlertRules reference 1 0 scannerState returnedEvents := by
  refine ⟨nofun, by decide +kernel, fun h => ?_⟩
  have hsight : Sighted reference 1 0 (run reference 1 scannerState [⟨dayMs, .flag⟩])
    (refreshAt (dayMs + 1)) :=
    ⟨some 0, by decide +kernel, by decide, by decide +kernel⟩
  have hemit := h.rearmed [⟨dayMs, .flag⟩] (refreshAt (dayMs + 1)) [] ⟨2 * dayMs + 1, .flag⟩ [] rfl hsight
    (by decide +kernel) trivial rfl (by decide) (by decide +kernel)
  revert hemit
  decide +kernel

end Scanner

end Polaris.ReservationStale
