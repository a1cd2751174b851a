import Polaris.QuarantineRuns

namespace Polaris.QuarantineAtomicity

open Polaris.Lib.Faults Polaris.Cidr Polaris.Mac Polaris.QuarantinePush Polaris.QuarantineRuns

section Addresses

variable {macs desired added removed : List String} {mac : String}

theorem mem_readMacs {target : List String} : mac ∈ readMacs target ↔ mac ≠ "" ∧ ∃ m ∈ target,
    normalizeMac m = mac := by
  simp only [readMacs, List.mem_eraseDups, List.mem_filter, List.mem_map, decide_eq_true_eq]
  exact and_comm

def desiredMacs (macs : List String) : List String := (macs.map normalizeMac).eraseDups.filter isMac

theorem normalizeMac_desired (h : mac ∈ desiredMacs macs) : normalizeMac mac = mac := by
  obtain ⟨hmem, _⟩ := List.mem_filter.mp h
  obtain ⟨m, _, rfl⟩ := List.mem_map.mp (List.mem_eraseDups.mp hmem)
  exact normalizeMac_normalizeMac m

theorem ne_empty_of_desired (h : mac ∈ desiredMacs macs) : mac ≠ "" := by
  rintro rfl
  exact absurd (List.mem_filter.mp h).2 (by decide)

/-- The target with some entries appended and others, by address, dropped. -/
def edit (added removed target : List String) : List String :=
  (target ++ added).filter (normalizeMac · ∉ removed)

theorem foldl_add (added : List String) (target : List String) :
    added.foldl (fun (t : Target) mac => t.map (· ++ [mac])) (some target) = some (target ++ added) := by
  induction added generalizing target with
  | nil => rw [List.append_nil, List.foldl_nil]
  | cons mac added ih => rw [List.foldl_cons, Option.map_some, ih, List.append_assoc, List.singleton_append]

theorem foldl_remove (removed : List String) (target : List String) :
    removed.foldl (fun (t : Target) mac => t.map (·.filter (normalizeMac · ≠ mac))) (some target) =
      some (target.filter (normalizeMac · ∉ removed)) := by
  induction removed generalizing target with
  | nil => simp
  | cons mac removed ih =>
    rw [List.foldl_cons, Option.map_some, ih, List.filter_filter]
    congr 2
    funext m
    simp [Bool.and_comm]

theorem mem_edit {target : List String} : mac ∈ readMacs (edit added removed target) ↔
    (mac ∈ readMacs target ∨ mac ∈ readMacs added) ∧ mac ∉ removed := by
  simp only [mem_readMacs, edit, List.mem_filter, List.mem_append, decide_eq_true_eq]
  constructor
  · rintro ⟨hne, m, ⟨hm, hkept⟩, rfl⟩
    exact ⟨hm.imp (fun h => ⟨hne, m, h, rfl⟩) fun h => ⟨hne, m, h, rfl⟩, hkept⟩
  · rintro ⟨⟨hne, m, hm, rfl⟩ | ⟨hne, m, hm, rfl⟩, hkept⟩
    · exact ⟨hne, m, ⟨.inl hm, hkept⟩, rfl⟩
    · exact ⟨hne, m, ⟨.inr hm, hkept⟩, rfl⟩

def toAdd (desired target : List String) : List String := desired.filter (· ∉ readMacs target)

def toRemove (desired target : List String) : List String := (readMacs target).filter (· ∉ desired)

theorem readMacs_desired : mac ∈ readMacs (desiredMacs macs) ↔ mac ∈ desiredMacs macs := by
  rw [mem_readMacs]
  refine ⟨fun ⟨_, m, hm, hmac⟩ => ?_, fun h => ⟨ne_empty_of_desired h, mac, h, normalizeMac_desired h⟩⟩
  rwa [← hmac, normalizeMac_desired hm]

theorem edit_all {target : List String} (mac : String) :
    mac ∈ readMacs (edit (toAdd (desiredMacs macs) target) (toRemove (desiredMacs macs) target) target) ↔
      mac ∈ desiredMacs macs := by
  have hadd : mac ∈ readMacs (toAdd (desiredMacs macs) target) ↔ mac ∈ desiredMacs macs ∧
    mac ∉ readMacs target := by
    rw [mem_readMacs]
    refine ⟨fun ⟨_, m, hm, hmac⟩ => ?_, fun h => ⟨ne_empty_of_desired h.1, mac, ?_, normalizeMac_desired h.1⟩⟩
    · obtain ⟨hm, hnot⟩ := List.mem_filter.mp hm
      rw [normalizeMac_desired hm] at hmac
      exact hmac ▸ ⟨hm, of_decide_eq_true hnot⟩
    · exact List.mem_filter.mpr ⟨h.1, decide_eq_true h.2⟩
  have hremove : mac ∈ toRemove (desiredMacs macs) target ↔ mac ∈ readMacs target ∧
    mac ∉ desiredMacs macs := by
    rw [toRemove, List.mem_filter, decide_eq_true_eq]
  rw [mem_edit, hadd, hremove]
  tauto

theorem edit_unchanged {target : List String} (hadded : ∀ m ∈ added, m ∈ toAdd (desiredMacs macs) target)
    (hremoved : ∀ m ∈ removed, m ∈ toRemove (desiredMacs macs) target) :
    edit added removed target = target ↔ added = [] ∧ removed = [] := by
  refine ⟨fun h => ⟨?_, ?_⟩, fun ⟨ha, hr⟩ => by simp [edit, ha, hr]⟩
  · refine List.eq_nil_iff_forall_not_mem.mpr fun mac hmac => ?_
    obtain ⟨hdesired, hnot⟩ := List.mem_filter.mp (hadded mac hmac)
    have hread : mac ∈ readMacs added :=
      mem_readMacs.mpr ⟨ne_empty_of_desired hdesired, mac, hmac, normalizeMac_desired hdesired⟩
    have hkept : mac ∉ removed := fun hin =>
      of_decide_eq_true (List.mem_filter.mp (hremoved mac hin)).2 hdesired
    refine of_decide_eq_true hnot ?_
    rw [← h]
    exact mem_edit.mpr ⟨.inr hread, hkept⟩
  · refine List.eq_nil_iff_forall_not_mem.mpr fun mac hmac => ?_
    have hread := (List.mem_filter.mp (hremoved mac hmac)).1
    rw [← h] at hread
    exact (mem_edit.mp hread).2 hmac

end Addresses

section Writes

variable {faults : PushFaults} {macs target : List String}

/-- How the calls that bring the target in line would go. -/
def writes (desired : List String) (faults : PushFaults) (target : List String) : List (Outcome Failure) :=
  outcomes (toAdd desired target) faults.adds ++ outcomes (toRemove desired target) faults.removes

theorem outcomes_nil {β ε : Type} {bs : List β} {os : List (Outcome ε)} : outcomes bs os = [] ↔ bs = [] := by
  cases bs with
  | nil => exact ⟨fun _ => rfl, fun _ => rfl⟩
  | cons b bs => simp [outcomes]

def addOne (mac : String) (t : Target) : Target := t.map (· ++ [mac])

def removeOne (mac : String) (t : Target) : Target := t.map (·.filter (normalizeMac · ≠ mac))

theorem adds_fst (faults : PushFaults) (desired target : List String) :
    (sequence addOne (toAdd desired target) faults.adds (some target)).1 =
      some (target ++ reached (toAdd desired target) faults.adds) :=
  (sequence_fst ..).trans (foldl_add _ _)

theorem writeTarget_stopped {desired : List String} {e : Failure}
    (h : (sequence addOne (toAdd desired target) faults.adds (some target)).2 = .error e) :
    writeTarget faults desired (some target) (some target) =
      (some (edit (reached (toAdd desired target) faults.adds) [] target), .error e) := by
  have hfst := adds_fst faults desired target
  rw [writeTarget]
  split
  next t e' hpair =>
    have hwritten : sequence addOne (toAdd desired target) faults.adds (some target) = (t, .error e') := hpair
    rw [hwritten] at h hfst
    rw [show t = _ from hfst, show (Except.error e' : Except Failure Unit) = _ from h]
    simp [edit]
  next t u hpair =>
    have hwritten : sequence addOne (toAdd desired target) faults.adds (some target) = (t, .ok u) := hpair
    rw [hwritten] at h
    cases h

theorem writeTarget_added {desired : List String}
    (h : (sequence addOne (toAdd desired target) faults.adds (some target)).2 = .ok ()) :
    writeTarget faults desired (some target) (some target) =
      sequence removeOne (toRemove desired target) faults.removes
        (some (target ++ toAdd desired target)) := by
  have hfst := adds_fst faults desired target
  rw [reached_all (sequence_ok.mp h)] at hfst
  rw [writeTarget]
  split
  next t e hpair =>
    have hwritten : sequence addOne (toAdd desired target) faults.adds (some target) = (t, .error e) := hpair
    rw [hwritten] at h
    cases h
  next t u hpair =>
    have hwritten : sequence addOne (toAdd desired target) faults.adds (some target) = (t, .ok u) := hpair
    rw [hwritten] at hfst
    rw [show t = _ from hfst]
    rfl

/-- What the writes leave: some of the missing entries appended, some of the
stale ones dropped, and all of both just when every call is answered. -/
theorem writeTarget_present (faults : PushFaults) (desired target : List String) :
    ∃ added removed, (writeTarget faults desired (some target) (some target)).1 =
        some (edit added removed target) ∧
      (∀ m ∈ added, m ∈ toAdd desired target) ∧ (∀ m ∈ removed, m ∈ toRemove desired target) ∧
      ((writeTarget faults desired (some target) (some target)).2 = .ok () ↔
        ∀ o ∈ writes desired faults target,
        o = .answered) ∧
      ((∀ o ∈ writes desired faults target, o = .answered) → added = toAdd desired target ∧
        removed = toRemove desired target) ∧
      (added = [] ∧ removed = [] ↔
        writes desired faults target = [] ∨
          ∃ e, (writes desired faults target).head? = some (.failed e)) := by
  cases hfirst : (sequence addOne (toAdd desired target) faults.adds (some target)).2 with
  | error e =>
    have hnot : ¬ ∀ o ∈ outcomes (toAdd desired target) faults.adds, o = .answered := fun h => by
      rw [sequence_ok.mpr h] at hfirst
      cases hfirst
    have hne : outcomes (toAdd desired target) faults.adds ≠ [] := fun h => hnot (by simp [h])
    rw [writeTarget_stopped hfirst]
    refine ⟨_, [], rfl, fun m hm => reached_subset hm, fun m hm => absurd hm List.not_mem_nil, ?_, ?_, ?_⟩
    · exact iff_of_false (fun h => by cases h) fun h => hnot fun o ho => h o (List.mem_append_left _ ho)
    · exact fun h => absurd (fun o ho => h o (List.mem_append_left _ ho)) hnot
    · rw [writes, List.head?_append_of_ne_nil _ hne, List.append_eq_nil_iff, reached_nil, outcomes_nil]
      have := mt outcomes_nil.mpr hne
      tauto
  | ok u =>
    cases u
    have hall := sequence_ok.mp hfirst
    rw [writeTarget_added hfirst]
    refine ⟨toAdd desired target, reached (toRemove desired target) faults.removes, ?_, fun _ hm => hm,
      fun m hm => reached_subset hm, ?_, ?_, ?_⟩
    · rw [sequence_fst]
      exact foldl_remove _ _
    · rw [sequence_ok, writes, List.forall_mem_append]
      exact ⟨fun h => ⟨hall, h⟩, fun h => h.2⟩
    · exact fun h => ⟨rfl, reached_all fun o ho => h o (List.mem_append_right _ ho)⟩
    · rw [writes, List.append_eq_nil_iff, outcomes_nil, outcomes_nil, reached_nil]
      cases hadd : toAdd desired target with
      | nil => simp [outcomes]
      | cons mac rest =>
        rw [hadd, outcomes] at hall
        rw [outcomes, List.cons_append, List.head?_cons, hall _ List.mem_cons_self]
        simp

theorem verifyTarget_held {name : String} {desired held : List String}
    (hheld : ∀ m ∈ desired, m ∈ readMacs held) :
    verifyTarget faults name desired (some held) = .ok () ↔ faults.readBack = .answered := by
  cases hback : faults.readBack with
  | answered =>
    simpa [verifyTarget, getTarget, fetch, hback, bind, Except.bind, pure, Except.pure] using hheld
  | failed e | lost e =>
    refine iff_of_false (fun h => ?_) (fun h => by cases h)
    rw [verifyTarget, getTarget, hback, fetch] at h
    dsimp only at h
    split at h <;> cases h

end Writes

section Pushes

variable {faults : PushFaults} {name deviceName : String} {macs desired : List String} {target : Target}

/-- Either the target holds exactly the desired addresses or nothing has
changed. -/
def AllOrNothing (desired : List String) (before : Target) (r : Target × Except Failure (List String)) :
    Prop :=
  (∀ pushed, r.2 = .ok pushed → ∃ held, r.1 = some held ∧ ∀ mac, mac ∈ readMacs held ↔ mac ∈ desired) ∧
    ∀ e, r.2 = .error e → r.1 = before

theorem pushDesired_refused {e : Failure} (h : getTarget faults.get target = .error e) :
    pushDesired faults name desired target = (target, .error e) := by
  rw [pushDesired, h]

theorem pushDesired_present {held : List String} (h : getTarget faults.get (some held) = .ok (some held)) :
    pushDesired faults name desired (some held) = ((writeTarget faults desired (some held) (some held)).1,
      ((writeTarget faults desired (some held) (some held)).2.bind fun _ =>
        verifyTarget faults name desired (writeTarget faults desired (some held) (some held)).1).map
          fun _ => desired) := by
  rw [pushDesired, h]
  dsimp only
  split
  next hok => rw [hok]; rfl
  next e herror => rw [herror]; rfl

theorem pushDesired_created (h : getTarget faults.get target = .ok none) (hpost : faults.post = .answered)
    (hback : faults.readBack = .answered) :
    pushDesired faults name (desiredMacs macs) target = (some (desiredMacs macs),
      .ok (desiredMacs macs)) := by
  have hverified : verifyTarget faults name (desiredMacs macs) (some (desiredMacs macs)) = .ok () :=
    (verifyTarget_held fun _ hm => readMacs_desired.mpr hm).mpr hback
  rw [pushDesired, h]
  simp only [writeTarget, hpost, call, Except.bind, hverified]

theorem pushDesired_rolledBack (hrollback : faults.rollback = .answered)
    (h : getTarget faults.get target = .ok none)
    (hfault : ¬ (faults.post = .answered ∧ faults.readBack = .answered)) :
    ∃ e, pushDesired faults name (desiredMacs macs) target = (none, .error e) := by
  have hdeleted : ∀ written, (deleteTarget faults.rollback written).1 = none :=
    fun _ => by rw [hrollback]; rfl
  rw [pushDesired, h]
  dsimp only
  split
  next hok =>
    cases hpost : faults.post with
    | answered =>
      rw [writeTarget, hpost] at hok
      exact absurd ⟨hpost, (verifyTarget_held fun _ hm => readMacs_desired.mpr hm).mp hok⟩ hfault
    | failed e | lost e =>
      rw [writeTarget, hpost] at hok
      cases hok
  next e _ => exact ⟨e, by rw [Option.isNone_none, if_pos rfl, hdeleted]⟩

/-- Nothing is to be written, or the first write fails without effect, or
every call is answered. -/
def Settles (desired : List String) (faults : PushFaults) (held : List String) : Prop :=
  writes desired faults held = [] ∨ (∃ e, (writes desired faults held).head? = some (.failed e)) ∨
    (∀ o ∈ writes desired faults held, o = .answered) ∧ faults.readBack = .answered

theorem allOrNothing_error {before : Target} {r : Target × Except Failure (List String)} {e : Failure}
    (h : r.2 = .error e) :
    AllOrNothing desired before r ↔ r.1 = before :=
  ⟨fun hr => hr.2 e h, fun hr => ⟨fun _ hok => absurd (h.symm.trans hok) (by simp), fun _ _ => hr⟩⟩

theorem written_iff (faults : PushFaults) (name : String) (macs held : List String) :
    ((writeTarget faults (desiredMacs macs) (some held) (some held)).2.bind fun _ =>
        verifyTarget faults name (desiredMacs macs) (writeTarget faults (desiredMacs macs) (some held)
          (some held)).1) = .ok () ↔
      (∀ o ∈ writes (desiredMacs macs) faults held, o = .answered) ∧ faults.readBack = .answered := by
  obtain ⟨added, removed, hwritten, _, _, hok, hall, _⟩ := writeTarget_present faults (desiredMacs macs) held
  rw [← hok]
  cases hresult : (writeTarget faults (desiredMacs macs) (some held) (some held)).2 with
  | error e => exact iff_of_false (fun h => by cases h) fun h => by cases h.1
  | ok u =>
    obtain ⟨rfl, rfl⟩ := hall (hok.mp hresult)
    rw [hwritten]
    exact (verifyTarget_held fun m hm => (edit_all m).mpr hm).trans ⟨fun h => ⟨rfl, h⟩, fun h => h.2⟩

theorem settles_iff {held : List String} (h : getTarget faults.get (some held) = .ok (some held)) :
    AllOrNothing (desiredMacs macs) (some held) (pushDesired faults name (desiredMacs macs) (some held)) ↔
      Settles (desiredMacs macs) faults held := by
  obtain ⟨added, removed, hwritten, hadded, hremoved, _, hall, hnone⟩ :=
    writeTarget_present faults (desiredMacs macs) held
  have hiff := written_iff faults name macs held
  rw [pushDesired_present h]
  cases hresult : ((writeTarget faults (desiredMacs macs) (some held) (some held)).2.bind fun _ =>
      verifyTarget faults name (desiredMacs macs) (writeTarget faults (desiredMacs macs) (some held)
        (some held)).1) with
  | ok u =>
    obtain ⟨hanswered, hback⟩ := hiff.mp hresult
    obtain ⟨rfl, rfl⟩ := hall hanswered
    exact iff_of_true ⟨fun _ _ => ⟨_, hwritten, edit_all⟩, fun e he => by cases he⟩
      (.inr (.inr ⟨hanswered, hback⟩))
  | error e =>
    rw [hresult] at hiff
    have hnot : ¬ ((∀ o ∈ writes (desiredMacs macs) faults held, o = .answered) ∧
      faults.readBack = .answered) :=
      fun hall => by cases hiff.mpr hall
    rw [allOrNothing_error rfl, hwritten, Option.some_inj, edit_unchanged hadded hremoved, hnone, Settles,
      ← or_assoc,
      or_iff_left hnot]

/-- When a push is all or nothing: it is refused, or the target was not
there, or it could be read and settles, or reading failed and the push did
not go on or was answered throughout. -/
def Settled (deviceName : String) (macs : List String) (faults : PushFaults) (before : Target) : Prop :=
  deviceName = "" ∨ desiredMacs macs = [] ∨ before = none ∨ ∃ held, before = some held ∧
    (faults.get = .answered ∧ Settles (desiredMacs macs) faults held ∨
      ∃ e, (faults.get = .failed e ∨ faults.get = .lost e) ∧
        (isNotFound e.message = false ∨ faults.post = .answered ∧ faults.readBack = .answered))

theorem created_iff (hrollback : faults.rollback = .answered) (h : getTarget faults.get target = .ok none) :
    AllOrNothing (desiredMacs macs) target (pushDesired faults name (desiredMacs macs) target) ↔
      target = none ∨ faults.post = .answered ∧ faults.readBack = .answered := by
  by_cases hanswered : faults.post = .answered ∧ faults.readBack = .answered
  · rw [pushDesired_created h hanswered.1 hanswered.2]
    exact iff_of_true
      ⟨fun _ _ => ⟨_, rfl, fun _ => readMacs_desired⟩, fun e he => by cases he⟩ (.inr hanswered)
  · obtain ⟨e, hpush⟩ := @pushDesired_rolledBack _ name _ _ hrollback h hanswered
    rw [hpush, allOrNothing_error rfl, or_iff_left hanswered]
    exact eq_comm

theorem unread_iff {held : List String} {e : Failure} (hrollback : faults.rollback = .answered)
    (h : fetch faults.get (some held) = .error e) :
    AllOrNothing (desiredMacs macs) (some held) (pushDesired faults name (desiredMacs macs) (some held)) ↔
      isNotFound e.message = false ∨ faults.post = .answered ∧ faults.readBack = .answered := by
  have hget : getTarget faults.get (some held) = if isNotFound e.message then .ok none else .error e := by
    rw [getTarget, h]
  cases hfound : isNotFound e.message with
  | true =>
    rw [hfound, if_pos rfl] at hget
    rw [created_iff hrollback hget]
    exact or_congr (iff_of_false (fun h => by cases h) (fun h => by cases h)) Iff.rfl
  | false =>
    rw [hfound, if_neg Bool.false_ne_true] at hget
    rw [pushDesired_refused hget]
    exact iff_of_true ((allOrNothing_error rfl).mpr rfl) (.inl rfl)

theorem push_all_or_nothing_iff (assetId deviceName : String) (macs : List String) (faults : PushFaults)
    (before : Target)
    (hrollback : faults.rollback = .answered) :
    AllOrNothing (desiredMacs macs) before (pushQuarantineToFortigate assetId deviceName macs faults before) ↔
      Settled deviceName macs faults before := by
  have hunchanged : ∀ e, AllOrNothing (desiredMacs macs) before (before, .error e) := fun _ =>
    (allOrNothing_error rfl).mpr rfl
  rw [pushQuarantineToFortigate, Settled]
  by_cases hdevice : deviceName = ""
  · rw [if_pos hdevice]
    exact iff_of_true (hunchanged _) (.inl hdevice)
  by_cases hmacs : macs = []
  · rw [if_neg hdevice, if_pos hmacs]
    exact iff_of_true (hunchanged _) (.inr (.inl (by rw [hmacs]; rfl)))
  rw [if_neg hdevice, if_neg hmacs]
  change AllOrNothing _ _
    (if desiredMacs macs = [] then _ else pushDesired faults _ (desiredMacs macs) before) ↔ _
  by_cases hdesired : desiredMacs macs = []
  · rw [if_pos hdesired]
    exact iff_of_true (hunchanged _) (.inr (.inl hdesired))
  rw [if_neg hdesired, or_iff_right hdevice, or_iff_right hdesired]
  cases before with
  | none =>
    obtain hget | ⟨e, hget⟩ := getTarget_absent faults.get
    · rw [created_iff hrollback hget]
      exact iff_of_true (.inl rfl) (.inl rfl)
    · rw [pushDesired_refused hget]
      exact iff_of_true (hunchanged _) (.inl rfl)
  | some held =>
    rw [or_iff_right (Option.some_ne_none held)]
    cases hget : faults.get with
    | answered =>
      rw [settles_iff (by rw [getTarget, hget]; rfl)]
      simp
    | failed e | lost e =>
      rw [unread_iff hrollback (by rw [hget]; rfl)]
      simp

def held : Target := some ["aa:aa:aa:aa:aa:01"]

theorem push_swaps_entry : AllOrNothing (desiredMacs ["AA-AA-AA-AA-AA-02"]) held
    (pushQuarantineToFortigate "asset-1" "fg1" ["AA-AA-AA-AA-AA-02"] {} held) :=
  (push_all_or_nothing_iff "asset-1" "fg1" ["AA-AA-AA-AA-AA-02"] {} held rfl).mpr
    (.inr (.inr (.inr ⟨_, rfl, .inl ⟨rfl, .inr (.inr ⟨by decide +kernel, rfl⟩)⟩⟩)))

def timeout : Failure := .thrown "timeout"

/-- The new entry is in, the old one was not taken out, and the call
throws. -/
theorem failed_removal_leaves_both :
    pushQuarantineToFortigate "asset-1" "fg1" ["aa:aa:aa:aa:aa:02"] { removes := [.failed timeout] } held =
      (some ["aa:aa:aa:aa:aa:01", "aa:aa:aa:aa:aa:02"], .error timeout) ∧
    ¬ AllOrNothing (desiredMacs ["aa:aa:aa:aa:aa:02"]) held
      (pushQuarantineToFortigate "asset-1" "fg1" ["aa:aa:aa:aa:aa:02"]
        { removes := [.failed timeout] } held) := by
  have hpush : pushQuarantineToFortigate "asset-1" "fg1" ["aa:aa:aa:aa:aa:02"]
    { removes := [.failed timeout] } held =
      (some ["aa:aa:aa:aa:aa:01", "aa:aa:aa:aa:aa:02"], .error timeout) := by decide +kernel
  refine ⟨hpush, fun h => ?_⟩
  rw [hpush, allOrNothing_error rfl] at h
  exact absurd h (by decide)

end Pushes

end Polaris.QuarantineAtomicity
