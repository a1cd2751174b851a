import Polaris.ReservationClaims

namespace Polaris.ReservationAgreement

open Polaris.Lib.Store Polaris.Lib.Runs Polaris.Lib.Commits Polaris.Netmask Polaris.Cidr Polaris.Mac
  Polaris.Transport Polaris.ReservationPush Polaris.Reservations Polaris.ReservationService
  Polaris.ReservationQueue Polaris.ReservationRaces Polaris.ReservationTracking
  Polaris.ReservationClaims

/-- What the row says about the device is true: a synced row has its entry
there, a released one has left none, and a push that landed is not reported
as failed for good. -/
structure Agrees (site : Site) (s : Shared) : Prop where
  synced : s.row.status = .active → s.row.pushStatus = some .synced →
    ∃ scopeId entryId, s.row.pushedScopeId = some scopeId ∧ s.row.pushedEntryId = some entryId ∧
      ∃ e ∈ s.gateway.reserved scopeId, e.id = entryId ∧ e.ip = s.row.ipAddress ∧
        currentMac s.row = some (normalizeMac (e.mac.getD ""))
  released : s.row.status = .released →
    ∀ scopeId, ∀ e ∈ s.gateway.reserved scopeId, e.writtenFor ≠ some site.id
  landed : ∀ scopeId, ∀ e ∈ s.gateway.reserved scopeId, e.writtenFor = some site.id →
    s.row.pushStatus ≠ some .failedPermanent

section Writes

variable {N : Package} {site : Site} {k : Turn} {s : Shared} {calls : List Stage} {i : Nat} {job : Job}

theorem not_synced_of_pending (hp : isPending job.row = true)
    (hsame : pushState job.row = pushState s.row) : ¬ Synced (pushState s.row) := by
  rw [← hsame]
  intro hs
  have hq : job.row.pushStatus = some .pending ∧ job.row.status = .active := by
    simpa [isPending] using hp
  cases hq.1.symm.trans hs.2

theorem not_synced_of_no_target (h : Good site s calls)
    (ht : updatePushTarget site.tables site.subnet job.row.ipAddress = none)
    (hsame : pushState job.row = pushState s.row) : ¬ Synced (pushState s.row) := by
  intro hs
  obtain ⟨target, ip, htarget, -⟩ := h.linked hs
  rw [← hsame] at htarget
  cases ht.symm.trans htarget

theorem linked_of_target {v : PushState} {integration : Integration} {deviceName ip : String}
    (ht : updatePushTarget site.tables site.subnet v.ipAddress = some (⟨integration, deviceName⟩, ip))
    (hto : v.pushedToId = some integration.id) (hr : Reachable integration deviceName) :
    Linked site v := ⟨⟨integration, deviceName⟩, ip, ht, hto, hr⟩

variable (h : Good site s calls) (hbehind : ∀ u ∈ calls, ∀ j ∈ snapshotOf u, j.version ≤ s.version)
  (hsame : pushState job.row = pushState s.row)

include h hbehind hsame

theorem good_requeue (hi : calls[i]? = some (.requeue job))
    (hformed : Formed site (.requeue job)) :
    Good site (act N site k s (.requeue job)).1 (calls.set i (act N site k s (.requeue job)).2) := by
  have hfailed : (pushState s.row).pushStatus = some .failedPermanent := by
    rw [← hsame]
    exact hformed.2
  refine h.unsync hi rfl rfl (fun u hu j hj => Nat.lt_succ_of_le (hbehind u hu j hj)) ?_ ?_ rfl
    (.inr ⟨rfl, rfl⟩) ?_
  · intro calls
    dsimp only [act, enqueue]
    split <;> trivial
  · intro hs
    cases hs.2
  · intro scopeId e _ hhome
    cases hfailed.symm.trans hhome.1.2

omit hsame in
theorem good_fail {f : Reservation → Reservation} {t : Stage} (hi : calls[i]? = some t)
    (hclaim : claim t = none) (hnot : ¬ Synced (pushState s.row))
    (hip : (pushState (f s.row)).ipAddress = (pushState s.row).ipAddress)
    (hscope : (pushState (f s.row)).pushedScopeId = (pushState s.row).pushedScopeId)
    (hentry : (pushState (f s.row)).pushedEntryId = (pushState s.row).pushedEntryId)
    (hnot' : ¬ Synced (pushState (f s.row))) :
    Good site (rewriteRow s f true) (calls.set i .done) :=
  h.unsync hi rfl hclaim (fun u hu j hj => Nat.lt_succ_of_le (hbehind u hu j hj)) (fun _ => trivial)
    hnot' hip (.inr ⟨hscope, hentry⟩) (fun _ _ _ hhome => hnot hhome.1)

theorem good_settled {p : PushParams} {pushed : Except Failure PushReservationResult}
    (hi : calls[i]? = some (.write job (.settled p pushed)))
    (hformed : FormedWrite site job (.settled p pushed))
    (hknows : Knows site (pushState s.row) s.gateway calls (.write job (.settled p pushed))) :
    Good site (rewriteRow s ((RowWrite.settled p pushed).stamp k.now) true) (calls.set i .done) := by
  cases pushed with
  | error e =>
    have hnot := not_synced_of_pending hformed hsame
    dsimp only [RowWrite.stamp, settleQueued]
    cases classifyPushError e with
    | transient => exact good_fail h hbehind hi rfl hnot rfl rfl rfl hnot
    | permanent =>
      exact good_fail h hbehind hi rfl hnot rfl rfl rfl (fun hs => by cases hs.2)
  | ok entry =>
    obtain ⟨hpush, hmac, hreach⟩ := hformed
    have hnot := not_synced_of_pending hpush.pending hsame
    have hstatus : (pushState s.row).status = .active := by
      rw [← hsame]
      simpa [isPending, pushState] using (Bool.and_eq_true_iff.mp hpush.pending).2
    have htarget := hpush.target
    have hrowMac := hpush.mac
    rw [show job.row.ipAddress = (pushState s.row).ipAddress from congrArg (·.ipAddress) hsame] at htarget
    rw [show job.row.macAddress = (pushState s.row).macAddress from congrArg (·.macAddress) hsame]
      at hrowMac
    refine h.sync hi rfl rfl (fun u hu j hj => Nat.lt_succ_of_le (hbehind u hu j hj)) rfl hknows
      ⟨hstatus, rfl⟩ (linked_of_target htarget rfl hreach) ⟨rfl, rfl⟩ ?_ (fun hs => absurd hs hnot)
    exact congrArg (Option.map normalizeMac) hrowMac

theorem good_edited {input : UpdateReservationInput} {actor : Option String} {newMac : Option String}
    (hi : calls[i]? = some (.write job (.edited input actor (some newMac))))
    (hformed : FormedWrite site job (.edited input actor (some newMac))) :
    Good site (rewriteRow s ((RowWrite.edited input actor (some newMac)).stamp k.now) true)
      (calls.set i .done) := by
  have hnot : ¬ Synced (pushState s.row) := by
    obtain hp | ht := hformed
    · exact not_synced_of_pending hp hsame
    · exact not_synced_of_no_target h ht hsame
  exact good_fail h hbehind hi rfl hnot rfl rfl rfl hnot

theorem good_updated {e : Edit} {entry : PushReservationResult}
    (hi : calls[i]? = some (.write job (.updated e entry)))
    (hformed : FormedWrite site job (.updated e entry)) (hrelease : ¬ Releasing calls)
    (hknows : Knows site (pushState s.row) s.gateway calls (.write job (.updated e entry))) :
    Good site (rewriteRow s ((RowWrite.updated e entry).stamp k.now) true) (calls.set i .done) := by
  obtain ⟨hedit, hmac, hreach⟩ := hformed
  obtain ⟨hlanded, haimed⟩ := hknows
  have hstatus : (pushState s.row).status = .active := by
    rw [← hsame]
    exact hedit.active
  have htarget := hedit.target
  rw [show job.row.ipAddress = (pushState s.row).ipAddress from congrArg (·.ipAddress) hsame] at htarget
  have hne : e.p.newMac ≠ "" := by
    intro he
    rw [he] at hmac
    revert hmac
    decide
  refine h.sync hi rfl rfl (fun u hu j hj => Nat.lt_succ_of_le (hbehind u hu j hj)) rfl hlanded
    ⟨hstatus, rfl⟩ (linked_of_target htarget rfl hreach) ⟨rfl, rfl⟩ ?_
    (fun hs => (haimed hs).resolve_right hrelease)
  simp [pushState, rewriteRow, RowWrite.stamp, stampUpdated, applyInput, truthy, hne]

omit hsame in
theorem good_released (hi : calls[i]? = some (.write job .released))
    (hknows : Knows site (pushState s.row) s.gateway calls (.write job .released)) :
    Good site (rewriteRow s (RowWrite.released.stamp k.now) true) (calls.set i .done) := by
  refine h.unsync hi rfl rfl (fun u hu j hj => Nat.lt_succ_of_le (hbehind u hu j hj)) (fun _ => trivial)
    (fun hs => by cases hs.1) rfl (.inl rfl) ?_
  intro scopeId e he hhome
  exact hknows hhome.1 scopeId e.id hhome.2.1 e he rfl

theorem good_write {w : RowWrite} (hi : calls[i]? = some (.write job w))
    (hformed : FormedWrite site job w) (hd : w.decides = true)
    (hrelease : ∀ e entry, w = .updated e entry → ¬ Releasing calls)
    (hknows : Knows site (pushState s.row) s.gateway calls (.write job w)) :
    Good site (rewriteRow s (w.stamp k.now) true) (calls.set i .done) := by
  cases w with
  | cancelled =>
    exact good_fail h hbehind hi rfl (not_synced_of_pending hformed hsame) rfl rfl rfl
      (fun hs => by cases hs.2)
  | superseded error =>
    exact good_fail h hbehind hi rfl (not_synced_of_pending hformed hsame) rfl rfl rfl
      (fun hs => by cases hs.2)
  | settled p pushed => exact good_settled h hbehind hsame hi hformed hknows
  | edited input actor changedMac =>
    cases changedMac with
    | none => cases hd
    | some newMac => exact good_edited h hbehind hsame hi hformed
  | updated e entry =>
    exact good_updated h hbehind hsame hi hformed (hrelease e entry rfl) hknows
  | released => exact good_released h hbehind hi hknows

end Writes

section Reads

variable {N : Package} {site : Site} {k : Turn} {s : Shared} {calls : List Stage} {i : Nat} {job : Job}

variable (h : Good site s calls)

include h

theorem good_list {p : PushParams} (hi : calls[i]? = some (.list job p))
    (hformed : Formed site (.list job p)) :
    Good site (act N site k s (.list job p)).1 (calls.set i (act N site k s (.list job p)).2) := by
  refine h.quiet hi rfl rfl rfl (fun hrel => hrel.elim) (fun _ _ _ hne => by cases hne) (fun _ => ?_)
  dsimp only [act]
  split
  · trivial
  · rename_i scope hp
    obtain ⟨-, -, hc⟩ := preparePush_ok hp
    have hne := (truthy_some (updatePushTarget_some hformed.target).2.2).2
    intro e he hip
    exact (checkCollision_ok hc e he).1 ⟨hip, hne⟩

theorem good_readBack {p : PushParams} {scope : Nat × Option String} {own : Nat} {res : WriteResponse}
    (hi : calls[i]? = some (.readBack job p scope own res))
    (hformed : Formed site (.readBack job p scope own res))
    (hsame : pushState job.row = pushState s.row)
    (hknows : Knows site (pushState s.row) s.gateway calls (.readBack job p scope own res)) :
    Good site (act N site k s (.readBack job p scope own res)).1
      (calls.set i (act N site k s (.readBack job p scope own res)).2) := by
  obtain ⟨hpush, ⟨hmac, -⟩, hecho⟩ := hformed
  obtain ⟨⟨e, he, rfl, hip, hw⟩, hone⟩ := hknows
  have hrowIp : (pushState s.row).ipAddress = some p.ip := by
    rw [← hsame]
    exact (truthy_some (updatePushTarget_some hpush.target).2.2).1
  have hverify := verifyWrite_own (normalizeMac_ne_empty hmac) he (hip.trans hrowIp)
    (fun a ha hipa _ => hone a ha hipa) hecho
  obtain ⟨hmac', hok⟩ | ⟨hmac', e', herr⟩ := hverify
  · have hact : (act N site k s (.readBack job p scope e.id res)).2 =
        .write job (.settled p (.ok ⟨scope.1, e.id, scope.2, pushDescription p⟩)) := by
      simp only [act, hok]
      rfl
    rw [hact]
    refine h.quiet hi rfl rfl rfl (fun hrel => hrel.elim) (fun _ _ _ _ => rfl) (fun _ => ?_)
    refine ⟨e, he, rfl, hip, hw, _, mem_set_self hi, ?_⟩
    rw [claim, ← hmac']
    rfl
  · have hact : (act N site k s (.readBack job p scope e.id res)).2 =
        .write job (.settled p (.error e')) := by
      simp only [act, herr]
      rfl
    rw [hact]
    refine h.quiet hi rfl rfl rfl (fun hrel => hrel.elim) (fun scopeId a ha hc => ?_) (fun _ => trivial)
    obtain ⟨rfl, hid, hm⟩ : scope.1 = scopeId ∧ e.id = a.id ∧ normalizeMac p.mac = entryMac a := by
      simpa [claim] using hc
    rw [← Gateway.eq_of_id he ha hid] at hm
    exact absurd hm.symm hmac'

omit h in
theorem findEntry_cases {e : Edit} {scopeId : Nat} {entry : ReservedAddress}
    (hf : findEntry (s.gateway.reserved scopeId) e.p = some entry) :
    entry ∈ s.gateway.reserved scopeId ∧ (e.p.entryId = some entry.id ∨
      entry.ip = some e.p.ip ∧ ∀ a ∈ s.gateway.reserved scopeId, e.p.entryId ≠ some a.id) := by
  obtain hpinned | ⟨hnone, hip⟩ := Option.or_eq_some_iff.mp hf
  · obtain ⟨id, hid, hfind⟩ := Option.bind_eq_some_iff.mp hpinned
    have : entry.id = id := by simpa using List.find?_some hfind
    exact ⟨List.mem_of_find?_eq_some hfind, .inl (this ▸ hid)⟩
  · refine ⟨List.mem_of_find?_eq_some hip, .inr ⟨by simpa using List.find?_some hip, ?_⟩⟩
    intro a ha hid
    rw [hid, Option.bind_some, Gateway.find_of_id ha] at hnone
    cases hnone

theorem good_listUpdate {e : Edit} (hi : calls[i]? = some (.listUpdate job e))
    (hformed : Formed site (.listUpdate job e))
    (hsame : job.version = s.version → pushState job.row = pushState s.row) :
    Good site (act N site k s (.listUpdate job e)).1
      (calls.set i (act N site k s (.listUpdate job e)).2) := by
  refine h.quiet hi rfl rfl rfl (fun hrel => hrel.elim) (fun _ _ _ hne => by cases hne) ?_
  dsimp only [act]
  split
  · exact fun _ => trivial
  · rename_i scope entryId hp
    intro hcur
    have hs := hsame (hcur job rfl)
    obtain ⟨-, -, hscope, entry, hfind, rfl⟩ := prepareUpdate_ok hp
    obtain ⟨hmem, hcases⟩ := findEntry_cases hfind
    have hrowIp : (pushState s.row).ipAddress = some e.p.ip := by
      rw [← hs]
      exact (truthy_some (updatePushTarget_some hformed.target).2.2).1
    have hrowScope : e.p.scopeId = (pushState s.row).pushedScopeId :=
      hformed.scopeId.trans (congrArg (·.pushedScopeId) hs)
    have hrowEntry : e.p.entryId = (pushState s.row).pushedEntryId :=
      hformed.entryId.trans (congrArg (·.pushedEntryId) hs)
    refine ⟨fun a ha hid => ?_, fun hsync => ?_⟩
    · rw [Gateway.eq_of_id ha hmem hid]
      obtain hpinned | ⟨hip, -⟩ := hcases
      · obtain ⟨scopeId, hpoint, haddress⟩ := h.pointed entry.id (hrowEntry.symm.trans hpinned)
        rw [hscope scopeId (hrowScope.trans hpoint)] at hmem
        exact haddress entry hmem rfl
      · exact hip.trans hrowIp.symm
    · obtain ⟨scopeId, entryId, hpoints, hthere | hrel⟩ := h.present hsync
      · obtain ⟨own, hown, hid, -⟩ := hthere
        have hsc := hscope scopeId (hrowScope.trans hpoints.1)
        rw [← hsc] at hown hpoints
        obtain hpinned | ⟨-, hnone⟩ := hcases
        · exact .inl ⟨hpoints.1, hrowEntry.symm.trans hpinned⟩
        · exact absurd (hrowEntry.trans (hpoints.2.trans (congrArg some hid.symm))) (hnone own hown)
      · exact .inr (releasing_set hi (fun hrel => hrel.elim) hrel)

theorem good_readBackUpdate {e : Edit} {scope : Nat × Option String} {entryId : Nat}
    (hi : calls[i]? = some (.readBackUpdate job e scope entryId)) :
    Good site (act N site k s (.readBackUpdate job e scope entryId)).1
      (calls.set i (act N site k s (.readBackUpdate job e scope entryId)).2) := by
  dsimp only [act]
  cases hv : verifyUpdate (s.gateway.reserved scope.1) entryId (normalizeMac e.p.newMac) with
  | error e' =>
    refine h.quiet hi rfl rfl rfl (fun hrel => hrel.elim) (fun scopeId a ha hc => ?_) (fun _ => trivial)
    obtain ⟨rfl, rfl, hm⟩ : scope.1 = scopeId ∧ entryId = a.id ∧
        normalizeMac e.p.newMac = entryMac a := by
      simpa [claim] using hc
    rw [(verifyUpdate_iff ha).mpr hm.symm] at hv
    cases hv
  | ok _ =>
    refine h.quiet hi rfl rfl rfl (fun hrel => hrel.elim) (fun _ _ _ _ => rfl) (fun hcur => ?_)
    obtain ⟨haddress, haimed, hwritten⟩ := h.knows _ (List.mem_of_getElem? hi) hcur
    obtain ⟨own, hown, hid, hm⟩ := verifyUpdate_ok hv
    refine ⟨⟨own, hown, hid, haddress own hown hid, hwritten own hown hid, _, mem_set_self hi, ?_⟩,
      haimed.mono (releasing_set hi (fun hrel => hrel.elim))⟩
    rw [claim, ← hm, hid]
    rfl

theorem knows_beginRelease {calls' : List Stage} :
    Knows site (pushState s.row) s.gateway calls' (beginRelease site (snapshot s)) := by
  unfold beginRelease
  split
  · trivial
  · split
    · rename_i integration scopeId entryId deviceName hint _ _ hdev
      split
      · rename_i hq
        intro hs
        cases hq.symm.trans hs.2
      · split
        · rename_i e herr
          intro hs
          obtain ⟨target, ip, htarget, hto, hreach⟩ := h.linked hs
          obtain ⟨hfind, hdev', -⟩ := updatePushTarget_some htarget
          have hti : integration = target.integration := by
            have : site.tables.findIntegration s.row.pushedToId = some target.integration := by
              rw [show s.row.pushedToId = some target.integration.id from hto]
              exact hfind
            exact Option.some.inj (hint.symm.trans this)
          have htd : deviceName = target.deviceName := Option.some.inj (hdev.symm.trans hdev')
          rw [hti, htd, hreach] at herr
          cases herr
        · trivial
    · rename_i hnone
      intro hs
      obtain ⟨target, ip, htarget, hto, -⟩ := h.linked hs
      obtain ⟨scopeId, entryId, hpoints, -⟩ := h.present hs
      obtain ⟨hfind, hdev, -⟩ := updatePushTarget_some htarget
      refine (hnone target.integration scopeId entryId target.deviceName ?_ hpoints.1 hpoints.2 hdev).elim
      rw [show (snapshot s).row.pushedToId = some target.integration.id from hto]
      exact hfind

end Reads

section Runs

variable {N : Package} {site : Site} {p : Pool Shared Stage} {i : Nat} {k : Turn} {t : Stage} {job : Job}

theorem due_false_of_ne (hc : Clear Shared.version ticket due p) (hi : p.calls[i]? = some t)
    (hd : due t = true) : ∀ j u, j ≠ i → p.calls[j]? = some u → due u = false := by
  intro j u hj hu
  by_contra hne
  exact hj (hc.2 j i u t hu hi (by simpa using hne) hd)

theorem same_of_due (hT : TrackedPool site p) (hc : Clear Shared.version ticket due p)
    (hi : p.calls[i]? = some t) (hd : due t = true) (hj : snapshotOf t = some job) :
    job.version = p.shared.version ∧ pushState job.row = pushState p.shared.row := by
  have ht := List.mem_of_getElem? hi
  have hv : job.version = p.shared.version := by
    have := hc.1 t ht hd
    rw [ticket, hj] at this
    exact Option.some.inj this
  exact ⟨hv, ((hT.2 t ht).2 job hj).2 hv⟩

theorem not_releasing (hc : Clear Shared.version ticket due p) (ht : t ∈ p.calls)
    (hd : due t = true) (hr : ¬ releases t) : ¬ Releasing p.calls := by
  rintro ⟨u, hu, hrel⟩
  have hdu : due u = true := by
    unfold releases at hrel
    split at hrel
    · rfl
    · cases hrel
  exact hr (hc.unique hu ht hdu hd ▸ hrel)

theorem decides_eq_false {w : RowWrite} (h : w.decides = false) :
    ∃ input actor, w = .edited input actor none := by
  unfold RowWrite.decides at h
  split at h
  · exact ⟨_, _, rfl⟩
  · cases h

theorem knows_beginUpdate {v : PushState} {g : Gateway} {calls : List Stage}
    {input : UpdateReservationInput} {actor : Option String} :
    Knows site v g calls (beginUpdate site input actor job) := by
  unfold beginUpdate
  split
  · trivial
  · split
    · trivial
    · split
      · split
        · trivial
        · split <;> trivial
      · trivial

theorem good_advance (hT : TrackedPool site p) (hc : Clear Shared.version ticket due p)
    (hi : p.calls[i]? = some t) (hf : Fresh k p.shared t) (h : Good site p.shared p.calls) :
    Good site (act N site k p.shared t).1 (p.calls.set i (act N site k p.shared t).2) := by
  have ht := List.mem_of_getElem? hi
  obtain ⟨hformed, htrack⟩ := hT.2 t ht
  have hbehind : ∀ u ∈ p.calls, ∀ j ∈ snapshotOf u, j.version ≤ p.shared.version :=
    fun u hu j hj => ((hT.2 u hu).2 j hj).1
  have hquiet : ∀ {t' : Stage} {s' : Shared}, claim t = none → ¬ releases t →
      pushState s'.row = pushState p.shared.row → s'.version = p.shared.version →
      s'.gateway = p.shared.gateway →
      (∀ calls, Knows site (pushState p.shared.row) p.shared.gateway calls t') →
      Good site s' (p.calls.set i t') := fun hclaim hrel hrow hv hg hknows =>
    h.quiet hi hrow hv hg (fun hr => absurd hr hrel)
      (fun _ _ _ hne => by rw [hclaim] at hne; cases hne) (fun _ => hknows _)
  cases t with
  | triggerRetryAfterStatusChange hostname integrationId =>
    refine hquiet rfl id rfl rfl rfl (fun _ => ?_)
    dsimp only [act]
    split_ifs <;> trivial
  | retryPendingReservations =>
    refine hquiet rfl id rfl rfl rfl (fun _ => ?_)
    dsimp only [act, enqueue]
    split_ifs
    · split <;> trivial
    · trivial
  | retryReservationNow =>
    refine hquiet rfl id rfl rfl rfl (fun _ => ?_)
    dsimp only [act, enqueue]
    split
    · trivial
    · split_ifs
      · trivial
      · split <;> trivial
  | updateReservation input actor =>
    exact hquiet rfl id rfl rfl rfl (fun _ => knows_beginUpdate)
  | releaseReservation => exact hquiet rfl id rfl rfl rfl (fun _ => knows_beginRelease h)
  | requeue job => exact good_requeue h hbehind ((htrack job rfl).2 hf) hi hformed
  | collider job q bypass =>
    refine hquiet rfl id rfl rfl rfl (fun _ => ?_)
    dsimp only [act]
    split
    · trivial
    · split_ifs <;> trivial
  | gate job q =>
    refine hquiet rfl id rfl rfl rfl (fun _ => ?_)
    dsimp only [act]
    split <;> trivial
  | attempt job q => exact hquiet rfl id rfl rfl rfl (fun _ => trivial)
  | list job q => exact good_list h hi hformed
  | post job q scope =>
    obtain ⟨hv, hsame⟩ := same_of_due hT hc hi rfl rfl
    have hcur : Current p.shared (.post job q scope) := fun j hj => by cases hj; exact hv
    refine h.post hi (due_false_of_ne hc hi rfl) hformed.1.id ?_
      (not_synced_of_pending hformed.1.pending hsame) (h.knows _ ht hcur)
    rw [← hsame]
    exact (truthy_some (updatePushTarget_some hformed.1.target).2.2).1
  | readBack job q scope own res =>
    obtain ⟨hv, hsame⟩ := same_of_due hT hc hi rfl rfl
    have hcur : Current p.shared (.readBack job q scope own res) := fun j hj => by cases hj; exact hv
    exact good_readBack h hi hformed hsame (h.knows _ ht hcur)
  | listUpdate job e => exact good_listUpdate h hi hformed (htrack job rfl).2
  | put job e scope entryId => exact h.put hi hformed.1.id
  | readBackUpdate job e scope entryId => exact good_readBackUpdate h hi
  | listRelease job scopeId entryId =>
    obtain ⟨-, hsame⟩ := same_of_due hT hc hi rfl rfl
    refine hquiet rfl id rfl rfl rfl (fun _ => ?_)
    dsimp only [act]
    split_ifs with hthere
    · trivial
    · intro _ scope entry hp e he hid
      rw [← hsame] at hp
      have hs : scope = scopeId := Option.some.inj (hp.1.symm.trans hformed.1)
      have hentry : entry = entryId := Option.some.inj (hp.2.symm.trans hformed.2)
      subst hs hentry
      exact hthere (List.any_eq_true.mpr ⟨e, he, by simpa using hid⟩)
  | delete job scopeId entryId =>
    obtain ⟨-, hsame⟩ := same_of_due hT hc hi rfl rfl
    refine h.delete hi (due_false_of_ne hc hi rfl) ?_
    rw [← hsame]
    exact hformed
  | write job w =>
    cases hd : w.decides with
    | true =>
      have hv : job.version = p.shared.version := hf hd
      have hcur : Current p.shared (.write job w) := fun j hj => by cases hj; exact hv
      dsimp only [act]
      rw [hd]
      refine good_write h hbehind ((htrack job rfl).2 hv) hi hformed hd ?_ (h.knows _ ht hcur)
      rintro e entry rfl
      exact not_releasing hc ht rfl id
    | false =>
      obtain ⟨input, actor, rfl⟩ := decides_eq_false hd
      exact hquiet rfl id rfl rfl rfl (fun _ => trivial)
  | done => exact hquiet rfl id rfl rfl rfl (fun _ => trivial)

theorem good_spawn (h : Good site p.shared p.calls) (hs : Starts t) :
    Good site p.shared (p.calls ++ [t]) := by
  refine ⟨fun scopeId e he hw => (h.written scopeId e he hw).imp_left claimed_append, h.pointed,
    h.linked, fun hsync => ?_, fun u hu hcur => ?_⟩
  · obtain ⟨scopeId, entryId, hp, hthere⟩ := h.present hsync
    exact ⟨scopeId, entryId, hp, hthere.imp_right releasing_append⟩
  · obtain hu | hu := List.mem_append.mp hu
    · refine (h.knows u hu hcur).mono grows_refl (fun _ => keeps_refl ?_) releasing_append
      exact fun _ _ _ => claimed_append
    · rw [List.mem_singleton.mp hu]
      cases t <;> trivial

theorem good_step (p : Pool Shared Stage) (m : Move Stage Turn) (hT : TrackedPool site p)
    (hc : Clear Shared.version ticket due p) (hm : p.Guarded Starts Fresh m)
    (h : Good site p.shared p.calls) :
    Good site (p.step (act N site) m).shared (p.step (act N site) m).calls := by
  cases m with
  | spawn t => exact good_spawn h hm
  | advance i k =>
    cases hi : p.calls[i]? with
    | none =>
      simp only [Pool.step, hi]
      exact h
    | some t =>
      simp only [Pool.step, hi]
      exact good_advance hT hc hi (hm t hi) h

/-- The row and the device before any of the operations: the entries written
for the row are the one of a synced row, which is there, and the pointers of
the row lead to no entry with another address. -/
structure Settled (site : Site) (s : Shared) : Prop where
  written : ∀ scopeId, ∀ e ∈ s.gateway.reserved scopeId, e.writtenFor = some site.id →
    Home (pushState s.row) scopeId e
  pointed : ∀ entryId, (pushState s.row).pushedEntryId = some entryId →
    ∃ scopeId, (pushState s.row).pushedScopeId = some scopeId ∧
      HasAddress (pushState s.row) s.gateway scopeId entryId
  linked : Synced (pushState s.row) → Linked site (pushState s.row)
  present : Synced (pushState s.row) → ∃ scopeId entryId, Points (pushState s.row) scopeId entryId ∧
    Present site (pushState s.row) s.gateway scopeId entryId

theorem Settled.good {s : Shared} (h : Settled site s) : Good site s [] where
  written scopeId e he hw := .inr (h.written scopeId e he hw)
  pointed := h.pointed
  linked := h.linked
  present hs := by
    obtain ⟨scopeId, entryId, hp, hthere⟩ := h.present hs
    exact ⟨scopeId, entryId, hp, .inl hthere⟩
  knows t ht := by cases ht

theorem agrees_of_good {s : Shared} {calls : List Stage} (h : Good site s calls)
    (hidle : ∀ t ∈ calls, inFlight t = false) : Agrees site s := by
  have hdone : ∀ t ∈ calls, t = .done := by
    intro t ht
    have := hidle t ht
    cases t <;> first | rfl | cases this
  have hhome : ∀ scopeId, ∀ e ∈ s.gateway.reserved scopeId, e.writtenFor = some site.id →
      Home (pushState s.row) scopeId e := by
    intro scopeId e he hw
    obtain ⟨t, ht, hc⟩ | hhome := h.written scopeId e he hw
    · rw [hdone t ht] at hc
      cases hc
    · exact hhome
  refine ⟨fun hactive hsynced => ?_, fun hr scopeId e he hw => ?_, fun scopeId e he hw hf => ?_⟩
  · obtain ⟨scopeId, entryId, hp, hthere | ⟨t, ht, hrel⟩⟩ := h.present ⟨hactive, hsynced⟩
    · obtain ⟨e, he, hid, hip, hw⟩ := hthere
      exact ⟨scopeId, entryId, hp.1, hp.2, e, he, hid, hip, (hhome scopeId e he hw).2.2⟩
    · rw [hdone t ht] at hrel
      cases hrel
  · cases hr.symm.trans (hhome scopeId e he hw).1.1
  · cases hf.symm.trans (hhome scopeId e he hw).1.2

/-- Along a run in which every write that decides the row finds it as its
operation has read it, the row and the device agree whenever no operation is
in flight. -/
theorem row_agrees_with_device (N : Package) (site : Site) (s : Shared)
    (moves : List (Move Stage Turn)) (h : Settled site s)
    (hrun : Along (Pool.step (act N site)) (Pool.Guarded Starts Fresh) ⟨s, []⟩ moves)
    (hidle : ∀ t ∈ (moves.foldl (Pool.step (act N site)) ⟨s, []⟩).calls, inFlight t = false) :
    Agrees site (moves.foldl (Pool.step (act N site)) ⟨s, []⟩).shared := by
  have hstart : TrackedPool site ⟨s, []⟩ := ⟨trivial, fun t ht => by cases ht⟩
  have hgood := clear_invariant (I := fun p => Good site p.shared p.calls) optimistic tracked_step
    tracked_noneAhead good_step hstart (fun _ => h.good) hrun
  refine agrees_of_good (hgood (clear_of_idle fun t ht => ?_)) hidle
  have := hidle t ht
  cases t <;> first | rfl | cases this

end Runs

section Plant

def plantSite : Site := ⟨0, plantSubnet, { integrations := [{ id := "fmg" }], subnets := [plantSubnet] }⟩

def queuedCamera : Shared where
  row := { subnetId := "lan", ipAddress := some "10.0.0.5", macAddress := some "aa:bb:cc:dd:ee:ff",
           pushedToId := some "fmg", pushStatus := some .pending }
  gateway := .empty [{ id := 1, startIp := some "10.0.0.100" }]

theorem settled_queuedCamera : Settled plantSite queuedCamera where
  written scopeId e he := by simp [queuedCamera, Gateway.empty] at he
  pointed entryId hp := by cases hp
  linked hs := by cases hs.2
  present hs := by cases hs.2

def turns (is : List Nat) : List (Move Stage Turn) := is.map fun i => .advance i {}

/-- A retry and an update of the host name, one step of each at a time, then
a new MAC and the release. -/
def orderly : List (Move Stage Turn) :=
  [.spawn .retryPendingReservations, .spawn (.updateReservation { hostname := some "camera" } none)] ++
    turns [0, 1, 0, 0, 1, 0, 0, 0, 0, 0] ++
    [.spawn (.updateReservation { macAddress := some "AA-BB-CC-00-11-22" } none)] ++
    turns [2, 2, 2, 2, 2]

theorem row_agrees_with_device_plant :
    let p := orderly.foldl (Pool.step (act reference plantSite)) ⟨queuedCamera, []⟩
    p.shared.row.pushStatus = some .synced ∧ p.shared.row.macAddress = some "aa:bb:cc:00:11:22" ∧
      Agrees plantSite p.shared := by
  refine ⟨by decide +kernel, by decide +kernel, ?_⟩
  exact row_agrees_with_device reference plantSite queuedCamera orderly settled_queuedCamera
    (by decide +kernel) (by decide +kernel)

/-- Two retries that both read the row before either writes it. -/
def abreast : List (Move Stage Turn) :=
  [.spawn .retryPendingReservations, .spawn .retryPendingReservations] ++
    turns [0, 1, 0, 1, 0, 1, 0, 1, 0, 0, 1, 0, 0, 1]

theorem retries_abreast_disagree :
    let p := abreast.foldl (Pool.step (act reference plantSite)) ⟨queuedCamera, []⟩
    Settled plantSite queuedCamera ∧
      Along (Pool.step (act reference plantSite)) (Pool.Guarded Starts fun _ _ _ => True)
        ⟨queuedCamera, []⟩ abreast ∧
      (∀ t ∈ p.calls, inFlight t = false) ∧ ¬ Agrees plantSite p.shared := by
  intro p
  refine ⟨settled_queuedCamera, by decide +kernel, by decide +kernel, fun h => ?_⟩
  have hentry : ∃ e ∈ p.shared.gateway.reserved 1, e.writtenFor = some 0 := by decide +kernel
  obtain ⟨e, he, hw⟩ := hentry
  refine h.landed 1 e he hw ?_
  decide +kernel

end Plant

end Polaris.ReservationAgreement
