import Polaris.ReservationTracking

namespace Polaris.ReservationClaims

open Polaris.Lib.Store Polaris.Lib.Runs Polaris.Lib.Commits Polaris.Netmask Polaris.Cidr Polaris.Mac
  Polaris.Transport Polaris.ReservationPush Polaris.Reservations Polaris.ReservationService
  Polaris.ReservationQueue Polaris.ReservationRaces Polaris.ReservationTracking

section Claims

def entryMac (e : ReservedAddress) : String := normalizeMac (e.mac.getD "")

/-- The entry and the MAC that an operation has put on the device and not
yet in the row. -/
def claim : Stage → Option (Nat × Nat × String)
  | .readBack _ p scope own _ => some (scope.1, own, normalizeMac p.mac)
  | .readBackUpdate _ e scope entryId => some (scope.1, entryId, normalizeMac e.p.newMac)
  | .write _ (.settled p (.ok entry)) => some (entry.scopeId, entry.entryId, normalizeMac p.mac)
  | .write _ (.updated e entry) => some (entry.scopeId, entry.entryId, normalizeMac e.p.newMac)
  | _ => none

def releases : Stage → Prop
  | .write _ .released => True
  | _ => False

def Claimed (calls : List Stage) (scopeId : Nat) (e : ReservedAddress) : Prop :=
  ∃ t ∈ calls, claim t = some (scopeId, e.id, entryMac e)

def Releasing (calls : List Stage) : Prop := ∃ t ∈ calls, releases t

variable {calls : List Stage} {i : Nat} {t t' u : Stage} {scopeId : Nat} {e : ReservedAddress}

theorem claimed_set (hi : calls[i]? = some t)
    (hkeep : claim t = some (scopeId, e.id, entryMac e) → claim t' = claim t)
    (h : Claimed calls scopeId e) : Claimed (calls.set i t') scopeId e := by
  obtain ⟨u, hu, hclaim⟩ := h
  obtain hu | rfl := mem_set_or t' hi hu
  · exact ⟨u, hu, hclaim⟩
  · exact ⟨t', mem_set_self hi, (hkeep hclaim).trans hclaim⟩

theorem releasing_set (hi : calls[i]? = some t) (hkeep : releases t → releases t')
    (h : Releasing calls) : Releasing (calls.set i t') := by
  obtain ⟨u, hu, hrel⟩ := h
  obtain hu | rfl := mem_set_or t' hi hu
  · exact ⟨u, hu, hrel⟩
  · exact ⟨t', mem_set_self hi, hkeep hrel⟩

theorem claimed_append (h : Claimed calls scopeId e) : Claimed (calls ++ [t]) scopeId e := by
  obtain ⟨u, hu, hclaim⟩ := h
  exact ⟨u, List.mem_append_left _ hu, hclaim⟩

theorem releasing_append (h : Releasing calls) : Releasing (calls ++ [t]) := by
  obtain ⟨u, hu, hrel⟩ := h
  exact ⟨u, List.mem_append_left _ hu, hrel⟩

end Claims

section Invariant

/-- The row was pushed through the integration of its subnet, which still
pushes and can be reached. -/
def Linked (site : Site) (v : PushState) : Prop :=
  ∃ target ip, updatePushTarget site.tables site.subnet v.ipAddress = some (target, ip) ∧
    v.pushedToId = some target.integration.id ∧ Reachable target.integration target.deviceName

def Synced (v : PushState) : Prop := v.status = .active ∧ v.pushStatus = some .synced

def Points (v : PushState) (scopeId entryId : Nat) : Prop :=
  v.pushedScopeId = some scopeId ∧ v.pushedEntryId = some entryId

/-- The entry of a synced row, with the MAC of the row. -/
def Home (v : PushState) (scopeId : Nat) (e : ReservedAddress) : Prop :=
  Synced v ∧ Points v scopeId e.id ∧ (truthy v.macAddress).map normalizeMac = some (entryMac e)

variable (site : Site) (v : PushState) (g : Gateway) (calls : List Stage) (scopeId entryId : Nat)

def Present : Prop :=
  ∃ e ∈ g.reserved scopeId, e.id = entryId ∧ e.ip = v.ipAddress ∧ e.writtenFor = some site.id

def Landed : Prop :=
  ∃ e ∈ g.reserved scopeId, e.id = entryId ∧ e.ip = v.ipAddress ∧ e.writtenFor = some site.id ∧
    Claimed calls scopeId e

def HasAddress : Prop := ∀ e ∈ g.reserved scopeId, e.id = entryId → e.ip = v.ipAddress

/-- The update goes to the entry of a synced row, unless that is released. -/
def Aimed : Prop := Synced v → Points v scopeId entryId ∨ Releasing calls

/-- What an operation that has read the current row knows about the device. -/
def Knows : Stage → Prop
  | .post _ p scope => ∀ e ∈ g.reserved scope.1, e.ip ≠ some p.ip
  | .readBack _ p scope own _ => Present site v g scope.1 own ∧
    ∀ e ∈ g.reserved scope.1, e.ip = some p.ip → e.id = own
  | .put _ _ scope entryId => HasAddress v g scope.1 entryId ∧ Aimed v calls scope.1 entryId
  | .readBackUpdate _ _ scope entryId => HasAddress v g scope.1 entryId ∧
    Aimed v calls scope.1 entryId ∧
    ∀ e ∈ g.reserved scope.1, e.id = entryId → e.writtenFor = some site.id
  | .write _ (.settled _ (.ok entry)) => Landed site v g calls entry.scopeId entry.entryId
  | .write _ (.updated _ entry) => Landed site v g calls entry.scopeId entry.entryId ∧
    Aimed v calls entry.scopeId entry.entryId
  | .write _ .released => Synced v → ∀ scopeId entryId, Points v scopeId entryId →
    ∀ e ∈ g.reserved scopeId, e.id ≠ entryId
  | _ => True

def Current (s : Shared) (t : Stage) : Prop := ∀ j ∈ snapshotOf t, j.version = s.version

/-- Every entry Polaris wrote for the row is accounted for, by the row or by
an operation that is still to write it. -/
structure Good (site : Site) (s : Shared) (calls : List Stage) : Prop where
  written : ∀ scopeId, ∀ e ∈ s.gateway.reserved scopeId, e.writtenFor = some site.id →
    Claimed calls scopeId e ∨ Home (pushState s.row) scopeId e
  pointed : ∀ entryId, (pushState s.row).pushedEntryId = some entryId →
    ∃ scopeId, (pushState s.row).pushedScopeId = some scopeId ∧
      HasAddress (pushState s.row) s.gateway scopeId entryId
  linked : Synced (pushState s.row) → Linked site (pushState s.row)
  present : Synced (pushState s.row) → ∃ scopeId entryId, Points (pushState s.row) scopeId entryId ∧
    (Present site (pushState s.row) s.gateway scopeId entryId ∨ Releasing calls)
  knows : ∀ t ∈ calls, Current s t → Knows site (pushState s.row) s.gateway calls t

end Invariant

section Device

variable {site : Site} {v : PushState} {g g' : Gateway} {calls calls' : List Stage}
  {scopeId entryId : Nat} {u : Stage}

/-- Every entry is an old one, or one with the address of the row that was
written for it. -/
def Grows (site : Site) (v : PushState) (g g' : Gateway) : Prop :=
  ∀ scopeId, ∀ e' ∈ g'.reserved scopeId, (e'.ip = v.ipAddress ∧ e'.writtenFor = some site.id) ∨
    ∃ e ∈ g.reserved scopeId, e.id = e'.id ∧ e.ip = e'.ip ∧
      (e.writtenFor = some site.id → e'.writtenFor = some site.id)

/-- Every old entry is still there, and still claimed when it was. -/
def Keeps (site : Site) (g g' : Gateway) (calls calls' : List Stage) : Prop :=
  (∀ scopeId, ∀ e' ∈ g'.reserved scopeId, ∃ e ∈ g.reserved scopeId, e.id = e'.id ∧ e.ip = e'.ip) ∧
  ∀ scopeId, ∀ e ∈ g.reserved scopeId, ∃ e' ∈ g'.reserved scopeId, e'.id = e.id ∧ e'.ip = e.ip ∧
    (e.writtenFor = some site.id → e'.writtenFor = some site.id) ∧
    (Claimed calls scopeId e → Claimed calls' scopeId e')

theorem grows_refl : Grows site v g g := fun _ e he => .inr ⟨e, he, rfl, rfl, id⟩

theorem keeps_refl (h : ∀ scopeId, ∀ e ∈ g.reserved scopeId, Claimed calls scopeId e →
    Claimed calls' scopeId e) : Keeps site g g calls calls' :=
  ⟨fun _ e he => ⟨e, he, rfl, rfl⟩, fun scopeId e he => ⟨e, he, rfl, rfl, id, h scopeId e he⟩⟩

theorem HasAddress.grows (h : HasAddress v g scopeId entryId) (hg : Grows site v g g') :
    HasAddress v g' scopeId entryId := by
  intro e' he' hid
  obtain ⟨hip, -⟩ | ⟨e, he, hid', hip, -⟩ := hg scopeId e' he'
  · exact hip
  · exact hip.symm.trans (h e he (hid'.trans hid))

theorem Present.keeps (h : Present site v g scopeId entryId) (hk : Keeps site g g' calls calls') :
    Present site v g' scopeId entryId := by
  obtain ⟨e, he, hid, hip, hw⟩ := h
  obtain ⟨e', he', hid', hip', hw', -⟩ := hk.2 scopeId e he
  exact ⟨e', he', hid'.trans hid, hip'.trans hip, hw' hw⟩

theorem Landed.keeps (h : Landed site v g calls scopeId entryId) (hk : Keeps site g g' calls calls') :
    Landed site v g' calls' scopeId entryId := by
  obtain ⟨e, he, hid, hip, hw, hc⟩ := h
  obtain ⟨e', he', hid', hip', hw', hc'⟩ := hk.2 scopeId e he
  exact ⟨e', he', hid'.trans hid, hip'.trans hip, hw' hw, hc' hc⟩

theorem Aimed.mono (h : Aimed v calls scopeId entryId) (hrel : Releasing calls → Releasing calls') :
    Aimed v calls' scopeId entryId :=
  fun hs => (h hs).imp_right hrel

theorem Knows.mono (h : Knows site v g calls u) (hg : Grows site v g g')
    (hk : due u = true → Keeps site g g' calls calls') (hrel : Releasing calls → Releasing calls') :
    Knows site v g' calls' u := by
  cases u with
  | post job p scope =>
    intro e' he'
    obtain ⟨e, he, -, hip⟩ := (hk rfl).1 scope.1 e' he'
    exact hip ▸ h e he
  | readBack job p scope own res =>
    refine ⟨h.1.keeps (hk rfl), fun e' he' hip' => ?_⟩
    obtain ⟨e, he, hid, hip⟩ := (hk rfl).1 scope.1 e' he'
    exact hid.symm.trans (h.2 e he (hip.trans hip'))
  | put job e scope entryId => exact ⟨h.1.grows hg, h.2.mono hrel⟩
  | readBackUpdate job e scope entryId =>
    refine ⟨h.1.grows hg, h.2.1.mono hrel, fun e' he' hid => ?_⟩
    obtain ⟨-, hw⟩ | ⟨e, he, hid', -, hw⟩ := hg scope.1 e' he'
    · exact hw
    · exact hw (h.2.2 e he (hid'.trans hid))
  | write job w =>
    cases w with
    | settled p pushed =>
      cases pushed with
      | error e => trivial
      | ok entry => exact Landed.keeps h (hk rfl)
    | updated e entry => exact ⟨h.1.keeps (hk rfl), h.2.mono hrel⟩
    | released =>
      intro hs scopeId entryId hp e' he'
      obtain ⟨e, he, hid, -⟩ := (hk rfl).1 scopeId e' he'
      exact hid ▸ h hs scopeId entryId hp e he
    | _ => trivial
  | _ => trivial

end Device

section Steps

variable {N : Package} {site : Site} {k : Turn} {s s' : Shared} {calls : List Stage} {i : Nat}
  {t t' : Stage}

def putEntry (p : UpdateParams) (scopeId entryId at' : Nat) (a : ReservedAddress) : ReservedAddress :=
  if at' = scopeId then Gateway.amendEntry entryId (updateEntry p) a else a

theorem Good.evolve (h : Good site s calls) (hi : calls[i]? = some t)
    (hrow : pushState s'.row = pushState s.row) (hversion : s'.version = s.version)
    (hg : Grows site (pushState s.row) s.gateway s'.gateway)
    (hk : ∀ j u, j ≠ i → calls[j]? = some u → due u = true →
      Keeps site s.gateway s'.gateway calls (calls.set i t'))
    (hrel : releases t → releases t')
    (hwritten : ∀ scopeId, ∀ e ∈ s'.gateway.reserved scopeId, e.writtenFor = some site.id →
      Claimed (calls.set i t') scopeId e ∨ Home (pushState s.row) scopeId e)
    (hpresent : ∀ scopeId entryId, Present site (pushState s.row) s.gateway scopeId entryId →
      Points (pushState s.row) scopeId entryId → Synced (pushState s.row) →
      Present site (pushState s.row) s'.gateway scopeId entryId ∨ Releasing (calls.set i t'))
    (hnew : Current s' t' → Knows site (pushState s.row) s'.gateway (calls.set i t') t') :
    Good site s' (calls.set i t') := by
  refine ⟨?_, ?_, ?_, ?_, ?_⟩
  · rw [hrow]
    exact hwritten
  · rw [hrow]
    intro entryId hp
    obtain ⟨scopeId, hs, haddress⟩ := h.pointed entryId hp
    exact ⟨scopeId, hs, haddress.grows hg⟩
  · rw [hrow]
    exact h.linked
  · rw [hrow]
    intro hs
    obtain ⟨scopeId, entryId, hp, hthere | hreleasing⟩ := h.present hs
    · exact ⟨scopeId, entryId, hp, hpresent scopeId entryId hthere hp hs⟩
    · exact ⟨scopeId, entryId, hp, .inr (releasing_set hi hrel hreleasing)⟩
  · rw [hrow]
    intro u hu hcur
    obtain rfl | ⟨j, hj, hu⟩ := mem_set_cases hu
    · exact hnew hcur
    · have hknows := h.knows u (List.mem_of_getElem? hu)
        (fun job hjob => (hcur job hjob).trans hversion)
      exact hknows.mono hg (hk j u hj hu) (releasing_set hi hrel)

theorem Good.quiet (h : Good site s calls) (hi : calls[i]? = some t)
    (hrow : pushState s'.row = pushState s.row) (hversion : s'.version = s.version)
    (hgateway : s'.gateway = s.gateway) (hrel : releases t → releases t')
    (hclaim : ∀ scopeId, ∀ e ∈ s.gateway.reserved scopeId,
      claim t = some (scopeId, e.id, entryMac e) → claim t' = claim t)
    (hnew : Current s t' → Knows site (pushState s.row) s.gateway (calls.set i t') t') :
    Good site s' (calls.set i t') := by
  have hclaimed : ∀ scopeId, ∀ e ∈ s.gateway.reserved scopeId, Claimed calls scopeId e →
      Claimed (calls.set i t') scopeId e :=
    fun scopeId e he => claimed_set hi (hclaim scopeId e he)
  refine h.evolve hi hrow hversion ?_ ?_ hrel ?_ ?_ ?_
  · rw [hgateway]
    exact grows_refl
  · rw [hgateway]
    exact fun _ _ _ _ _ => keeps_refl hclaimed
  · rw [hgateway]
    exact fun scopeId e he hw => (h.written scopeId e he hw).imp_left (hclaimed scopeId e he)
  · rw [hgateway]
    exact fun _ _ hthere _ _ => .inl hthere
  · rw [hgateway]
    exact fun hcur => hnew (fun job hjob => (hcur job hjob).trans hversion)

theorem putEntry_cases (p : UpdateParams) (scopeId entryId at' : Nat) (a : ReservedAddress) :
    (putEntry p scopeId entryId at' a).id = a.id ∧ (putEntry p scopeId entryId at' a).ip = a.ip ∧
    ((at' = scopeId ∧ a.id = entryId ∧
        (putEntry p scopeId entryId at' a).writtenFor = some p.reservationId ∧
        entryMac (putEntry p scopeId entryId at' a) = normalizeMac p.newMac) ∨
      (¬ (at' = scopeId ∧ a.id = entryId) ∧ putEntry p scopeId entryId at' a = a)) := by
  unfold putEntry Gateway.amendEntry
  by_cases hs : at' = scopeId
  · by_cases hid : a.id = entryId
    · simp [hs, hid, updateEntry, entryMac, normalizeMac_normalizeMac]
    · simp [hs, hid]
  · simp [hs]

theorem Good.put {job : Job} {e : Edit} {scope : Nat × Option String} {entryId : Nat}
    (h : Good site s calls) (hi : calls[i]? = some (.put job e scope entryId))
    (hid : e.p.reservationId = site.id) :
    Good site { s with gateway := s.gateway.modify scope.1 entryId (updateEntry e.p) }
      (calls.set i (.readBackUpdate job e scope entryId)) := by
  have hput : ∀ {scopeId : Nat} {e' : ReservedAddress},
      e' ∈ (s.gateway.modify scope.1 entryId (updateEntry e.p)).reserved scopeId →
      ∃ a ∈ s.gateway.reserved scopeId, e' = putEntry e.p scope.1 entryId scopeId a :=
    Gateway.mem_modify.mp
  have hwrites : ∀ (scopeId : Nat) (a : ReservedAddress), a.writtenFor = some site.id →
      (putEntry e.p scope.1 entryId scopeId a).writtenFor = some site.id := by
    intro scopeId a hw
    obtain ⟨-, -, ⟨-, -, hw', -⟩ | ⟨-, he⟩⟩ := putEntry_cases e.p scope.1 entryId scopeId a
    · rw [hw', hid]
    · rw [he, hw]
  have hclaims : ∀ (scopeId : Nat) (a : ReservedAddress), Claimed calls scopeId a →
      Claimed (calls.set i (.readBackUpdate job e scope entryId)) scopeId
        (putEntry e.p scope.1 entryId scopeId a) := by
    intro scopeId a hc
    obtain ⟨hid', -, ⟨hs, ha, -, hmac⟩ | ⟨-, he⟩⟩ := putEntry_cases e.p scope.1 entryId scopeId a
    · exact ⟨_, mem_set_self hi, by rw [claim, hid', ha, hmac, hs]⟩
    · rw [he]
      exact claimed_set hi (fun hne => by cases hne) hc
  have hgrows : Grows site (pushState s.row) s.gateway
      (s.gateway.modify scope.1 entryId (updateEntry e.p)) := by
    intro scopeId e' he'
    obtain ⟨a, ha, rfl⟩ := hput he'
    obtain ⟨hid', hip', -⟩ := putEntry_cases e.p scope.1 entryId scopeId a
    exact .inr ⟨a, ha, hid'.symm, hip'.symm, hwrites scopeId a⟩
  have hkeeps : Keeps site s.gateway (s.gateway.modify scope.1 entryId (updateEntry e.p)) calls
      (calls.set i (.readBackUpdate job e scope entryId)) := by
    refine ⟨fun scopeId e' he' => ?_, fun scopeId a ha => ?_⟩
    · obtain ⟨a, ha, rfl⟩ := hput he'
      obtain ⟨hid', hip', -⟩ := putEntry_cases e.p scope.1 entryId scopeId a
      exact ⟨a, ha, hid'.symm, hip'.symm⟩
    · obtain ⟨hid', hip', -⟩ := putEntry_cases e.p scope.1 entryId scopeId a
      exact ⟨putEntry e.p scope.1 entryId scopeId a, Gateway.mem_modify.mpr ⟨a, ha, rfl⟩, hid', hip',
        hwrites scopeId a, hclaims scopeId a⟩
  refine h.evolve hi rfl rfl hgrows (fun _ _ _ _ _ => hkeeps) (fun hrel => hrel.elim) ?_ ?_ ?_
  · intro scopeId e' he' hw
    obtain ⟨a, ha, rfl⟩ := hput he'
    obtain ⟨hid', -, ⟨hs, ha', -, hmac⟩ | ⟨-, he⟩⟩ := putEntry_cases e.p scope.1 entryId scopeId a
    · exact .inl ⟨_, mem_set_self hi, by rw [claim, hid', ha', hmac, hs]⟩
    · rw [he] at hw ⊢
      refine (h.written scopeId a ha hw).imp_left (claimed_set hi (fun hne => by cases hne))
  · exact fun scopeId entryId' hthere _ _ => .inl (hthere.keeps hkeeps)
  · intro hcur
    obtain ⟨haddress, haimed⟩ := h.knows _ (List.mem_of_getElem? hi) hcur
    refine ⟨haddress.grows hgrows, haimed.mono (releasing_set hi (fun hrel => hrel.elim)), ?_⟩
    intro e' he' hid'
    obtain ⟨a, ha, rfl⟩ := hput he'
    obtain ⟨hida, -, ⟨-, -, hw, -⟩ | ⟨hne, -⟩⟩ := putEntry_cases e.p scope.1 entryId scope.1 a
    · rw [hw, hid]
    · exact absurd ⟨rfl, hida.symm.trans hid'⟩ hne

theorem Good.post {job : Job} {p : PushParams} {scope : Nat × Option String}
    (h : Good site s calls) (hi : calls[i]? = some (.post job p scope))
    (halone : ∀ j u, j ≠ i → calls[j]? = some u → due u = false)
    (hid : p.reservationId = site.id) (hip : (pushState s.row).ipAddress = some p.ip)
    (hnot : ¬ Synced (pushState s.row))
    (hfree : ∀ e ∈ s.gateway.reserved scope.1, e.ip ≠ some p.ip) :
    Good site { s with gateway := (s.gateway.create scope.1 (newEntry p)).1 }
      (calls.set i (.readBack job p scope s.gateway.nextEntryId
        (s.gateway.create scope.1 (newEntry p)).2)) := by
  have hgrows : Grows site (pushState s.row) s.gateway
      (s.gateway.create scope.1 (newEntry p)).1 := by
    intro scopeId e' he'
    obtain he' | ⟨-, rfl⟩ := Gateway.mem_create.mp he'
    · exact .inr ⟨e', he', rfl, rfl, id⟩
    · exact .inl ⟨hip.symm, congrArg some hid⟩
  refine h.evolve hi rfl rfl hgrows ?_ (fun hrel => hrel.elim) ?_ (fun _ _ _ _ hs => absurd hs hnot) ?_
  · intro j u hj hu hd
    simp [halone j u hj hu] at hd
  · intro scopeId e' he' hw
    obtain he' | ⟨rfl, rfl⟩ := Gateway.mem_create.mp he'
    · exact (h.written scopeId e' he' hw).imp_left (claimed_set hi (fun hne => by cases hne))
    · refine .inl ⟨_, mem_set_self hi, ?_⟩
      simp [claim, entryMac, newEntry, normalizeMac_normalizeMac]
  · intro _
    refine ⟨⟨_, Gateway.mem_create.mpr (.inr ⟨rfl, rfl⟩), rfl, hip.symm, congrArg some hid⟩, ?_⟩
    intro e' he' hip'
    obtain he' | ⟨-, rfl⟩ := Gateway.mem_create.mp he'
    · exact absurd hip' (hfree e' he')
    · rfl

theorem Good.delete {job : Job} {scopeId entryId : Nat} (h : Good site s calls)
    (hi : calls[i]? = some (.delete job scopeId entryId))
    (halone : ∀ j u, j ≠ i → calls[j]? = some u → due u = false)
    (hpoints : Points (pushState s.row) scopeId entryId) :
    Good site { s with gateway := s.gateway.delete scopeId entryId }
      (calls.set i (.write job .released)) := by
  refine h.evolve hi rfl rfl ?_ ?_ (fun hrel => hrel.elim) ?_ ?_ ?_
  · intro scope e' he'
    exact .inr ⟨e', (Gateway.mem_delete.mp he').1, rfl, rfl, id⟩
  · intro j u hj hu hd
    simp [halone j u hj hu] at hd
  · intro scope e' he' hw
    exact (h.written scope e' (Gateway.mem_delete.mp he').1 hw).imp_left
      (claimed_set hi (fun hne => by cases hne))
  · exact fun _ _ _ _ _ => .inr ⟨_, mem_set_self hi, trivial⟩
  · intro _ _ scope entry hp e' he' hid
    have hs : scope = scopeId := Option.some.inj (hp.1.symm.trans hpoints.1)
    have he : entry = entryId := Option.some.inj (hp.2.symm.trans hpoints.2)
    exact (Gateway.mem_delete.mp he').2 ⟨hs, hid.trans he⟩

theorem knows_of_none {v : PushState} {g : Gateway} {u : Stage} (h : snapshotOf u = none) :
    Knows site v g calls u := by
  cases u <;> trivial

theorem knows_of_behind {v : PushState} {g : Gateway} {u : Stage} {calls' : List Stage}
    (hbehind : ∀ j ∈ snapshotOf u, j.version < s'.version) (hcur : Current s' u) :
    Knows site v g calls' u := by
  cases hj : snapshotOf u with
  | none => exact knows_of_none hj
  | some j =>
    have hlt := hbehind j hj
    have heq := hcur j hj
    omega

theorem Good.unsync (h : Good site s calls) (hi : calls[i]? = some t)
    (hgateway : s'.gateway = s.gateway) (hclaim : claim t = none)
    (hbehind : ∀ u ∈ calls, ∀ j ∈ snapshotOf u, j.version < s'.version)
    (hplain : ∀ calls, Knows site (pushState s'.row) s'.gateway calls t')
    (hnot : ¬ Synced (pushState s'.row))
    (hip : (pushState s'.row).ipAddress = (pushState s.row).ipAddress)
    (hpoints : (pushState s'.row).pushedEntryId = none ∨
      (pushState s'.row).pushedScopeId = (pushState s.row).pushedScopeId ∧
        (pushState s'.row).pushedEntryId = (pushState s.row).pushedEntryId)
    (hhome : ∀ scopeId, ∀ e ∈ s.gateway.reserved scopeId, ¬ Home (pushState s.row) scopeId e) :
    Good site s' (calls.set i t') := by
  refine ⟨?_, ?_, fun hs => absurd hs hnot, fun hs => absurd hs hnot, ?_⟩
  · rw [hgateway]
    intro scopeId e he hw
    obtain hc | hc := h.written scopeId e he hw
    · exact .inl (claimed_set hi (fun hne => by rw [hclaim] at hne; cases hne) hc)
    · exact absurd hc (hhome scopeId e he)
  · intro entryId hp
    obtain hnone | ⟨hscope, hentry⟩ := hpoints
    · cases hp.symm.trans hnone
    · obtain ⟨scopeId, hs, haddress⟩ := h.pointed entryId (hentry.symm.trans hp)
      refine ⟨scopeId, hscope.trans hs, fun e he hid => ?_⟩
      rw [hip]
      exact haddress e (hgateway ▸ he) hid
  · intro u hu hcur
    obtain rfl | ⟨j, -, hu⟩ := mem_set_cases hu
    · exact hplain _
    · exact knows_of_behind (hbehind u (List.mem_of_getElem? hu)) hcur

theorem Good.sync {scopeId entryId : Nat} {mac : String} (h : Good site s calls)
    (hi : calls[i]? = some t) (hgateway : s'.gateway = s.gateway)
    (hclaim : claim t = some (scopeId, entryId, mac))
    (hbehind : ∀ u ∈ calls, ∀ j ∈ snapshotOf u, j.version < s'.version)
    (hip : (pushState s'.row).ipAddress = (pushState s.row).ipAddress)
    (hlanded : Landed site (pushState s.row) s.gateway calls scopeId entryId)
    (hsynced : Synced (pushState s'.row)) (hlinked : Linked site (pushState s'.row))
    (hpoints : Points (pushState s'.row) scopeId entryId)
    (hmac : (truthy (pushState s'.row).macAddress).map normalizeMac = some mac)
    (haimed : Synced (pushState s.row) → Points (pushState s.row) scopeId entryId) :
    Good site s' (calls.set i .done) := by
  obtain ⟨own, hown, hid, hipOwn, hwOwn, hclaimed⟩ := hlanded
  have hclaims : ∀ at' e, Claimed calls at' e →
      Claimed (calls.set i .done) at' e ∨ Home (pushState s'.row) at' e := by
    intro at' e hc
    obtain ⟨u, hu, hcu⟩ := hc
    obtain hu | rfl := mem_set_or .done hi hu
    · exact .inl ⟨u, hu, hcu⟩
    · rw [hclaim] at hcu
      cases hcu
      exact .inr ⟨hsynced, hpoints, hmac⟩
  refine ⟨?_, ?_, fun _ => hlinked, fun _ => ⟨scopeId, entryId, hpoints, .inl ?_⟩, ?_⟩
  · rw [hgateway]
    intro at' e he hw
    obtain hc | hhome := h.written at' e he hw
    · exact hclaims at' e hc
    · have hp := haimed hhome.1
      have hs : at' = scopeId := Option.some.inj (hhome.2.1.1.symm.trans hp.1)
      have heid : e.id = entryId := Option.some.inj (hhome.2.1.2.symm.trans hp.2)
      subst hs
      rw [Gateway.eq_of_id he hown (heid.trans hid.symm)]
      exact hclaims at' own hclaimed
  · intro entry hp
    have hentry : entry = entryId := Option.some.inj (hp.symm.trans hpoints.2)
    subst hentry
    refine ⟨scopeId, hpoints.1, fun e he heid => ?_⟩
    rw [hgateway] at he
    rw [Gateway.eq_of_id he hown (heid.trans hid.symm), hip]
    exact hipOwn
  · rw [hgateway]
    exact ⟨own, hown, hid, hipOwn.trans hip.symm, hwOwn⟩
  · intro u hu hcur
    obtain rfl | ⟨j, -, hu⟩ := mem_set_cases hu
    · trivial
    · exact knows_of_behind (hbehind u (List.mem_of_getElem? hu)) hcur

end Steps

end Polaris.ReservationClaims
