import Polaris.ConflictMerge

namespace Polaris.ConflictFailures

open Polaris.Cidr Polaris.ConflictResolution Polaris.ConflictRaces Polaris.ConflictMerge
open Polaris.Reservations (truthy truthy_some)
open Polaris.RoleFreshness (canResolve)

section Idempotence

variable {N : Naming} {e e' : Asset} {p : ProposedFields} {fieldWinners : FieldWinners}
  {actor : Option String}

theorem or_chosen (w w' : Winner) (x v : Option String) (h : w = .existing → w' = .existing) :
    (chosen w' x).or ((chosen w x).or v) = (chosen w x).or v := by
  cases w with
  | existing =>
    rw [h rfl, chosen, if_neg (by decide), Option.none_or, Option.none_or]
  | proposed =>
    cases w' with
    | existing =>
      rw [chosen, if_neg (by decide), Option.none_or]
    | proposed =>
      rw [chosen, if_pos rfl]
      cases truthy x <;> rfl

theorem or_filled (v x : Option String) :
    (if falsy ((if falsy v then truthy x else none).or v) then truthy x else none).or
      ((if falsy v then truthy x else none).or v) = (if falsy v then truthy x else none).or v := by
  cases hv : falsy v with
  | false => simp [hv]
  | true =>
    cases hx : truthy x with
    | none => simp
    | some s =>
      have hs : truthy (some s) = some s := by simp [truthy, (truthy_some hx).2]
      simp [falsy, hs]

theorem blankFill_again (field : String) (v x : Option String) :
    (blankFill fieldWinners field ((blankFill fieldWinners field v x).or v) x).or
      ((blankFill fieldWinners field v x).or v) = (blankFill fieldWinners field v x).or v := by
  rw [blankFill, blankFill]
  apply or_chosen
  intro h
  have hnone : chosen
    ((fieldWinners field).getD (if falsy v && ! falsy x then .proposed else .existing)) x = none := by
    rw [h]
    rfl
  rw [hnone, Option.none_or]
  exact h

theorem blankFill_cases (field : String) (v x : Option String) :
    blankFill fieldWinners field v x = none ∨ blankFill fieldWinners field v x = truthy x := by
  rw [blankFill]
  cases (fieldWinners field).getD (if falsy v && ! falsy x then .proposed else .existing) with
  | existing => exact .inl rfl
  | proposed => exact .inr rfl

/-- What was stored for the proposed manufacturer is stored for it again. -/
theorem manufacturer_again (v x : Option String) {v' : Option String}
    (hv : v' = (blankFill fieldWinners "manufacturer" v x).elim v fun s => N.stored (some s)) :
    ((blankFill fieldWinners "manufacturer" v' x).elim v' fun s => N.stored (some s)) = v' := by
  obtain hfirst | hfirst := @blankFill_cases fieldWinners "manufacturer" v x
  · rw [hfirst, Option.elim_none] at hv
    rw [hv, hfirst, Option.elim_none]
  · obtain hnone | hagain := @blankFill_cases fieldWinners "manufacturer" v' x
    · rw [hnone, Option.elim_none]
    · rw [hagain]
      rw [hfirst] at hv
      cases hx : truthy x with
      | none => rfl
      | some s => rw [hv, hx, Option.elim_some, Option.elim_some]

theorem mergeTags_append (tags added : List String) :
    (∀ t ∈ tags, t ∈ mergeTags tags added) ∧ ∀ t ∈ added, t ∈ mergeTags tags added := by
  induction added generalizing tags with
  | nil => exact ⟨fun _ h => h, fun _ h => by cases h⟩
  | cons a added ih =>
    rw [mergeTags, List.foldl_cons]
    obtain ⟨hold, hnew⟩ := ih (if a ∈ tags then tags else tags ++ [a])
    have hsub : ∀ t, t ∈ tags ∨ t = a → t ∈ if a ∈ tags then tags else tags ++ [a] := by
      intro t ht
      split
      · next ha =>
        obtain ht | rfl := ht
        · exact ht
        · exact ha
      · exact List.mem_append.mpr (ht.imp_right List.mem_singleton.mpr)
    refine ⟨fun t ht => hold t (hsub t (.inl ht)), fun t ht => ?_⟩
    obtain rfl | ht := List.mem_cons.mp ht
    · exact hold _ (hsub _ (.inr rfl))
    · exact hnew t ht

theorem mergeTags_of_mem {tags added : List String} (h : ∀ t ∈ added, t ∈ tags) :
    mergeTags tags added = tags := by
  induction added with
  | nil => rfl
  | cons a added ih =>
    rw [mergeTags, List.foldl_cons, if_pos (h a List.mem_cons_self)]
    exact ih fun t ht => h t (List.mem_cons_of_mem a ht)

theorem mergeTags_again (tags added : List String) :
    mergeTags (mergeTags tags added) added = mergeTags tags added :=
  mergeTags_of_mem (mergeTags_append tags added).2

theorem clamp_again (reg seen acq last : Option Nat) {q : Option Nat}
    (hq : q = (clampAcquiredToLastSeen (if acq = none then reg else none) seen acq last).or acq) :
    (clampAcquiredToLastSeen (if q = none then reg else none) seen q (seen.or last)).or q = q := by
  subst hq
  cases acq with
  | none =>
    cases reg with
    | none =>
      cases seen <;> cases last <;> simp [clampAcquiredToLastSeen]
    | some r =>
      cases seen with
      | none =>
        cases last with
        | none => simp [clampAcquiredToLastSeen]
        | some l => by_cases h : l < r <;> simp [clampAcquiredToLastSeen, h]
      | some s => by_cases h : s < r <;> simp [clampAcquiredToLastSeen, h]
  | some a =>
    cases seen with
    | none =>
      cases last with
      | none => simp [clampAcquiredToLastSeen]
      | some l => by_cases h : l < a <;> simp [clampAcquiredToLastSeen, h]
    | some s => by_cases h : s < a <;> simp [clampAcquiredToLastSeen, h]

theorem isNetbiosUpgrade_congr (h : e'.hostname = e.hostname) :
    isNetbiosUpgrade N e' p = isNetbiosUpgrade N e p := by
  rw [isNetbiosUpgrade, isNetbiosUpgrade, h]

theorem hostname_again (actor : Option String) (first now : Nat)
    (h : e'.hostname = (acceptUpdate N e p fieldWinners actor first).hostname.or e.hostname) :
    (acceptUpdate N e' p fieldWinners actor now).hostname.or e'.hostname =
      (acceptUpdate N e p fieldWinners actor first).hostname.or e.hostname := by
  rw [h]
  apply or_chosen
  intro hw
  have hkept : e'.hostname = e.hostname := by
    rw [h, acceptUpdate]
    dsimp only
    rw [hw]
    rfl
  rw [isNetbiosUpgrade_congr hkept, hkept]
  exact hw

theorem learnedLocation_again (location v x : Option String) :
    (if falsy location && falsy ((if falsy location && falsy v then truthy x else none).or v) then
      truthy x else none).or
      ((if falsy location && falsy v then truthy x else none).or v) =
    (if falsy location && falsy v then truthy x else none).or v := by
  cases falsy location with
  | false => rfl
  | true => exact or_filled v x

theorem assetType_again (t : AssetType) (x : Option AssetType) :
    (if (if t = .other then x else none).getD t = .other then x else none).getD
      ((if t = .other then x else none).getD t) =
      (if t = .other then x else none).getD t := by
  by_cases ht : t = .other
  · subst ht
    cases x with
    | none => rfl
    | some v => by_cases hv : v = .other <;> simp [hv]
  · simp [ht]

/-- An update made again from the asset that it has made. -/
theorem acceptUpdate_again {first now : Nat} (hs : e' = applyUpdate N
      (clampUpdate (acceptUpdate N e p fieldWinners actor first) e) e) :
    applyUpdate N (clampUpdate (acceptUpdate N e' p fieldWinners actor now) e') e' =
      applyUpdate N (clampUpdate (acceptUpdate N e p fieldWinners actor now) e) e := by
  have hhost := @hostname_again N e e' p fieldWinners actor first now (by rw [hs]; rfl)
  have hstatus : ∀ (r : Bool) (t : Option Nat),
    (if r then some now else none).or ((if r then some first else none).or t) =
      (if r then some now else none).or t := by
    intro r t
    cases r <;> rfl
  rw [applyUpdate, applyUpdate, Asset.mk.injEq]
  refine ⟨hhost, ?_, ?_, ?_, ?_, ?_, ?_, ?_, ?_, ?_, ?_, ?_, ?_, ?_, ?_, ?_, ?_, ?_, ?_, ?_⟩
  · rw [hs]
    exact or_filled e.dnsName p.dnsName
  · rw [hs]
    exact blankFill_again "serialNumber" e.serialNumber p.serialNumber
  · rw [hs]
    exact blankFill_again "macAddress" e.macAddress p.macAddress
  · rw [hs]
    exact manufacturer_again e.manufacturer p.manufacturer rfl
  · rw [hs]
    exact blankFill_again "model" e.model p.model
  · rw [hs]
    exact blankFill_again "assignedTo" e.assignedTo p.assignedTo
  · rw [hs]
    exact or_chosen _ _ p.os e.os id
  · rw [hs]
    exact or_chosen _ _ p.osVersion e.osVersion id
  · rw [hs]
    rfl
  · rw [hs]
    exact learnedLocation_again e.location e.learnedLocation p.learnedLocation
  · rw [hs]
    exact or_filled e.notes p.notes
  · rw [hs]
    change p.lastSeen.or (p.lastSeen.or e.lastSeen) = p.lastSeen.or e.lastSeen
    cases p.lastSeen <;> rfl
  · rw [hs]
    exact clamp_again p.registrationDateTime p.lastSeen e.acquiredAt e.lastSeen rfl
  · rw [hs]
    exact assetType_again e.assetType p.assetType
  · rw [hs]
    change (if _ then some AssetStatus.decommissioned else none).getD
      ((if _ then _ else none).getD e.status) = _
    cases h : isAd p && p.disabled <;> simp [acceptUpdate, clampUpdate, h]
  · rw [hs]
    exact hstatus (isAd p && p.disabled) e.statusChangedAt
  · rw [hs]
    change (if _ then some (actor.getD "system") else none).or
      ((if _ then _ else none).or e.statusChangedBy) = _
    cases h : isAd p && p.disabled <;> simp [acceptUpdate, clampUpdate, h]
  · rw [hs]
    exact mergeTags_again e.tags (sourceTags N p)
  · rw [hs]
    rfl

end Idempotence

section Failures

variable (N : Naming)

/-- The database calls of acceptAssetConflict. -/
inductive Statement
  | findSource | deleteGhost | updateAsset | pruneMacs | insertMacs | upsertSource
  deriving DecidableEq

def statement : Stage → Option Statement
  | .findSource _ _ _ _ => some .findSource
  | .deleteGhost _ _ _ _ _ _ => some .deleteGhost
  | .updateAsset _ _ _ _ => some .updateAsset
  | .pruneMacs _ _ _ => some .pruneMacs
  | .insertMacs _ _ _ => some .insertMacs
  | .upsertSource _ _ => some .upsertSource
  | _ => none

def actFailing (bad : Statement) (e : Failure) (db : Db) (now : Nat) (t : Task) : Db × Task :=
  if statement t.stage = some bad then (db, { t with stage := .done (.error e) }) else act N db now t

def serveFailing (bad : Statement) (e : Failure) (times : List Nat) (db : Db) (t : Task) : Db × Task :=
  times.foldl (fun s now => actFailing N bad e s.1 now s.2) (db, t)

/-- The request passes the checks, and the accept starts. -/
structure Accepting (m : Merge) (req : Request) : Prop where
  conflict : m.db.conflict = some m.c
  pending : m.c.status = .pending
  entityType : m.c.entityType = .asset
  assetId : m.c.assetId = some m.id
  asset : m.db.assets m.id = some m.existing
  device : truthy m.c.proposedDeviceId ≠ none
  choices : req.kind = .accept ∧ m.fieldWinners = (fun _ => none) ∨ req.kind = .merge m.fieldWinners
  permitted : canResolve req.session .asset = true
  actor : req.username = m.actor

/-- A failed accept has left the conflict pending and every asset with its MACs
and every source row in place, and the same request, made again, ends as if it
had not failed. -/
structure Recoverable (m : Merge) (req : Request) (db : Db) : Prop where
  pending : ∃ c, db.conflict = some c ∧ c.status = .pending
  assets : ∀ id a, m.db.assets id = some a →
    ∃ a', db.assets id = some a' ∧ ∀ r ∈ a.macAddressRows, ∃ r' ∈ a'.macAddressRows, r'.mac = r.mac
  sources : ∀ kind externalId, (m.db.sources kind externalId).isSome → (db.sources kind externalId).isSome
  retry : ∀ times, (serve N times m.db { req := req }).2.stage = .done (.ok ()) →
    serve N times db { req := req } = serve N times m.db { req := req }

variable {N} {m : Merge} {req : Request} {bad : Statement} {e : Failure} {db : Db} {now : Nat}

theorem Accepting.begin (h : Accepting m req) (now : Nat) : begin N m.db req now =
    .ok (.findSource m.c m.id m.existing
      (acceptUpdate N m.existing m.c.proposedAssetFields m.fieldWinners m.actor now)) := by
  have heffect : effect N m.db m.c req now = acceptAssetConflict N m.db m.c m.fieldWinners m.actor now := by
    rw [effect, h.entityType]
    obtain ⟨hk, hw⟩ | hk := h.choices
    · rw [hk, hw, h.actor]
    · rw [hk, h.actor]
  rw [ConflictRaces.begin, h.conflict]
  dsimp only
  rw [if_neg (not_not.mpr h.pending), if_neg fun hm => hm.2 h.entityType, h.entityType, h.permitted, heffect,
    acceptAssetConflict, h.assetId, Option.bind_some, h.asset]
  dsimp only [Option.map_some]
  rw [if_neg h.device]
  rfl

theorem Accepting.begins (h : Accepting m req) : m.Begins N req := by
  refine ⟨h.asset, fun now stage hb => ?_⟩
  rw [h.begin] at hb
  cases hb
  exact ⟨rfl, rfl, rfl, rfl, now, rfl⟩

section Runs

variable {P : Db → Stage → Prop} (times : List Nat)

/-- What the stages of a failing run keep, by the statement that fails and the
statements that do not. -/
theorem serveFailing_keeps (h : Accepting m req) (hread : P m.db .read)
    (hfail : ∀ db stage, statement stage = some bad → m.Progress N db stage → P db stage →
      P db (.done (.error e)))
    (hact : ∀ db t now, t.req = req → statement t.stage ≠ some bad → m.Progress N db t.stage → P db t.stage →
      P (act N db now t).1 (act N db now t).2.stage) :
    P (serveFailing N bad e times m.db { req := req }).1
      (serveFailing N bad e times m.db { req := req }).2.stage := by
  have hrun : ∀ (db : Db) (t : Task), t.req = req → m.Progress N db t.stage → P db t.stage →
      P (serveFailing N bad e times db t).1 (serveFailing N bad e times db t).2.stage := by
    induction times with
    | nil => exact fun _ _ _ _ hP => hP
    | cons now times ih =>
      intro db t hreq hp hP
      rw [serveFailing, List.foldl_cons]
      by_cases hbad : statement t.stage = some bad
      · rw [actFailing, if_pos hbad]
        exact ih db _ hreq trivial (hfail db t.stage hbad hp hP)
      · rw [actFailing, if_neg hbad]
        have hbegins : m.Begins N t.req := hreq ▸ h.begins
        obtain ⟨hp', hreq'⟩ : m.Progress N (act N db now t).1 (act N db now t).2.stage ∧
            (act N db now t).2.req = t.req := progress_act hbegins hp
        exact ih _ _ (hreq'.trans hreq) hp' (hact db t now hreq hbad hp hP)
  exact hrun m.db { req := req } rfl rfl hread

/-- The tables after the update of an asset that has no ghost. -/
def WroteOnce (N : Naming) (m : Merge) (db : Db) : Prop :=
  ∃ first, db = (m.db.updateAsset m.id (applyUpdate N (m.update N first))).1

/-- Up to the delete of the ghost nothing is written. -/
def Early (m : Merge) (bad : Statement) (db : Db) : Stage → Prop
  | .read | .findSource _ _ _ _ => True
  | .deleteGhost _ _ _ _ _ _ => bad = .deleteGhost
  | .done (.error _) => db = m.db
  | _ => False

/-- Without a ghost only the asset is written before the source row. -/
def Kept (N : Naming) (m : Merge) (db : Db) : Stage → Prop
  | .updateAsset _ _ _ _ => db = m.db
  | .upsertSource _ _ => WroteOnce N m db
  | .resolve => db.conflict.isSome
  | .done (.error _) => db = m.db ∨ WroteOnce N m db
  | _ => True

def Lost (N : Naming) (m : Merge) (db : Db) : Stage → Prop
  | .done (.error _) => m.Gone N db
  | _ => True

theorem early_run (h : Accepting m req) (hbad : bad = .findSource ∨ bad = .deleteGhost ∧ m.ghost N ≠ none) :
    Early m bad (serveFailing N bad e times m.db { req := req }).1
      (serveFailing N bad e times m.db { req := req }).2.stage := by
  refine serveFailing_keeps times h trivial (fun db stage hs hp _ => ?_) fun db t now hreq hs hp hP => ?_
  · cases stage with
    | findSource c id existing update => exact hp.1
    | deleteGhost c id existing update ghost macs => exact hp.1
    | read | resolve | done => cases hs
    | updateAsset | pruneMacs | insertMacs | createAsset | upsertSource | updateReservation =>
      obtain rfl | ⟨rfl, -⟩ := hbad <;> cases hs
  · obtain ⟨req', wrote, stage⟩ := t
    cases hreq
    cases stage with
    | read =>
      obtain rfl : db = m.db := hp
      rw [act]
      dsimp only
      rw [h.begin]
      trivial
    | findSource c id existing update =>
      obtain ⟨rfl, rfl, rfl, rfl, -⟩ := hp
      obtain rfl | ⟨rfl, hghost⟩ := hbad
      · exact absurd rfl hs
      · obtain ⟨g, hg⟩ := Option.ne_none_iff_exists'.mp hghost
        have hfind : findGhost N m.db m.c m.id = some g := hg
        rw [act]
        dsimp only
        rw [afterFind, hfind]
        rfl
    | deleteGhost c id existing update ghost macs =>
      obtain rfl : bad = .deleteGhost := hP
      exact absurd rfl hs
    | done result => exact hP
    | updateAsset | pruneMacs | insertMacs | createAsset | upsertSource | updateReservation | resolve =>
      exact hP.elim

theorem kept_run (h : Accepting m req) (hghost : m.ghost N = none) :
    Kept N m (serveFailing N bad e times m.db { req := req }).1
      (serveFailing N bad e times m.db { req := req }).2.stage := by
  have hmacs : m.macs N = none := by rw [Merge.macs, hghost, Option.bind_none]
  refine serveFailing_keeps times h trivial (fun db stage hs hp hP => ?_) fun db t now hreq hs hp hP => ?_
  · cases stage with
    | findSource c id existing update => exact .inl hp.1
    | deleteGhost c id existing update ghost macs => exact .inl hp.1
    | updateAsset c id update macs => exact .inl hP
    | pruneMacs c id macs | insertMacs c id macs => cases hmacs.symm.trans hp.2.2.1
    | upsertSource c id => exact .inr hP
    | read | resolve | done | createAsset | updateReservation => cases hs
  · obtain ⟨req', wrote, stage⟩ := t
    cases hreq
    cases stage with
    | read =>
      obtain rfl : db = m.db := hp
      rw [act]
      dsimp only
      rw [h.begin]
      trivial
    | findSource c id existing update =>
      obtain ⟨rfl, rfl, rfl, rfl, -⟩ := hp
      have hfind : findGhost N m.db m.c m.id = none := hghost
      rw [act]
      dsimp only
      rw [afterFind, hfind]
      rfl
    | deleteGhost c id existing update ghost macs =>
      obtain ⟨-, -, -, -, -, hsome, -⟩ := hp
      rw [hghost] at hsome
      cases hsome
    | updateAsset c id update macs =>
      obtain rfl : db = m.db := hP
      obtain ⟨rfl, rfl, rfl, ⟨now', rfl⟩, -, -⟩ := hp
      rw [act]
      dsimp only
      rw [(assets_updateAsset _ h.asset).2, hmacs]
      exact ⟨now', rfl⟩
    | pruneMacs c id macs | insertMacs c id macs => cases hmacs.symm.trans hp.2.2.1
    | upsertSource c id =>
      obtain ⟨first, rfl⟩ := hP
      obtain ⟨rfl, rfl, -, a, ha, -⟩ := hp
      obtain ⟨hok, hconflict, -⟩ := @upsertConflictAssetSource_ok N _ _ m.c now (Option.isSome_of_mem ha)
      rw [act]
      dsimp only
      rw [hok]
      change (Db.conflict _).isSome = true
      rw [hconflict, (Db.updateAsset_sameNotes m.db m.id _).conflict, h.conflict]
      rfl
    | resolve =>
      obtain ⟨c, hc⟩ := Option.isSome_iff_exists.mp hP
      rw [act]
      dsimp only
      rw [(Db.resolveConflict_ok _ _ _ hc).1]
      trivial
    | done result => exact hP
    | createAsset | updateReservation => exact hp.elim

theorem lost_run (h : Accepting m req) (hfind : bad ≠ .findSource) (hdelete : bad ≠ .deleteGhost) :
    Lost N m (serveFailing N bad e times m.db { req := req }).1
      (serveFailing N bad e times m.db { req := req }).2.stage := by
  refine serveFailing_keeps times h trivial (fun db stage hs hp hP => ?_) fun db t now hreq hs hp hP => ?_
  · cases stage with
    | findSource c id existing update => exact absurd (Option.some.inj hs).symm hfind
    | deleteGhost c id existing update ghost macs => exact absurd (Option.some.inj hs).symm hdelete
    | updateAsset c id update macs => exact hp.2.2.2.2.2
    | pruneMacs c id macs | insertMacs c id macs => exact hp.2.2.2.1
    | upsertSource c id => exact hp.2.2.1
    | read | resolve | done | createAsset | updateReservation => cases hs
  · obtain ⟨req', wrote, stage⟩ := t
    cases hreq
    cases stage with
    | read =>
      obtain rfl : db = m.db := hp
      rw [act]
      dsimp only
      rw [h.begin]
      trivial
    | findSource c id existing update =>
      rw [act]
      dsimp only
      rw [afterFind]
      split <;> trivial
    | deleteGhost c id existing update ghost macs =>
      obtain ⟨rfl, rfl, rfl, rfl, rfl, hghost, -⟩ := hp
      obtain ⟨g, hg, rfl⟩ := Option.map_eq_some_iff.mp hghost
      rw [act]
      dsimp only
      rw [(Db.deleteAsset_ok (findGhost_some hg).2).1]
      trivial
    | updateAsset c id update macs =>
      rw [act]
      dsimp only
      rw [(progress_update hp).1]
      cases macs <;> trivial
    | pruneMacs c id macs =>
      rw [act]
      dsimp only
      rw [Task.after, afterPrune]
      split <;> trivial
    | insertMacs c id macs =>
      rw [act]
      dsimp only
      rw [(progress_insert hp).1]
      trivial
    | upsertSource c id =>
      obtain ⟨rfl, rfl, -, a, ha, -⟩ := hp
      rw [act]
      dsimp only
      rw [(@upsertConflictAssetSource_ok N _ _ m.c now (Option.isSome_of_mem ha)).1]
      trivial
    | resolve =>
      have hsettled : m.Settled N (db.resolveConflict req'.verdict req'.username now).1 ∧
          m.Owned N (db.resolveConflict req'.verdict req'.username now).1 := progress_resolve hp
      rw [act]
      dsimp only
      cases (db.resolveConflict req'.verdict req'.username now).2 with
      | ok _ => trivial
      | error e => exact hsettled.1.1
    | done result => exact hP
    | createAsset | updateReservation => exact hp.elim

end Runs

section Retries

variable {first : Nat} {times : List Nat}

theorem update_of_none (hghost : m.ghost N = none) (now : Nat) : m.update N now =
    clampUpdate (acceptUpdate N m.existing m.c.proposedAssetFields m.fieldWinners m.actor now)
      m.existing := by
  rw [Merge.update, hghost]
  rfl

def checked (N : Naming) (m : Merge) (now : Nat) : Stage :=
  .findSource m.c m.id m.existing
    (acceptUpdate N m.existing m.c.proposedAssetFields m.fieldWinners m.actor now)

theorem act_read (h : Accepting m req) (now : Nat) : act N m.db now { req := req } =
    (m.db, { req := req, wrote := false, stage := checked N m now }) := by
  rw [act]
  dsimp only
  rw [h.begin]
  rfl

theorem act_find (hghost : m.ghost N = none) (first now : Nat) :
    act N m.db now { req := req, wrote := false, stage := checked N m first } =
      (m.db, { req := req, wrote := false, stage := .updateAsset m.c m.id (m.update N first) none }) := by
  have hfind : findGhost N m.db m.c m.id = none := hghost
  rw [checked, act, update_of_none hghost]
  dsimp only
  rw [afterFind, hfind]

theorem act_update (h : Accepting m req) (first now : Nat) :
    act N m.db now { req := req, wrote := false, stage := .updateAsset m.c m.id (m.update N first) none } =
      ((m.db.updateAsset m.id (applyUpdate N (m.update N first))).1,
        { req := req, wrote := true, stage := .upsertSource m.c m.id }) := by
  rw [act]
  dsimp only
  rw [(assets_updateAsset _ h.asset).2]
  rfl

theorem serve_accept (h : Accepting m req) (hghost : m.ghost N = none) (a b c : Nat) (times : List Nat) :
    serve N (a :: b :: c :: times) m.db { req := req } =
      serve N times (m.db.updateAsset m.id (applyUpdate N (m.update N a))).1
        { req := req, wrote := true, stage := .upsertSource m.c m.id } := by
  rw [serve, List.foldl_cons, List.foldl_cons, List.foldl_cons, act_read h, act_find hghost, act_update h,
    serve]

theorem times_of_ok (h : Accepting m req) (hghost : m.ghost N = none)
    (hok : (serve N times m.db { req := req }).2.stage = .done (.ok ())) :
    ∃ a b c rest, times = a :: b :: c :: rest := by
  cases times with
  | nil => cases hok
  | cons a times =>
    cases times with
    | nil =>
      rw [serve, List.foldl_cons, act_read h] at hok
      cases hok
    | cons b times =>
      cases times with
      | nil =>
        rw [serve, List.foldl_cons, List.foldl_cons, act_read h, act_find hghost] at hok
        cases hok
      | cons c times => exact ⟨a, b, c, times, rfl⟩

/-- The merge that a retry makes after the asset has been written. -/
def retried (N : Naming) (m : Merge) (first : Nat) : Merge :=
  { m with
    db := (m.db.updateAsset m.id (applyUpdate N (m.update N first))).1
    existing := applyUpdate N (m.update N first) m.existing }

theorem retried_accepting (h : Accepting m req) (first : Nat) : Accepting (retried N m first) req where
  conflict := by
    rw [retried]
    dsimp only
    rw [(Db.updateAsset_sameNotes m.db m.id _).conflict, h.conflict]
  pending := h.pending
  entityType := h.entityType
  assetId := h.assetId
  asset := by
    rw [retried]
    dsimp only
    rw [(assets_updateAsset _ h.asset).1, Function.update_self]
  device := h.device
  choices := h.choices
  permitted := h.permitted
  actor := h.actor

theorem db_ext {d d' : Db} (hconflict : d.conflict = d'.conflict) (hassets : d.assets = d'.assets)
    (hnext : d.nextAsset = d'.nextAsset) (hsources : d.sources = d'.sources)
    (hreservations : d.reservations = d'.reservations) (hcreated : d.created = d'.created)
    (hstamped : d.stamped = d'.stamped) (hdeleted : d.deleted = d'.deleted) : d = d' := by
  rw [Db.mk.injEq]
  exact ⟨hconflict, hassets, hnext, hsources, hreservations, hcreated, hstamped, hdeleted⟩

theorem updateAsset_rest (db : Db) (id : Nat) (f : Asset → Asset) :
    (db.updateAsset id f).1.nextAsset = db.nextAsset ∧ (db.updateAsset id f).1.sources = db.sources ∧
      (db.updateAsset id f).1.reservations = db.reservations := by
  unfold Db.updateAsset
  split <;> exact ⟨rfl, rfl, rfl⟩

theorem updateAsset_twice {a : Asset} {id : Nat} (f g k : Asset → Asset) (ha : db.assets id = some a)
    (hg : g (f a) = k a) :
    ((db.updateAsset id f).1.updateAsset id g).1 = (db.updateAsset id k).1 := by
  have hmid := (assets_updateAsset f ha).1
  have ha' : (db.updateAsset id f).1.assets id = some (f a) := by rw [hmid, Function.update_self]
  obtain ⟨hnext, hsources, hreservations⟩ := updateAsset_rest (db.updateAsset id f).1 id g
  obtain ⟨hnext', hsources', hreservations'⟩ := updateAsset_rest db id f
  obtain ⟨hnext'', hsources'', hreservations''⟩ := updateAsset_rest db id k
  have hnotes := Db.updateAsset_sameNotes (db.updateAsset id f).1 id g
  have hnotes' := Db.updateAsset_sameNotes db id f
  have hnotes'' := Db.updateAsset_sameNotes db id k
  apply db_ext
  · rw [hnotes.conflict, hnotes'.conflict, hnotes''.conflict]
  · rw [(assets_updateAsset g ha').1, hmid, (assets_updateAsset k ha).1, Function.update_idem, hg]
  · rw [hnext, hnext', hnext'']
  · rw [hsources, hsources', hsources'']
  · rw [hreservations, hreservations', hreservations'']
  · rw [hnotes.created, hnotes'.created, hnotes''.created]
  · rw [hnotes.stamped, hnotes'.stamped, hnotes''.stamped]
  · rw [hnotes.deleted, hnotes'.deleted, hnotes''.deleted]

theorem retried_ghost (h : Accepting m req) (hghost : m.ghost N = none) (first : Nat) :
    (retried N m first).ghost N = none := by
  have hsources : (retried N m first).db.sources = m.db.sources := (updateAsset_rest _ _ _).2.1
  rw [Merge.ghost, findGhost, Option.bind_eq_none_iff] at hghost ⊢
  intro s hs
  rw [hsources] at hs
  have hnone := hghost s hs
  change (if s.assetId ≠ m.id then _ else none) = none
  split
  · next hne =>
    rw [if_pos hne] at hnone
    have hassets : (retried N m first).db.assets s.assetId = m.db.assets s.assetId := by
      rw [retried]
      dsimp only
      rw [(assets_updateAsset _ h.asset).1, Function.update_of_ne hne]
    rw [hassets]
    exact hnone
  · rfl

theorem retried_update (hghost : m.ghost N = none)
    (hretried : (retried N m first).ghost N = none) (now : Nat) :
    applyUpdate N ((retried N m first).update N now) (retried N m first).existing =
      applyUpdate N (m.update N now) m.existing := by
  have hexisting : (retried N m first).existing = applyUpdate N (clampUpdate
      (acceptUpdate N m.existing m.c.proposedAssetFields m.fieldWinners m.actor first) m.existing)
        m.existing := by
    rw [retried]
    dsimp only
    rw [update_of_none hghost]
  rw [update_of_none hretried, update_of_none hghost]
  exact acceptUpdate_again hexisting

theorem serve_retried (h : Accepting m req) (hghost : m.ghost N = none)
    (hok : (serve N times m.db { req := req }).2.stage = .done (.ok ())) :
    serve N times (retried N m first).db { req := req } = serve N times m.db { req := req } := by
  have hretried := retried_ghost h hghost first
  obtain ⟨a, b, c, rest, rfl⟩ := times_of_ok h hghost hok
  have htwice := updateAsset_twice (applyUpdate N (m.update N first))
    (applyUpdate N ((retried N m first).update N a)) (applyUpdate N (m.update N a)) h.asset
    (retried_update hghost hretried a)
  have hdb : ((retried N m first).db.updateAsset (retried N m first).id
      (applyUpdate N ((retried N m first).update N a))).1 =
        (m.db.updateAsset m.id (applyUpdate N (m.update N a))).1 := htwice
  rw [serve_accept h hghost, serve_accept (retried_accepting h first) hretried, hdb]
  rfl

theorem Recoverable.unwritten (h : Accepting m req) : Recoverable N m req m.db where
  pending := ⟨m.c, h.conflict, h.pending⟩
  assets _ a ha := ⟨a, ha, fun r hr => ⟨r, hr, rfl⟩⟩
  sources _ _ hs := hs
  retry _ _ := rfl

theorem Recoverable.wroteOnce (h : Accepting m req) (hghost : m.ghost N = none)
    (hw : WroteOnce N m db) : Recoverable N m req db := by
  obtain ⟨first, rfl⟩ := hw
  refine ⟨⟨m.c, ?_, h.pending⟩, fun id a ha => ?_, fun kind externalId hs => ?_, fun times hok => ?_⟩
  · rw [(Db.updateAsset_sameNotes m.db m.id _).conflict, h.conflict]
  · rw [(assets_updateAsset _ h.asset).1]
    by_cases hid : id = m.id
    · subst hid
      cases ha.symm.trans h.asset
      exact ⟨_, Function.update_self _ _ _, fun r hr => ⟨r, hr, rfl⟩⟩
    · rw [Function.update_of_ne hid]
      exact ⟨a, ha, fun r hr => ⟨r, hr, rfl⟩⟩
  · rw [(updateAsset_rest m.db m.id _).2.1]
    exact hs
  · exact serve_retried h hghost hok

/-- A failed accept can be made again exactly where it has no ghost to delete,
or fails by the delete at the latest. -/
theorem accept_recoverable_iff (N : Naming) (m : Merge) (req : Request) (bad : Statement)
    (e e' : Failure) (times : List Nat) (h : Accepting m req)
    (herr : (serveFailing N bad e times m.db { req := req }).2.stage = .done (.error e')) :
    Recoverable N m req (serveFailing N bad e times m.db { req := req }).1 ↔
      m.ghost N = none ∨ bad = .findSource ∨ bad = .deleteGhost := by
  constructor
  · intro hr
    by_contra hnot
    obtain ⟨hghost, hfind, hdelete⟩ : m.ghost N ≠ none ∧ bad ≠ .findSource ∧ bad ≠ .deleteGhost := by tauto
    have hlost : Lost N m (serveFailing N bad e times m.db { req := req }).1
        (serveFailing N bad e times m.db { req := req }).2.stage := lost_run times h hfind hdelete
    rw [herr] at hlost
    obtain ⟨g, hg⟩ := Option.ne_none_iff_exists'.mp hghost
    obtain ⟨a, ha⟩ := Option.isSome_iff_exists.mp (findGhost_some hg).2
    obtain ⟨a', ha', -⟩ := hr.assets g.1 a ha
    cases ha'.symm.trans (hlost g hg)
  · intro hcase
    by_cases hghost : m.ghost N = none
    · have hkept : Kept N m (serveFailing N bad e times m.db { req := req }).1
          (serveFailing N bad e times m.db { req := req }).2.stage := kept_run times h hghost
      rw [herr] at hkept
      obtain hdb | hw := hkept
      · rw [hdb]
        exact .unwritten h
      · exact .wroteOnce h hghost hw
    · have hearly : Early m bad (serveFailing N bad e times m.db { req := req }).1
          (serveFailing N bad e times m.db { req := req }).2.stage := early_run times h
        ((hcase.resolve_left hghost).imp_right fun hd => ⟨hd, hghost⟩)
      rw [herr] at hearly
      have hdb : (serveFailing N bad e times m.db { req := req }).1 = m.db := hearly
      rw [hdb]
      exact .unwritten h

end Retries

end Failures

section Ghosts

theorem keepOs_accepting (os : Option String) : Accepting (laptopMerge os) keepOs where
  conflict := rfl
  pending := rfl
  entityType := rfl
  assetId := rfl
  asset := rfl
  device := by
    change truthy sampleConflict.proposedDeviceId ≠ none
    decide
  choices := .inr rfl
  permitted := by decide
  actor := rfl

/-- Whether a request has ended with the failure. -/
def failedWith (t : Task) (e : Failure) : Bool :=
  match t.stage with
  | .done (.error e') => e' = e
  | _ => false

theorem stage_of_failedWith {t : Task} {e : Failure} (h : failedWith t e = true) :
    t.stage = .done (.error e) := by
  rw [failedWith] at h
  split at h
  · next heq =>
    rw [heq, of_decide_eq_true h]
  · cases h

def dropped : Failure := .thrown "Server has closed the connection."

theorem accept_recoverable_delete :
    (serveFailing asciiNaming .deleteGhost dropped (List.range 8) (ghostDb none)
      { req := keepOs }).2.stage = .done (.error dropped) ∧
      Recoverable asciiNaming (laptopMerge none) keepOs
        (serveFailing asciiNaming .deleteGhost dropped (List.range 8) (ghostDb none)
          { req := keepOs }).1 := by
  have herr : (serveFailing asciiNaming .deleteGhost dropped (List.range 8) (ghostDb none)
    { req := keepOs }).2.stage =
      .done (.error dropped) := stage_of_failedWith (by decide +kernel)
  exact ⟨herr, (accept_recoverable_iff asciiNaming (laptopMerge none) keepOs .deleteGhost dropped
    dropped (List.range 8)
    (keepOs_accepting none) herr).mpr (.inr (.inr rfl))⟩

/-- The ghost is gone when the update fails that was to take over its fields. -/
theorem update_loses_ghost :
    (serveFailing asciiNaming .updateAsset dropped (List.range 8) (ghostDb none)
      { req := keepOs }).2.stage = .done (.error dropped) ∧
      (ghostDb none).assets 1 = some (ghostLaptop none) ∧
      ((serveFailing asciiNaming .updateAsset dropped (List.range 8) (ghostDb none)
        { req := keepOs }).1.assets 1).isNone ∧
      ¬ Recoverable asciiNaming (laptopMerge none) keepOs
        (serveFailing asciiNaming .updateAsset dropped (List.range 8) (ghostDb none)
          { req := keepOs }).1 := by
  have hlost : ((serveFailing asciiNaming .updateAsset dropped (List.range 8) (ghostDb none)
      { req := keepOs }).1.assets 1).isNone := by
    decide +kernel
  refine ⟨stage_of_failedWith (by decide +kernel), rfl, hlost, fun h => ?_⟩
  obtain ⟨a, ha, -⟩ := h.assets 1 (ghostLaptop none) rfl
  rw [ha] at hlost
  cases hlost

end Ghosts

end Polaris.ConflictFailures
