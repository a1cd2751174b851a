import Polaris.ClusterSync
import Polaris.Lib.Runs

namespace Polaris.ClusterIdentity

open Polaris.AssetLookup Polaris.AssetProjection Polaris.ClusterSync Polaris.Lib.Runs Polaris.Lib.Store
  Polaris.Lib.Text
open Polaris.Reservations hiding Db

section Projection

variable {d : Device} {m : Member} {t serial v : String} {sources : List Source} {rules rest : List FieldRule}
  {rule : FieldRule} {kind : AssetSourceKind}

/-- What a source has for a rule is the value, if it has one. -/
def Says (v : String) (rule : FieldRule) (p : Source) : Prop :=
  p.sourceKind = rule.sourceKind → p.inferred = false → ∀ x ∈ rule.pick (observedBlob p.observed), x = .text v

instance Says.decidable (v : String) (rule : FieldRule) (p : Source) : Decidable (Says v rule p) :=
  inferInstanceAs (Decidable (_ → _ → ∀ x ∈ rule.pick _, x = .text v))

theorem find_row {c : AssetSource}
    (h : (sources.map Source.row).find? (fun s => s.sourceKind = rule.sourceKind && !s.inferred) = some c) :
    ∃ p ∈ sources, c = p.row ∧ p.sourceKind = rule.sourceKind ∧ p.inferred = false := by
  obtain ⟨p, hp, rfl⟩ := List.mem_map.mp (List.mem_of_find?_eq_some h)
  have hkind := List.find?_some h
  rw [Bool.and_eq_true, decide_eq_true_eq, Bool.not_eq_true'] at hkind
  exact ⟨p, hp, rfl, hkind⟩

theorem projectedText_of (h : projectField (sources.map Source.row) rules = some (kind, .text v)) :
    projectedText sources rules = some v := by
  rw [projectedText, h]
  rfl

/-- A field is the value of a rule whose sources all have it, where no rule
before says otherwise. -/
theorem projectedText_agreed (hv : v ≠ "") (h : ∀ rule ∈ rules, ∀ p ∈ sources, Says v rule p)
    (hall : ∀ p ∈ sources, p.sourceKind = rule.sourceKind →
      p.inferred = false ∧ rule.pick (observedBlob p.observed) = some (.text v))
    (hex : ∃ p ∈ sources, p.sourceKind = rule.sourceKind) :
    projectedText sources (rules ++ rule :: rest) = some v := by
  have hrule : ((sources.map Source.row).find? fun s => s.sourceKind = rule.sourceKind && !s.inferred).bind
      (fun c => (rule.pick c.observed).filter (· ≠ .text "")) = some (.text v) := by
    cases hf : (sources.map Source.row).find? fun s => s.sourceKind = rule.sourceKind && !s.inferred with
    | none =>
      obtain ⟨p, hp, hkind⟩ := hex
      have hnot := List.find?_eq_none.mp hf p.row (List.mem_map_of_mem hp)
      simp [Source.row, hkind, (hall p hp hkind).1] at hnot
    | some c =>
      obtain ⟨p, hp, rfl, hkind, -⟩ := find_row hf
      have hpick : rule.pick p.row.observed = some (.text v) := (hall p hp hkind).2
      rw [Option.bind_some, hpick]
      simp [hv]
  have happend : projectField (sources.map Source.row) (rules ++ rule :: rest) =
      (projectField (sources.map Source.row) rules).or (some (rule.sourceKind, .text v)) := by
    rw [projectField, List.findSome?_append, List.findSome?_cons, hrule]
    rfl
  cases hfirst : projectField (sources.map Source.row) rules with
  | none =>
    rw [hfirst, Option.none_or] at happend
    exact projectedText_of happend
  | some x =>
    rw [hfirst, Option.some_or] at happend
    obtain ⟨other, hother, hx⟩ := List.exists_of_findSome?_eq_some hfirst
    obtain ⟨y, hy, rfl⟩ := Option.map_eq_some_iff.mp hx
    obtain ⟨c, hc, hy⟩ := Option.bind_eq_some_iff.mp hy
    obtain ⟨p, hp, rfl, hkind, hinf⟩ := find_row hc
    obtain rfl := h other hother p hp hkind hinf y (Option.mem_filter_iff.mp hy).1
    exact projectedText_of happend

theorem textRule_trimmed {o : String → Option String} {key : String} (kind : AssetSourceKind)
    (hkey : observedAt (observedBlob o) key = some ((o key).elim .other .text)) (ho : o key = truthy (some v))
    (ht : trim v = v) (hv : v ≠ "") : (textRule kind key).pick (observedBlob o) = some (.text v) := by
  have htruthy : truthy (some v) = some v := by simp [truthy, hv]
  rw [ho, htruthy, Option.elim_some] at hkey
  simp [textRule, AssetProjection.obsString, hkey, ht, hv]

theorem blob_serial : buildFortigateFirewallObservedBlob d t m "serial" = truthy (some m.serial) := rfl

theorem blob_mgmtIp : buildFortigateFirewallObservedBlob d t m "mgmtIp" = truthy (some (memberIp d m)) := rfl

end Projection

section Upsert

variable {i : Integration} {db : Db} {id : Nat} {serial : String} {observed : String → Option String}
  {p : Source}

def firewallRow (i : Integration) (id : Nat) (serial : String) (observed : String → Option String) : Source :=
  { assetId := id, sourceKind := .fortigateFirewall, externalId := serial, integrationId := some i.id,
    observed := observed }

theorem mem_upsert (hp : p ∈ (db.upsertFortigateFirewallAssetSource i id serial observed).sources) :
    (p ∈ db.sources ∧ (p.sourceKind = .fortigateFirewall → p.externalId ≠ serial)) ∨
      p = firewallRow i id serial observed := by
  rw [Db.upsertFortigateFirewallAssetSource] at hp
  obtain ⟨hp, -⟩ := List.mem_filter.mp hp
  split at hp
  · obtain ⟨q, hq, rfl⟩ := List.mem_map.mp hp
    split
    · exact .inr rfl
    · next hrow =>
      refine .inl ⟨hq, fun hkind he => hrow ?_⟩
      simp [hkind, he]
  · next hany =>
    obtain hp | hp := List.mem_append.mp hp
    · refine .inl ⟨hp, fun hkind he => hany (List.any_eq_true.mpr ⟨p, hp, ?_⟩)⟩
      simp [hkind, he]
    · exact .inr (List.mem_singleton.mp hp)

theorem mem_upsert_of_ne (hp : p ∈ db.sources) (hkind : p.sourceKind = .fortigateFirewall)
    (hne : p.externalId ≠ serial) :
    p ∈ (db.upsertFortigateFirewallAssetSource i id serial observed).sources := by
  rw [Db.upsertFortigateFirewallAssetSource]
  refine List.mem_filter.mpr ⟨?_, by simp [hkind]⟩
  split
  · exact List.mem_map.mpr ⟨p, hp, by simp [hne]⟩
  · exact List.mem_append_left _ hp

theorem firewallRow_mem_upsert :
    firewallRow i id serial observed ∈
      (db.upsertFortigateFirewallAssetSource i id serial observed).sources := by
  rw [Db.upsertFortigateFirewallAssetSource]
  refine List.mem_filter.mpr ⟨?_, by simp [firewallRow]⟩
  split
  · next hany =>
    obtain ⟨q, hq, hrow⟩ := List.any_eq_true.mp hany
    exact List.mem_map.mpr ⟨q, hq, if_pos hrow⟩
  · exact List.mem_append_right _ List.mem_cons_self

end Upsert

section Identity

variable {db db' : Db} {d : Device} {m m' : Member} {i : Nat} {serial : String} {x : AssetRow}
  {r : Row AssetRow}
  {p : Source}

def IsFirewallRow (p : Source) : Prop := p.sourceKind = .fortigateFirewall

instance : DecidablePred IsFirewallRow := fun p => inferInstanceAs (Decidable (p.sourceKind = _))

/-- No two assets share a serial, and the asset of a firewall row carries the
serial of the row and hangs under no controller. -/
structure Identified (db : Db) : Prop where
  serials : ∀ a ∈ db.assets.rows, ∀ b ∈ db.assets.rows, ∀ serial, truthy a.data.serialNumber = some serial →
    truthy b.data.serialNumber = some serial → a = b
  owner : ∀ p ∈ db.sources, IsFirewallRow p → ∃ a ∈ db.assets.rows, a.id = p.assetId ∧
    truthy a.data.serialNumber = some p.externalId ∧
      a.data.fortinetTopology.bind (·.controllerFortigate) = none

def HoldsAddress (d : Device) (m : Member) (a : AssetRow) : Prop :=
  (m.isPrimary = true → d.mgmtIp ≠ "" → a.ipAddress = some d.mgmtIp) ∧
    (m.isPrimary = false → a.ipAddress = none)

/-- One asset carries the serial, the firewall row of the serial is its own,
and it has the address of the device just as the primary. -/
def Settled (db : Db) (d : Device) (m : Member) : Prop :=
  ∃ a ∈ db.assets.rows, a.data.serialNumber = some m.serial ∧
    (∀ b ∈ db.assets.rows, b.data.serialNumber = some m.serial → b = a) ∧
    (∃ p ∈ db.sources, IsFirewallRow p ∧ p.externalId = m.serial) ∧
    (∀ p ∈ db.sources, IsFirewallRow p → p.externalId = m.serial → p.assetId = a.id) ∧ HoldsAddress d m a.data

/-- One asset is written, and the firewall row of a serial is given to it. -/
structure Moved (db db' : Db) (i : Nat) (serial : String) (x : AssetRow) : Prop where
  assets : ∀ r, r ∈ db'.assets.rows ↔ (r ∈ db.assets.rows ∧ r.id ≠ i) ∨ r = ⟨i, x⟩
  rows : ∀ p, IsFirewallRow p → p ∈ db'.sources → (p ∈ db.sources ∧ p.externalId ≠ serial) ∨
    (p.externalId = serial ∧ p.assetId = i)
  kept : ∀ p, IsFirewallRow p → p ∈ db.sources → p.externalId ≠ serial → p ∈ db'.sources
  given : ∃ p ∈ db'.sources, IsFirewallRow p ∧ p.externalId = serial

/-- Nothing else stands in the way of the serial on this asset. -/
structure Free (db : Db) (i : Nat) (serial : String) : Prop where
  carried : ∀ r ∈ db.assets.rows, r.id ≠ i → truthy r.data.serialNumber ≠ some serial
  rows : ∀ p ∈ db.sources, IsFirewallRow p → p.assetId = i → p.externalId = serial

variable (h : Moved db db' i serial x) (hfree : Free db i serial) (hid : Identified db)

include h hfree hid in
theorem Moved.identified (hx : truthy x.serialNumber = some serial)
    (hc : x.fortinetTopology.bind (·.controllerFortigate) = none) : Identified db' := by
  refine ⟨fun a ha b hb t hat hbt => ?_, fun p hp hrow => ?_⟩
  · obtain ⟨ha, hai⟩ | rfl := (h.assets a).mp ha <;> obtain ⟨hb, hbi⟩ | rfl := (h.assets b).mp hb
    · exact hid.serials a ha b hb t hat hbt
    · have ht : serial = t := Option.some.inj (hx.symm.trans hbt)
      exact absurd (ht ▸ hat) (hfree.carried a ha hai)
    · have ht : serial = t := Option.some.inj (hx.symm.trans hat)
      exact absurd (ht ▸ hbt) (hfree.carried b hb hbi)
    · rfl
  · obtain ⟨hp, hne⟩ | ⟨he, hi⟩ := h.rows p hrow hp
    · obtain ⟨a, ha, hai, hs, hctl⟩ := hid.owner p hp hrow
      have hother : a.id ≠ i := fun hi => hne (hfree.rows p hp hrow (hai.symm.trans hi))
      exact ⟨a, (h.assets a).mpr (.inl ⟨ha, hother⟩), hai, hs, hctl⟩
    · exact ⟨⟨i, x⟩, (h.assets _).mpr (.inr rfl), hi.symm, he ▸ hx, hc⟩

include h hfree in
theorem Moved.settles (hm : m.serial = serial) (hx : truthy x.serialNumber = some serial)
    (hip : HoldsAddress d m x) :
    Settled db' d m := by
  subst hm
  refine ⟨⟨i, x⟩, (h.assets _).mpr (.inr rfl), (truthy_some hx).1, fun b hb hs => ?_, h.given,
    fun p hp hrow he => ?_, hip⟩
  · obtain ⟨hb, hbi⟩ | rfl := (h.assets b).mp hb
    · have ht : truthy b.data.serialNumber = some m.serial := by
        rw [hs.trans (truthy_some hx).1.symm]
        exact hx
      exact absurd ht (hfree.carried b hb hbi)
    · rfl
  · obtain ⟨-, hne⟩ | ⟨-, hi⟩ := h.rows p hrow hp
    · exact absurd he hne
    · exact hi

include h hfree in
theorem Moved.keeps_settled (hm : m.serial ≠ serial) (hx : x.serialNumber = some serial)
    (hs : Settled db d m) :
    Settled db' d m := by
  obtain ⟨a, ha, hcar, honly, ⟨p, hp, hrow, he⟩, hown, hip⟩ := hs
  have hother : a.id ≠ i := by
    intro hai
    have hpi : p.assetId = i := (hown p hp hrow he).trans hai
    exact hm (he.symm.trans (hfree.rows p hp hrow hpi))
  refine ⟨a, (h.assets a).mpr (.inl ⟨ha, hother⟩), hcar, fun b hb hbs => ?_,
    ⟨p, h.kept p hrow hp (he ▸ hm), hrow, he⟩,
    fun q hq hqrow hqe => ?_, hip⟩
  · obtain ⟨hb, -⟩ | rfl := (h.assets b).mp hb
    · exact honly b hb hbs
    · exact absurd (Option.some.inj (hbs.symm.trans hx)) hm
  · obtain ⟨hq, -⟩ | ⟨hqs, -⟩ := h.rows q hqrow hq
    · exact hown q hq hqrow hqe
    · exact absurd (hqe.symm.trans hqs) hm

end Identity

section Tracking

variable {C : Casing} {idx : AssetIndex} {db db' : Db} {a : AssetLookup.Asset} {serial : String}
  {rest : List String} {x : AssetRow}

/-- The index knows the assets of the serials still to come. -/
structure Tracks (idx : AssetIndex) (db : Db) (rest : List String) : Prop where
  stored : ∀ i a, findById idx i = some a → ∃ r ∈ db.assets.rows, r.id = i
  known : ∀ t i, idx.bySerial t = some i → ∃ a, findById idx i = some a
  hit : ∀ t ∈ rest, ∀ i, idx.bySerial t = some i → ∃ r ∈ db.assets.rows, r.id = i ∧
    truthy r.data.serialNumber = some t
  keyed : ∀ t ∈ rest, ∀ r ∈ db.assets.rows, truthy r.data.serialNumber = some t →
    ∃ a, idx.bySerial t = some r.id ∧ findById idx r.id = some a ∧ truthy a.serialNumber = some t

theorem Tracks.add (h : Tracks idx db (serial :: rest)) (hmoved : Moved db db' a.id serial x)
    (hx : truthy x.serialNumber = some serial) (hnot : serial ∉ rest)
    (hold : ∀ r ∈ db.assets.rows, r.id = a.id → ∀ t ∈ rest, truthy r.data.serialNumber ≠ some t)
    (ha : ∀ t ∈ rest, truthy a.serialNumber ≠ some t) : Tracks (add C idx a) db' rest := by
  have hself : (⟨a.id, x⟩ : Row AssetRow) ∈ db'.assets.rows := (hmoved.assets _).mpr (.inr rfl)
  refine ⟨fun i b hb => ?_, fun t i hi => ?_, fun t ht i hi => ?_, fun t ht r hr hs => ?_⟩
  · rw [findById_add] at hb
    by_cases hia : i = a.id
    · exact ⟨_, hself, hia.symm⟩
    · rw [if_neg hia] at hb
      obtain ⟨r, hr, hri⟩ := h.stored i b hb
      exact ⟨r, (hmoved.assets r).mpr (.inl ⟨hr, hri ▸ hia⟩), hri⟩
  · rw [findById_add]
    by_cases hia : i = a.id
    · exact ⟨a, if_pos hia⟩
    · rw [if_neg hia]
      rw [bySerial_add] at hi
      split at hi
      · exact absurd (Option.some.inj hi).symm hia
      · exact h.known t i hi
  · rw [bySerial_add, if_neg (ha t ht)] at hi
    obtain ⟨r, hr, hri, hs⟩ := h.hit t (List.mem_cons_of_mem _ ht) i hi
    have hother : r.id ≠ a.id := fun he => hold r hr he t ht hs
    exact ⟨r, (hmoved.assets r).mpr (.inl ⟨hr, hother⟩), hri, hs⟩
  · obtain ⟨hr, hother⟩ | rfl := (hmoved.assets r).mp hr
    · obtain ⟨b, hi, hb, hbs⟩ := h.keyed t (List.mem_cons_of_mem _ ht) r hr hs
      refine ⟨b, ?_, ?_, hbs⟩
      · rw [bySerial_add, if_neg (ha t ht), hi]
      · rw [findById_add, if_neg hother, hb]
    · exact absurd ht (Option.some.inj (hx.symm.trans hs) ▸ hnot)

theorem tracks_build (hid : Identified db)
    (rest : List String) : Tracks (build C (db.assets.rows.map indexed)) db rest := by
  have hids : (db.assets.rows.map indexed).map (·.id) = db.assets.rows.map Row.id := by
    rw [List.map_map]
    rfl
  have hbuilt : Built (db.assets.rows.map indexed) (build C (db.assets.rows.map indexed)) :=
    built_build (hids ▸ db.assets.ids_nodup)
  refine ⟨fun i a ha => ?_, fun t i hi => ?_, fun t _ i hi => ?_, fun t _ r hr hs => ?_⟩
  · obtain ⟨ha, hai⟩ := mem_findById ha
    obtain ⟨r, hr, rfl⟩ := List.mem_map.mp (hbuilt.byId a ha)
    exact ⟨r, hr, hai⟩
  · obtain ⟨a, ha, -, hai⟩ := hbuilt.owner t i hi
    exact ⟨a, hai ▸ hbuilt.found a ha⟩
  · obtain ⟨a, ha, hs, hai⟩ := hbuilt.owner t i hi
    obtain ⟨r, hr, rfl⟩ := List.mem_map.mp ha
    exact ⟨r, hr, hai, hs⟩
  · have hmem : indexed r ∈ db.assets.rows.map indexed := List.mem_map_of_mem hr
    obtain ⟨i, hi⟩ := Option.isSome_iff_exists.mp (hbuilt.keyed (indexed r) hmem t hs)
    obtain ⟨b, hb, hbs, hbi⟩ := hbuilt.owner t i hi
    obtain ⟨q, hq, rfl⟩ := List.mem_map.mp hb
    obtain rfl := hid.serials q hq r hr t hbs hs
    refine ⟨indexed q, ?_, hbuilt.found _ hmem, hs⟩
    rw [hi, ← hbi]
    rfl

end Tracking

section Members

variable (C : Casing) {order : List Source → List Source} {i : Integration} {now : Nat} {d : Device}
  {m : Member}
  {s : Phase}
  {a : AssetLookup.Asset}

/-- No source that comes before the firewall source says otherwise. -/
def Agrees (d : Device) (m : Member) (p : Source) : Prop :=
  (∀ rule ∈ SERIAL_RULES.take 2, Says m.serial rule p) ∧
    (m.isPrimary = true → d.mgmtIp ≠ "" → ∀ rule ∈ IP_ADDRESS_RULES.take 1, Says d.mgmtIp rule p)

instance Agrees.decidable (d : Device) (m : Member) (p : Source) : Decidable (Agrees d m p) :=
  inferInstanceAs (Decidable (_ ∧ _))

/-- The asset of a member is not another unit. One that only the hostname or
the address finds has no firewall row and no serial that the device lists. -/
def Fits (d : Device) (s : Phase) (m : Member) : Prop :=
  ∀ a ∈ findExisting C s.idx d m, (∀ p ∈ s.db.sources, p.assetId = a.id → Agrees d m p) ∧
    (findBySerial s.idx m.serial = none → (∀ p ∈ s.db.sources, p.assetId = a.id → ¬ IsFirewallRow p) ∧
      ∀ t ∈ truthy a.serialNumber, t ∉ (members d).map (·.serial))

instance Fits.decidable (d : Device) (s : Phase) (m : Member) : Decidable (Fits C d s m) :=
  inferInstanceAs (Decidable (∀ a ∈ findExisting C s.idx d m, _))

/-- Distinct serials, and texts without blanks around them. -/
structure WellReported (d : Device) : Prop where
  distinct : ((members d).map (·.serial)).Nodup
  nonempty : ∀ m ∈ members d, m.serial ≠ ""
  trimmed : ∀ m ∈ members d, trim m.serial = m.serial
  address : trim d.mgmtIp = d.mgmtIp

theorem standby_eq (hm : m ∈ members d) : standby d m = !m.isPrimary := by
  rw [members] at hm
  split at hm
  · next hnil =>
    obtain rfl := List.mem_singleton.mp hm
    simp [standby, hnil]
  · next hne =>
    obtain ⟨u, -, rfl⟩ := List.mem_map.mp hm
    simp [standby, haMember, hne]

theorem controllerFortigate_memberTopology : (memberTopology d m).controllerFortigate = none := by
  rw [memberTopology]
  split <;> rfl

variable {sources : List Source} {id : Nat} {integration : Option String} {kept : Source}

/-- A source with the firewall's own report. -/
def Reports (i : Integration) (d : Device) (m : Member) (p : Source) : Prop :=
  p.sourceKind = .fortigateFirewall ∧ p.inferred = false ∧
    p.observed = buildFortigateFirewallObservedBlob d i.type m

theorem projected_serial (hd : WellReported d) (hm : m ∈ members d) (hagree : ∀ p ∈ sources, Reports i d m p ∨
    (¬ IsFirewallRow p ∧ Agrees d m p))
    (hex : ∃ p ∈ sources, IsFirewallRow p) : projectedText sources SERIAL_RULES = some m.serial := by
  refine @projectedText_agreed _ _ (SERIAL_RULES.take 2) _ _ (hd.nonempty m hm)
    (fun rule hrule p hp => ?_) (fun p hp hkind => ?_) hex
  · obtain ⟨hkind, -⟩ | ⟨-, hagree⟩ := hagree p hp
    · intro hrk
      rw [hkind] at hrk
      rw [SERIAL_RULES, List.take_succ_cons, List.take_succ_cons, List.take_zero] at hrule
      obtain rfl | hrule := List.mem_cons.mp hrule
      · cases hrk
      · obtain rfl := List.mem_singleton.mp hrule
        cases hrk
    · exact hagree.1 rule hrule
  · obtain ⟨-, hinf, hobs⟩ | ⟨hnot, -⟩ := hagree p hp
    · refine ⟨hinf, ?_⟩
      rw [hobs]
      exact textRule_trimmed _ rfl blob_serial (hd.trimmed m hm) (hd.nonempty m hm)
    · exact absurd hkind hnot

theorem projected_address (hd : WellReported d) (hprim : m.isPrimary = true) (hip : d.mgmtIp ≠ "")
    (hagree : ∀ p ∈ sources, Reports i d m p ∨ (¬ IsFirewallRow p ∧ Agrees d m p))
    (hex : ∃ p ∈ sources, IsFirewallRow p) :
    projectedText sources IP_ADDRESS_RULES = some d.mgmtIp := by
  refine @projectedText_agreed _ _ (IP_ADDRESS_RULES.take 1) _ _ hip (fun rule hrule p hp => ?_)
    (fun p hp hkind => ?_) hex
  · obtain ⟨hkind, -⟩ | ⟨-, hagree⟩ := hagree p hp
    · intro hrk
      rw [hkind] at hrk
      rw [IP_ADDRESS_RULES, List.take_succ_cons, List.take_zero] at hrule
      obtain rfl := List.mem_singleton.mp hrule
      cases hrk
    · exact hagree.2 hprim hip rule hrule
  · obtain ⟨-, hinf, hobs⟩ | ⟨hnot, -⟩ := hagree p hp
    · refine ⟨hinf, ?_⟩
      rw [hobs]
      refine textRule_trimmed _ rfl ?_ hd.address hip
      rw [blob_mgmtIp, memberIp, if_pos hprim]
    · exact absurd hkind hnot

section Writes

variable {r : Row AssetRow} {db : Db} {id : Nat} {observed : String → Option String}

theorem mem_amendWhere {t : Table (Table.noKey (α := AssetRow))} (hr : r ∈ t.rows) (hid : r.id = id)
    (f : AssetRow → AssetRow)
    (y : Row AssetRow) : y ∈ (t.amendWhere (·.id = id) f).rows ↔ (y ∈ t.rows ∧ y.id ≠ id) ∨
      y = ⟨id, f r.data⟩ := by
  subst hid
  rw [(Table.amendWhere_rows _ _ _).1, Table.mem_map_amend hr]
  refine or_congr (and_congr_right fun hy => not_congr ⟨fun he => congrArg Row.id he,
    Table.eq_of_id hy hr⟩) Iff.rfl

theorem mem_append (t : Table (Table.noKey (α := AssetRow))) (x : AssetRow) (y : Row AssetRow) :
    y ∈ (t.append x).rows ↔ (y ∈ t.rows ∧ y.id ≠ t.nextId) ∨ y = ⟨t.nextId, x⟩ := by
  rw [(t.append_rows x).1, List.mem_append, List.mem_singleton]
  exact or_congr ⟨fun hy => ⟨hy, Nat.ne_of_lt (t.ids_lt y hy)⟩, And.left⟩ Iff.rfl

/-- The row of the serial moves with the write of an asset. -/
theorem moved_upsert {assets : Table (Table.noKey (α := AssetRow))} {x : AssetRow}
    (hassets : ∀ r, r ∈ assets.rows ↔ (r ∈ db.assets.rows ∧ r.id ≠ id) ∨ r = ⟨id, x⟩) :
    Moved db { db.upsertFortigateFirewallAssetSource i id m.serial observed with assets := assets }
      id m.serial x := by
  refine ⟨hassets, fun p hrow hp => ?_, fun p hrow hp hne => mem_upsert_of_ne hp hrow hne,
    ⟨_, firewallRow_mem_upsert, rfl, rfl⟩⟩
  obtain ⟨hp, hne⟩ | rfl := mem_upsert hp
  · exact .inl ⟨hp, hne hrow⟩
  · exact .inr ⟨rfl, rfl⟩

theorem holdsAddress_of {x : AssetRow} (hm : m ∈ members d) (hprim : m.isPrimary = true → d.mgmtIp ≠ "" →
    x.ipAddress = some d.mgmtIp)
    (hstandby : standby d m = true → x.ipAddress = none) : HoldsAddress d m x := by
  refine ⟨hprim, fun hp => hstandby ?_⟩
  rw [standby_eq hm, hp, Bool.not_false]

theorem moved_syncExisting (horder : ∀ l, (order l).Perm l) (hd : WellReported d) (hm : m ∈ members d)
    (hr : r ∈ s.db.assets.rows)
    (hra : r.id = a.id) (hfree : Free s.db a.id m.serial) (hagree : ∀ p ∈ s.db.sources, p.assetId = a.id →
    Agrees d m p) :
    ∃ x, Moved s.db (syncExisting C order i now d m a s).db a.id m.serial x ∧
      truthy x.serialNumber = some m.serial ∧
      x.fortinetTopology.bind (·.controllerFortigate) = none ∧ HoldsAddress d m x := by
  have hne : m.serial ≠ "" := hd.nonempty m hm
  let observed := buildFortigateFirewallObservedBlob d i.type m
  let sources := order ((s.db.upsertFortigateFirewallAssetSource i a.id m.serial observed).sources.filter
    (·.assetId = a.id))
  have hmem : ∀ p, p ∈ sources ↔
    p ∈ (s.db.upsertFortigateFirewallAssetSource i a.id m.serial observed).sources ∧
    p.assetId = a.id := by
    intro p
    rw [(horder _).mem_iff, List.mem_filter, decide_eq_true_eq]
  have hall : ∀ p ∈ sources, Reports i d m p ∨ (¬ IsFirewallRow p ∧ Agrees d m p) := by
    intro p hp
    obtain ⟨hp, hpa⟩ := (hmem p).mp hp
    obtain ⟨hp, hother⟩ | rfl := mem_upsert hp
    · exact .inr ⟨fun hrow => hother hrow (hfree.rows p hp hrow hpa), hagree p hp hpa⟩
    · exact .inl ⟨rfl, rfl, rfl⟩
  have hex : ∃ p ∈ sources, IsFirewallRow p := ⟨_, (hmem _).mpr ⟨firewallRow_mem_upsert, rfl⟩, rfl⟩
  have hserial : (projectedAsset sources).serialNumber = some m.serial := projected_serial hd hm hall hex
  refine ⟨updateMember i now d m (projectedAsset sources) r.data, ?_, ?_, ?_,
    holdsAddress_of hm (fun hp hip => ?_) fun hs => ?_⟩
  · rw [syncExisting]
    simp only [if_neg hne]
    refine moved_upsert fun y => ?_
    exact mem_amendWhere hr hra _ y
  · rw [updateMember, hserial, Option.some_or]
    simp [truthy, hne]
  · exact controllerFortigate_memberTopology
  · have hnot : standby d m = false := by rw [standby_eq hm, hp, Bool.not_true]
    have haddr : (projectedAsset sources).ipAddress = some d.mgmtIp := projected_address hd hp hip hall hex
    rw [updateMember, haddr, Option.some_or]
    simp [hnot]
  · rw [updateMember]
    simp [hs]

theorem moved_syncNew (hd : WellReported d) (hm : m ∈ members d) :
    ∃ x, Moved s.db (syncNew C i now d m s).db s.db.assets.nextId m.serial x ∧
      (syncNew C i now d m s).idx = add C s.idx (indexed ⟨s.db.assets.nextId, x⟩) ∧
        truthy x.serialNumber = some m.serial ∧
      x.fortinetTopology.bind (·.controllerFortigate) = none ∧ HoldsAddress d m x := by
  have hne : m.serial ≠ "" := hd.nonempty m hm
  let row : Source :=
    { assetId := s.db.assets.nextId, sourceKind := .fortigateFirewall, externalId := m.serial
      observed := buildFortigateFirewallObservedBlob d i.type m }
  have hall : ∀ p ∈ [row], Reports i d m p ∨ (¬ IsFirewallRow p ∧ Agrees d m p) := by
    intro p hp
    obtain rfl := List.mem_singleton.mp hp
    exact .inl ⟨rfl, rfl, rfl⟩
  have hex : ∃ p ∈ [row], IsFirewallRow p := ⟨row, List.mem_cons_self, rfl⟩
  have hserial : (projectedAsset [row]).serialNumber = some m.serial := projected_serial hd hm hall hex
  refine ⟨newMember i now d m (projectedAsset [row]), ?_, rfl, ?_, ?_,
    holdsAddress_of hm (fun hp hip => ?_) fun hs => ?_⟩
  · rw [syncNew]
    simp only [if_neg hne]
    exact moved_upsert (mem_append s.db.assets _)
  · rw [newMember, hserial, Option.some_or]
    simp [truthy, hne]
  · exact controllerFortigate_memberTopology
  · have hnot : standby d m = false := by rw [standby_eq hm, hp, Bool.not_true]
    have haddr : (projectedAsset [row]).ipAddress = some d.mgmtIp := projected_address hd hp hip hall hex
    rw [newMember, haddr]
    simp [hnot]
  · rw [newMember]
    simp [hs]

end Writes

section Loop

variable {done rest : List Member} {serials : List String} {idx : AssetIndex} {db : Db}

theorem findExisting_cases (hne : m.serial ≠ "") (h : findExisting C idx d m = some a) :
    idx.bySerial m.serial = some a.id ∧ findById idx a.id = some a ∨
      findBySerial idx m.serial = none ∧ findById idx a.id = some a := by
  rw [findExisting, if_neg hne] at h
  obtain h | ⟨hnone, h⟩ := Option.or_eq_some_iff.mp h
  · obtain ⟨i, hi, h⟩ := Option.bind_eq_some_iff.mp h
    obtain rfl := (mem_findById h).2
    exact .inl ⟨hi, h⟩
  · split at h
    · exact .inr ⟨hnone, findById_of_findByEntry h⟩
    · cases h

theorem findBySerial_of_findExisting (hne : m.serial ≠ "") (h : findExisting C idx d m = none) :
    findBySerial idx m.serial = none := by
  rw [findExisting, if_neg hne] at h
  exact (Option.or_eq_none_iff.mp h).1

theorem Tracks.uncarried {serial : String} (h : Tracks idx db (serial :: serials))
    (hnone : findBySerial idx serial = none) :
    ∀ r ∈ db.assets.rows, truthy r.data.serialNumber ≠ some serial := by
  intro r hr hs
  obtain ⟨b, hi, hb, -⟩ := h.keyed serial List.mem_cons_self r hr hs
  rw [findBySerial, hi, Option.bind_some, hb] at hnone
  cases hnone

/-- Some members are done, the index knows the assets of the others. -/
structure Loop (d : Device) (done rest : List Member) (s : Phase) : Prop where
  identified : Identified s.db
  tracks : Tracks s.idx s.db (rest.map (·.serial))
  settled : ∀ m ∈ done, Settled s.db d m

theorem Loop.moved {s' : Phase} {x : AssetRow} (h : Loop d done (m :: rest) s) (hd : WellReported d)
    (hsplit : done ++ m :: rest = members d) (hmoved : Moved s.db s'.db a.id m.serial x)
    (hidx : s'.idx = add C s.idx a)
    (hx : truthy x.serialNumber = some m.serial) (hc : x.fortinetTopology.bind (·.controllerFortigate) = none)
    (hip : HoldsAddress d m x) (hfree : Free s.db a.id m.serial)
    (hold : ∀ r ∈ s.db.assets.rows, r.id = a.id →
      ∀ t ∈ rest.map (·.serial), truthy r.data.serialNumber ≠ some t)
    (ha : ∀ t ∈ rest.map (·.serial), truthy a.serialNumber ≠ some t) : Loop d (done ++ [m]) rest s' := by
  have hnodup : (done.map (·.serial) ++ m.serial :: rest.map (·.serial)).Nodup := by
    have hmap := congrArg (List.map (·.serial)) hsplit
    rw [List.map_append, List.map_cons] at hmap
    exact hmap ▸ hd.distinct
  obtain ⟨-, hrest, hdisj⟩ := List.nodup_append.mp hnodup
  refine ⟨hmoved.identified hfree h.identified hx hc, ?_, fun u hu => ?_⟩
  · rw [hidx]
    exact h.tracks.add hmoved hx (List.nodup_cons.mp hrest).1 hold ha
  · obtain hu | hu := List.mem_append.mp hu
    · have hne : u.serial ≠ m.serial := hdisj u.serial (List.mem_map_of_mem hu) m.serial List.mem_cons_self
      exact hmoved.keeps_settled hfree hne (truthy_some hx).1 (h.settled u hu)
    · obtain rfl := List.mem_singleton.mp hu
      exact hmoved.settles hfree rfl hx hip

variable (horder : ∀ l, (order l).Perm l)

include horder in
theorem Loop.step (h : Loop d done (m :: rest) s) (hd : WellReported d)
    (hsplit : done ++ m :: rest = members d)
    (hfits : Fits C d s m) : Loop d (done ++ [m]) rest (syncMember C order i now d s m) := by
  have hm : m ∈ members d := hsplit ▸ List.mem_append_right _ List.mem_cons_self
  have hne : m.serial ≠ "" := hd.nonempty m hm
  have hlisted : ∀ t ∈ rest.map (·.serial), t ∈ (members d).map (·.serial) := by
    intro t ht
    obtain ⟨u, hu, rfl⟩ := List.mem_map.mp ht
    exact List.mem_map_of_mem (hsplit ▸ List.mem_append_right _ (List.mem_cons_of_mem _ hu))
  have hlater : m.serial ∉ rest.map (·.serial) := by
    have hmap := congrArg (List.map (·.serial)) hsplit
    rw [List.map_append, List.map_cons] at hmap
    have hnodup := hmap ▸ hd.distinct
    exact (List.nodup_cons.mp (List.nodup_append.mp hnodup).2.1).1
  rw [syncMember]
  cases hf : findExisting C s.idx d m with
  | none =>
    have hnone := findBySerial_of_findExisting C hne hf
    obtain ⟨x, hmoved, hidx, hx, hc, hip⟩ := @moved_syncNew C i now d m s hd hm
    have hfree : Free s.db s.db.assets.nextId m.serial := by
      refine ⟨fun r hr _ => h.tracks.uncarried hnone r hr, fun p hp hrow hpi => ?_⟩
      obtain ⟨r, hr, hri, -⟩ := h.identified.owner p hp hrow
      have hlt := s.db.assets.ids_lt r hr
      omega
    refine h.moved C hd hsplit hmoved hidx hx hc hip hfree (fun r hr hri => ?_) fun t ht hs => ?_
    · exact absurd hri (Nat.ne_of_lt (s.db.assets.ids_lt r hr))
    · exact hlater (Option.some.inj (hx.symm.trans hs) ▸ ht)
  | some a =>
    obtain ⟨hagree, hfallback⟩ := hfits a hf
    obtain ⟨hi, ha⟩ | ⟨hnone, ha⟩ := findExisting_cases C hne hf
    · obtain ⟨r, hr, hra, hs⟩ := h.tracks.hit m.serial List.mem_cons_self a.id hi
      have hself : ∀ q ∈ s.db.assets.rows, q.id = a.id → truthy q.data.serialNumber = some m.serial :=
        fun q hq hqa => Table.eq_of_id hr hq (hra.trans hqa.symm) ▸ hs
      have hfree : Free s.db a.id m.serial := by
        refine ⟨fun q hq hqa hqs => hqa ?_, fun p hp hrow hpa => ?_⟩
        · exact h.identified.serials q hq r hr m.serial hqs hs ▸ hra
        · obtain ⟨q, hq, hqp, hqs, -⟩ := h.identified.owner p hp hrow
          exact Option.some.inj (hqs.symm.trans (hself q hq (hqp.trans hpa)))
      obtain ⟨x, hmoved, hx, hc, hip⟩ :=
        @moved_syncExisting C order i now d m s _ _ horder hd hm hr hra hfree hagree
      obtain ⟨b, -, hb, hbs⟩ := h.tracks.keyed m.serial List.mem_cons_self r hr hs
      obtain rfl : b = a := Option.some.inj (hb.symm.trans (hra ▸ ha))
      refine h.moved C (a := mirrored d m b) hd hsplit hmoved rfl hx hc hip hfree
        (fun q hq hqa t ht hqs => ?_)
        fun t ht hs => ?_
      · exact hlater (Option.some.inj ((hself q hq hqa).symm.trans hqs) ▸ ht)
      · exact hlater (Option.some.inj (hbs.symm.trans hs) ▸ ht)
    · obtain ⟨hbare, hforeign⟩ := hfallback hnone
      obtain ⟨r, hr, hra⟩ := h.tracks.stored a.id a ha
      have hfree : Free s.db a.id m.serial :=
        ⟨fun q hq _ => h.tracks.uncarried hnone q hq, fun p hp hrow hpa => absurd hrow (hbare p hp hpa)⟩
      obtain ⟨x, hmoved, hx, hc, hip⟩ :=
        @moved_syncExisting C order i now d m s _ _ horder hd hm hr hra hfree hagree
      refine h.moved C (a := mirrored d m a) hd hsplit hmoved rfl hx hc hip hfree
        (fun q hq hqa t ht hqs => ?_)
        fun t ht hs => ?_
      · obtain ⟨b, -, hb, hbs⟩ := h.tracks.keyed t (List.mem_cons_of_mem _ ht) q hq hqs
        obtain rfl : b = a := Option.some.inj (hb.symm.trans (hqa ▸ ha))
        exact hforeign t hbs (hlisted t ht)
      · exact hforeign t hs (hlisted t ht)

end Loop

end Members

section Runs

variable (C : Casing) (order : List Source → List Source) (i : Integration) {now : Nat} {d : Device} {db : Db}
  {r : Discovery}

/-- Where every member meets an asset of its own or none, each of them has
one after the sync. -/
theorem syncDevice_settles (horder : ∀ l, (order l).Perm l) (h : Identified db) (hd : WellReported d)
    (hfits : Along (syncMember C order i now d) (Fits C d)
      ⟨db, build C (db.assets.rows.map indexed)⟩ (members d)) :
    Identified (syncDevice C order i now d db) ∧ ∀ m ∈ members d,
      Settled (syncDevice C order i now d db) d m := by
  have hloop : ∀ (rest done : List Member) (s : Phase), Loop d done rest s → done ++ rest = members d →
      Along (syncMember C order i now d) (Fits C d) s rest →
        Loop d (members d) [] (rest.foldl (syncMember C order i now d) s) := by
    intro rest
    induction rest with
    | nil =>
      intro done s hs hsplit _
      rw [List.append_nil] at hsplit
      exact hsplit ▸ hs
    | cons m rest ih =>
      intro done s hs hsplit hc
      have hsplit' : done ++ [m] ++ rest = members d := by
        rw [List.append_assoc, List.singleton_append, hsplit]
      exact ih (done ++ [m]) _ (hs.step C horder hd hsplit hc.1) hsplit' hc.2
  have hstart : Loop d [] (members d) ⟨db, build C (db.assets.rows.map indexed)⟩ :=
    ⟨h, tracks_build h _, fun _ hm => absurd hm List.not_mem_nil⟩
  have hend := hloop (members d) [] _ hstart (List.nil_append _) hfits
  exact ⟨hend.identified, hend.settled⟩

theorem mem_decommissioned {t : Table (Table.noKey (α := AssetRow))} {q : Row AssetRow → Bool}
    {a : Row AssetRow}
    (ha : a ∈ t.rows) (hq : q a = false) : a ∈ (t.amendWhere q decommission).rows := by
  rw [(Table.amendWhere_rows _ _ _).1]
  exact List.mem_map.mpr ⟨a, ha, amend_of_neg hq _⟩

theorem Identified.decommissioned (h : Identified db) (q : Row AssetRow → Bool) :
    Identified { db with assets := db.assets.amendWhere q decommission } := by
  have hfields : ∀ a, (amend q decommission a).id = a.id ∧
    (amend q decommission a).data.serialNumber = a.data.serialNumber ∧
      (amend q decommission a).data.fortinetTopology = a.data.fortinetTopology := by
    intro a
    rw [amend]
    split <;> exact ⟨rfl, rfl, rfl⟩
  refine ⟨fun a ha b hb t hat hbt => ?_, fun p hp hrow => ?_⟩
  · rw [(Table.amendWhere_rows _ _ _).1] at ha hb
    obtain ⟨a₀, ha₀, rfl⟩ := List.mem_map.mp ha
    obtain ⟨b₀, hb₀, rfl⟩ := List.mem_map.mp hb
    rw [(hfields a₀).2.1] at hat
    rw [(hfields b₀).2.1] at hbt
    rw [h.serials a₀ ha₀ b₀ hb₀ t hat hbt]
  · obtain ⟨a, ha, hap, hs, hctl⟩ := h.owner p hp hrow
    refine ⟨amend q decommission a, ?_, (hfields a).1.trans hap, ?_, ?_⟩
    · rw [(Table.amendWhere_rows _ _ _).1]
      exact List.mem_map_of_mem ha
    · rw [(hfields a).2.1, hs]
    · rw [(hfields a).2.2, hctl]

theorem Identified.finalize (h : Identified db) : Identified (finalize i r db) := by
  rw [ClusterSync.finalize]
  split <;> split
  · exact (h.decommissioned _).decommissioned _
  · exact h.decommissioned _
  · exact h.decommissioned _
  · exact h

def Listed (r : Discovery) (a : AssetRow) : Prop :=
  ∃ serial ∈ truthy a.serialNumber, serial ∈ knownFirewallSerials r

instance Listed.decidable (r : Discovery) (a : AssetRow) : Decidable (Listed r a) :=
  decidable_of_iff ((truthy a.serialNumber).any (· ∈ knownFirewallSerials r) = true)
    (by simp [Listed, Option.any_eq_true])

theorem mem_finalize {a : Row AssetRow} (ha : a ∈ db.assets.rows) (hlisted : Listed r a.data)
    (hctl : a.data.fortinetTopology.bind (·.controllerFortigate) = none) :
    a ∈ (finalize i r db).assets.rows := by
  have hfw : staleFirewall i r a.data = false := by
    obtain ⟨serial, hs, hknown⟩ := hlisted
    have hs : truthy a.data.serialNumber = some serial := hs
    simp [staleFirewall, hs, hknown]
  have hinfra : staleInfra i r a.data = false := by
    rw [staleInfra, hctl]
    simp [truthy]
  rw [ClusterSync.finalize]
  split <;> split
  · exact mem_decommissioned (mem_decommissioned ha hfw) hinfra
  · exact mem_decommissioned ha hinfra
  · exact mem_decommissioned ha hfw
  · exact ha

/-- The steps of an integration. Between them anything may happen to the
database. -/
inductive Op
  | sync (d : Device) (now : Nat)
  | finalize (r : Discovery)
  | other (db : Db)

def step (db : Db) : Op → Db
  | .sync d now => syncDevice C order i now d db
  | .finalize r => ClusterSync.finalize i r db
  | .other db' => db'

/-- Each member finds its own asset or one that is no unit yet, a listed
asset was synced before, and other writes keep the identities. -/
def Meets (db : Db) : Op → Prop
  | .sync d now => WellReported d ∧
      Along (syncMember C order i now d) (Fits C d) ⟨db, build C (db.assets.rows.map indexed)⟩ (members d)
  | .finalize r => ∀ a ∈ db.assets.rows, Listed r a.data →
      ∃ p ∈ db.sources, IsFirewallRow p ∧ some p.externalId = a.data.serialNumber
  | .other db' => Identified db'

/-- The members of a synced device have one asset each, with the row and the
address that belong to it. A finalize pass leaves the listed assets alone. -/
def Keeps (db : Db) : Op → Prop
  | .sync d now => (∀ m ∈ members d, Settled (syncDevice C order i now d db) d m) ∧
      ∀ a ∈ (syncDevice C order i now d db).assets.rows, ∀ b ∈ (syncDevice C order i now d db).assets.rows,
        a.data.serialNumber ≠ b.data.serialNumber → a.id ≠ b.id
  | .finalize r => ∀ a ∈ db.assets.rows, Listed r a.data → a ∈ (ClusterSync.finalize i r db).assets.rows
  | .other _ => True

theorem step_keeps (horder : ∀ l, (order l).Perm l) {op : Op} (h : Identified db)
    (hop : Meets C order i db op) :
    Identified (step C order i db op) ∧ Keeps C order i db op := by
  cases op with
  | sync d now =>
    obtain ⟨hid, hsettled⟩ := syncDevice_settles C order i horder h hop.1 hop.2
    exact ⟨hid, hsettled, fun a ha b hb hne he => hne (by rw [Table.eq_of_id ha hb he])⟩
  | finalize r =>
    refine ⟨h.finalize i, fun a ha hlisted => mem_finalize i ha hlisted ?_⟩
    obtain ⟨p, hp, hrow, hps⟩ := hop a ha hlisted
    obtain ⟨b, hb, -, hbs, hctl⟩ := h.owner p hp hrow
    have hsame : a.data.serialNumber = b.data.serialNumber := hps.symm.trans (truthy_some hbs).1.symm
    have has : truthy a.data.serialNumber = some p.externalId := by rw [hsame, hbs]
    rw [h.serials a ha b hb p.externalId has hbs, hctl]
  | other db' => exact ⟨hop, trivial⟩

theorem members_keep_identity (horder : ∀ l, (order l).Perm l) (db : Db) (h : Identified db) (ops : List Op)
    (hops : Along (step C order i) (Meets C order i) db ops) :
    Along (step C order i) (Keeps C order i) db ops := by
  induction ops generalizing db with
  | nil => trivial
  | cons op ops ih =>
    obtain ⟨hid, hkeeps⟩ := step_keeps C order i horder h hops.1
    exact ⟨hkeeps, ih _ hid hops.2⟩

section Office

def office : Integration := ⟨"int-1", "fortigate", "Office"⟩

def emptyDb : Db := ⟨Table.empty _, []⟩

theorem identified_emptyDb : Identified emptyDb :=
  ⟨fun _ ha => absurd ha List.not_mem_nil, fun _ hp => absurd hp List.not_mem_nil⟩

def standalone : Device := { name := "office-fw", hostname := "office-fw", serial := "FG1",
                             mgmtIp := "10.0.0.1" }

/-- The unit after a second one joined as its primary, under the name and the
address of the cluster. -/
def cluster : Device :=
  { standalone with
    serial := "FG2", haMode := .activePassive,
    haMembers := [⟨"FG2", "office-fw-b", true⟩, ⟨"FG1", "office-fw", false⟩] }

def joined : Device :=
  { standalone with
    haMode := .activePassive,
    haMembers := [⟨"FG1", "office-fw", true⟩, ⟨"FG2", "office-fw-b", false⟩] }

def discovery : Discovery := { devices := [cluster], knownDeviceNames := ["office-fw-b"] }

def officeRun : List Op := [.sync standalone 1, .sync joined 2, .sync cluster 3, .finalize discovery]

theorem meets_officeRun : Along (step asciiCasing id office)
    (Meets asciiCasing id office) emptyDb officeRun := by
  refine ⟨⟨⟨?_, ?_, ?_, ?_⟩, ?_⟩, ⟨⟨?_, ?_, ?_, ?_⟩, ?_⟩, ⟨⟨?_, ?_, ?_, ?_⟩, ?_⟩, ?finalized, trivial⟩
  case finalized =>
    change ∀ a ∈ Table.rows _, Listed discovery a.data → _
    decide +kernel
  all_goals decide +kernel

/-- A standalone unit gets a standby, which later takes over as primary. -/
theorem members_keep_identity_failover :
    Along (step asciiCasing id office) (Keeps asciiCasing id office) emptyDb officeRun :=
  members_keep_identity asciiCasing id office (fun _ => .rfl) emptyDb identified_emptyDb
    officeRun meets_officeRun

theorem joining_primary_takes_asset :
    Identified emptyDb ∧ WellReported standalone ∧ WellReported cluster ∧
      "FG2" ∈ (members cluster).map (·.serial) ∧
      ∀ a ∈ ([.sync standalone 1, .sync cluster 2].foldl (step asciiCasing id office) emptyDb).assets.rows,
        a.data.serialNumber ≠ some "FG2" := by
  refine ⟨identified_emptyDb, ⟨?_, ?_, ?_, ?_⟩, ⟨?_, ?_, ?_, ?_⟩, ?_, ?_⟩
  all_goals decide +kernel

end Office

end Runs

end Polaris.ClusterIdentity
