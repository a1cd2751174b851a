import Polaris.AssetLookup
import Polaris.Lib.Keyed
import Polaris.Lib.Runs

namespace Polaris.AssetIndexing

open Polaris.AssetLookup Polaris.Lib.Keyed Polaris.Lib.Runs
open Polaris.Reservations (truthy)

section Keys

variable (C : Casing)

inductive Kind
  | serial | mac | hostname | ip
  deriving DecidableEq

def withColons (key : String) : String := key.map fun c => if c = '-' then ':' else c

def macs (a : Asset) : List String := (macKeys a).filterMap truthy

def keys (a : Asset) : List (Kind × String) :=
  (truthy a.serialNumber).toList.map (Prod.mk .serial) ++ (macs a).map (fun m => (.mac, C.toUpperCase m)) ++
    (truthy a.hostname).toList.map (fun h => (.hostname, C.toLowerCase h)) ++
      (truthy a.ipAddress).toList.map (Prod.mk .ip)

def table (idx : AssetIndex) : Kind × String → Option Nat
  | (.serial, key) => idx.bySerial key
  | (.mac, key) => idx.byMac key
  | (.hostname, key) => idx.byHostname key
  | (.ip, key) => idx.byIp key

def HasMac (a : Asset) (mac : String) : Prop := ∃ m ∈ macs a, macKey C m = macKey C mac

def HasHostname (a : Asset) (hostname : String) : Prop :=
  ∃ h ∈ truthy a.hostname, C.toLowerCase h = C.toLowerCase hostname

/-- An asset has a key of the index, a MAC up to its separators. -/
def Has (a : Asset) : Kind × String → Prop
  | (.serial, key) => truthy a.serialNumber = some key
  | (.mac, key) => ∃ m ∈ macs a, macKey C m = withColons key
  | (.hostname, key) => ∃ h ∈ truthy a.hostname, C.toLowerCase h = key
  | (.ip, key) => truthy a.ipAddress = some key

/-- The keys that some text leads to. -/
def Spelled : Kind × String → Prop
  | (.serial, _) => True
  | (.mac, key) => ∃ mac, truthy (some mac) = some mac ∧ C.toUpperCase mac = key
  | (.hostname, key) => ∃ h, truthy (some h) = some h ∧ C.toLowerCase h = key
  | (.ip, key) => truthy (some key) = some key

variable {C} {a : Asset} {idx : AssetIndex} {i : Nat} {key : String}

theorem truthy_truthy {s : Option String} {t : String} (h : truthy s = some t) :
    truthy (some t) = some t := by
  obtain ⟨-, ht⟩ := Polaris.Reservations.truthy_some h
  simp [truthy, ht]

theorem withColons_macKey (mac : String) : withColons (macKey C mac) = macKey C mac := by
  rw [withColons, macKey, String.map_map]
  congr 1
  funext c
  by_cases hc : c = '-'
  · simp [hc]
  · simp [hc]

theorem mem_macs {mac : String} (h : mac ∈ macs a) : truthy (some mac) = some mac := by
  obtain ⟨m, -, hm⟩ := List.mem_filterMap.mp h
  exact truthy_truthy hm

theorem has_keys : ∀ key ∈ keys C a, Has C a key := by
  intro key hkey
  simp only [keys, List.mem_append, List.mem_map, Option.mem_toList] at hkey
  obtain ((⟨s, hs, rfl⟩ | ⟨m, hm, rfl⟩) | ⟨h, hh, rfl⟩) | ⟨s, hs, rfl⟩ := hkey
  · exact hs
  · exact ⟨m, hm, rfl⟩
  · exact ⟨h, hh, rfl⟩
  · exact hs

theorem spelled_keys : ∀ key ∈ keys C a, Spelled C key := by
  intro key hkey
  simp only [keys, List.mem_append, List.mem_map, Option.mem_toList] at hkey
  obtain ((⟨s, -, rfl⟩ | ⟨m, hm, rfl⟩) | ⟨h, hh, rfl⟩) | ⟨s, hs, rfl⟩ := hkey
  · trivial
  · exact ⟨m, mem_macs hm, rfl⟩
  · exact ⟨h, truthy_truthy hh, rfl⟩
  · exact truthy_truthy hs

theorem setKey_claim (norm : String → String) (m : String → Option Nat) (s : Option String) :
    setKey norm i m s = claim ((truthy s).toList.map norm) i m := by
  funext key
  rw [setKey, claim]
  cases truthy s with
  | none => simp
  | some t => simp [Function.update_apply]

theorem foldl_setKey (norm : String → String) (m : String → Option Nat) (ss : List (Option String)) :
    ss.foldl (setKey norm i) m = claim ((ss.filterMap truthy).map norm) i m := by
  induction ss generalizing m with
  | nil => exact claim_nil.symm
  | cons s ss ih =>
    have hcons : (s :: ss).filterMap truthy = (truthy s).toList ++ ss.filterMap truthy := by
      cases hs : truthy s with
      | none => rw [List.filterMap_cons_none hs]; rfl
      | some t => rw [List.filterMap_cons_some hs]; rfl
    rw [List.foldl_cons, ih, setKey_claim, claim_claim, hcons, List.map_append]

theorem mac_mem_keys : (Kind.mac, key) ∈ keys C a ↔ key ∈ (macs a).map C.toUpperCase := by
  simp [keys]

theorem table_add : table (add C idx a) = claim (keys C a) a.id (table idx) := by
  funext key
  obtain ⟨kind, key⟩ := key
  cases kind with
  | serial => simp [table, add, setKey_claim, claim, keys]
  | mac =>
    simp only [table, add, foldl_setKey, claim, mac_mem_keys]
    rfl
  | hostname => simp [table, add, setKey_claim, claim, keys]
  | ip => simp [table, add, setKey_claim, claim, keys]

theorem findById_settle : findById (add C idx a) = settle a.id a (findById idx) :=
  funext fun _ => findById_add

end Keys

section Lookups

variable (C : Casing) (idx : AssetIndex)

/-- The asset has the first of the keys that the index knows. -/
def Matched (mac hostname ip : Option String) (a : Asset) : Prop :=
  (findByEntry C idx mac none none false = some a ∧ ∃ m ∈ mac, HasMac C a m) ∨
  (findByEntry C idx mac none none false = none ∧ findByEntry C idx none hostname none false = some a ∧
    ∃ h ∈ hostname, HasHostname C a h) ∨
  (findByEntry C idx mac hostname none false = none ∧ ∃ address ∈ ip, truthy a.ipAddress = some address)

/-- What a lookup returns has the key that was matched. -/
structure Truthful : Prop where
  serial : ∀ serial a, findBySerial idx serial = some a → truthy a.serialNumber = some serial
  mac : ∀ mac a, findByMac C idx mac = some a → HasMac C a mac
  entry : ∀ mac hostname ip allowIpFallback a, findByEntry C idx mac hostname ip allowIpFallback = some a →
    Matched C idx mac hostname ip a

/-- What a new index over the same assets finds is found. -/
structure Complete : Prop where
  serial : ∀ serial, (findBySerial (build C idx.byId) serial).isSome → (findBySerial idx serial).isSome
  mac : ∀ mac, (findByMac C (build C idx.byId) mac).isSome → (findByMac C idx mac).isSome
  entry : ∀ mac hostname ip allowIpFallback,
    (findByEntry C (build C idx.byId) mac hostname ip allowIpFallback).isSome →
      (findByEntry C idx mac hostname ip allowIpFallback).isSome

/-- What holds of the maps whatever becomes of the assets. -/
structure Linked : Prop where
  closed : Closed (findById idx) (table idx)
  spelled : Within (Spelled C) (table idx)
  full : Full (keys C) idx.byId (table idx)

def look (key : Kind × String) : Option Asset := (table idx key).bind (findById idx)

variable {C idx} {a : Asset} {as : List Asset}

theorem Linked.add (h : Linked C idx) : Linked C (add C idx a) := by
  refine ⟨?_, ?_, ?_⟩
  · rw [table_add, findById_settle]
    exact closed_claim h.closed
  · rw [table_add]
    exact within_claim spelled_keys h.spelled
  · rw [table_add]
    exact full_claim (fun _ => mem_setId) h.full

theorem build_append (as : List Asset) (a : Asset) :
    build C (as ++ [a]) = AssetLookup.add C (build C as) a := by
  rw [build, build, List.foldl_append, List.foldl_cons, List.foldl_nil]

theorem table_nil (key : Kind × String) (i : Nat) : table (build C []) key ≠ some i := by
  obtain ⟨kind, key⟩ := key
  cases kind with
  | serial | mac | hostname | ip => exact (Option.some_ne_none i).symm

theorem linked_build (as : List Asset) : Linked C (build C as) := by
  induction as using List.reverseRecOn with
  | nil =>
    exact ⟨fun key i hi => absurd hi (table_nil key i), fun key i hi => absurd hi (table_nil key i),
      fun _ ha => absurd ha List.not_mem_nil⟩
  | append_singleton as a ih =>
    rw [build_append]
    exact ih.add

theorem owned_build {key : Kind × String} {i : Nat} (h : table (build C as) key = some i) :
    ∃ a ∈ as, key ∈ keys C a := by
  induction as using List.reverseRecOn with
  | nil => exact absurd h (table_nil key i)
  | append_singleton as a ih =>
    rw [build_append, table_add] at h
    obtain ⟨hk, -⟩ | hk := claim_cases h
    · exact ⟨a, List.mem_append_right _ List.mem_cons_self, hk⟩
    · obtain ⟨b, hb, hkey⟩ := ih hk
      exact ⟨b, List.mem_append_left _ hb, hkey⟩

theorem findById_build {i : Nat} (h : ∀ b ∈ as, b.id ≠ i) : findById (build C as) i = none := by
  induction as using List.reverseRecOn with
  | nil => rfl
  | append_singleton as a ih =>
    rw [build_append, findById_add, if_neg (h a (List.mem_append_right _ List.mem_cons_self)).symm]
    exact ih fun b hb => h b (List.mem_append_left _ hb)

theorem sound_build (h : (as.map (·.id)).Nodup) :
    Sound (Has C) (findById (build C as)) (table (build C as)) := by
  induction as using List.reverseRecOn with
  | nil => exact fun key i _ hi => absurd hi (table_nil key i)
  | append_singleton as a ih =>
    rw [List.map_append, List.nodup_append] at h
    have hnew : findById (build C as) a.id = none :=
      findById_build fun b hb => h.2.2 b.id (List.mem_map_of_mem hb) a.id (by simp)
    rw [build_append, table_add, findById_settle]
    exact sound_claim_new has_keys (linked_build as).closed hnew (ih h.1)

theorem look_some {key : Kind × String} : look idx key = some a ↔ ∃ i, table idx key = some i ∧
    findById idx i = some a :=
  Option.bind_eq_some_iff

theorem findBySerial_look (serial : String) : findBySerial idx serial = look idx (.serial, serial) := rfl

theorem findByMac_look (mac : String) : findByMac C idx mac = look idx (.mac, C.toUpperCase mac) := rfl

/-- A lookup of an entry tries three keys in turn. -/
theorem findByEntry_look (mac hostname ip : Option String) (allowIpFallback : Bool) :
    findByEntry C idx mac hostname ip allowIpFallback =
      ((truthy mac).bind fun m => look idx (.mac, macKey C m)).or
        (((truthy hostname).bind fun h => look idx (.hostname, C.toLowerCase h)).or
          ((truthy ip).bind fun i => if allowIpFallback then look idx (.ip, i) else none)) := rfl

theorem Linked.look_isSome (h : Linked C idx) {key : Kind × String}
    (hkey : (look (build C idx.byId) key).isSome) :
    (look idx key).isSome := by
  obtain ⟨a, ha⟩ := Option.isSome_iff_exists.mp hkey
  obtain ⟨i, hi, -⟩ := look_some.mp ha
  obtain ⟨b, hb, hk⟩ := owned_build hi
  obtain ⟨j, hj⟩ := Option.isSome_iff_exists.mp (h.full b hb key hk)
  obtain ⟨c, hc⟩ := Option.isSome_iff_exists.mp (h.closed key j hj)
  rw [look_some.mpr ⟨j, hj, hc⟩]
  rfl

theorem isSome_bind_mono {o : Option String} {f g : String → Option Asset}
    (h : ∀ s, (f s).isSome → (g s).isSome)
    (hf : (o.bind f).isSome) : (o.bind g).isSome := by
  cases o with
  | none => exact hf
  | some s => exact h s hf

theorem Linked.complete (h : Linked C idx) : Complete C idx := by
  refine ⟨fun serial hs => ?_, fun mac hs => ?_, fun mac hostname ip allow hs => ?_⟩
  · rw [findBySerial_look] at hs ⊢
    exact h.look_isSome hs
  · rw [findByMac_look] at hs ⊢
    exact h.look_isSome hs
  rw [findByEntry_look] at hs ⊢
  simp only [Option.isSome_or, Bool.or_eq_true] at hs ⊢
  refine hs.imp (isSome_bind_mono fun _ hl => h.look_isSome hl)
    (Or.imp (isSome_bind_mono fun _ hl => h.look_isSome hl) (isSome_bind_mono fun _ hl => ?_))
  cases allow with
  | false => exact hl
  | true => exact h.look_isSome hl

theorem lookup_mac (mac : Option String) :
    findByEntry C idx mac none none false = (truthy mac).bind fun m => look idx (.mac, macKey C m) := by
  rw [findByEntry_look]
  simp [truthy]

theorem lookup_hostname (hostname : Option String) :
    findByEntry C idx none hostname none false =
      (truthy hostname).bind fun h => look idx (.hostname, C.toLowerCase h) := by
  rw [findByEntry_look]
  simp [truthy]

theorem lookup_names (mac hostname : Option String) : findByEntry C idx mac hostname none false =
    (findByEntry C idx mac none none false).or (findByEntry C idx none hostname none false) := by
  rw [lookup_mac, lookup_hostname, findByEntry_look]
  simp [truthy]

theorem lookup_entry (mac hostname ip : Option String) (allowIpFallback : Bool) :
    findByEntry C idx mac hostname ip allowIpFallback = (findByEntry C idx mac hostname none false).or
      ((truthy ip).bind fun i => if allowIpFallback then look idx (.ip, i) else none) := by
  rw [lookup_names, lookup_mac, lookup_hostname, findByEntry_look, Option.or_assoc]

theorem Linked.truthful (h : Linked C idx) : Truthful C idx ↔ Sound (Has C) (findById idx) (table idx) := by
  constructor
  · rintro htrue ⟨kind, key⟩ i a hi ha
    have hlook : look idx (kind, key) = some a := look_some.mpr ⟨i, hi, ha⟩
    have hkey := h.spelled _ i hi
    cases kind with
    | serial => exact htrue.serial key a hlook
    | mac =>
      obtain ⟨mac, -, rfl⟩ := hkey
      exact htrue.mac mac a hlook
    | hostname =>
      obtain ⟨hostname, hne, rfl⟩ := hkey
      have hentry : findByEntry C idx none (some hostname) none false = some a := by
        rw [lookup_hostname, hne]
        exact hlook
      obtain ⟨hmac, -⟩ | ⟨-, -, n, hn, hhas⟩ | ⟨hnone, -⟩ :=
        htrue.entry none (some hostname) none false a hentry
      · rw [lookup_mac] at hmac
        exact absurd hmac.symm (Option.some_ne_none a)
      · obtain rfl := Option.some.inj hn
        exact hhas
      · exact absurd (hentry.symm.trans hnone) (Option.some_ne_none a)
    | ip =>
      have hentry : findByEntry C idx none none (some key) true = some a := by
        rw [lookup_entry, show truthy (some key) = some key from hkey]
        exact hlook
      obtain ⟨hmac, -⟩ | ⟨-, hhost, -⟩ | ⟨-, address, haddress, hhas⟩ :=
        htrue.entry none none (some key) true a hentry
      · rw [lookup_mac] at hmac
        exact absurd hmac.symm (Option.some_ne_none a)
      · rw [lookup_hostname] at hhost
        exact absurd hhost.symm (Option.some_ne_none a)
      · obtain rfl := Option.some.inj haddress
        exact hhas
  · intro hsound
    have hhas : ∀ key a, look idx key = some a → Has C a key := by
      intro key a hlook
      obtain ⟨i, hi, ha⟩ := look_some.mp hlook
      exact hsound key i a hi ha
    refine ⟨fun serial a hs => ?_, fun mac a hs => ?_, fun mac hostname ip allow a hs => ?_⟩
    · rw [findBySerial_look] at hs
      exact hhas _ a hs
    · rw [findByMac_look] at hs
      exact hhas _ a hs
    rw [lookup_entry, Option.or_eq_some_iff] at hs
    obtain hs | ⟨hnone, hs⟩ := hs
    · rw [lookup_names, Option.or_eq_some_iff] at hs
      obtain hs | ⟨hnone, hs⟩ := hs
      · refine Or.inl ⟨hs, ?_⟩
        rw [lookup_mac] at hs
        obtain ⟨m, hm, hs⟩ := Option.bind_eq_some_iff.mp hs
        obtain ⟨m', hm', heq⟩ := hhas _ a hs
        rw [withColons_macKey] at heq
        exact ⟨m, (Polaris.Reservations.truthy_some hm).1, m', hm', heq⟩
      · refine Or.inr (Or.inl ⟨hnone, hs, ?_⟩)
        rw [lookup_hostname] at hs
        obtain ⟨m, hm, hs⟩ := Option.bind_eq_some_iff.mp hs
        exact ⟨m, (Polaris.Reservations.truthy_some hm).1, hhas _ a hs⟩
    · refine Or.inr (Or.inr ⟨hnone, ?_⟩)
      obtain ⟨i, hi, hs⟩ := Option.bind_eq_some_iff.mp hs
      split at hs
      · exact ⟨i, (Polaris.Reservations.truthy_some hi).1, hhas _ a hs⟩
      · exact absurd hs.symm (Option.some_ne_none a)

end Lookups

section Runs

variable (C : Casing)

def reindex (idx : AssetIndex) (a : Asset) : AssetIndex := add C idx a

inductive Event
  | add (a : Asset)
  | change (a : Asset)

def step (idx : AssetIndex) : Event → AssetIndex
  | .add a => add C idx a
  | .change a => reindex C idx a

def Valid (idx : AssetIndex) : Event → Prop
  | .add a => findById idx a.id = none
  | .change a => (findById idx a.id).isSome

/-- A change gives up no key that still leads to the asset. -/
def Kept (idx : AssetIndex) : Event → Prop
  | .add _ => True
  | .change a => ∀ key, table idx key = some a.id → Has C a key

variable {C} {idx : AssetIndex}

theorem linked_step (e : Event) (h : Linked C idx) : Linked C (step C idx e) := by
  cases e with
  | add a => exact h.add
  | change a => exact h.add

theorem truthful_step (e : Event) (h : Linked C idx) (ht : Truthful C idx) (hv : Valid idx e) :
    Truthful C (step C idx e) ↔ Kept C idx e := by
  rw [(linked_step e h).truthful]
  have hsound := h.truthful.mp ht
  cases e with
  | add a =>
    rw [step, table_add, findById_settle]
    exact ⟨fun _ => trivial, fun _ => sound_claim_new has_keys h.closed hv hsound⟩
  | change a =>
    rw [step, reindex, table_add, findById_settle]
    exact sound_claim has_keys hsound

/-- The index finds what a new one would, always. What it returns has the key
that was matched as long as no change gives up a key in force. -/
theorem coherent_iff_kept (C : Casing) (assets : List Asset) (es : List Event)
    (hids : (assets.map (·.id)).Nodup)
    (hes : Along (step C) Valid (build C assets) es) :
    (∀ k, Truthful C ((es.take k).foldl (step C) (build C assets)) ∧
        Complete C ((es.take k).foldl (step C) (build C assets))) ↔
      Along (step C) (Kept C) (build C assets) es := by
  have hlinked : ∀ k, Linked C ((es.take k).foldl (step C) (build C assets)) := fun k =>
    foldl_invariant (fun _ e h _ => linked_step e h) (linked_build assets) along_true
  have htrue : Truthful C (build C assets) := (linked_build assets).truthful.mpr (sound_build hids)
  have hiff := along_iff_reached_of
    (fun idx e (h : Linked C idx ∧ Truthful C idx) hv =>
      (and_iff_right (linked_step e h.1)).trans (truthful_step e h.1 h.2 hv))
    ⟨linked_build assets, htrue⟩ hes
  rw [← hiff]
  exact forall_congr' fun k => ⟨fun h => ⟨hlinked k, h.1⟩, fun h => ⟨h.2, (hlinked k).complete⟩⟩

def laptop : Asset := { id := 1, hostname := some "Lab-PC", ipAddress := some "10.0.0.5" }

theorem coherent_iff_kept_laptop :
    (∀ k, Truthful asciiCasing (([Event.change { laptop with macAddress := some "00:09:0f:aa:01:02" },
          .add { id := 2, ipAddress := some "10.0.0.5" }].take k).foldl (step asciiCasing)
            (build asciiCasing [laptop])) ∧
        Complete asciiCasing (([Event.change { laptop with macAddress := some "00:09:0f:aa:01:02" },
          .add { id := 2, ipAddress := some "10.0.0.5" }].take k).foldl (step asciiCasing)
            (build asciiCasing [laptop]))) ↔
      Along (step asciiCasing) (Kept asciiCasing) (build asciiCasing [laptop])
        [.change { laptop with macAddress := some "00:09:0f:aa:01:02" },
          .add { id := 2, ipAddress := some "10.0.0.5" }] :=
  coherent_iff_kept asciiCasing [laptop] _ (by decide) ⟨rfl, rfl, trivial⟩

/-- The old name still leads to a laptop that was renamed. -/
theorem renamed_not_truthful :
    Valid (build asciiCasing [laptop]) (.change { laptop with hostname := some "Lab-PC-2" }) ∧
    ¬ Truthful asciiCasing
      (step asciiCasing (build asciiCasing [laptop])
        (.change { laptop with hostname := some "Lab-PC-2" })) := by
  have hlinked : Linked asciiCasing (build asciiCasing [laptop]) := linked_build [laptop]
  have htrue : Truthful asciiCasing (build asciiCasing [laptop]) :=
    hlinked.truthful.mpr (sound_build (by decide))
  have hvalid : Valid (build asciiCasing [laptop])
    (.change { laptop with hostname := some "Lab-PC-2" }) := rfl
  refine ⟨hvalid, fun h => ?_⟩
  obtain ⟨name, hname, heq⟩ :=
    (truthful_step _ hlinked htrue hvalid).mp h (.hostname, "lab-pc") (by decide +kernel)
  have hnew : truthy (some "Lab-PC-2") = some "Lab-PC-2" := rfl
  obtain rfl := Option.some.inj (hnew.symm.trans hname)
  exact absurd heq (by decide +kernel)

end Runs

end Polaris.AssetIndexing
