import Polaris.ReservationService
import Polaris.Lib.Runs

namespace Polaris.ReservationAddresses

open Polaris.Lib.Text Polaris.Lib.Store Polaris.Lib.Runs Polaris.Netmask
  Polaris.Cidr Polaris.CidrEnumeration Polaris.ReservationPush Polaris.Reservations
  Polaris.DnsResolved Polaris.ReservationService

section Spelling

/-- No octet has a superfluous leading zero, which the netmask package would
take for an octal number. -/
def PlainOctets (ip : String) : Prop :=
  ∀ o ∈ split '.' ip, ¬ (1 < o.length ∧ o.head? = some '0')

instance (ip : String) : Decidable (PlainOctets ip) :=
  inferInstanceAs (Decidable (∀ o ∈ split '.' ip, _))

/-- The text every reader of addresses agrees on. -/
def Canonical (ip : String) : Prop := ∃ n < 2 ^ 32, ip = dottedQuad n

theorem octets_ofOctets {a b c d : Nat} (ha : a ≤ 255) (hb : b ≤ 255) (hc : c ≤ 255) (hd : d ≤ 255) :
    octets (ofOctets [a, b, c, d]) = [a, b, c, d] ∧ ofOctets [a, b, c, d] < 2 ^ 32 := by
  simp only [octets, ofOctets, List.foldl_cons, List.foldl_nil, List.cons.injEq, and_true]
  omega

theorem canonical_of_octets {os : List (List Char)} {ns : List Nat} (hl : ns.length = 4)
    (hos : os = ns.map (Nat.toDigits 10)) (hns : ∀ n ∈ ns, n ≤ 255) :
    Canonical (join '.' os) := by
  match ns, hl with
  | [a, b, c, d], _ =>
    simp only [List.mem_cons, List.not_mem_nil, or_false, forall_eq_or_imp, forall_eq] at hns
    obtain ⟨ho, hlt⟩ := octets_ofOctets hns.1 hns.2.1 hns.2.2.1 hns.2.2.2
    exact ⟨_, hlt, by rw [dottedQuad, ho, hos]⟩

theorem canonical_of_shape {ip : String} (hs : ipv4Shape ip = true)
    (hv : (split '.' ip).all (fun o => Nat.ofDigitChars 10 o 0 ≤ 255) = true)
    (hp : PlainOctets ip) : Canonical ip := by
  simp only [ipv4Shape, Bool.and_eq_true, beq_iff_eq, List.all_eq_true, decide_eq_true_eq] at hs
  simp only [List.all_eq_true, decide_eq_true_eq] at hv
  have hdigits : split '.' ip =
      ((split '.' ip).map fun o => Nat.ofDigitChars 10 o 0).map (Nat.toDigits 10) := by
    rw [List.map_map]
    conv_lhs => rw [← List.map_id (split '.' ip)]
    refine List.map_congr_left (fun o ho => ?_)
    obtain ⟨⟨hne, -⟩, hd⟩ := hs.2 o ho
    change o = Nat.toDigits 10 (Nat.ofDigitChars 10 o 0)
    refine eq_toDigits (List.ne_nil_of_length_pos hne) hd ?_
    have := hp o ho
    by_cases hlen : 1 < o.length
    · exact .inr fun hh => this ⟨hlen, hh⟩
    · exact .inl (by omega)
  rw [← join_split '.' ip]
  refine canonical_of_octets (by simpa using hs.1) hdigits ?_
  intro n hn
  obtain ⟨o, ho, rfl⟩ := List.mem_map.mp hn
  exact hv o ho

theorem colon_of_ipv6Shape {ip : String} (h : ipv6Shape ip = true) : ':' ∈ ip.toList := by
  by_contra hc
  have hs : split ':' ip = [ip.toList] := List.splitOn_eq_singleton hc
  simp [ipv6Shape, hs] at h

variable {N : Package}

theorem canonical_of_accepted {ip cidr : String} (hv : isValidIpAddress ip = true)
    (hc : ipInCidr N ip cidr = true) (hp : PlainOctets ip) : Canonical ip := by
  unfold isValidIpAddress at hv
  split_ifs at hv with hs
  · exact canonical_of_shape hs hv hp
  · have hnone := N.ip2long_colon ip (colon_of_ipv6Shape hv)
    unfold ipInCidr at hc
    split at hc
    · simp [contains, hnone] at hc
    · cases hc

end Spelling

/-- The address a row stands for, as the containment test reads it. -/
def addressOf (N : Package) (r : Reservation) : Option Nat := (truthy r.ipAddress).bind N.ip2long

def ActiveIn (sid : String) (r : Row Reservation) : Prop :=
  r.data.subnetId = sid ∧ r.data.status = .active

/-- No two active rows of a subnet stand for one address. -/
def Distinct (N : Package) (sid : String) (db : Db) : Prop :=
  ∀ a ∈ db.rows, ∀ b ∈ db.rows, ActiveIn sid a → ActiveIn sid b → ∀ x,
    addressOf N a.data = some x → addressOf N b.data = some x → a = b

/-- Active rows of the subnet have canonical addresses. -/
def Plain (sid : String) (r : Row Reservation) : Prop :=
  ActiveIn sid r → ∀ ip, truthy r.data.ipAddress = some ip → Canonical ip

section Invariant

variable {N : Package} {sid : String}

theorem eq_of_addressOf {a b : Reservation} {x : Nat}
    (ha : ∀ ip, truthy a.ipAddress = some ip → Canonical ip)
    (hb : ∀ ip, truthy b.ipAddress = some ip → Canonical ip)
    (hax : addressOf N a = some x) (hbx : addressOf N b = some x) :
    ∃ ip, a.ipAddress = some ip ∧ b.ipAddress = some ip := by
  obtain ⟨s, hs, hsx⟩ := Option.bind_eq_some_iff.mp hax
  obtain ⟨t, ht, htx⟩ := Option.bind_eq_some_iff.mp hbx
  obtain ⟨m, hm, rfl⟩ := ha s hs
  obtain ⟨n, hn, rfl⟩ := hb t ht
  rw [ip2long_dottedQuad N hm] at hsx
  rw [ip2long_dottedQuad N hn] at htx
  cases hsx
  cases htx
  exact ⟨_, (truthy_some hs).1, (truthy_some ht).1⟩

theorem distinct_of_plain {db : Db} (h : ∀ r ∈ db.rows, Plain sid r) : Distinct N sid db := by
  intro a ha b hb hact hbct x hax hbx
  obtain ⟨ip, hip, hip'⟩ := eq_of_addressOf (h a ha hact) (h b hb hbct) hax hbx
  have hka : uniqueKey a.data = some (sid, ip, .active) := by
    simp [uniqueKey, hip, hact.1, hact.2]
  have hkb : uniqueKey b.data = some (sid, ip, .active) := by
    simp [uniqueKey, hip', hbct.1, hbct.2]
  exact Table.eq_of_key ha hb (hka.trans hkb.symm) (by simp [hka])

theorem kept_plain : Kept (Plain sid) where
  markReleased := fun _ _ _ h => by simp [markReleased, ActiveIn] at h
  stampPushed := fun _ _ _ _ _ h => h
  stampQueued := fun _ _ _ _ _ _ _ h => h
  stampReleased := fun _ _ _ h => by simp [stampReleased, ActiveIn] at h

theorem plain_new {db : Db} {input : CreateReservationInput} {c : Subnet × Option PushTarget} {id : Nat}
    (h : checkCreate N db input = .ok c)
    (hp : input.subnetId = sid → ∀ ip, truthy input.ipAddress = some ip → PlainOctets ip) :
    Plain sid ⟨id, newReservation input⟩ := by
  intro hact ip hip
  obtain ⟨hv, hc, -⟩ := checkAddress_ok (checkCreate_ok h).2.1 hip
  exact canonical_of_accepted hv hc (hp hact.1 ip hip)

theorem plainOctets_of_canonical {ip : String} (h : Canonical ip) : PlainOctets ip := by
  obtain ⟨n, -, rfl⟩ := h
  intro o ho
  rw [split_dottedQuad] at ho
  obtain ⟨d, -, rfl⟩ := List.mem_map.mp ho
  rintro ⟨hl, hh⟩
  have hd : 10 ^ 1 ≤ d := by
    by_contra h
    have := (Nat.length_toDigits_le_iff (b := 10) (by decide) Nat.one_pos).mpr (Nat.lt_of_not_le h)
    omega
  exact head_toDigits (by omega) hh

end Invariant

section Runs

variable (N : Package)

inductive Call
  | create (input : CreateReservationInput) (now : Nat) (faults : PushFaults)
  | nextAvailable (input : CreateReservationInput) (now : Nat) (faults : PushFaults)
  | release (id : Nat) (faults : ReleaseFaults)

def run (w : World) : Call → World
  | .create input now faults => (createReservation N w input now faults).1
  | .nextAvailable input now faults => (nextAvailableReservation N w input now faults).1
  | .release id faults => (releaseReservation w id faults).1

/-- The address of a create on the subnet is spelled without leading zeros. -/
def Spelled (sid : String) (_ : World) : Call → Prop
  | .create input _ _ => input.subnetId = sid → ∀ ip, truthy input.ipAddress = some ip → PlainOctets ip
  | .nextAvailable _ _ _ | .release _ _ => True

variable {N} {sid : String} {w : World}

theorem findFree_some {cidr : String} {reserved : List String} {fuel page : Nat} {ip : String}
    (h : findFree N cidr reserved fuel page = .ok (some ip)) : Canonical ip ∧ ip ∉ reserved := by
  induction fuel generalizing page with
  | zero => cases h
  | succ fuel ih =>
    obtain ⟨⟨addresses, total⟩, he, h⟩ := Polaris.Lib.Checks.bind_ok h
    dsimp only at h
    split at h
    · rename_i a ha
      cases h
      obtain ⟨n, hn, hq⟩ := enumerateSubnetIps_canonical he a (List.mem_of_find?_eq_some ha)
      have := List.find?_some ha
      simp only [Bool.and_eq_true, decide_eq_true_eq] at this
      exact ⟨⟨n, hn, hq⟩, this.2⟩
    · split_ifs at h
      · cases h
      · exact ih h

theorem selectAddress_ok {db : Db} {ip : String} (h : selectAddress N db sid = .ok ip) :
    Canonical ip ∧ ip ∉ reservedIps db sid := by
  obtain ⟨subnet, -, h⟩ := Polaris.Lib.Checks.bind_ok h
  split_ifs at h
  · cases h
  · obtain ⟨found, hf, h⟩ := Polaris.Lib.Checks.bind_ok h
    cases found with
    | none => cases h
    | some a =>
      cases h
      exact findFree_some hf

theorem plain_create {input : CreateReservationInput} {now : Nat} {faults : PushFaults}
    (h : ∀ r ∈ w.db.rows, Plain sid r)
    (hp : input.subnetId = sid → ∀ ip, truthy input.ipAddress = some ip → PlainOctets ip) :
    ∀ r ∈ (createReservation N w input now faults).1.db.rows, Plain sid r :=
  forall_createReservation kept_plain h (fun _ hc _ => plain_new hc hp)

theorem plain_run {c : Call} (h : ∀ r ∈ w.db.rows, Plain sid r) (hc : Spelled sid w c) :
    ∀ r ∈ (run N w c).db.rows, Plain sid r := by
  cases c with
  | create input now faults => exact plain_create h hc
  | nextAvailable input now faults =>
    simp only [run, nextAvailableReservation]
    cases hs : selectAddress N w.db input.subnetId with
    | error e => exact h
    | ok ip =>
      refine plain_create h (fun _ a ha => ?_)
      cases (truthy_some ha).1
      exact plainOctets_of_canonical (selectAddress_ok hs).1
  | release id faults => exact forall_releaseReservation kept_plain h

theorem nextAvailable_free {input : CreateReservationInput} {now : Nat} {faults : PushFaults}
    {row : Row Reservation} (h : ∀ r ∈ w.db.rows, Plain input.subnetId r)
    (hok : (nextAvailableReservation N w input now faults).2 = .ok row) :
    ∃ x, addressOf N row.data = some x ∧
      ∀ r ∈ w.db.rows, ActiveIn input.subnetId r → addressOf N r.data ≠ some x := by
  unfold nextAvailableReservation at hok
  cases hs : selectAddress N w.db input.subnetId with
  | error e => simp [hs] at hok
  | ok ip =>
    obtain ⟨⟨n, hn, rfl⟩, hfree⟩ := selectAddress_ok hs
    have hrow : row.data.ipAddress = some (dottedQuad n) := by
      simp only [hs] at hok
      refine createReservation_ok (P := fun r => r.data.ipAddress = some (dottedQuad n))
        ?_ (fun _ => rfl) hok
      exact ⟨fun _ _ h => h, fun _ _ _ _ _ h => h, fun _ _ _ _ _ _ _ h => h, fun _ _ h => h⟩
    have htrue : truthy (some (dottedQuad n)) = some (dottedQuad n) := by
      simp [truthy, dottedQuad_ne_empty]
    refine ⟨n, by simp [addressOf, hrow, htrue, ip2long_dottedQuad N hn], fun r hr hact hx => hfree ?_⟩
    obtain ⟨s, hs, hsx⟩ := Option.bind_eq_some_iff.mp hx
    obtain ⟨m, hm, rfl⟩ := h r hr hact s hs
    rw [ip2long_dottedQuad N hm] at hsx
    cases hsx
    refine List.mem_filterMap.mpr ⟨r, List.mem_filter.mpr ⟨hr, ?_⟩, hs⟩
    simp [hact.1, hact.2]

/-- From a subnet without reservations, whatever is created, handed out and
released, as long as creates on it spell addresses without leading zeros. -/
theorem addresses_stay_distinct (N : Package) (sid : String) (w : World) (calls : List Call)
    (hw : ∀ r ∈ w.db.rows, r.data.subnetId ≠ sid) (hcalls : Along (run N) (Spelled sid) w calls) :
    Distinct N sid (calls.foldl (run N) w).db ∧
      ∀ input now faults row, input.subnetId = sid →
        (nextAvailableReservation N (calls.foldl (run N) w) input now faults).2 = .ok row →
        ∃ x, addressOf N row.data = some x ∧
          ∀ r ∈ (calls.foldl (run N) w).db.rows, ActiveIn sid r → addressOf N r.data ≠ some x := by
  have hplain : ∀ r ∈ (calls.foldl (run N) w).db.rows, Plain sid r :=
    foldl_invariant (I := fun w => ∀ r ∈ w.db.rows, Plain sid r)
      (fun _ _ h hc => plain_run h hc) (fun r hr hact => absurd hact.1 (hw r hr)) hcalls
  refine ⟨distinct_of_plain hplain, fun input now faults row hsid hok => ?_⟩
  subst hsid
  exact nextAvailable_free hplain hok

def reserve (ip : String) : Call := .create { subnetId := "lan", ipAddress := some ip } 0 {}

theorem addresses_stay_distinct_office :
    let w := ([reserve "10.0.0.8", reserve "10.0.0.9", .release 0 {}, reserve "10.0.0.8"]).foldl
      (run reference) office
    Distinct reference "lan" w.db ∧ w.db.rows.length = 3 := by
  refine ⟨(addresses_stay_distinct reference "lan" office _ (by decide) ?_).1, by decide +kernel⟩
  refine ⟨?_, ?_, trivial, ?_, trivial⟩ <;>
  · intro _ ip hip
    cases (truthy_some hip).1
    decide

/-- The second text passes the checks and is read as the first address. -/
theorem octal_octet_shares_address :
    ¬ Distinct reference "lan"
      ([reserve "10.0.0.8", reserve "10.0.0.010"].foldl (run reference) office).db := by
  intro h
  have hrows : ([reserve "10.0.0.8", reserve "10.0.0.010"].foldl (run reference) office).db.rows =
      [⟨0, { subnetId := "lan", ipAddress := some "10.0.0.8" }⟩,
        ⟨1, { subnetId := "lan", ipAddress := some "10.0.0.010" }⟩] := by
    decide +kernel
  have heq := h ⟨0, { subnetId := "lan", ipAddress := some "10.0.0.8" }⟩ (by rw [hrows]; simp)
    ⟨1, { subnetId := "lan", ipAddress := some "10.0.0.010" }⟩ (by rw [hrows]; simp)
    ⟨rfl, rfl⟩ ⟨rfl, rfl⟩ 167772168 (by decide +kernel) (by decide +kernel)
  cases heq

end Runs

end Polaris.ReservationAddresses
