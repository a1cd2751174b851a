import Polaris.Netmask

namespace Polaris.Cidr

open Polaris.Lib.Text Polaris.Lib.PrefixBlock Polaris.Netmask

/-- What a service call throws: an `AppError` with its status and message,
or any other exception. -/
inductive Failure
  | app (httpStatus : Nat) (message : String)
  | thrown (message : String)
  deriving DecidableEq

def Failure.message : Failure → String
  | .app _ message | .thrown message => message

inductive IpVersion
  | v4
  | v6
  deriving DecidableEq

def intToIp (n : Nat) : String := dottedQuad n

def cidrText (n p : Nat) : String := intToIp n ++ "/" ++ toString p

def ipToInt (ip : String) : Nat :=
  ofOctets ((split '.' ip).map (fun o => Nat.ofDigitChars 10 o 0)) % 2 ^ 32

theorem ipToInt_dottedQuad {n : Nat} (h : n < 2 ^ 32) : ipToInt (dottedQuad n) = n := by
  have hm : ((octets n).map (Nat.toDigits 10)).map (fun o => Nat.ofDigitChars 10 o 0) =
      octets n := by
    simp [octets]
  rw [ipToInt, split_dottedQuad, hm, ofOctets_octets h, Nat.mod_eq_of_lt h]

def detectIpVersion (cidr : String) : IpVersion := if ':' ∈ cidr.toList then .v6 else .v4

def hexDigit (c : Char) : Bool :=
  c.isDigit || ('a' ≤ c && c ≤ 'f') || ('A' ≤ c && c ≤ 'F')

def ipv4Shape (ip : String) : Bool :=
  (split '.' ip).length == 4 &&
    (split '.' ip).all (fun o => 1 ≤ o.length && o.length ≤ 3 && o.all Char.isDigit)

def ipv6Shape (ip : String) : Bool :=
  3 ≤ (split ':' ip).length && (split ':' ip).length ≤ 8 &&
    (split ':' ip).all (fun g => g.length ≤ 4 && g.all hexDigit)

def isValidIpAddress (ip : String) : Bool :=
  if ipv4Shape ip then (split '.' ip).all (fun o => Nat.ofDigitChars 10 o 0 ≤ 255)
  else ipv6Shape ip

namespace Reading

variable {Block : Type} (R : Reader Block)

def normalizeCidr (cidr : String) : Except Failure String :=
  match R.parse cidr with
  | some c => .ok (R.base c ++ "/" ++ toString (R.bitmask c))
  | none => .error (.thrown "Invalid net address")

def handCheck (cidr : String) : Bool :=
  match split '/' cidr with
  | addr :: bits :: _ =>
    match parseInt bits with
    | some n => addr ≠ [] && bits ≠ [] && 0 ≤ n && n ≤ 128
    | none => false
  | _ => false

def isValidCidr (cidr : String) : Bool :=
  if '/' ∉ cidr.toList then false
  else
    match detectIpVersion cidr with
    | .v4 => (R.parse cidr).isSome
    | .v6 => handCheck cidr

/-- A package exception inside the containment test answers `false`, and so
does the missing broadcast of a /31 or /32. -/
def cidrContains (outer inner : String) : Bool :=
  match R.parse outer, R.parse inner with
  | some o, some i =>
    match R.contains o (R.base i), R.broadcast i with
    | some true, some last => (R.contains o last).getD false
    | _, _ => false
  | _, _ => false

def cidrOverlaps (a b : String) : Bool :=
  match R.parse a, R.parse b with
  | some ca, some cb =>
    match R.contains ca (R.base cb) with
    | some inside => inside || (R.contains cb (R.base ca)).getD false
    | none => false
  | _, _ => false

end Reading

section Package

variable (N : Package)

def normalizeCidr (cidr : String) : Except Failure String := Reading.normalizeCidr N.reader cidr

def isValidCidr (cidr : String) : Bool := Reading.isValidCidr N.reader cidr

def cidrContains (outer inner : String) : Bool := Reading.cidrContains N.reader outer inner

def cidrOverlaps (a b : String) : Bool := Reading.cidrOverlaps N.reader a b

def ipInCidr (ip cidr : String) : Bool :=
  match N.parse cidr with
  | some c => (contains N c ip).getD false
  | none => false

variable {N}

theorem parse_cidrText {n p : Nat} (hn : n < 2 ^ 32) (hp : p ≤ 32) :
    N.parse (cidrText n p) = some ⟨n, p, hn, hp⟩ := N.parse_quad n p hn hp

theorem normalizeCidr_of_parse {s : String} {c : Netmask.Cidr} (h : N.parse s = some c) :
    normalizeCidr N s = .ok (cidrText c.netLong c.bitmask) := by
  have hread : N.reader.parse s = some c := h
  rw [normalizeCidr, Reading.normalizeCidr, hread]
  rfl

theorem normalizeCidr_unread {s : String} (h : N.parse s = none) :
    normalizeCidr N s = .error (.thrown "Invalid net address") := by
  have hread : N.reader.parse s = none := h
  rw [normalizeCidr, Reading.normalizeCidr, hread]

section Parsed

variable {a b : String} {ca cb : Netmask.Cidr}

theorem cidrContains_of_parse (ha : N.parse a = some ca) (hb : N.parse b = some cb) :
    cidrContains N a b = match contains N ca cb.base, cb.broadcast with
      | some true, some last => (contains N ca last).getD false
      | _, _ => false := by
  have hreada : N.reader.parse a = some ca := ha
  have hreadb : N.reader.parse b = some cb := hb
  rw [cidrContains, Reading.cidrContains, hreada, hreadb]
  rfl

theorem cidrContains_read (h : cidrContains N a b = true) :
    ∃ o i, N.parse a = some o ∧ N.parse b = some i := by
  rw [cidrContains, Reading.cidrContains] at h
  split at h
  · exact ⟨_, _, by assumption, by assumption⟩
  · cases h

theorem cidrOverlaps_of_parse (ha : N.parse a = some ca) (hb : N.parse b = some cb) :
    cidrOverlaps N a b = match contains N ca cb.base with
      | some inside => inside || (contains N cb ca.base).getD false
      | none => false := by
  have hreada : N.reader.parse a = some ca := ha
  have hreadb : N.reader.parse b = some cb := hb
  rw [cidrOverlaps, Reading.cidrOverlaps, hreada, hreadb]
  rfl

theorem cidrOverlaps_read (h : cidrOverlaps N a b = true) :
    ∃ o i, N.parse a = some o ∧ N.parse b = some i := by
  rw [cidrOverlaps, Reading.cidrOverlaps] at h
  split at h
  · exact ⟨_, _, by assumption, by assumption⟩
  · cases h

theorem cidrContains_subset (h : cidrContains N a b = true) :
    ∃ o i, N.parse a = some o ∧ N.parse b = some i ∧ i.addrs ⊆ o.addrs := by
  obtain ⟨o, i, ho, hi⟩ := cidrContains_read h
  have hsize : 0 < i.size := Nat.two_pow_pos _
  have hlast := i.last_lt
  rw [cidrContains_of_parse ho hi] at h
  simp only [Netmask.Cidr.base, Netmask.Cidr.broadcast] at h
  split at h
  · rename_i last hb hl
    split_ifs at hl with hbits
    cases hl
    have h0 := (contains_dottedQuad N o i.netLong_lt).mp hb
    have h1 : contains N o (dottedQuad (i.netLong + i.size - 1)) = some true := by
      cases hc : contains N o (dottedQuad (i.netLong + i.size - 1)) with
      | none => simp [hc] at h
      | some b => simp [hc] at h; rw [h]
    have h1 := (contains_dottedQuad N o (by omega)).mp h1
    exact ⟨o, i, ho, hi, block_subset_of_ends h0 h1⟩
  · exact absurd h (by simp)

theorem disjoint_of_not_overlaps (ha : N.parse a = some ca) (hb : N.parse b = some cb)
    (h : cidrOverlaps N a b = false) : Disjoint ca.addrs cb.addrs := by
  have hab := contains_dottedQuad N ca cb.netLong_lt
  have hba := contains_dottedQuad N cb ca.netLong_lt
  rw [cidrOverlaps_of_parse ha hb] at h
  simp only [Netmask.Cidr.base, contains, ip2long_dottedQuad N cb.netLong_lt,
    ip2long_dottedQuad N ca.netLong_lt, Option.map_some, Option.getD_some, Bool.or_eq_false_iff,
    Option.some.injEq] at h hab hba
  refine disjoint_of_bases_not_mem ca.netLong_dvd cb.netLong_dvd ?_ ?_
  · exact fun hm => by simp [hba.mpr hm] at h
  · exact fun hm => by simp [hab.mpr hm] at h

theorem overlaps_of_base_mem (ha : N.parse a = some ca) (hb : N.parse b = some cb)
    (h : cb.netLong ∈ ca.addrs) : cidrOverlaps N a b = true := by
  have hab := (contains_dottedQuad N ca cb.netLong_lt).mpr h
  simp only [cidrOverlaps_of_parse ha hb, Netmask.Cidr.base, hab, Bool.true_or]

theorem not_overlaps_of_disjoint (ha : N.parse a = some ca) (hb : N.parse b = some cb)
    (h : Disjoint ca.addrs cb.addrs) : cidrOverlaps N a b = false := by
  have hab := contains_dottedQuad N ca cb.netLong_lt
  have hba := contains_dottedQuad N cb ca.netLong_lt
  have hca : ca.netLong ∈ ca.addrs := base_mem_block _ _
  have hcb : cb.netLong ∈ cb.addrs := base_mem_block _ _
  rw [Set.disjoint_left] at h
  rw [cidrOverlaps_of_parse ha hb]
  simp only [Netmask.Cidr.base, contains, ip2long_dottedQuad N cb.netLong_lt,
    ip2long_dottedQuad N ca.netLong_lt, Option.map_some, Option.getD_some, Bool.or_eq_false_iff,
    Option.some.injEq] at hab hba ⊢
  refine ⟨?_, ?_⟩
  · exact Bool.eq_false_iff.mpr fun hc => h (hab.mp hc) hcb
  · exact Bool.eq_false_iff.mpr fun hc => h hca (hba.mp hc)

end Parsed

theorem cidrText_mod (n p : Nat) : cidrText (n % 2 ^ 32) p = cidrText n p := by
  have ho : octets (n % 2 ^ 32) = octets n := by
    simp only [octets, List.cons.injEq, and_true]
    omega
  rw [cidrText, intToIp, dottedQuad, ho]
  rfl

theorem cidrText_inj {m n p : Nat} (hm : m < 2 ^ 32) (hn : n < 2 ^ 32) (hp : p ≤ 32)
    (h : cidrText m p = cidrText n p) : m = n := by
  have hparse := parse_cidrText (N := reference) hm hp
  rw [h, parse_cidrText hn hp] at hparse
  cases hparse
  rfl

theorem normalizeCidr_cidrText (n : Nat) {p : Nat} (hp : p ≤ 32) :
    ∃ t, normalizeCidr N (cidrText n p) = .ok t ∧ (t = cidrText n p ↔ 2 ^ (32 - p) ∣ n) := by
  have hlt : n % 2 ^ 32 < 2 ^ 32 := Nat.mod_lt _ (by decide)
  have hparse := parse_cidrText (N := N) hlt hp
  rw [cidrText_mod] at hparse
  refine ⟨_, normalizeCidr_of_parse hparse, ?_⟩
  have hdvd : 2 ^ (32 - p) ∣ n % 2 ^ 32 ↔ 2 ^ (32 - p) ∣ n :=
    (Nat.dvd_mod_iff (Nat.pow_dvd_pow 2 (Nat.sub_le 32 p)))
  rw [← cidrText_mod n, ← hdvd]
  constructor
  · intro h
    have hnet := (⟨n % 2 ^ 32, p, hlt, hp⟩ : Netmask.Cidr).netLong_lt
    rw [← cidrText_inj hnet hlt hp h]
    exact Netmask.Cidr.netLong_dvd _
  · intro h
    exact congrArg (cidrText · p) (clear_of_dvd h)

end Package

end Polaris.Cidr
