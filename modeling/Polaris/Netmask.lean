import Polaris.Lib.PrefixBlock
import Polaris.Lib.Text

namespace Polaris.Netmask

open Polaris.Lib Polaris.Lib.Text Polaris.Lib.PrefixBlock

def octets (n : Nat) : List Nat := [n / 2 ^ 24 % 256, n / 2 ^ 16 % 256, n / 2 ^ 8 % 256, n % 256]

/-- Dotted decimal text of the low 32 bits of a number. -/
def dottedQuad (n : Nat) : String := join '.' ((octets n).map (Nat.toDigits 10))

def ofOctets (os : List Nat) : Nat := os.foldl (fun acc o => acc * 256 + o) 0

theorem ofOctets_octets {n : Nat} (h : n < 2 ^ 32) : ofOctets (octets n) = n := by
  simp only [ofOctets, octets, List.foldl_cons, List.foldl_nil]
  omega

theorem split_dottedQuad (n : Nat) :
    split '.' (dottedQuad n) = (octets n).map (Nat.toDigits 10) := by
  refine split_join '.' _ (by simp [octets]) ?_
  intro p hp
  obtain ⟨o, _, rfl⟩ := List.mem_map.mp hp
  exact not_mem_decimal rfl

theorem dottedQuad_ne_empty (n : Nat) : dottedQuad n ≠ "" := by
  intro h
  have hs := split_dottedQuad n
  rw [h] at hs
  have hl := congrArg List.length hs
  simp [octets, split] at hl

/-- An address with a prefix length, as a `Netmask` object holds it. -/
structure Cidr where
  addr : Nat
  bitmask : Nat
  addr_lt : addr < 2 ^ 32
  bitmask_le : bitmask ≤ 32
  deriving DecidableEq

namespace Cidr

def size (c : Cidr) : Nat := 2 ^ (32 - c.bitmask)

def netLong (c : Cidr) : Nat := clear (32 - c.bitmask) c.addr

def base (c : Cidr) : String := dottedQuad c.netLong

def broadcast (c : Cidr) : Option String :=
  if c.bitmask ≤ 30 then some (dottedQuad (c.netLong + c.size - 1)) else none

def addrs (c : Cidr) : Set Nat := block (32 - c.bitmask) c.netLong

theorem netLong_dvd (c : Cidr) : 2 ^ (32 - c.bitmask) ∣ c.netLong := clear_dvd _ _

theorem netLong_lt (c : Cidr) : c.netLong < 2 ^ 32 :=
  (clear_le _ _).trans_lt c.addr_lt

theorem last_lt (c : Cidr) : c.netLong + c.size ≤ 2 ^ 32 :=
  add_le_of_lt c.netLong_dvd (Nat.pow_dvd_pow 2 (Nat.sub_le 32 c.bitmask)) c.netLong_lt

end Cidr

def octal (c : Char) : Bool := '0' ≤ c && c ≤ '7'

/-- One octet: with a leading zero and more digits it is read in base
eight, otherwise in base ten. -/
def readOctet (o : List Char) : Option Nat :=
  if 1 < o.length ∧ o.head? = some '0' then
    if o.all octal then some (Nat.ofDigitChars 8 o 0) else none
  else some (Nat.ofDigitChars 10 o 0)

def readQuad (os : List (List Char)) : Option Nat :=
  match os.mapM readOctet with
  | some ns => if ns.all (· ≤ 255) then some (ofOctets ns) else none
  | none => none

def Digits (o : List Char) : Prop := o ≠ [] ∧ ∀ c ∈ o, c.isDigit = true

/-- What the code relies on of the netmask package: `parse` is the
constructor applied to text, and `ip2long` the reading of an address that
`contains` tests. Only texts of the stated forms are constrained. -/
structure Package where
  parse : String → Option Cidr
  ip2long : String → Option Nat
  parse_quad : ∀ (a p : Nat) (ha : a < 2 ^ 32) (hp : p ≤ 32),
    parse (dottedQuad a ++ "/" ++ toString p) = some ⟨a, p, ha, hp⟩
  ip2long_quad : ∀ os : List (List Char), os.length = 4 → (∀ o ∈ os, Digits o) →
    ip2long (join '.' os) = readQuad os
  ip2long_colon : ∀ s : String, ':' ∈ s.toList → ip2long s = none

theorem digits_decimal (n : Nat) : Digits (Nat.toDigits 10 n) :=
  ⟨Nat.toDigits_ne_nil, fun _ => isDigit_of_mem_decimal⟩

theorem readOctet_decimal (n : Nat) : readOctet (Nat.toDigits 10 n) = some n := by
  have hz : ¬ (1 < (Nat.toDigits 10 n).length ∧ (Nat.toDigits 10 n).head? = some '0') := by
    rintro ⟨hl, hh⟩
    have hn : 10 ^ 1 ≤ n := by
      by_contra h
      have := (Nat.length_toDigits_le_iff (b := 10) (by decide) Nat.one_pos).mpr (Nat.lt_of_not_le h)
      omega
    exact head_toDigits (by omega) hh
  rw [readOctet, if_neg hz, Nat.ofDigitChars_ten_toDigits]

theorem readQuad_octets {n : Nat} (h : n < 2 ^ 32) :
    readQuad ((octets n).map (Nat.toDigits 10)) = some n := by
  have hm : ((octets n).map (Nat.toDigits 10)).mapM readOctet = some (octets n) := by
    simp [octets, readOctet_decimal]
  have hle : (octets n).all (· ≤ 255) = true := by
    simp only [octets, List.all_cons, List.all_nil, Bool.and_true, Bool.and_eq_true,
      decide_eq_true_eq]
    omega
  rw [readQuad, hm]
  simp only [hle, if_true, ofOctets_octets h]

theorem ip2long_dottedQuad (N : Package) {n : Nat} (h : n < 2 ^ 32) :
    N.ip2long (dottedQuad n) = some n := by
  rw [dottedQuad, N.ip2long_quad _ (by simp [octets]), readQuad_octets h]
  intro o ho
  obtain ⟨d, _, rfl⟩ := List.mem_map.mp ho
  exact digits_decimal d

/-- `new Netmask(text).contains(ip)`; nothing when the address does not parse. -/
def contains (N : Package) (c : Cidr) (ip : String) : Option Bool :=
  (N.ip2long ip).map (fun x => clear (32 - c.bitmask) x == c.netLong)

theorem contains_dottedQuad (N : Package) (c : Cidr) {n : Nat} (h : n < 2 ^ 32) :
    contains N c (dottedQuad n) = some true ↔ n ∈ c.addrs := by
  rw [contains, ip2long_dottedQuad N h, Cidr.addrs, mem_block_iff_clear c.netLong_dvd]
  simp

/-- The package as the code calls it: the constructor, and what the code then
asks of a block. -/
structure Reader (Block : Type) where
  parse : String → Option Block
  base : Block → String
  bitmask : Block → Int
  broadcast : Block → Option String
  contains : Block → String → Option Bool

def Package.reader (N : Package) : Reader Cidr where
  parse := N.parse
  base := Cidr.base
  bitmask c := c.bitmask
  broadcast := Cidr.broadcast
  contains := contains N

def readAddr (s : String) : Option Nat :=
  if ':' ∈ s.toList then none
  else if (split '.' s).length = 4 ∧ ∀ o ∈ split '.' s, o ≠ [] ∧ o.all Char.isDigit then
    readQuad (split '.' s)
  else none

def readCidr (s : String) : Option Cidr :=
  match split '/' s with
  | [a, m] =>
    match readAddr (String.ofList a) with
    | some n =>
      if h : n < 2 ^ 32 ∧ m ≠ [] ∧ m.all Char.isDigit ∧ Nat.ofDigitChars 10 m 0 ≤ 32 then
        some ⟨n, Nat.ofDigitChars 10 m 0, h.1, h.2.2.2⟩
      else none
    | none => none
  | _ => none

theorem readAddr_join {os : List (List Char)} (hl : os.length = 4) (hd : ∀ o ∈ os, Digits o) :
    readAddr (join '.' os) = readQuad os := by
  have hs : split '.' (join '.' os) = os := by
    refine split_join '.' os (fun h => by simp [h] at hl) (fun o ho h => ?_)
    simpa using (hd o ho).2 '.' h
  have hc : ':' ∉ (join '.' os).toList :=
    not_mem_join (by decide) (fun o ho h => by simpa using (hd o ho).2 ':' h)
  have hq : ∀ o ∈ os, o ≠ [] ∧ o.all Char.isDigit := fun o ho =>
    ⟨(hd o ho).1, List.all_eq_true.mpr (hd o ho).2⟩
  rw [readAddr, if_neg hc, hs, if_pos ⟨hl, hq⟩]

theorem readAddr_dottedQuad {n : Nat} (h : n < 2 ^ 32) : readAddr (dottedQuad n) = some n := by
  rw [dottedQuad, readAddr_join (by simp [octets]), readQuad_octets h]
  intro o ho
  obtain ⟨d, _, rfl⟩ := List.mem_map.mp ho
  exact digits_decimal d

theorem slash_not_mem_dottedQuad (n : Nat) : '/' ∉ (dottedQuad n).toList := by
  refine not_mem_join (by decide) (fun p hp => ?_)
  obtain ⟨o, _, rfl⟩ := List.mem_map.mp hp
  exact not_mem_decimal rfl

theorem readCidr_quad (a p : Nat) (ha : a < 2 ^ 32) (hp : p ≤ 32) :
    readCidr (dottedQuad a ++ "/" ++ toString p) = some ⟨a, p, ha, hp⟩ := by
  have ht : dottedQuad a ++ "/" ++ toString p =
      join '/' [(dottedQuad a).toList, Nat.toDigits 10 p] := by
    apply String.toList_inj.mp
    simp [join, List.intercalate_cons_cons, Nat.toList_repr]
  have hs : split '/' (join '/' [(dottedQuad a).toList, Nat.toDigits 10 p]) =
      [(dottedQuad a).toList, Nat.toDigits 10 p] := by
    refine split_join '/' _ (by simp) ?_
    intro q hq
    simp only [List.mem_cons, List.not_mem_nil, or_false] at hq
    obtain rfl | rfl := hq
    · exact slash_not_mem_dottedQuad a
    · exact not_mem_decimal rfl
  have hd : (Nat.toDigits 10 p).all Char.isDigit = true :=
    List.all_eq_true.mpr (digits_decimal p).2
  rw [readCidr, ht, hs]
  simp only [String.ofList_toList, readAddr_dottedQuad ha, Nat.ofDigitChars_ten_toDigits]
  rw [dif_pos ⟨ha, Nat.toDigits_ne_nil, hd, hp⟩]

def reference : Package where
  parse := readCidr
  ip2long := readAddr
  parse_quad := readCidr_quad
  ip2long_quad _ := readAddr_join
  ip2long_colon s h := by rw [readAddr, if_pos h]

end Polaris.Netmask
