import Polaris.PtrNames
import Polaris.SubnetService

namespace Polaris.CidrValidation

open Polaris.Lib.Text Polaris.Lib.PrefixBlock Polaris.Lib.Digits Polaris.Netmask
open Polaris.Cidr (Failure IpVersion detectIpVersion hexDigit)
open Polaris.Cidr.Reading (normalizeCidr handCheck isValidCidr)
open Polaris.PtrNames (hexValue)
open Polaris.SubnetService (Db IpBlock CreateSubnetInput)
open Polaris.SubnetService.Reading (admitCidr checkBlock checkSiblings createSubnet)

section Package

def width : IpVersion → Nat
  | .v4 => 32
  | .v6 => 128

/-- An address of either version with its prefix length, as the constructor
takes them. A negative length, which only version 4 takes, is a mask of no
bits. -/
structure Block where
  ipVersion : IpVersion
  addr : Nat
  bitmask : Int
  addr_lt : addr < 2 ^ width ipVersion
  bitmask_le : bitmask ≤ width ipVersion
  bitmask_nonneg : ipVersion = .v6 → 0 ≤ bitmask
  deriving DecidableEq

namespace Block

def hostBits (b : Block) : Nat := (width b.ipVersion - b.bitmask).toNat

def netLong (b : Block) : Nat := clear b.hostBits b.addr

theorem netLong_lt (b : Block) : b.netLong < 2 ^ width b.ipVersion := (clear_le _ _).trans_lt b.addr_lt

def net (b : Block) : Block := { b with addr := b.netLong, addr_lt := b.netLong_lt }

theorem net_dvd (b : Block) : 2 ^ b.net.hostBits ∣ b.net.addr := clear_dvd _ _

theorem netLong_of_dvd {b : Block} (h : 2 ^ b.hostBits ∣ b.addr) : b.netLong = b.addr := clear_of_dvd h

end Block

def addrText (v6Text : Nat → String) : IpVersion → Nat → String
  | .v4 => dottedQuad
  | .v6 => v6Text

def blockText (v6Text : Nat → String) (b : Block) : String :=
  addrText v6Text b.ipVersion b.addr ++ "/" ++ toString b.bitmask

/-- What the code relies on of the netmask package, which reads addresses of
both versions: the text of a block is read as this block. How it writes an
address of version 6 is left open but for the colon. -/
structure Package where
  parse : String → Option Block
  contains : Block → String → Option Bool
  broadcast : Block → Option String
  v6Text : Nat → String
  parse_text : ∀ b : Block, parse (blockText v6Text b) = some b
  colon_mem_v6Text : ∀ n < 2 ^ 128, ':' ∈ (v6Text n).toList
  slash_not_mem_v6Text : ∀ n < 2 ^ 128, '/' ∉ (v6Text n).toList

namespace Package

variable (P : Package)

def base (b : Block) : String := addrText P.v6Text b.ipVersion b.netLong

def reader : Reader Block := ⟨P.parse, P.base, Block.bitmask, P.broadcast, P.contains⟩

def text (b : Block) : String := blockText P.v6Text b

end Package

end Package

section Blocks

structure BlockRow where
  name : String
  cidr : String
  ipVersion : IpVersion
  description : Option String
  tags : List String
  deriving DecidableEq

structure CreateBlockInput where
  name : String
  cidr : String
  description : Option String := none
  tags : Option (List String) := none

def CreateBlockInput.row (input : CreateBlockInput) (normalizedCidr : String) : BlockRow :=
  ⟨input.name, normalizedCidr, detectIpVersion normalizedCidr, input.description, input.tags.getD []⟩

def createBlock (P : Package) (rows : List BlockRow) (input : CreateBlockInput) :
    Except Failure (List BlockRow) := do
  let normalizedCidr ← admitCidr P.reader input.cidr
  if rows.any (·.cidr = normalizedCidr) then
    .error (.app 409 s!"IP Block with CIDR {normalizedCidr} already exists")
  else return rows ++ [input.row normalizedCidr]

end Blocks

section Protection

variable (P : Package)

/-- A network text whose bits behind the prefix are all zero. -/
def HostBitsZero (s : String) : Prop := ∃ b : Block, s = P.text b ∧ 2 ^ b.hostBits ∣ b.addr

def Malformed (cidr : String) : Prop := '/' ∉ cidr.toList ∨ P.parse cidr = none

def NoRawException {α : Type} (result : Except Failure α) : Prop :=
  ∀ message, result ≠ .error (.thrown message)

/-- Refused when malformed, and never with an exception of the package. -/
def Rejects {α : Type} (cidr : String) (result : Except Failure α) : Prop :=
  (Malformed P cidr → ∃ message, result = .error (.app 400 message)) ∧ NoRawException result

structure Protected (cidr : String) : Prop where
  normal : isValidCidr P.reader cidr = true → ∃ r, normalizeCidr P.reader cidr = .ok r ∧
    isValidCidr P.reader r = true ∧ normalizeCidr P.reader r = .ok r ∧ HostBitsZero P r
  createBlock : ∀ rows (input : CreateBlockInput), input.cidr = cidr →
    Rejects P cidr (createBlock P rows input)
  createSubnet : ∀ db (input : CreateSubnetInput), input.cidr = cidr →
    Rejects P cidr (createSubnet P.reader db input)

variable {P} {cidr : String} {b : Block}

theorem colon_not_mem_dottedQuad (n : Nat) : ':' ∉ (dottedQuad n).toList := by
  refine not_mem_join (by decide) fun p hp => ?_
  obtain ⟨o, -, rfl⟩ := List.mem_map.mp hp
  exact not_mem_decimal rfl

theorem slash_not_mem_addrText {f : Nat → String} {v : IpVersion} {n : Nat}
    (hf : ∀ n < 2 ^ 128, '/' ∉ (f n).toList)
    (h : n < 2 ^ width v) : '/' ∉ (addrText f v n).toList := by
  cases v with
  | v4 => exact slash_not_mem_dottedQuad n
  | v6 => exact hf n h

theorem text_version (b : Block) : detectIpVersion (P.text b) = b.ipVersion := by
  obtain ⟨_ | _, addr, bitmask, haddr, -, -⟩ := b
  · refine if_neg ?_
    simp [Package.text, blockText, addrText, String.toList_append, colon_not_mem_dottedQuad,
      not_mem_repr (c := ':') rfl (by decide)]
  · refine if_pos ?_
    simp [Package.text, blockText, addrText, String.toList_append, P.colon_mem_v6Text addr haddr]

theorem slash_mem_text (b : Block) : '/' ∈ (P.text b).toList := by simp [Package.text, blockText]

/-- The address and the prefix length are the two parts of the text. -/
theorem split_blockText {f : Nat → String} (h : ∀ n < 2 ^ 128, '/' ∉ (f n).toList) (b : Block) :
    split '/' (blockText f b) = [(addrText f b.ipVersion b.addr).toList, b.bitmask.repr.toList] := by
  have ht : blockText f b = join '/' [(addrText f b.ipVersion b.addr).toList, b.bitmask.repr.toList] := by
    apply String.toList_inj.mp
    simp [blockText, join, List.intercalate_cons_cons]
  rw [ht]
  refine split_join '/' _ (by simp) fun q hq => ?_
  simp only [List.mem_cons, List.not_mem_nil, or_false] at hq
  obtain rfl | rfl := hq
  · exact slash_not_mem_addrText h b.addr_lt
  · exact not_mem_repr rfl (by decide) b.bitmask

theorem handCheck_text (b : Block) (h : b.ipVersion = .v6) : handCheck (P.text b) = true := by
  have haddr : b.addr < 2 ^ 128 := by
    have := b.addr_lt
    rwa [h] at this
  have hne : P.v6Text b.addr ≠ "" := by
    intro he
    have hc := P.colon_mem_v6Text b.addr haddr
    rw [he] at hc
    exact absurd hc (by simp)
  have hbits : b.bitmask.repr ≠ "" := by
    intro he
    have hp := parseInt_repr b.bitmask
    rw [he] at hp
    exact absurd hp (by simp [parseInt])
  have hle : b.bitmask ≤ 128 := by
    have := b.bitmask_le
    rwa [h] at this
  rw [handCheck, Package.text, split_blockText P.slash_not_mem_v6Text, h]
  simp [addrText, parseInt_repr, hne, hbits, hle, b.bitmask_nonneg h]

theorem isValidCidr_text (b : Block) : isValidCidr P.reader (P.text b) = true := by
  rw [isValidCidr, if_neg (not_not.mpr (slash_mem_text b)), text_version]
  cases h : b.ipVersion with
  | v4 => exact congrArg Option.isSome (P.parse_text b)
  | v6 => exact handCheck_text b h

theorem normalizeCidr_of_parse (h : P.parse cidr = some b) :
    normalizeCidr P.reader cidr = .ok (P.text b.net) := by
  have hread : P.reader.parse cidr = some b := h
  rw [normalizeCidr, hread]
  rfl

theorem normalizeCidr_aligned (h : 2 ^ b.hostBits ∣ b.addr) :
    normalizeCidr P.reader (P.text b) = .ok (P.text b) := by
  have hnet : b.net = b := by
    obtain ⟨v, addr, bitmask, h₁, h₂, h₃⟩ := b
    simp only [Block.net, Block.netLong_of_dvd h]
  have hparse : P.parse (P.text b) = some b := P.parse_text b
  rw [normalizeCidr_of_parse hparse, hnet]

theorem normal_of_parse (h : P.parse cidr = some b) :
    ∃ r, normalizeCidr P.reader cidr = .ok r ∧ isValidCidr P.reader r = true ∧
      normalizeCidr P.reader r = .ok r ∧
      HostBitsZero P r :=
  ⟨P.text b.net, normalizeCidr_of_parse h, isValidCidr_text b.net, normalizeCidr_aligned b.net_dvd,
    b.net, rfl, b.net_dvd⟩

theorem normalizeCidr_thrown (h : P.parse cidr = none) :
    normalizeCidr P.reader cidr = .error (.thrown "Invalid net address") := by
  have hread : P.reader.parse cidr = none := h
  rw [normalizeCidr, hread]

theorem not_isValidCidr_of_slash (h : '/' ∉ cidr.toList) : isValidCidr P.reader cidr = false := if_pos h

theorem isValidCidr_of_v4 (hs : '/' ∈ cidr.toList) (hc : ':' ∉ cidr.toList) :
    isValidCidr P.reader cidr = (P.parse cidr).isSome := by
  rw [isValidCidr, if_neg (not_not.mpr hs), detectIpVersion, if_neg hc]
  rfl

theorem isValidCidr_of_v6 (hs : '/' ∈ cidr.toList) (hc : ':' ∈ cidr.toList) :
    isValidCidr P.reader cidr = handCheck cidr := by
  rw [isValidCidr, if_neg (not_not.mpr hs), detectIpVersion, if_pos hc]

theorem slash_of_handCheck (h : handCheck cidr = true) : '/' ∈ cidr.toList := by
  by_contra hs
  rw [handCheck, split, List.splitOn_eq_singleton hs] at h
  exact Bool.false_ne_true h

/-- What is valid the package reads. -/
def Sound (cidr : String) : Prop := isValidCidr P.reader cidr = true → (P.parse cidr).isSome = true

variable (P cidr) in
/-- The hand check does not decide, or it takes what the package reads. -/
def Settled : Prop := ':' ∈ cidr.toList → handCheck cidr = true → (P.parse cidr).isSome = true

theorem sound_iff : Sound (P := P) cidr ↔ Settled P cidr := by
  constructor
  · intro h hc hh
    exact h (by rw [isValidCidr_of_v6 (slash_of_handCheck hh) hc, hh])
  · intro h hv
    have hs : '/' ∈ cidr.toList := by
      by_contra hs
      rw [not_isValidCidr_of_slash hs] at hv
      exact Bool.false_ne_true hv
    by_cases hc : ':' ∈ cidr.toList
    · rw [isValidCidr_of_v6 hs hc] at hv
      exact h hc hv
    · rwa [isValidCidr_of_v4 hs hc] at hv

theorem admitCidr_rejects (h : Sound (P := P) cidr) : Rejects P cidr (admitCidr P.reader cidr) := by
  rw [admitCidr]
  by_cases hv : isValidCidr P.reader cidr = true
  · obtain ⟨b, hb⟩ := Option.isSome_iff_exists.mp (h hv)
    rw [if_pos hv, normalizeCidr_of_parse hb]
    refine ⟨fun hm => ?_, fun _ he => by cases he⟩
    obtain hs | hp := hm
    · rw [not_isValidCidr_of_slash hs] at hv
      exact absurd hv Bool.false_ne_true
    · rw [hb] at hp
      cases hp
  · rw [if_neg hv]
    exact ⟨fun _ => ⟨_, rfl⟩, fun _ he => by cases he⟩

theorem admitCidr_thrown (h : ¬ Sound (P := P) cidr) :
    admitCidr P.reader cidr = .error (.thrown "Invalid net address") := by
  rw [Sound, Classical.not_imp, Bool.not_eq_true, Option.isSome_eq_false_iff, Option.isNone_iff_eq_none] at h
  rw [admitCidr, if_pos h.1, normalizeCidr_thrown h.2]

section Results

variable {α β : Type} {x : Except Failure α} {f : α → Except Failure β}

theorem noRawException_ok (a : α) : NoRawException (.ok a : Except Failure α) := fun _ he => by cases he

theorem noRawException_app (status : Nat) (text : String) :
    NoRawException (.error (.app status text) : Except Failure α) := fun _ he => by cases he

theorem NoRawException.bind (h : NoRawException x) (hf : ∀ a, NoRawException (f a)) :
    NoRawException (x >>= f) := by
  cases x with
  | ok a => exact hf a
  | error e => exact fun message he => h message (by cases he; rfl)

theorem Rejects.bind (h : Rejects P cidr x) (hf : ∀ a, NoRawException (f a)) : Rejects P cidr (x >>= f) := by
  refine ⟨fun hm => ?_, h.2.bind hf⟩
  obtain ⟨message, hx⟩ := h.1 hm
  exact ⟨message, by rw [hx]; rfl⟩

end Results

theorem noRawException_findBlock (db : Db) (id : String) : NoRawException (db.findBlock id) := by
  rw [Db.findBlock]
  split
  · exact noRawException_ok _
  · exact noRawException_app _ _

theorem noRawException_checkBlock (block : IpBlock) (s : String) :
    NoRawException (checkBlock P.reader block s) := by
  rw [checkBlock]
  split
  · exact noRawException_app _ _
  split
  · exact noRawException_app _ _
  · exact noRawException_ok _

theorem noRawException_checkSiblings (siblings : List String) (s : String) :
    NoRawException (checkSiblings P.reader siblings s) := by
  rw [checkSiblings]
  split
  · exact noRawException_app _ _
  · exact noRawException_ok _

theorem createBlock_rejects (h : Sound (P := P) cidr) (rows : List BlockRow) {input : CreateBlockInput}
    (hi : input.cidr = cidr) : Rejects P cidr (createBlock P rows input) := by
  rw [createBlock, hi]
  refine (admitCidr_rejects h).bind fun s => ?_
  split
  · exact noRawException_app _ _
  · exact noRawException_ok _

theorem createSubnet_rejects (h : Sound (P := P) cidr) (db : Db) {input : CreateSubnetInput}
    (hi : input.cidr = cidr) : Rejects P cidr (createSubnet P.reader db input) := by
  rw [createSubnet, hi]
  refine (admitCidr_rejects h).bind fun s => (noRawException_findBlock db _).bind fun block => ?_
  exact (noRawException_checkBlock block s).bind fun _ =>
    (noRawException_checkSiblings _ s).bind fun _ => noRawException_ok _

theorem createBlock_thrown (h : ¬ Sound (P := P) cidr) (rows : List BlockRow) {input : CreateBlockInput}
    (hi : input.cidr = cidr) : createBlock P rows input = .error (.thrown "Invalid net address") := by
  rw [createBlock, hi, admitCidr_thrown h]
  rfl

end Protection

section Validation

variable (P : Package) (cidr : String)

end Validation

section Example

/-- The eight groups of an address of version 6. -/
def groups (n : Nat) : List Nat := (places (2 ^ 16) 8 n).reverse

def hexText (g : Nat) : List Char := Nat.toDigits 16 g

/-- Two colons in a row stand for two or more groups of zero at the end. -/
def pieces (n : Nat) : List (List Char) :=
  let lead := ((places (2 ^ 16) 8 n).dropWhile (· = 0)).reverse
  if 6 < lead.length then (groups n).map hexText
  else (if lead = [] then [[]] else lead.map hexText) ++ [[], []]

def writeV6 (n : Nat) : String := join ':' (pieces n)

def readGroup (g : List Char) : Option Nat :=
  if g ≠ [] ∧ g.length ≤ 4 ∧ g.all hexDigit then some (Nat.ofDigits 16 (g.reverse.map hexValue)) else none

/-- An empty piece at the outside of two colons. -/
def trimPiece : List (List Char) → List (List Char)
  | [] :: [] :: ps => [] :: ps
  | ps => ps

def readGroups (ps : List (List Char)) : Option (List Nat) :=
  let ps := (trimPiece (trimPiece ps).reverse).reverse
  match (ps.takeWhile (· ≠ [])).mapM readGroup, (ps.dropWhile (· ≠ [])).tail.mapM readGroup with
  | some left, some right =>
    if [] ∉ ps then if left.length = 8 then some left else none
    else if left.length + right.length < 8 then
      some (left ++ List.replicate (8 - left.length - right.length) 0 ++ right)
    else none
  | _, _ => none

def readV6 (s : String) : Option Nat :=
  (readGroups (split ':' s)).map fun gs => Nat.ofDigits (2 ^ 16) gs.reverse

def readVersion : IpVersion → String → Option Nat
  | .v4 => readAddr
  | .v6 => readV6

/-- A prefix length of version 4 may have a sign. -/
def readBlock (s : String) : Option Block :=
  match split '/' s with
  | [a, m] =>
    let v := detectIpVersion (String.ofList a)
    match readVersion v (String.ofList a), parseInt m with
    | some n, some p =>
      if h : n < 2 ^ width v ∧ p ≤ width v ∧
        (v = .v6 → 0 ≤ p) then some ⟨v, n, p, h.1, h.2.1, h.2.2⟩ else none
    | _, _ => none
  | _ => none

section Groups

variable {n g : Nat} {gs : List Nat} {ps : List (List Char)}

theorem hexValue_digitChar : ∀ d < 16, hexValue (Nat.digitChar d) = d ∧
    hexDigit (Nat.digitChar d) = true := by
  decide

theorem hexText_value (n : Nat) :
    Nat.ofDigits 16 ((hexText n).reverse.map hexValue) = n ∧ ∀ c ∈ hexText n, hexDigit c = true := by
  induction n using Nat.strongRecOn with
  | ind n ih =>
    rw [hexText, Nat.toDigits_eq_if (by decide)]
    split
    · rename_i h
      simp [hexValue_digitChar n h]
    · have hd : n % 16 < 16 := Nat.mod_lt _ (by decide)
      obtain ⟨hvalue, hdigit⟩ := ih (n / 16) (by omega)
      rw [hexText] at hvalue hdigit
      constructor
      · rw [List.reverse_append, List.reverse_singleton, List.singleton_append, List.map_cons,
          Nat.ofDigits_cons,
          hvalue, (hexValue_digitChar _ hd).1]
        exact Nat.mod_add_div n 16
      · intro c hc
        obtain hc | hc := List.mem_append.mp hc
        · exact hdigit c hc
        · rw [List.mem_singleton.mp hc]
          exact (hexValue_digitChar _ hd).2

theorem readGroup_hexText (h : g < 2 ^ 16) : readGroup (hexText g) = some g := by
  have hlen : (hexText g).length ≤ 4 := (Nat.length_toDigits_le_iff (b := 16) (by decide) (by decide)).mpr h
  obtain ⟨hvalue, hdigit⟩ := hexText_value g
  rw [readGroup, if_pos ⟨Nat.toDigits_ne_nil, hlen, List.all_eq_true.mpr hdigit⟩, hvalue]

theorem readGroups_hexText (h : ∀ g ∈ gs, g < 2 ^ 16) : (gs.map hexText).mapM readGroup = some gs := by
  induction gs with
  | nil => rfl
  | cons g gs ih =>
    rw [List.map_cons, List.mapM_cons, readGroup_hexText (h g List.mem_cons_self),
      ih fun e he => h e (List.mem_cons_of_mem g he)]
    rfl

theorem head_hexText (gs : List Nat) : (gs.map hexText).head? ≠ some [] := by
  cases gs with
  | nil => exact Option.some_ne_none _ ∘ Eq.symm
  | cons g gs => exact fun h => Nat.toDigits_ne_nil (Option.some.inj h)

theorem nil_not_mem_hexText (gs : List Nat) : [] ∉ gs.map hexText := by
  intro h
  obtain ⟨g, -, he⟩ := List.mem_map.mp h
  exact Nat.toDigits_ne_nil he

theorem trimPiece_of_head (h : ps.head? ≠ some []) : trimPiece ps = ps := by
  obtain _ | ⟨_ | ⟨c, cs⟩, ps⟩ := ps
  · rfl
  · exact absurd rfl h
  · rfl

theorem trim_hexText (gs : List Nat) :
    (trimPiece (trimPiece (gs.map hexText)).reverse).reverse = gs.map hexText := by
  rw [trimPiece_of_head (head_hexText gs), ← List.map_reverse, trimPiece_of_head (head_hexText gs.reverse),
    ← List.map_reverse, List.reverse_reverse]

theorem trim_lead (gs : List Nat) :
    (trimPiece (trimPiece ((if gs = [] then [[]] else gs.map hexText) ++ [[], []])).reverse).reverse =
      gs.map hexText ++ [[]] := by
  obtain _ | ⟨g, gs⟩ := gs
  · rfl
  · have hhead : ((g :: gs).map hexText ++ [[], []]).head? ≠ some [] := head_hexText (g :: gs)
    rw [if_neg (List.cons_ne_nil g gs), trimPiece_of_head hhead]
    simp [trimPiece]

theorem takeWhile_hexText (gs : List Nat) (ps : List (List Char)) :
    (gs.map hexText ++ ps).takeWhile (· ≠ []) = gs.map hexText ++ ps.takeWhile (· ≠ []) ∧
      (gs.map hexText ++ ps).dropWhile (· ≠ []) = ps.dropWhile (· ≠ []) := by
  have hne : ∀ g ∈ gs.map hexText, decide (g ≠ []) = true := fun g hg =>
    decide_eq_true fun he => nil_not_mem_hexText gs (he ▸ hg)
  exact ⟨List.takeWhile_append_of_pos hne, List.dropWhile_append_of_pos hne⟩

theorem readGroups_full (h : ∀ g ∈ gs, g < 2 ^ 16) (hl : gs.length = 8) :
    readGroups (gs.map hexText) = some gs := by
  have hsplit := takeWhile_hexText gs []
  rw [List.append_nil] at hsplit
  rw [readGroups, trim_hexText, hsplit.1, hsplit.2, List.takeWhile_nil, List.append_nil, List.dropWhile_nil,
    List.tail_nil, readGroups_hexText h]
  simp [nil_not_mem_hexText, hl]

theorem readGroups_lead (h : ∀ g ∈ gs, g < 2 ^ 16) (hl : gs.length ≤ 6) :
    readGroups ((if gs = [] then [[]] else gs.map hexText) ++ [[], []]) =
      some (gs ++ List.replicate (8 - gs.length) 0) := by
  have hsplit := takeWhile_hexText gs [[]]
  have hmem : [] ∈ gs.map hexText ++ [[]] := List.mem_append_right _ (List.mem_singleton_self _)
  have hlt : gs.length < 8 := by omega
  rw [readGroups, trim_lead, hsplit.1, hsplit.2]
  simp [readGroups_hexText h, hlt]

theorem places_lt (b k : Nat) (hb : 0 < b) (v : Nat) : ∀ d ∈ places b k v, d < b := by
  intro d hd
  obtain ⟨i, -, rfl⟩ := List.mem_map.mp hd
  exact Nat.mod_lt _ hb

theorem groups_eq (n : Nat) :
    groups n = ((places (2 ^ 16) 8 n).dropWhile (· = 0)).reverse ++
      List.replicate (8 - ((places (2 ^ 16) 8 n).dropWhile (· = 0)).reverse.length) 0 := by
  have hlen : (places (2 ^ 16) 8 n).length = 8 := by rw [places, List.length_map, List.length_range]
  rw [groups]
  generalize places (2 ^ 16) 8 n = L at hlen
  have hzero : L.takeWhile (· = 0) = List.replicate (L.takeWhile (· = 0)).length 0 :=
    List.eq_replicate_of_mem fun g hg => of_decide_eq_true (List.mem_takeWhile_imp (p := (· = 0)) hg)
  have hsum := congrArg List.length (List.takeWhile_append_dropWhile (p := (· = 0)) (l := L))
  rw [List.length_append, hlen] at hsum
  have hcount : 8 - (L.dropWhile (· = 0)).reverse.length = (L.takeWhile (· = 0)).length := by
    rw [List.length_reverse]
    omega
  rw [hcount, ← List.reverse_replicate, ← hzero, ← List.reverse_append, List.takeWhile_append_dropWhile]

theorem readGroups_pieces (n : Nat) : readGroups (pieces n) = some (groups n) := by
  have hlt : ∀ d ∈ places (2 ^ 16) 8 n, d < 2 ^ 16 := places_lt _ _ (by decide) n
  rw [pieces]
  split
  · refine readGroups_full (fun g hg => hlt g (List.mem_reverse.mp hg)) ?_
    rw [groups, List.length_reverse, places, List.length_map, List.length_range]
  · rename_i h
    rw [readGroups_lead (fun g hg => ?_) (Nat.le_of_not_lt h), ← groups_eq]
    exact hlt g ((List.dropWhile_suffix _).subset (List.mem_reverse.mp hg))

theorem two_le_length_pieces (n : Nat) : 2 ≤ (pieces n).length := by
  rw [pieces]
  split
  · rw [List.length_map, groups, List.length_reverse, places, List.length_map, List.length_range]
    decide
  · rw [List.length_append]
    exact Nat.le_add_left _ _

theorem hexDigit_of_mem_pieces {p : List Char} (h : p ∈ pieces n) : ∀ c ∈ p, hexDigit c = true := by
  have hempty : ∀ c ∈ ([] : List Char), hexDigit c = true := fun c hc => absurd hc List.not_mem_nil
  have hhex : ∀ gs, p ∈ List.map hexText gs → ∀ c ∈ p, hexDigit c = true := by
    intro gs hp
    obtain ⟨g, -, rfl⟩ := List.mem_map.mp hp
    exact (hexText_value g).2
  rw [pieces] at h
  split at h
  · exact hhex _ h
  · obtain h | h := List.mem_append.mp h
    · split at h
      · rw [List.mem_singleton.mp h]
        exact hempty
      · exact hhex _ h
    · simp only [List.mem_cons, List.not_mem_nil, or_false, or_self] at h
      rw [h]
      exact hempty

theorem not_mem_writeV6 {c : Char} (hsep : c ≠ ':') (h : hexDigit c = false) : c ∉ (writeV6 n).toList :=
  not_mem_join hsep fun p hp hc => by rw [hexDigit_of_mem_pieces hp c hc] at h; exact Bool.noConfusion h

theorem split_writeV6 (n : Nat) : split ':' (writeV6 n) = pieces n := by
  have hne : pieces n ≠ [] := by
    intro h
    have htwo := two_le_length_pieces n
    rw [h] at htwo
    exact absurd htwo (by decide)
  refine split_join ':' (pieces n) hne fun p hp hc => ?_
  exact absurd (hexDigit_of_mem_pieces hp ':' hc) (by decide)

theorem colon_mem_writeV6 (n : Nat) : ':' ∈ (writeV6 n).toList := by
  by_contra h
  have hone := congrArg List.length (split_writeV6 n)
  rw [split, List.splitOn_eq_singleton h, List.length_singleton] at hone
  have := two_le_length_pieces n
  omega

theorem readV6_writeV6 (h : n < 2 ^ 128) : readV6 (writeV6 n) = some n := by
  have hvalue : Nat.ofDigits (2 ^ 16) (places (2 ^ 16) 8 n) = n := by
    rw [ofDigits_places]
    exact Nat.mod_eq_of_lt h
  rw [readV6, split_writeV6, readGroups_pieces, Option.map_some, groups, List.reverse_reverse, hvalue]

end Groups

theorem readVersion_addrText {v : IpVersion} {n : Nat} (h : n < 2 ^ width v) :
    detectIpVersion (addrText writeV6 v n) = v ∧ readVersion v (addrText writeV6 v n) = some n := by
  cases v with
  | v4 => exact ⟨if_neg (colon_not_mem_dottedQuad n), readAddr_dottedQuad h⟩
  | v6 => exact ⟨if_pos (colon_mem_writeV6 n), readV6_writeV6 h⟩

theorem readBlock_blockText (b : Block) : readBlock (blockText writeV6 b) = some b := by
  obtain ⟨hversion, hread⟩ := readVersion_addrText b.addr_lt
  rw [readBlock, split_blockText fun _ _ => not_mem_writeV6 (by decide) (by decide)]
  simp only [String.ofList_toList, hversion, hread, parseInt_repr]
  exact dif_pos ⟨b.addr_lt, b.bitmask_le, b.bitmask_nonneg⟩

def lastText (b : Block) : String := addrText writeV6 b.ipVersion (b.netLong + 2 ^ b.hostBits - 1)

def reference : Package where
  parse := readBlock
  contains b ip := (readVersion b.ipVersion ip).map fun x => clear b.hostBits x == b.netLong
  broadcast b := if b.hostBits < 2 then none else some (lastText b)
  v6Text := writeV6
  parse_text := readBlock_blockText
  colon_mem_v6Text n _ := colon_mem_writeV6 n
  slash_not_mem_v6Text _ _ := not_mem_writeV6 (by decide) (by decide)

/-- A text of version 6 that the package reads makes a block. -/
example : createBlock reference [] ⟨"v6", "fd00:dead:beef:1::/48", none, none⟩ =
    .ok [⟨"v6", "fd00:dead:beef::/48", .v6, none, []⟩] := by decide +kernel

end Example

end Polaris.CidrValidation
