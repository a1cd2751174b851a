import Polaris.Cidr
import Mathlib.Data.Nat.Log

namespace Polaris.CidrAllocation

open Polaris.Lib.PrefixBlock Polaris.Netmask Polaris.Cidr

/-- The allocation loop shared by the two searches: candidates advance by
one block size while they end inside the parent. -/
def scan (size endInt : Nat) (free : Nat → Bool) : Nat → Nat → Option Nat
  | 0, _ => none
  | fuel + 1, candidate =>
    if candidate + size - 1 ≤ endInt then
      if free candidate then some candidate else scan size endInt free fuel (candidate + size)
    else none

theorem scan_some {size endInt : Nat} {free : Nat → Bool} {fuel start c : Nat}
    (h : scan size endInt free fuel start = some c) :
    c + size - 1 ≤ endInt ∧ free c = true ∧ start ≤ c ∧ ∀ d, d ∣ size → d ∣ start → d ∣ c := by
  induction fuel generalizing start with
  | zero => simp [scan] at h
  | succ fuel ih =>
    simp only [scan] at h
    split_ifs at h with hend hfree
    · cases h
      exact ⟨hend, hfree, Nat.le_refl _, fun _ _ hd => hd⟩
    · obtain ⟨he, hf, hs, hd⟩ := ih h
      exact ⟨he, hf, by omega, fun d h1 h2 => hd d h1 (Nat.dvd_add h2 h1)⟩

section Packing

variable {T : Type} (prefixLength : T → Nat)

structure PackedEntry (T : Type) where
  entry : T
  offset : Nat
  prefixLength : Nat

def PackedEntry.size (p : PackedEntry T) : Nat := 2 ^ (32 - p.prefixLength)

def alignUp (cursor size : Nat) : Nat :=
  if cursor % size ≠ 0 then (cursor + size - 1) / size * size else cursor

def packFrom : Nat → List T → List (PackedEntry T) × Nat
  | cursor, [] => ([], cursor)
  | cursor, e :: es =>
    let size := 2 ^ (32 - prefixLength e)
    let offset := alignUp cursor size
    let rest := packFrom (offset + size) es
    (⟨e, offset, prefixLength e⟩ :: rest.1, rest.2)

structure PackResult (T : Type) where
  packed : List (PackedEntry T)
  totalSpan : Nat
  containingPrefix : Int

def packTemplateEntries (entries : List T) : PackResult T :=
  if entries = [] then ⟨[], 0, 32⟩
  else
    let r := packFrom prefixLength 0 entries
    ⟨r.1, r.2, 32 - (Nat.clog 2 r.2 : Int)⟩

theorem alignUp_dvd {cursor size : Nat} : size ∣ alignUp cursor size := by
  unfold alignUp
  split_ifs with h
  · exact Nat.dvd_mul_left _ _
  · exact Nat.dvd_of_mod_eq_zero (by omega)

theorem le_alignUp (cursor : Nat) {size : Nat} (hs : 0 < size) : cursor ≤ alignUp cursor size := by
  unfold alignUp
  split_ifs with h
  · have h1 := Nat.div_add_mod (cursor + size - 1) size
    have h2 := Nat.mod_lt (cursor + size - 1) hs
    rw [Nat.mul_comm] at h1
    omega
  · exact Nat.le_refl _

/-- Packed entries keep their own prefix, sit on a multiple of their size
and follow one another without overlap up to the final cursor. -/
theorem packFrom_spec (cursor : Nat) (es : List T) :
    (∀ p ∈ (packFrom prefixLength cursor es).1,
      p.entry ∈ es ∧ p.prefixLength = prefixLength p.entry ∧ p.size ∣ p.offset ∧
        cursor ≤ p.offset ∧ p.offset + p.size ≤ (packFrom prefixLength cursor es).2) ∧
    (packFrom prefixLength cursor es).1.Pairwise (fun p q => p.offset + p.size ≤ q.offset) ∧
    cursor ≤ (packFrom prefixLength cursor es).2 := by
  induction es generalizing cursor with
  | nil => simp [packFrom]
  | cons e es ih =>
    have hs : 0 < 2 ^ (32 - prefixLength e) := Nat.two_pow_pos _
    have hle := le_alignUp cursor hs
    obtain ⟨hp, hpw, hc⟩ := ih (alignUp cursor (2 ^ (32 - prefixLength e)) + 2 ^ (32 - prefixLength e))
    simp only [packFrom]
    refine ⟨?_, ?_, by omega⟩
    · intro p hm
      obtain rfl | hm := List.mem_cons.mp hm
      · exact ⟨by simp, rfl, alignUp_dvd, hle, hc⟩
      · obtain ⟨h1, h2, h3, h4, h5⟩ := hp p hm
        exact ⟨by simp [h1], h2, h3, by omega, h5⟩
    · refine List.pairwise_cons.mpr ⟨fun q hq => ?_, hpw⟩
      exact (hp q hq).2.2.2.1

theorem map_packFrom (cursor : Nat) (es : List T) :
    (packFrom prefixLength cursor es).1.map (fun p => (p.entry, p.prefixLength)) =
      es.map fun e => (e, prefixLength e) := by
  induction es generalizing cursor with
  | nil => rfl
  | cons e es ih =>
    rw [packFrom, List.map_cons, List.map_cons]
    exact congrArg _ (ih _)

theorem packFrom_entries (cursor : Nat) (es : List T) :
    (packFrom prefixLength cursor es).1.map PackedEntry.entry = es := by
  induction es generalizing cursor with
  | nil => rfl
  | cons e es ih => exact congrArg (e :: ·) (ih _)

theorem getLast_packFrom (cursor : Nat) {es : List T} (hne : es ≠ []) :
    ∃ last, (packFrom prefixLength cursor es).1.getLast? = some last ∧
      (packFrom prefixLength cursor es).2 = last.offset + last.size := by
  induction es generalizing cursor with
  | nil => exact absurd rfl hne
  | cons e es ih =>
    rw [packFrom]
    obtain rfl | hes := eq_or_ne es []
    · exact ⟨_, rfl, rfl⟩
    · obtain ⟨last, hlast, hend⟩ :=
        ih (alignUp cursor (2 ^ (32 - prefixLength e)) + 2 ^ (32 - prefixLength e)) hes
      exact ⟨last, by rw [List.getLast?_cons, hlast]; rfl, hend⟩

/-- The entries keep their order, each in a block of its own, and the prefix
is that of the smallest block that holds them all. -/
theorem packTemplateEntries_layout {entries : List T} (hne : entries ≠ [])
    (hspan : (packTemplateEntries prefixLength entries).totalSpan ≤ 2 ^ 32) :
    let r := packTemplateEntries prefixLength entries
    r.packed.map (fun p => (p.entry, p.prefixLength)) = entries.map (fun e => (e, prefixLength e)) ∧
      (∀ p ∈ r.packed, p.size ∣ p.offset) ∧
      r.packed.Pairwise (fun p q => p.offset < q.offset ∧ p.offset + p.size ≤ q.offset) ∧
      (∃ last, r.packed.getLast? = some last ∧ r.totalSpan = last.offset + last.size) ∧
      0 ≤ r.containingPrefix ∧ r.containingPrefix ≤ 32 ∧
      IsLeast {m | (∃ k, m = 2 ^ k) ∧ r.totalSpan ≤ m} (2 ^ (32 - r.containingPrefix).toNat) := by
  intro r
  have hr : r = ⟨(packFrom prefixLength 0 entries).1, (packFrom prefixLength 0 entries).2,
      32 - (Nat.clog 2 (packFrom prefixLength 0 entries).2 : Int)⟩ := if_neg hne
  obtain ⟨hin, hpair, -⟩ := packFrom_spec prefixLength 0 entries
  have hclog : Nat.clog 2 r.totalSpan ≤ 32 := Nat.clog_le_of_le_pow hspan
  have hbits : (32 - r.containingPrefix).toNat = Nat.clog 2 r.totalSpan := by rw [hr]; dsimp only; omega
  refine ⟨?_, ?_, ?_, ?_, ?_, ?_, ?_⟩
  · rw [hr]
    exact map_packFrom prefixLength 0 entries
  · rw [hr]
    exact fun p hp => (hin p hp).2.2.1
  · rw [hr]
    refine hpair.imp fun {p q} h => ⟨?_, h⟩
    have hsize : 0 < p.size := Nat.two_pow_pos _
    omega
  · rw [hr]
    exact getLast_packFrom prefixLength 0 hne
  · omega
  · rw [hr]
    dsimp only
    omega
  · rw [hbits]
    refine ⟨⟨⟨_, rfl⟩, Nat.le_pow_clog (by decide) _⟩, fun m hm => ?_⟩
    obtain ⟨⟨k, rfl⟩, hk⟩ := hm
    exact Nat.pow_le_pow_right (by decide) (Nat.clog_le_of_le_pow hk)

theorem packTemplateEntries_layout_mixed :
    IsLeast {m | (∃ k, m = 2 ^ k) ∧ (packTemplateEntries id [26, 24, 32]).totalSpan ≤ m}
      (2 ^ (32 - (packTemplateEntries id [26, 24, 32]).containingPrefix).toNat) :=
  (packTemplateEntries_layout id (List.cons_ne_nil _ _) (by decide)).2.2.2.2.2.2

end Packing

section Package

variable (N : Package)

def parentRange (parentCidr : String) : Except Failure (Netmask.Cidr × Nat × Nat) :=
  match N.parse parentCidr with
  | some parent =>
    match parent.broadcast with
    | some last => .ok (parent, ipToInt parent.base, ipToInt last)
    | none => .error (.thrown "Cannot read properties of undefined")
  | none => .error (.thrown "Invalid net address")

def findNextAvailableSubnet (parentCidr : String) (allocatedCidrs : List String)
    (requestedPrefix : Nat) : Except Failure (Option String) := do
  let (_, baseInt, endInt) ← parentRange N parentCidr
  let blockSize := 2 ^ (32 - requestedPrefix)
  let free := fun candidate =>
    !allocatedCidrs.any (cidrOverlaps N (cidrText candidate requestedPrefix))
  match scan blockSize endInt free (endInt + 1) baseInt with
  | some candidate => some <$> normalizeCidr N (cidrText candidate requestedPrefix)
  | none => .ok none

structure AnchoredPackResult (T : Type) where
  assignments : List (T × String)
  anchorCidr : String
  effectiveAnchorPrefix : Nat
  deriving DecidableEq

def effectiveAnchor (requestedAnchorPrefix : Nat) (containingPrefix : Int) (parentBits : Nat) : Nat :=
  max (min (requestedAnchorPrefix : Int) containingPrefix).toNat parentBits

def packIntoAnchor {T : Type} (prefixLength : T → Nat) (parentCidr : String)
    (allocatedCidrs : List String) (entries : List T) (requestedAnchorPrefix : Nat) :
    Except Failure (Option (AnchoredPackResult T)) :=
  if entries.isEmpty then .ok (some ⟨[], parentCidr, requestedAnchorPrefix⟩)
  else do
    let (parent, baseInt, endInt) ← parentRange N parentCidr
    let packed := packTemplateEntries prefixLength entries
    let anchor := effectiveAnchor requestedAnchorPrefix packed.containingPrefix parent.bitmask
    let free := fun candidate => !allocatedCidrs.any (cidrOverlaps N (cidrText candidate anchor))
    match scan (2 ^ (32 - anchor)) endInt free (endInt + 1) baseInt with
    | some candidate =>
      .ok (some ⟨packed.packed.map (fun p => (p.entry, cidrText (candidate + p.offset) p.prefixLength)),
        cidrText candidate anchor, anchor⟩)
    | none => .ok none

end Package

end Polaris.CidrAllocation
