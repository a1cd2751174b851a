import Mathlib.Data.List.Basic
import Mathlib.Data.List.Perm.Subperm
import Mathlib.Data.List.Infix

namespace Polaris.Lib.Bytes

abbrev Buffer := List UInt8

variable {buf : Buffer} {pos : Nat}

section Numbers

/-- Big-endian numbers. A read that leaves the buffer throws, and so gives
nothing. -/
def readUInt16BE (buf : Buffer) (offset : Nat) : Option Nat := do
  let hi ← buf[offset]?
  let lo ← buf[offset + 1]?
  return hi.toNat * 256 + lo.toNat

def readUInt32BE (buf : Buffer) (offset : Nat) : Option Nat := do
  let hi ← readUInt16BE buf offset
  let lo ← readUInt16BE buf (offset + 2)
  return hi * 65536 + lo

def writeUInt16BE (n : UInt16) : Buffer := [UInt8.ofNat (n.toNat / 256), UInt8.ofNat n.toNat]

def writeUInt32BE (n : UInt32) : Buffer :=
  writeUInt16BE (UInt16.ofNat (n.toNat / 65536)) ++ writeUInt16BE (UInt16.ofNat n.toNat)

end Numbers

section Places

/-- The bytes stand at a position of the buffer. -/
def At (buf : Buffer) (pos : Nat) (bytes : Buffer) : Prop := bytes <+: buf.drop pos

instance (bytes : Buffer) : Decidable (At buf pos bytes) := inferInstanceAs (Decidable (_ <+: _))

theorem at_nil : At buf pos [] := List.nil_prefix

theorem at_cons {b : UInt8} {bytes : Buffer} :
    At buf pos (b :: bytes) ↔ buf[pos]? = some b ∧ At buf (pos + 1) bytes := by
  unfold At
  by_cases h : pos < buf.length
  · rw [List.drop_eq_getElem_cons h, List.cons_prefix_cons, List.getElem?_eq_getElem h, Option.some.injEq,
      eq_comm]
  · rw [List.drop_eq_nil_of_le (by omega), List.getElem?_eq_none (by omega)]
    simp

theorem at_append {xs ys : Buffer} : At buf pos (xs ++ ys) ↔ At buf pos xs ∧ At buf (pos + xs.length) ys := by
  induction xs generalizing pos with
  | nil => simp [at_nil]
  | cons x xs ih =>
    rw [List.cons_append, at_cons, at_cons, ih, and_assoc, List.length_cons]
    have hpos : pos + 1 + xs.length = pos + (xs.length + 1) := by omega
    rw [hpos]

theorem at_mid (xs ys zs : Buffer) : At (xs ++ (ys ++ zs)) xs.length ys := by
  rw [At, List.drop_left]
  exact List.prefix_append ys zs

theorem At.slice {bytes : Buffer} (h : At buf pos bytes) : (buf.drop pos).take bytes.length = bytes :=
  (List.prefix_iff_eq_take.mp h).symm

theorem At.bound {bytes : Buffer} (h : At buf pos bytes) (hne : bytes ≠ []) :
    pos + bytes.length ≤ buf.length := by
  have hle := h.length_le
  have hpos := List.length_pos_iff.mpr hne
  rw [List.length_drop] at hle
  omega

theorem readUInt16BE_at {n : UInt16} (h : At buf pos (writeUInt16BE n)) :
    readUInt16BE buf pos = some n.toNat := by
  obtain ⟨hhi, hlo⟩ := at_cons.mp h
  obtain ⟨hlo, -⟩ := at_cons.mp hlo
  have hn := n.toNat_lt
  simp only [readUInt16BE, hhi, hlo, Option.bind_eq_bind, Option.bind_some, pure, Option.some.injEq,
    UInt8.toNat_ofNat']
  omega

theorem readUInt32BE_at {n : UInt32} (h : At buf pos (writeUInt32BE n)) :
    readUInt32BE buf pos = some n.toNat := by
  obtain ⟨hhi, hlo⟩ := at_append.mp h
  have hlow : At buf (pos + 2) (writeUInt16BE (UInt16.ofNat n.toNat)) := hlo
  have hn := n.toNat_lt
  simp only [readUInt32BE, readUInt16BE_at hhi, readUInt16BE_at hlow, Option.bind_eq_bind,
    Option.bind_some, pure,
    Option.some.injEq, UInt16.toNat_ofNat']
  omega

end Places

section Layouts

variable {α : Type*}

/-- Items that stand one after the other. -/
inductive Sequence (R : Nat → α → Nat → Prop) : Nat → List α → Nat → Prop
  | nil (pos : Nat) : Sequence R pos [] pos
  | cons {pos mid next : Nat} {a : α} {as : List α} (head : R pos a mid) (tail : Sequence R mid as next) :
    Sequence R pos (a :: as) next

theorem mem_of_nodup_full {seen : List Nat} {n p : Nat} (hnodup : seen.Nodup) (hlt : ∀ q ∈ seen, q < n)
    (hfull : n ≤ seen.length) (hp : p < n) : p ∈ seen := by
  have hsub : seen ⊆ List.range n := fun q hq => List.mem_range.mpr (hlt q hq)
  have hperm := (List.subperm_of_subset hnodup hsub).perm_of_length_le (by simpa using hfull)
  exact hperm.mem_iff.mpr (List.mem_range.mpr hp)

end Layouts

end Polaris.Lib.Bytes
