import Mathlib.Data.List.Basic

namespace Polaris.Lib.Joins

variable {α : Type*} {sep : α} {p w rest : List α} {parts : List (List α)}

/-- The word begins the parts as they stand joined. It begins the first, or has
all of it and goes on over the separator. -/
def Begins (sep : α) : List (List α) → List α → Prop
  | [], w => w = []
  | [p], w => w <+: p
  | p :: q :: ps, w => w <+: p ∨ ∃ v, w = p ++ sep :: v ∧ Begins sep (q :: ps) v

def Ends (sep : α) : List (List α) → List α → Prop
  | [], w => w = []
  | [p], w => w <:+ p
  | p :: q :: ps, w => Ends sep (q :: ps) w ∨ ∃ u, w = u ++ sep :: [sep].intercalate (q :: ps) ∧ u <:+ p

/-- The word has the end of a part, the separator, and what begins after it. -/
def Over (sep : α) : List (List α) → List α → Prop
  | p :: q :: ps, w => (∃ u v, w = u ++ sep :: v ∧ u <:+ p ∧ Begins sep (q :: ps) v) ∨ Over sep (q :: ps) w
  | _, _ => False

theorem intercalate_cons (p q : List α) (ps : List (List α)) :
    [sep].intercalate (p :: q :: ps) = p ++ sep :: [sep].intercalate (q :: ps) := by
  rw [List.intercalate_cons_cons, List.append_assoc]
  rfl

theorem prefix_append_iff : w <+: p ++ rest ↔ w <+: p ∨ ∃ v, w = p ++ v ∧ v <+: rest := by
  constructor
  · rintro ⟨t, ht⟩
    obtain ⟨u, hp, -⟩ | ⟨v, hw, hrest⟩ := List.append_eq_append_iff.mp ht
    · exact .inl ⟨u, hp.symm⟩
    · exact .inr ⟨v, hw, t, hrest.symm⟩
  · rintro (h | ⟨v, rfl, h⟩)
    · exact h.trans (List.prefix_append p rest)
    · exact (List.prefix_append_right_inj p).mpr h

theorem suffix_append_iff : w <:+ p ++ rest ↔ w <:+ rest ∨ ∃ u, w = u ++ rest ∧ u <:+ p := by
  rw [← List.reverse_prefix, List.reverse_append, prefix_append_iff, List.reverse_prefix]
  refine or_congr_right ⟨?_, ?_⟩
  · rintro ⟨v, hw, hv⟩
    refine ⟨v.reverse, ?_, List.reverse_prefix.mp (by rwa [List.reverse_reverse])⟩
    rw [← List.reverse_reverse w, hw, List.reverse_append, List.reverse_reverse]
  · rintro ⟨u, rfl, hu⟩
    exact ⟨u.reverse, List.reverse_append, List.reverse_prefix.mpr hu⟩

/-- A word that starts in what is joined before a separator ends there, or has
the separator. -/
theorem prefix_sep_iff : w <+: p ++ sep :: rest ↔ w <+: p ∨ ∃ v, w = p ++ sep :: v ∧ v <+: rest := by
  rw [prefix_append_iff]
  constructor
  · rintro (h | ⟨v, rfl, h⟩)
    · exact .inl h
    · obtain rfl | ⟨t, rfl, ht⟩ := List.prefix_cons_iff.mp h
      · exact .inl (by simp)
      · exact .inr ⟨t, rfl, ht⟩
  · rintro (h | ⟨v, rfl, h⟩)
    · exact .inl h
    · exact .inr ⟨sep :: v, rfl, List.cons_prefix_cons.mpr ⟨rfl, h⟩⟩

theorem begins_iff : w <+: [sep].intercalate parts ↔ Begins sep parts w := by
  induction parts generalizing w with
  | nil => exact List.prefix_nil
  | cons p ps ih =>
    cases ps with
    | nil => rw [List.intercalate_singleton, Begins]
    | cons q ps =>
      rw [intercalate_cons, prefix_sep_iff, Begins]
      simp only [ih]

theorem ends_iff : w <:+ [sep].intercalate parts ↔ Ends sep parts w := by
  induction parts generalizing w with
  | nil => exact List.suffix_nil
  | cons p ps ih =>
    cases ps with
    | nil => rw [List.intercalate_singleton, Ends]
    | cons q ps =>
      rw [intercalate_cons, suffix_append_iff, List.suffix_cons_iff, ih, Ends]
      constructor
      · rintro ((rfl | h) | h)
        · exact .inr ⟨[], rfl, List.nil_suffix⟩
        · exact .inl h
        · exact .inr h
      · rintro (h | h)
        · exact .inl (.inr h)
        · exact .inr h

theorem infix_sep_iff : w <:+: p ++ sep :: rest ↔
    w <:+: p ∨ w <:+: rest ∨ ∃ u v, w = u ++ sep :: v ∧ u <:+ p ∧ v <+: rest := by
  rw [List.infix_append_iff]
  constructor
  · rintro (h | h | ⟨u, v, rfl, hu, hv⟩)
    · exact .inl h
    · obtain h | h := List.infix_cons_iff.mp h
      · obtain rfl | ⟨t, rfl, ht⟩ := List.prefix_cons_iff.mp h
        · exact .inl List.nil_infix
        · exact .inr (.inr ⟨[], t, rfl, List.nil_suffix, ht⟩)
      · exact .inr (.inl h)
    · obtain rfl | ⟨t, rfl, ht⟩ := List.prefix_cons_iff.mp hv
      · exact .inl (by rw [List.append_nil]; exact hu.isInfix)
      · exact .inr (.inr ⟨u, t, rfl, hu, ht⟩)
  · rintro (h | h | ⟨u, v, rfl, hu, hv⟩)
    · exact .inl h
    · exact .inr (.inl (h.trans (List.suffix_cons sep rest).isInfix))
    · exact .inr (.inr ⟨u, sep :: v, rfl, hu, List.cons_prefix_cons.mpr ⟨rfl, hv⟩⟩)

theorem infix_iff (hne : parts ≠ []) :
    w <:+: [sep].intercalate parts ↔ (∃ p ∈ parts, w <:+: p) ∨ Over sep parts w := by
  induction parts with
  | nil => exact absurd rfl hne
  | cons p ps ih =>
    cases ps with
    | nil => simp [Over, List.intercalate_singleton]
    | cons q ps =>
      have hparts : (∃ x ∈ p :: q :: ps, w <:+: x) ↔ w <:+: p ∨ ∃ x ∈ q :: ps, w <:+: x :=
        List.exists_mem_cons_iff ..
      rw [intercalate_cons, infix_sep_iff, ih (List.cons_ne_nil q ps), Over, hparts]
      simp only [begins_iff, or_assoc]
      exact or_congr_right (or_congr_right or_comm)

end Polaris.Lib.Joins
