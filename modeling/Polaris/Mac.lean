import Polaris.Lib.Text

namespace Polaris.Mac

open Polaris.Lib.Text

def lowerCase (s : String) : List Char := s.toList.map Char.toLower

def isHex (c : Char) : Bool := c.isDigit || ('a' ≤ c && c ≤ 'f')

def pairs : List Char → List (List Char)
  | a :: b :: cs => [a, b] :: pairs cs
  | _ => []

/-- Twelve hexadecimal digits are written in pairs; any other text is only
put in lower case. -/
def normalizeMac (mac : String) : String :=
  let hex := (lowerCase mac).filter isHex
  if hex.length ≠ 12 then String.ofList (lowerCase mac) else join ':' (pairs hex)

def isPair (g : List Char) : Bool := g.length = 2 && g.all isHex

def isMac (mac : String) : Bool := (split ':' mac).length = 6 && (split ':' mac).all isPair

theorem toLower_of_isHex {c : Char} (h : isHex c = true) : c.toLower = c := by
  unfold Char.toLower
  refine dif_neg (fun hu => ?_)
  simp only [isHex, Char.isDigit, Bool.or_eq_true, Bool.and_eq_true, decide_eq_true_eq, Char.le_def,
    UInt32.le_iff_toNat_le, ge_iff_le] at h hu
  simp at h hu
  omega

theorem isPair_cases {g : List Char} (h : isPair g = true) :
    ∃ a b, g = [a, b] ∧ isHex a = true ∧ isHex b = true := by
  match g, h with
  | [a, b], h => exact ⟨a, b, rfl, by simpa [isPair] using h⟩

theorem hex_of_pairs {groups : List (List Char)} (h : ∀ g ∈ groups, isPair g = true) :
    (lowerCase (join ':' groups)).filter isHex = groups.flatten ∧
      pairs groups.flatten = groups ∧ groups.flatten.length = 2 * groups.length := by
  induction groups with
  | nil => decide
  | cons g gs ih =>
    obtain ⟨a, b, rfl, ha, hb⟩ := isPair_cases (h g (by simp))
    obtain ⟨hfilter, hpairs, hlength⟩ := ih (fun g hg => h g (by simp [hg]))
    refine ⟨?_, by simp [pairs, hpairs], by simp [hlength]; omega⟩
    cases gs with
    | nil => simp [lowerCase, join, toLower_of_isHex, ha, hb, List.intercalate]
    | cons g' gs =>
      simp only [lowerCase, join, List.intercalate_cons_cons, String.toList_ofList, List.map_append,
        List.filter_append, List.flatten_cons] at hfilter ⊢
      rw [← hfilter]
      simp [toLower_of_isHex, ha, hb]
      decide

theorem toLower_toLower (c : Char) : c.toLower.toLower = c.toLower := by
  by_cases hc : c.val ≥ 'A'.val ∧ c.val ≤ 'Z'.val
  · have hA : 'A'.val.toNat = 65 := rfl
    have hZ : 'Z'.val.toNat = 90 := rfl
    have hd : ('a'.val - 'A'.val).toNat = 32 := rfl
    have hlow : c.toLower.val.toNat = c.val.toNat + 32 := by
      have hval : c.toLower.val = c.val + ('a'.val - 'A'.val) := congrArg Char.val (dif_pos hc)
      simp only [ge_iff_le, UInt32.le_iff_toNat_le] at hc
      rw [hval, UInt32.toNat_add, hd]
      omega
    have hout : ¬ (c.toLower.val ≥ 'A'.val ∧ c.toLower.val ≤ 'Z'.val) := by
      simp only [ge_iff_le, UInt32.le_iff_toNat_le] at hc ⊢
      omega
    exact dif_neg hout
  · have hself : c.toLower = c := dif_neg hc
    rw [hself, hself]

theorem lowerCase_lowerCase (s : String) : lowerCase (String.ofList (lowerCase s)) = lowerCase s := by
  simp only [lowerCase, String.toList_ofList, List.map_map]
  exact List.map_congr_left fun c _ => toLower_toLower c

theorem pairs_spec (cs : List Char) (hcs : ∀ c ∈ cs, isHex c = true) :
    (∀ g ∈ pairs cs, isPair g = true) ∧ (pairs cs).length = cs.length / 2 := by
  induction cs using pairs.induct with
  | case1 a b cs ih =>
    obtain ⟨hall, hlength⟩ := ih (fun c hc => hcs c (by simp [hc]))
    refine ⟨fun g hg => ?_, ?_⟩
    · obtain rfl | hg := List.mem_cons.mp hg
      · simp [isPair, hcs a, hcs b]
      · exact hall g hg
    · simp only [pairs, List.length_cons, hlength]
      omega
  | case2 cs hne =>
    match cs, hne with
    | [], _ => simp [pairs]
    | [a], _ => simp [pairs]
    | a :: b :: cs, hne => exact absurd rfl (hne a b cs)

theorem normalizeMac_normalizeMac (mac : String) : normalizeMac (normalizeMac mac) = normalizeMac mac := by
  by_cases h : ((lowerCase mac).filter isHex).length = 12
  · obtain ⟨hpair, hlen⟩ := pairs_spec ((lowerCase mac).filter isHex)
      (fun c hc => (List.mem_filter.mp hc).2)
    obtain ⟨hfilter, hpairs, hlength⟩ := hex_of_pairs hpair
    have hm : normalizeMac mac = join ':' (pairs ((lowerCase mac).filter isHex)) := by
      simp [normalizeMac, h]
    rw [hm, normalizeMac, hfilter, if_neg (by omega), hpairs]
  · have hm : normalizeMac mac = String.ofList (lowerCase mac) := by simp [normalizeMac, h]
    rw [hm, normalizeMac, lowerCase_lowerCase, if_pos h]

end Polaris.Mac
