import Polaris.Cidr
import Polaris.Lib.Digits

namespace Polaris.PtrNames

open Polaris.Cidr Polaris.Lib.Digits Polaris.Lib.Text

section Names

abbrev Text := List Char

/-- The parts of a text around two colons in a row. -/
def halves : Text → Text → List Text
  | acc, ':' :: ':' :: cs => acc.reverse :: halves [] cs
  | acc, c :: cs => halves (c :: acc) cs
  | acc, [] => [acc.reverse]

def padStart (g : Text) : Text := List.replicate (4 - g.length) '0' ++ g

def fillZeros (missing : Int) : Except String (List Text) :=
  if 0 ≤ missing then .ok (List.replicate missing.toNat ['0', '0', '0', '0'])
  else .error "Invalid array length"

def parts (half : Text) : List Text := if half = [] then [] else half.splitOn ':'

def expandIpv6 (ip : Text) : Except String Text := do
  let groups ← match halves [] ip with
    | [left, right] => do
      let zeros ← fillZeros (8 - (parts left).length - (parts right).length)
      pure (parts left ++ zeros ++ parts right)
    | _ => pure (ip.splitOn ':')
  pure ([':'].intercalate (groups.map padStart))

def ipToPtrName (ip : Text) : Except String Text :=
  if ':' ∈ ip then do
    let full ← expandIpv6 ip
    pure ((full.filter (· ≠ ':')).reverse.intersperse '.' ++ ['.', 'i', 'p', '6', '.', 'a', 'r', 'p', 'a'])
  else
    pure (['.'].intercalate (ip.splitOn '.').reverse ++
      ['.', 'i', 'n', '-', 'a', 'd', 'd', 'r', '.', 'a', 'r', 'p', 'a'])

end Names

section Addresses

structure Quad where
  a : Fin 256
  b : Fin 256
  c : Fin 256
  d : Fin 256

def Quad.octets (q : Quad) : List Nat := [q.a, q.b, q.c, q.d]

def dottedDecimal (octets : List Nat) : Text := ['.'].intercalate (octets.map (Nat.toDigits 10))

def Quad.text (q : Quad) : Text := dottedDecimal q.octets

/-- One to four hexadecimal digits of either case. -/
structure Group where
  text : Text
  digits : ∀ c ∈ text, hexDigit c = true
  nonempty : text ≠ []
  short : text.length ≤ 4

def hexValue (c : Char) : Nat :=
  if c.isDigit then c.toNat - 48 else if 'a' ≤ c then c.toNat - 87 else c.toNat - 55

def Group.value (g : Group) : Nat := Nat.ofDigits 16 (g.text.reverse.map hexValue)

/-- A textual form of an address of version 6: the groups in front of the
two colons in a row, those behind it, if it is there, and the last two groups,
if they are written as a quad. -/
structure Spelling where
  left : List Group
  right : Option (List Group)
  quad : Option Quad
  fits : right.elim (left.length + quad.elim 0 (fun _ => 2) = 8)
    fun right => left.length + right.length + quad.elim 0 (fun _ => 2) ≤ 8

namespace Spelling

variable (s : Spelling)

def tail : List Text := s.quad.toList.map Quad.text

def text : Text :=
  match s.right with
  | none => [':'].intercalate (s.left.map Group.text ++ s.tail)
  | some right => [':'].intercalate (s.left.map Group.text) ++ [':', ':'] ++
      [':'].intercalate (right.map Group.text ++ s.tail)

/-- The eight groups of sixteen bits. -/
def words : List Nat :=
  let last : List Nat := s.quad.elim [] fun q => [q.a * 256 + q.b, q.c * 256 + q.d]
  let behind := (s.right.getD []).map Group.value ++ last
  s.left.map Group.value ++ List.replicate (8 - s.left.length - behind.length) 0 ++ behind

/-- The address itself, of 128 bits. -/
def value : Nat := Nat.ofDigits (2 ^ 16) s.words.reverse

end Spelling

def nibbleName (v : Nat) : Text :=
  ((places 16 32 v).map Nat.digitChar).intersperse '.' ++ ['.', 'i', 'p', '6', '.', 'a', 'r', 'p', 'a']

/-- The name of the address, up to the case of letters. -/
def Named (s : Spelling) : Prop :=
  ∃ name, ipToPtrName s.text = .ok name ∧ name.map Char.toLower = nibbleName s.value

end Addresses

section Fields

variable {acc w u v : Text} {fields left right : List Text}

def Field (w : Text) : Prop := w ≠ [] ∧ ':' ∉ w

theorem halves_word (h : ':' ∉ w) (v : Text) : halves acc (w ++ v) = halves (w.reverse ++ acc) v := by
  induction w generalizing acc with
  | nil => rfl
  | cons c w ih =>
    have hc : c ≠ ':' := fun he => h (he ▸ List.mem_cons_self)
    rw [List.cons_append, halves.eq_2 _ _ _ fun _ he => absurd he hc,
      ih fun hm => h (List.mem_cons_of_mem c hm),
      List.reverse_cons, List.append_assoc]
    rfl

theorem head_fields (h : Field w) (fields : List Text) (v cs : Text) :
    [':'].intercalate (w :: fields) ++ v ≠ ':' :: cs := by
  obtain ⟨c, w, rfl⟩ := List.exists_cons_of_ne_nil h.1
  have hc : c ≠ ':' := fun he => h.2 (he ▸ List.mem_cons_self)
  intro he
  cases fields with
  | nil => exact hc (List.cons.inj he).1
  | cons x fields =>
    rw [List.intercalate_cons_cons] at he
    exact hc (List.cons.inj he).1

/-- Colons between fields stand alone. -/
theorem halves_fields (h : ∀ w ∈ fields, Field w) (v : Text) :
    halves acc ([':'].intercalate fields ++ v) = halves (([':'].intercalate fields).reverse ++ acc) v := by
  induction fields generalizing acc with
  | nil => rfl
  | cons w fields ih =>
    have hw := h w List.mem_cons_self
    cases fields with
    | nil => rw [List.intercalate_singleton, halves_word hw.2]
    | cons x fields =>
      have hx := head_fields (h x (List.mem_cons_of_mem w List.mem_cons_self)) fields v
      rw [List.intercalate_cons_cons, List.append_assoc, List.append_assoc, halves_word hw.2,
        List.singleton_append,
        halves.eq_2 _ _ _ fun cs _ he => hx cs he, ih fun y hy => h y (List.mem_cons_of_mem w hy)]
      simp

theorem halves_full (h : ∀ w ∈ fields, Field w) :
    halves [] ([':'].intercalate fields) = [[':'].intercalate fields] := by
  have hparts : halves [] ([':'].intercalate fields ++ []) =
      halves (([':'].intercalate fields).reverse ++ []) [] :=
    halves_fields h []
  rw [List.append_nil, List.append_nil] at hparts
  rw [hparts, halves, List.reverse_reverse]

theorem halves_double (hl : ∀ w ∈ left, Field w) (hr : ∀ w ∈ right, Field w) :
    halves [] ([':'].intercalate left ++ [':', ':'] ++ [':'].intercalate right) =
      [[':'].intercalate left, [':'].intercalate right] := by
  rw [List.append_assoc, halves_fields hl, List.append_nil, List.cons_append, List.singleton_append, halves,
    List.reverse_reverse, halves_full hr]

theorem parts_fields (h : ∀ w ∈ fields, Field w) : parts ([':'].intercalate fields) = fields := by
  cases fields with
  | nil => rfl
  | cons w fields =>
    have hne : [':'].intercalate (w :: fields) ≠ [] := by
      intro he
      rw [List.intercalate, List.flatten_eq_nil_iff] at he
      refine (h w List.mem_cons_self).1 (he w ?_)
      cases fields with
      | nil => exact List.mem_cons_self
      | cons x fields => exact List.mem_cons_self
    rw [parts, if_neg hne, List.splitOn_intercalate ':' (fun x hx => (h x hx).2) (List.cons_ne_nil w fields)]

theorem filter_fields (h : ∀ w ∈ fields, ':' ∉ w) :
    ([':'].intercalate fields).filter (· ≠ ':') = fields.flatten := by
  induction fields with
  | nil => rfl
  | cons w fields ih =>
    have hw : w.filter (· ≠ ':') = w :=
      List.filter_eq_self.mpr fun c hc => decide_eq_true fun he => h w List.mem_cons_self (he ▸ hc)
    have hrest := ih fun x hx => h x (List.mem_cons_of_mem w hx)
    cases fields with
    | nil => rw [List.intercalate_singleton, hw, List.flatten_singleton]
    | cons x fields =>
      rw [List.intercalate_cons_cons, List.filter_append, List.filter_append, hw, hrest, List.flatten_cons]
      simp

theorem intersperse_injective {c : Char} : Function.Injective (List.intersperse c) := by
  intro l m h
  apply List.ext_getElem?
  intro i
  rw [← List.getElem?_intersperse_two_mul , h, List.getElem?_intersperse_two_mul]

theorem map_intersperse (f : Char → Char) (c : Char) (l : Text) :
    (l.intersperse c).map f = (l.map f).intersperse (f c) := by
  induction l with
  | nil => rfl
  | cons d l ih =>
    cases l with
    | nil => rfl
    | cons e l =>
      rw [List.intersperse_cons_cons, List.map_cons, List.map_cons, ih]
      rfl

end Fields

section Groups

variable {c : Char} {groups : List Group}

theorem hex_plain (h : hexDigit c = true) :
    c.toLower = Nat.digitChar (hexValue c) ∧ hexValue c < 16 ∧ c ≠ ':' ∧ c ≠ '.' := by
  have hrange : (48 ≤ c.toNat ∧ c.toNat ≤ 57) ∨ (97 ≤ c.toNat ∧ c.toNat ≤ 102) ∨
    (65 ≤ c.toNat ∧ c.toNat ≤ 70) := by
    simpa [hexDigit, Char.isDigit, UInt32.le_iff_toNat_le, Char.le_def, or_assoc] using h
  rw [← Char.ofNat_toNat c]
  generalize c.toNat = n at hrange
  obtain ⟨hlo, hhi⟩ | ⟨hlo, hhi⟩ | ⟨hlo, hhi⟩ := hrange
  · interval_cases n <;> decide
  · interval_cases n <;> decide
  · interval_cases n <;> decide

def zeroGroup : Group := ⟨['0', '0', '0', '0'], by simp; decide, by decide, by decide⟩

def Group.digitsOf (g : Group) : List Nat := (padStart g.text).reverse.map hexValue

theorem Group.mem_pad (g : Group) (h : c ∈ padStart g.text) : hexDigit c = true := by
  obtain h | h := List.mem_append.mp h
  · rw [List.eq_of_mem_replicate h]
    decide
  · exact g.digits c h

theorem Group.length_digitsOf (g : Group) : g.digitsOf.length = 4 := by
  rw [digitsOf, List.length_map, List.length_reverse, padStart, List.length_append, List.length_replicate]
  exact Nat.sub_add_cancel g.short

theorem Group.ofDigits_digitsOf (g : Group) : Nat.ofDigits 16 g.digitsOf = g.value := by
  rw [digitsOf, padStart, List.reverse_append, List.map_append, List.reverse_replicate, List.map_replicate]
  exact Nat.ofDigits_append_replicate_zero _

theorem Group.field (g : Group) : Field g.text := ⟨g.nonempty, fun h => (hex_plain (g.digits _ h)).2.2.1 rfl⟩

/-- The nibbles of filled up groups are those of the number that they write. -/
theorem nibbles_groups (h : groups.length = 8) :
    ((groups.map fun g => padStart g.text).flatten.reverse).map Char.toLower =
      (places 16 32 (Nat.ofDigits (2 ^ 16) (groups.map Group.value).reverse)).map Nat.digitChar := by
  have hdigits : ((groups.map fun g => padStart g.text).flatten.reverse).map hexValue =
      (groups.reverse.map Group.digitsOf).flatten := by
    rw [List.reverse_flatten, List.map_flatten, List.map_reverse, List.map_map, List.map_map,
      ← List.map_reverse]
    rfl
  have hlower : ((groups.map fun g => padStart g.text).flatten.reverse).map Char.toLower =
      (((groups.map fun g => padStart g.text).flatten.reverse).map hexValue).map Nat.digitChar := by
    rw [List.map_map]
    refine List.map_congr_left fun c hc => ?_
    obtain ⟨w, hw, hc⟩ := List.mem_flatten.mp (List.mem_reverse.mp hc)
    obtain ⟨g, -, rfl⟩ := List.mem_map.mp hw
    exact (hex_plain (g.mem_pad hc)).1
  have hblocks : ∀ l ∈ groups.reverse.map Group.digitsOf, l.length = 4 := by
    intro l hl
    obtain ⟨g, -, rfl⟩ := List.mem_map.mp hl
    exact g.length_digitsOf
  have hvalue : Nat.ofDigits 16 (groups.reverse.map Group.digitsOf).flatten =
      Nat.ofDigits (2 ^ 16) (groups.map Group.value).reverse := by
    rw [ofDigits_flatten hblocks, List.map_map, ← List.map_reverse]
    exact congrArg (Nat.ofDigits (16 ^ 4)) (List.map_congr_left fun g _ => g.ofDigits_digitsOf)
  have hlength : (groups.reverse.map Group.digitsOf).flatten.length = 32 := by
    rw [length_blocks hblocks, List.length_map, List.length_reverse, h]
  have hsmall : ∀ d ∈ (groups.reverse.map Group.digitsOf).flatten, d < 16 := by
    intro d hd
    obtain ⟨l, hl, hd⟩ := List.mem_flatten.mp hd
    obtain ⟨g, -, rfl⟩ := List.mem_map.mp hl
    obtain ⟨c, hc, rfl⟩ := List.mem_map.mp hd
    exact (hex_plain (g.mem_pad (List.mem_reverse.mp hc))).2.1
  rw [hlower, hdigits, ← hvalue, ← hlength, places_ofDigits hsmall]

end Groups

section Spellings

variable {s : Spelling} {fields : List Text}

def Spelling.groups (s : Spelling) : List Group :=
  s.left ++ List.replicate (8 - s.left.length - (s.right.getD []).length) zeroGroup ++ s.right.getD []

theorem words_groups (h : s.quad = none) : s.words = s.groups.map Group.value := by
  rw [Spelling.words, Spelling.groups, h, Option.elim_none, List.append_nil, List.length_map, List.map_append,
    List.map_append, List.map_replicate]
  rfl

theorem Quad.not_mem_text {c : Char} (hd : c.isDigit = false) (hc : c ≠ '.') (q : Quad) : c ∉ q.text := by
  have hjoin : c ∉ (join '.' (q.octets.map (Nat.toDigits 10))).toList := by
    refine not_mem_join hc fun o ho => ?_
    obtain ⟨n, -, rfl⟩ := List.mem_map.mp ho
    exact not_mem_decimal hd
  rwa [join, String.toList_ofList] at hjoin

theorem Quad.point_mem (q : Quad) : '.' ∈ q.text := by
  rw [Quad.text, dottedDecimal, Quad.octets, List.map_cons, List.map_cons, List.intercalate_cons_cons]
  simp

theorem tail_field : ∀ w ∈ s.tail, Field w := by
  intro w hw
  obtain ⟨q, -, rfl⟩ := List.mem_map.mp hw
  exact ⟨List.ne_nil_of_mem q.point_mem, q.not_mem_text (by decide) (by decide)⟩

theorem texts_field (groups : List Group) : ∀ w ∈ groups.map Group.text, Field w := by
  intro w hw
  obtain ⟨g, -, rfl⟩ := List.mem_map.mp hw
  exact g.field

theorem texts_tail_field (groups : List Group) : ∀ w ∈ groups.map Group.text ++ s.tail, Field w := fun w hw =>
  (List.mem_append.mp hw).elim (texts_field groups w) (tail_field w)

theorem length_tail : s.tail.length ≤ s.quad.elim 0 fun _ => 2 := by
  rw [Spelling.tail]
  cases s.quad with
  | none => exact Nat.le_refl 0
  | some q => exact Nat.le_succ 1

theorem left_ne_nil (hright : s.right = none) : s.left.map Group.text ++ s.tail ≠ [] := by
  intro he
  have hfits := s.fits
  rw [hright, Option.elim_none, List.map_eq_nil_iff.mp (List.append_eq_nil_iff.mp he).1] at hfits
  cases hquad : s.quad with
  | none =>
    rw [hquad] at hfits
    cases hfits
  | some q =>
    rw [hquad] at hfits
    cases hfits

theorem expandIpv6_full (hright : s.right = none) :
    expandIpv6 s.text = .ok ([':'].intercalate ((s.left.map Group.text ++ s.tail).map padStart)) := by
  rw [Spelling.text, hright, expandIpv6, halves_full (texts_tail_field s.left),
    List.splitOn_intercalate ':' (fun w hw => (texts_tail_field s.left w hw).2) (left_ne_nil hright)]
  rfl

theorem fillZeros_ok {m n : Nat} (h : m + n ≤ 8) :
    fillZeros (8 - m - n) = .ok (List.replicate (8 - m - n) ['0', '0', '0', '0']) := by
  have hsub : (8 - m - n : Int) = ((8 - m - n : Nat) : Int) := by omega
  rw [fillZeros, hsub, if_pos (Int.natCast_nonneg _), Int.toNat_natCast]

theorem expandIpv6_double {right : List Group} (hright : s.right = some right) :
    ∃ n, expandIpv6 s.text = .ok ([':'].intercalate ((s.left.map Group.text ++
      List.replicate n ['0', '0', '0', '0'] ++ (right.map Group.text ++ s.tail)).map padStart)) ∧
      (s.quad = none → n = 8 - s.left.length - right.length) := by
  have hfits := s.fits
  rw [hright, Option.elim_some] at hfits
  have hcount : (s.left.map Group.text).length + (right.map Group.text ++ s.tail).length ≤ 8 := by
    have htail := length_tail (s := s)
    rw [List.length_append, List.length_map, List.length_map]
    omega
  refine ⟨8 - (s.left.map Group.text).length - (right.map Group.text ++ s.tail).length, ?_, fun h => ?_⟩
  · rw [Spelling.text, hright, expandIpv6]
    dsimp only
    rw [halves_double (texts_field s.left) (texts_tail_field right)]
    dsimp only
    rw [parts_fields (texts_field s.left), parts_fields (texts_tail_field right), fillZeros_ok hcount]
    rfl
  · rw [Spelling.tail, h, Option.toList_none, List.map_nil, List.append_nil, List.length_map, List.length_map]

theorem colon_mem (h : 2 ≤ fields.length) : ':' ∈ [':'].intercalate fields := by
  cases fields with
  | nil => cases h
  | cons w fields =>
    cases fields with
    | nil => exact absurd h (by simp)
    | cons x fields =>
      rw [List.intercalate_cons_cons]
      simp

theorem colon_text (s : Spelling) : ':' ∈ s.text := by
  have hfits := s.fits
  rw [Spelling.text]
  cases hright : s.right with
  | none =>
    refine colon_mem ?_
    rw [hright, Option.elim_none] at hfits
    rw [List.length_append, List.length_map, Spelling.tail]
    cases hquad : s.quad with
    | none =>
      rw [hquad, Option.elim_none] at hfits
      omega
    | some q =>
      rw [hquad, Option.elim_some] at hfits
      omega
  | some right => simp

theorem pad_not_mem {w : Text} (h : ':' ∉ w) : ':' ∉ padStart w := by
  intro hmem
  obtain hmem | hmem := List.mem_append.mp hmem
  · exact absurd (List.eq_of_mem_replicate hmem) (by decide)
  · exact h hmem

/-- The name is made of all that is left when the colons are gone. -/
theorem ipToPtrName_of (h : expandIpv6 s.text = .ok ([':'].intercalate (fields.map padStart)))
    (hfields : ∀ w ∈ fields, ':' ∉ w) :
    ipToPtrName s.text = .ok ((fields.map padStart).flatten.reverse.intersperse '.' ++
      ['.', 'i', 'p', '6', '.', 'a', 'r', 'p', 'a']) := by
  have hpad : ∀ w ∈ fields.map padStart, ':' ∉ w := by
    intro w hw
    obtain ⟨x, hx, rfl⟩ := List.mem_map.mp hw
    exact pad_not_mem (hfields x hx)
  rw [ipToPtrName, if_pos (colon_text s), h, ← filter_fields hpad]
  rfl

theorem ipToPtrName_text (s : Spelling) : ∃ fields : List Text,
    ipToPtrName s.text = .ok ((fields.map padStart).flatten.reverse.intersperse '.' ++
      ['.', 'i', 'p', '6', '.', 'a', 'r', 'p', 'a']) ∧
    (s.quad = none → fields = s.groups.map Group.text) ∧ ∀ q, s.quad = some q → q.text ∈ fields := by
  have htail : ∀ q, s.quad = some q → q.text ∈ s.tail := fun q hq => by
    rw [Spelling.tail, hq]
    exact List.mem_singleton_self _
  cases hright : s.right with
  | none =>
    refine ⟨_, ipToPtrName_of (expandIpv6_full hright) fun w hw => (texts_tail_field s.left w hw).2,
      fun h => ?_,
      fun q hq => List.mem_append_right _ (htail q hq)⟩
    have hfits := s.fits
    rw [hright, h, Option.elim_none, Option.elim_none] at hfits
    have hlength : s.left.length = 8 := hfits
    rw [Spelling.groups, Spelling.tail, h, hright, hlength]
    simp
  | some right =>
    obtain ⟨n, hexpand, hn⟩ := expandIpv6_double hright
    refine ⟨_, ipToPtrName_of hexpand fun w hw => ?_, fun h => ?_,
      fun q hq => List.mem_append_right _ (List.mem_append_right _ (htail q hq))⟩
    · obtain hw | hw := List.mem_append.mp hw
      · obtain hw | hw := List.mem_append.mp hw
        · exact (texts_field s.left w hw).2
        · rw [List.eq_of_mem_replicate hw]
          decide
      · exact (texts_tail_field right w hw).2
    · rw [hn h, Spelling.groups, Spelling.tail, h, hright]
      simp [zeroGroup]

theorem length_groups (h : s.quad = none) : s.groups.length = 8 := by
  have hfits := s.fits
  rw [h, Option.elim_none] at hfits
  rw [Spelling.groups, List.length_append, List.length_append, List.length_replicate]
  cases hright : s.right with
  | none =>
    rw [hright, Option.elim_none] at hfits
    rw [Option.getD_none, List.length_nil]
    omega
  | some right =>
    rw [hright, Option.elim_some] at hfits
    rw [Option.getD_some]
    omega

theorem plain_named (h : s.quad = none) : Named s := by
  obtain ⟨fields, hname, hfields, -⟩ := ipToPtrName_text s
  refine ⟨_, hname, ?_⟩
  rw [hfields h, List.map_map, List.map_append, map_intersperse, nibbleName, Spelling.value, words_groups h,
    ← nibbles_groups (length_groups h)]
  rfl

theorem digit_ne_point {d : Nat} (h : d < 16) : Nat.digitChar d ≠ '.' := by
  interval_cases d <;> decide

/-- The points of a quad are taken for nibbles. -/
theorem quad_not_named {q : Quad} (h : s.quad = some q) : ¬ Named s := by
  rintro ⟨name, hname, hlower⟩
  obtain ⟨fields, hfields, -, hmem⟩ := ipToPtrName_text s
  obtain rfl := Except.ok.inj (hname.symm.trans hfields)
  rw [List.map_append, map_intersperse, nibbleName] at hlower
  have hnibbles := intersperse_injective (List.append_cancel_right hlower)
  have hpoint : '.' ∈ (fields.map padStart).flatten :=
    List.mem_flatten.mpr ⟨_, List.mem_map_of_mem (hmem q h), List.mem_append_right _ q.point_mem⟩
  have hfound : Char.toLower '.' ∈ (places 16 32 s.value).map Nat.digitChar :=
    hnibbles ▸ List.mem_map_of_mem (List.mem_reverse.mpr hpoint)
  obtain ⟨d, hd, he⟩ := List.mem_map.mp hfound
  obtain ⟨i, -, rfl⟩ := List.mem_map.mp hd
  exact digit_ne_point (Nat.mod_lt _ (by decide)) he

theorem quad_name (q : Quad) : ipToPtrName q.text =
    .ok (dottedDecimal q.octets.reverse ++
      ['.', 'i', 'n', '-', 'a', 'd', 'd', 'r', '.', 'a', 'r', 'p', 'a']) := by
  have hpoint : ∀ w ∈ q.octets.map (Nat.toDigits 10), '.' ∉ w := by
    intro w hw
    obtain ⟨n, -, rfl⟩ := List.mem_map.mp hw
    exact not_mem_decimal (by decide)
  have hsplit : q.text.splitOn '.' = q.octets.map (Nat.toDigits 10) :=
    List.splitOn_intercalate '.' hpoint (List.cons_ne_nil _ _)
  rw [ipToPtrName, if_neg (q.not_mem_text (by decide) (by decide)), hsplit, dottedDecimal, List.map_reverse]
  rfl

/-- Every form but the one with a quad at its end has the right name. -/
theorem named_iff (q : Quad) (s : Spelling) : ipToPtrName q.text =
      .ok (dottedDecimal q.octets.reverse ++
        ['.', 'i', 'n', '-', 'a', 'd', 'd', 'r', '.', 'a', 'r', 'p', 'a']) ∧
    (Named s ↔ s.quad = none) ∧
    ∀ t : Spelling, s.value = t.value → s.quad = none → t.quad = none → ∃ m n, ipToPtrName s.text = .ok m ∧
      ipToPtrName t.text = .ok n ∧ m.map Char.toLower = n.map Char.toLower := by
  refine ⟨quad_name q, ⟨fun h => ?_, plain_named⟩, fun t hvalue hs ht => ?_⟩
  · cases hquad : s.quad with
    | none => rfl
    | some r => exact absurd h (quad_not_named hquad)
  · obtain ⟨m, hm, hlowerm⟩ := plain_named hs
    obtain ⟨n, hn, hlowern⟩ := plain_named ht
    exact ⟨m, n, hm, hn, by rw [hlowerm, hlowern, hvalue]⟩

def oneDigit (c : Char) (h : hexDigit c = true) : Group :=
  ⟨[c], fun _ hd => List.mem_singleton.mp hd ▸ h, List.cons_ne_nil c [], by simp⟩

def shortLoopback : Spelling where
  left := []
  right := some [oneDigit '1' (by decide)]
  quad := none
  fits := by simp

def longLoopback : Spelling where
  left := List.replicate 7 (oneDigit '0' (by decide)) ++ [oneDigit '1' (by decide)]
  right := none
  quad := none
  fits := by simp

theorem named_iff_loopback : ∃ m n, ipToPtrName shortLoopback.text = .ok m ∧
    ipToPtrName longLoopback.text = .ok n ∧ m.map Char.toLower = n.map Char.toLower :=
  (named_iff ⟨127, 0, 0, 1⟩ shortLoopback).2.2 longLoopback (by decide) rfl rfl

def mapped : Spelling where
  left := []
  right := some [⟨['f', 'f', 'f', 'f'], by simp; decide, by decide, by decide⟩]
  quad := some ⟨1, 2, 3, 4⟩
  fits := by simp

theorem mapped_not_named : mapped.text = "::ffff:1.2.3.4".toList ∧
    ipToPtrName mapped.text = .ok (("4...3...2...1.f.f.f.f" ++
      ".0.0.0.0.0.0.0.0.0.0.0.0.0.0.0.0.0.0.0.0.0.0.0.0.ip6.arpa").toList) ∧ ¬ Named mapped :=
  ⟨by decide, by decide, quad_not_named rfl⟩

end Spellings

end Polaris.PtrNames
