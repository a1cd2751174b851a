import Polaris.Lib.Joins
import Polaris.Lib.Trim
import Polaris.Reservations

namespace Polaris.IntegrationFilter

open Polaris.Lib.Joins Polaris.Lib.Text Polaris.Lib.Trim
open Polaris.Reservations (truthy)

section Matching

variable (toLowerCase : String → String)

def matchesWildcard (pattern value : String) : Bool :=
  let p := (toLowerCase pattern).toList
  let v := (toLowerCase value).toList
  if p = ['*'] then true
  else if p.head? = some '*' ∧ p.getLast? = some '*' ∧ 2 < p.length then
    v.tails.any fun rest => p.tail.dropLast.isPrefixOf rest
  else if p.head? = some '*' then p.tail.isSuffixOf v
  else if p.getLast? = some '*' then p.dropLast.isPrefixOf v
  else v = p

/-- What a list of patterns to include and one to exclude make of a device. -/
def keeps (seen : String → Bool) (incl excl : List String) : Bool :=
  if incl ≠ [] then incl.any seen
  else if excl ≠ [] then ! excl.any seen
  else true

def filterDevices {Device : Type} (seen : Device → String → Bool) (devices : List Device)
    (incl excl : Option (List String)) : List Device :=
  devices.filter fun d => keeps (seen d) (incl.getD []) (excl.getD [])

end Matching

section Devices

structure FortiManagerDevice where
  name : String := ""
  hostname : String := ""
  deriving DecidableEq

structure DiscoveredEntraDevice where
  displayName : String
  deriving DecidableEq

structure DiscoveredAdDevice where
  cn : String
  distinguishedName : String
  deriving DecidableEq

variable (toLowerCase : String → String)

namespace FortiManager

def matchDevice (d : FortiManagerDevice) (pattern : String) : Bool :=
  matchesWildcard toLowerCase pattern d.name ||
    (d.hostname ≠ "" && matchesWildcard toLowerCase pattern d.hostname)

def filterDevices (devices : List FortiManagerDevice) (incl excl : Option (List String)) :
    List FortiManagerDevice :=
  IntegrationFilter.filterDevices (matchDevice toLowerCase) devices incl excl

end FortiManager

namespace Entra

def filterDevices (devices : List DiscoveredEntraDevice) (incl excl : Option (List String)) :
    List DiscoveredEntraDevice :=
  IntegrationFilter.filterDevices (fun d p => matchesWildcard toLowerCase p d.displayName) devices incl excl

end Entra

namespace ActiveDirectory

def filterDevices (devices : List DiscoveredAdDevice) (incl excl : Option (List String)) :
    List DiscoveredAdDevice :=
  IntegrationFilter.filterDevices (fun d p => matchesWildcard toLowerCase p d.distinguishedName) devices
    incl excl

def splitUnescaped (before : Option Char) : List Char → List (List Char)
  | [] => [[]]
  | c :: cs =>
    if c = ',' ∧ before ≠ some '\\' then [] :: splitUnescaped (some c) cs
    else
      match splitUnescaped (some c) cs with
      | [] => [[c]]
      | part :: parts => (c :: part) :: parts

variable (toUpperCase : String → String)

def deriveOuPath (dn : String) : String :=
  let parts := (splitUnescaped none dn.toList).map fun p => trim (String.ofList p)
  let ous := parts.filter fun p => "OU=".toList.isPrefixOf (toUpperCase p).toList
  join '/' (ous.reverse.map String.toList)

end ActiveDirectory

end Devices

section Assets

inductive IntegrationType
  | fortimanager | fortigate | entraid | activedirectory
  | other (name : String)
  deriving DecidableEq

def IntegrationType.text : IntegrationType → String
  | .fortimanager => "fortimanager"
  | .fortigate => "fortigate"
  | .entraid => "entraid"
  | .activedirectory => "activedirectory"
  | .other name => name

structure Config where
  deviceInclude : Option (List String) := none
  deviceExclude : Option (List String) := none
  ouInclude : Option (List String) := none
  ouExclude : Option (List String) := none

structure IntegrationLite where
  type : IntegrationType
  config : Config

structure AssetLite where
  hostname : Option String := none
  learnedLocation : Option String := none
  adOuPath : Option String := none

structure FilterResult where
  included : Bool
  reason : Option String := none
  deriving DecidableEq

def asStringArray (v : Option (List String)) : List String := (v.getD []).filter (· ≠ "")

def decideBy (refreshed : String → Bool) (incl excl : List String) (missed : String)
    (barred : String → String) : FilterResult :=
  if incl ≠ [] then
    if incl.any refreshed then { included := true } else { included := false, reason := some missed }
  else
    match excl.find? refreshed with
    | some blocked => { included := false, reason := some (barred blocked) }
    | none => { included := true }

variable (toLowerCase : String → String)

def byHostname (type : String) (asset : AssetLite) (config : Config) : FilterResult :=
  match truthy asset.hostname with
  | none => { included := true }
  | some candidate =>
    decideBy (fun p => matchesWildcard toLowerCase p candidate) (asStringArray config.deviceInclude)
      (asStringArray config.deviceExclude)
      ("Excluded by " ++ type ++ " integration deviceInclude (" ++ candidate ++ " matches no pattern)")
      (fun blocked => "Excluded by " ++ type ++ " integration deviceExclude pattern \"" ++ blocked ++ "\"")

def ouPathOf (asset : AssetLite) : String :=
  trim (((truthy asset.adOuPath).or (truthy asset.learnedLocation)).getD "")

def candidates (asset : AssetLite) : List String :=
  ouPathOf asset :: (truthy asset.hostname).toList.map fun h => "CN=" ++ h ++ "," ++ ouPathOf asset

def byOuPath (asset : AssetLite) (config : Config) : FilterResult :=
  if ouPathOf asset = "" then { included := true }
  else
    decideBy (fun p => (candidates asset).any (matchesWildcard toLowerCase p ·))
      (asStringArray config.ouInclude) (asStringArray config.ouExclude)
      ("Excluded by activedirectory integration ouInclude (no pattern matches OU \"" ++ ouPathOf asset ++
        "\")")
      (fun blocked => "Excluded by activedirectory integration ouExclude pattern \"" ++ blocked ++ "\"")

def assetMatchesIntegrationFilter (asset : AssetLite) (integration : IntegrationLite) : FilterResult :=
  match integration.type with
  | .fortimanager | .fortigate | .entraid =>
    byHostname toLowerCase integration.type.text asset integration.config
  | .activedirectory => byOuPath toLowerCase asset integration.config
  | .other _ => { included := true }

/-- A text of a source as the asset takes it over. -/
def obsString (s : String) : Option String := truthy (some (trim s))

def fortiManagerAsset (d : FortiManagerDevice) : Option AssetLite :=
  ((truthy (some d.hostname)).or (truthy (some d.name))).map fun fgHostname =>
    { hostname := some ((obsString fgHostname).getD fgHostname), learnedLocation := some fgHostname }

def entraAsset (d : DiscoveredEntraDevice) : AssetLite := { hostname := obsString d.displayName }

variable (toUpperCase : String → String)

def adAsset (d : DiscoveredAdDevice) : AssetLite :=
  let ouPath := ActiveDirectory.deriveOuPath toUpperCase d.distinguishedName
  { hostname := some d.cn, learnedLocation := truthy (some ouPath), adOuPath := some ouPath }

end Assets

section Shapes

/-- What a pattern asks for, by where its stars stand. -/
inductive Shape
  | any
  | inside (word : List Char)
  | atEnd (word : List Char)
  | atStart (word : List Char)
  | whole (word : List Char)
  deriving DecidableEq

def shapeOf (p : List Char) : Shape :=
  if p = ['*'] then .any
  else if p.head? = some '*' ∧ p.getLast? = some '*' ∧ 2 < p.length then .inside p.tail.dropLast
  else if p.head? = some '*' then .atEnd p.tail
  else if p.getLast? = some '*' then .atStart p.dropLast
  else .whole p

namespace Shape

def Fits (text : List Char) : Shape → Prop
  | any => True
  | inside w => w <:+: text
  | atEnd w => w <:+ text
  | atStart w => w <+: text
  | whole w => text = w

/-- The same of a text that is joined from parts, told part by part. -/
def Lies (sep : Char) (parts : List (List Char)) : Shape → Prop
  | any => True
  | inside w => (∃ p ∈ parts, w <:+: p) ∨ Over sep parts w
  | atEnd w => Ends sep parts w
  | atStart w => Begins sep parts w
  | whole w => [sep].intercalate parts = w

theorem fits_joined {sep : Char} {parts : List (List Char)} (hne : parts ≠ []) (shape : Shape) :
    shape.Fits ([sep].intercalate parts) ↔ shape.Lies sep parts := by
  cases shape with
  | any | whole w => exact Iff.rfl
  | inside w => exact infix_iff hne
  | atEnd w => exact ends_iff
  | atStart w => exact begins_iff

end Shape

theorem matchesWildcard_iff (toLowerCase : String → String) (pattern value : String) :
    matchesWildcard toLowerCase pattern value = true ↔
      (shapeOf (toLowerCase pattern).toList).Fits (toLowerCase value).toList := by
  unfold matchesWildcard shapeOf
  dsimp only
  split_ifs
  · exact iff_of_true rfl trivial
  · rw [Shape.Fits, List.infix_iff_prefix_suffix, List.any_eq_true]
    simp only [List.mem_tails, List.isPrefixOf_iff_prefix, and_comm]
  · exact List.isSuffixOf_iff_suffix
  · exact List.isPrefixOf_iff_prefix
  · exact decide_eq_true_iff

end Shapes

section Scope

variable {D R : String → Prop} {seen refreshed : String → Bool} {incl excl : List String}

/-- Some pattern is read by both, none by either, or one that discovery alone
reads is made up for by one that the refresh alone reads. -/
def Balanced (D R : String → Prop) (patterns : List String) : Prop :=
  (∃ p ∈ patterns, D p ∧ R p) ∨ (∀ p ∈ patterns, ¬ D p ∧ ¬ R p) ∨
    (∃ p ∈ patterns, D p ∧ ¬ R p) ∧ ∃ p ∈ patterns, R p ∧ ¬ D p

/-- The list in force is balanced. An include list of nothing but empty patterns
leaves the refresh to the exclude list. -/
def Alike (D R : String → Prop) (incl excl : List String) : Prop :=
  if incl = [] then Balanced D R excl
  else if ∀ p ∈ incl, p = "" then D "" ↔ ∀ p ∈ excl, ¬ R p
  else Balanced D R incl

/-- Without a text the refresh keeps everything, and so must the patterns. -/
def Untold (D : String → Prop) (incl excl : List String) : Prop :=
  if incl = [] then ∀ p ∈ excl, ¬ D p else ∃ p ∈ incl, D p

theorem balanced_iff (patterns : List String) :
    ((∃ p ∈ patterns, R p) ↔ ∃ p ∈ patterns, D p) ↔ Balanced D R patterns := by
  constructor
  · intro h
    by_cases hD : ∃ p ∈ patterns, D p
    · obtain ⟨q, hq, hRq⟩ := h.mpr hD
      obtain ⟨p, hp, hDp⟩ := hD
      by_cases hboth : ∃ p ∈ patterns, D p ∧ R p
      · exact .inl hboth
      · exact .inr (.inr ⟨⟨p, hp, hDp, fun hR => hboth ⟨p, hp, hDp, hR⟩⟩,
          q, hq, hRq, fun hD => hboth ⟨q, hq, hD, hRq⟩⟩)
    · exact .inr (.inl fun p hp => ⟨fun h => hD ⟨p, hp, h⟩, fun hR => hD (h.mp ⟨p, hp, hR⟩)⟩)
  · rintro (⟨p, hp, hD, hR⟩ | hnone | ⟨⟨p, hp, hD, -⟩, q, hq, hR, -⟩)
    · exact iff_of_true ⟨p, hp, hR⟩ ⟨p, hp, hD⟩
    · exact iff_of_false (fun ⟨p, hp, hR⟩ => (hnone p hp).2 hR) fun ⟨p, hp, hD⟩ => (hnone p hp).1 hD
    · exact iff_of_true ⟨q, hq, hR⟩ ⟨p, hp, hD⟩

theorem decideBy_included (missed : String) (barred : String → String) :
    (decideBy refreshed incl excl missed barred).included = keeps refreshed incl excl := by
  unfold decideBy keeps
  by_cases hi : incl = []
  · rw [if_neg (not_not_intro hi), if_neg (not_not_intro hi)]
    cases hf : excl.find? refreshed with
    | none =>
      have hany : excl.any refreshed = false := by
        rw [List.any_eq_false]
        exact List.find?_eq_none.mp hf
      rw [hany]
      simp
    | some p =>
      have hany : excl.any refreshed = true :=
        List.any_eq_true.mpr ⟨p, List.mem_of_find?_eq_some hf, List.find?_some hf⟩
      have hne : excl ≠ [] := List.ne_nil_of_mem (List.mem_of_find?_eq_some hf)
      rw [if_pos hne, hany]
      rfl
  · rw [if_pos hi, if_pos hi]
    cases incl.any refreshed <;> rfl

theorem keeps_iff : keeps seen incl excl = true ↔
    if incl = [] then ∀ p ∈ excl, ¬ seen p else ∃ p ∈ incl, seen p := by
  unfold keeps
  by_cases hi : incl = []
  · rw [if_neg (not_not_intro hi), if_pos hi]
    by_cases he : excl = []
    · simp [he]
    · simp [he]
  · rw [if_pos hi, if_neg hi, List.any_eq_true]

theorem keeps_clean (v w : Option (List String)) :
    keeps refreshed (asStringArray v) (asStringArray w) = true ↔
      if ∀ p ∈ v.getD [], p = "" then ∀ p ∈ w.getD [], p ≠ "" → ¬ refreshed p
      else ∃ p ∈ v.getD [], p ≠ "" ∧ refreshed p := by
  have hnil : asStringArray v = [] ↔ ∀ p ∈ v.getD [], p = "" := by simp [asStringArray]
  rw [keeps_iff]
  by_cases hv : ∀ p ∈ v.getD [], p = ""
  · rw [if_pos (hnil.mpr hv), if_pos hv]
    simp [asStringArray]
  · rw [if_neg (mt hnil.mp hv), if_neg hv]
    simp [asStringArray, and_assoc]

theorem alike_iff (v w : Option (List String)) (hD : ∀ p, seen p = true ↔ D p)
    (hR : ∀ p, refreshed p = true ↔ R p)
    (hempty : ¬ R "") :
    (keeps refreshed (asStringArray v) (asStringArray w) = true ↔ keeps seen (v.getD []) (w.getD []) = true) ↔
      Alike D R (v.getD []) (w.getD []) := by
  have hne : ∀ p, R p → p ≠ "" := fun p hp he => hempty (he ▸ hp)
  have hread : (∃ p ∈ v.getD [], p ≠ "" ∧ R p) ↔ ∃ p ∈ v.getD [], R p :=
    exists_congr fun p => and_congr_right fun _ => and_iff_right_of_imp (hne p)
  have hbarred : (∀ p ∈ w.getD [], p ≠ "" → ¬ R p) ↔ ∀ p ∈ w.getD [], ¬ R p :=
    forall₂_congr fun p _ => ⟨fun h hp => h (hne p hp) hp, fun h _ => h⟩
  rw [keeps_clean, keeps_iff, Alike]
  simp only [hD, hR]
  rw [hread, hbarred]
  by_cases hnil : v.getD [] = []
  · have hall : ∀ p ∈ v.getD [], p = "" := by simp [hnil]
    have hnot : ∀ Q : String → Prop, (∀ p ∈ w.getD [], ¬ Q p) ↔ ¬ ∃ p ∈ w.getD [], Q p := by simp
    rw [if_pos hall, if_pos hnil, if_pos hnil, hnot, hnot, not_iff_not]
    exact balanced_iff _
  · rw [if_neg hnil, if_neg hnil]
    by_cases hall : ∀ p ∈ v.getD [], p = ""
    · obtain ⟨q, hq⟩ := List.exists_mem_of_ne_nil _ hnil
      have hfirst : (∃ p ∈ v.getD [], D p) ↔ D "" :=
        ⟨fun ⟨p, hp, h⟩ => hall p hp ▸ h, fun h => ⟨q, hq, (hall q hq).symm ▸ h⟩⟩
      rw [if_pos hall, if_pos hall, hfirst]
      exact iff_comm
    · rw [if_neg hall, if_neg hall]
      exact balanced_iff _

theorem untold_iff (v w : Option (List String)) (hD : ∀ p, seen p = true ↔ D p) :
    (true = true ↔ keeps seen (v.getD []) (w.getD []) = true) ↔ Untold D (v.getD []) (w.getD []) := by
  rw [keeps_iff, Untold]
  simp only [hD, true_iff]

end Scope

section Letters

/-- The letter case of the language. A comma or a slash has none and bears on
none around it, and blanks stay blanks. -/
structure Letters where
  toLowerCase : String → String
  toUpperCase : String → String
  lower_sep (s t : String) {sep : Char} (h : sep = ',' ∨ sep = '/') :
    toLowerCase (s ++ String.singleton sep ++ t) = toLowerCase s ++ String.singleton sep ++ toLowerCase t
  lower_trim (s : String) : toLowerCase (trim s) = trim (toLowerCase s)
  lower_empty (s : String) : toLowerCase s = "" ↔ s = ""
  upper_empty : toUpperCase "" = ""

namespace Letters

variable (L : Letters)

def text (s : String) : List Char := (L.toLowerCase s).toList

def asks (pattern : String) : Shape := shapeOf (L.text pattern)

theorem fits_empty (s : String) : (L.asks "").Fits (L.text s) ↔ s = "" := by
  have hempty : L.text "" = [] := String.toList_eq_nil_iff.mpr ((L.lower_empty "").mpr rfl)
  have hasks : L.asks "" = .whole [] := by
    rw [asks, hempty]
    rfl
  rw [hasks, Shape.Fits, text, String.toList_eq_nil_iff, L.lower_empty]

theorem text_sep {s t : String} {sep : Char} (h : sep = ',' ∨ sep = '/') :
    L.text (s ++ String.singleton sep ++ t) = L.text s ++ sep :: L.text t := by
  rw [text, L.lower_sep s t h, String.toList_append, String.toList_append, String.toList_singleton,
    List.append_assoc]
  rfl

/-- The case of what is joined is the case of its parts. -/
theorem text_join {sep : Char} (h : sep = ',' ∨ sep = '/') (parts : List (List Char)) :
    L.text (join sep parts) = [sep].intercalate (parts.map fun p => L.text (String.ofList p)) := by
  induction parts with
  | nil => exact String.toList_eq_nil_iff.mpr ((L.lower_empty _).mpr rfl)
  | cons p ps ih =>
    cases ps with
    | nil => rw [join, List.intercalate_singleton, List.map_singleton, List.intercalate_singleton]
    | cons q ps =>
      have hjoin : join sep (p :: q :: ps) = String.ofList p ++ String.singleton sep ++
        join sep (q :: ps) := by
        apply String.toList_inj.mp
        simp [join]
      rw [hjoin, text_sep L h, ih]
      exact (intercalate_cons _ _ (ps.map _)).symm

end Letters

end Letters

section Units

variable (L : Letters) (dn : String)

theorem splitUnescaped_ne_nil (before : Option Char) (cs : List Char) :
    ActiveDirectory.splitUnescaped before cs ≠ [] := by
  cases cs with
  | nil => exact List.cons_ne_nil _ _
  | cons c cs =>
    rw [ActiveDirectory.splitUnescaped]
    split_ifs
    · exact List.cons_ne_nil _ _
    · split <;> exact List.cons_ne_nil _ _

theorem intercalate_splitUnescaped (before : Option Char) (cs : List Char) :
    [','].intercalate (ActiveDirectory.splitUnescaped before cs) = cs := by
  induction cs generalizing before with
  | nil => rfl
  | cons c cs ih =>
    have hrest := ih (some c)
    obtain ⟨part, parts, hparts⟩ := List.exists_cons_of_ne_nil (splitUnescaped_ne_nil (some c) cs)
    rw [ActiveDirectory.splitUnescaped]
    rw [hparts] at hrest ⊢
    split_ifs with hcomma
    · rw [intercalate_cons, hrest, hcomma.1]
      rfl
    · rw [← hrest]
      cases parts with
      | nil => simp only [List.intercalate_singleton]
      | cons q parts => simp only [intercalate_cons, List.cons_append]

/-- The parts of the name, and of those the units from the outermost on. -/
def dnParts : List (List Char) :=
  (ActiveDirectory.splitUnescaped none dn.toList).map fun p => L.text (String.ofList p)

def unitsOf : List String :=
  (((ActiveDirectory.splitUnescaped none dn.toList).map fun p => trim (String.ofList p)).filter fun p =>
    "OU=".toList.isPrefixOf (L.toUpperCase p).toList).reverse

def unitParts : List (List Char) := (unitsOf L dn).map L.text

theorem dnParts_ne_nil : dnParts L dn ≠ [] := fun h => splitUnescaped_ne_nil _ _ (List.map_eq_nil_iff.mp h)

theorem text_dn : L.text dn = [','].intercalate (dnParts L dn) := by
  rw [dnParts, ← L.text_join (.inl rfl), join, intercalate_splitUnescaped, String.ofList_toList]

theorem deriveOuPath_eq : ActiveDirectory.deriveOuPath L.toUpperCase dn = join '/'
    ((unitsOf L dn).map String.toList) :=
  rfl

theorem text_path : L.text (ActiveDirectory.deriveOuPath L.toUpperCase dn) = ['/'].intercalate
    (unitParts L dn) := by
  rw [deriveOuPath_eq, L.text_join (.inr rfl), List.map_map, unitParts]
  congr 2
  funext u
  exact congrArg L.text (String.ofList_toList)

theorem toList_trim (s : String) : (trim s).toList = trimBy isSpace s.toList := String.toList_ofList

variable {L dn} {u : String}

theorem mem_unitsOf (h : u ∈ unitsOf L dn) :
    u ≠ "" ∧ ∃ p ∈ ActiveDirectory.splitUnescaped none dn.toList, u = trim (String.ofList p) := by
  obtain ⟨hmem, hou⟩ := List.mem_filter.mp (List.mem_reverse.mp h)
  obtain ⟨p, hp, rfl⟩ := List.mem_map.mp hmem
  refine ⟨fun he => ?_, p, hp, rfl⟩
  rw [he, L.upper_empty] at hou
  cases hou

/-- What a unit has in it stands in the name and in the path. -/
theorem inside_unit (h : u ∈ unitsOf L dn) {w : List Char} (hw : w <:+: L.text u) :
    (Shape.inside w).Lies ',' (dnParts L dn) ∧ (Shape.inside w).Lies '/' (unitParts L dn) := by
  obtain ⟨-, p, hp, rfl⟩ := mem_unitsOf h
  have htrim : L.text (trim (String.ofList p)) <:+: L.text (String.ofList p) := by
    rw [Letters.text, L.lower_trim, toList_trim]
    exact (List.rdropWhile_prefix _ _).isInfix.trans (List.dropWhile_suffix _).isInfix
  exact ⟨.inl ⟨_, List.mem_map_of_mem hp, hw.trans htrim⟩, .inl ⟨_, List.mem_map_of_mem h, hw⟩⟩

theorem trimBy_join {us : List (List Char)} (h : ∀ u ∈ us, trimBy isSpace u = u) :
    trimBy isSpace (['/'].intercalate us) = ['/'].intercalate us := by
  induction us with
  | nil => rfl
  | cons u us ih =>
    have hu : trimBy isSpace u = u := h u List.mem_cons_self
    cases us with
    | nil => rw [List.intercalate_singleton, hu]
    | cons v us =>
      have hrest := ih fun x hx => h x (List.mem_cons_of_mem u hx)
      have hfirst : u.dropWhile isSpace = u := hu ▸ dropWhile_trimBy isSpace u
      have hlast := hrest ▸ rdropWhile_trimBy isSpace (['/'].intercalate (v :: us))
      rw [intercalate_cons, trimBy_append (by decide), hfirst, hlast]

theorem trim_path : trim (ActiveDirectory.deriveOuPath L.toUpperCase dn) =
    ActiveDirectory.deriveOuPath L.toUpperCase dn := by
  apply String.toList_inj.mp
  rw [toList_trim, deriveOuPath_eq, join, String.toList_ofList]
  refine trimBy_join fun x hx => ?_
  obtain ⟨u, hu, rfl⟩ := List.mem_map.mp hx
  obtain ⟨-, p, -, rfl⟩ := mem_unitsOf hu
  rw [toList_trim, trimBy_trimBy]

theorem path_eq_empty : ActiveDirectory.deriveOuPath L.toUpperCase dn = "" ↔ unitsOf L dn = [] := by
  constructor
  · intro h
    by_contra hne
    obtain ⟨u, us, hunits⟩ := List.exists_cons_of_ne_nil hne
    have hu : u ≠ "" := (mem_unitsOf (hunits ▸ List.mem_cons_self)).1
    rw [deriveOuPath_eq, hunits, ← String.toList_eq_nil_iff, join, String.toList_ofList, List.map_cons] at h
    cases us with
    | nil => exact hu (String.toList_eq_nil_iff.mp (by simpa using h))
    | cons v us => simp at h
  · intro h
    rw [deriveOuPath_eq, h]
    rfl

end Units

section Claims

/-- What must hold of a managed device: discovery reads its name and its
hostname, and the refresh the hostname, or else the name, without blanks. -/
def FortiManagerAlike (L : Letters) (config : Config) (d : FortiManagerDevice) : Prop :=
  ∀ fgHostname ∈ (truthy (some d.hostname)).or (truthy (some d.name)),
    Alike (fun p => (L.asks p).Fits (L.text d.name) ∨ d.hostname ≠ "" ∧ (L.asks p).Fits (L.text d.hostname))
      (fun p => (L.asks p).Fits (L.text (if trim fgHostname = "" then fgHostname else trim fgHostname)))
      (config.deviceInclude.getD []) (config.deviceExclude.getD [])

def EntraAlike (L : Letters) (config : Config) (d : DiscoveredEntraDevice) : Prop :=
  let D p := (L.asks p).Fits (L.text d.displayName)
  if trim d.displayName = "" then Untold D (config.deviceInclude.getD []) (config.deviceExclude.getD [])
  else
    Alike D (fun p => (L.asks p).Fits (L.text (trim d.displayName))) (config.deviceInclude.getD [])
      (config.deviceExclude.getD [])

/-- Discovery reads the parts of the name, with their commas. The refresh reads
the units alone, from the outermost on and with slashes, or after the CN and a
comma. -/
def AdAlike (L : Letters) (config : Config) (d : DiscoveredAdDevice) : Prop :=
  let D p := (L.asks p).Lies ',' (dnParts L d.distinguishedName)
  let units := unitParts L d.distinguishedName
  if unitsOf L d.distinguishedName = [] then Untold D (config.ouInclude.getD []) (config.ouExclude.getD [])
  else
    Alike D
      (fun p => (L.asks p).Lies '/' units ∨
        d.cn ≠ "" ∧ (L.asks p).Lies ',' [L.text ("CN=" ++ d.cn), ['/'].intercalate units])
      (config.ouInclude.getD []) (config.ouExclude.getD [])

variable {L : Letters} {config : Config}

theorem truthy_some_ne {s : String} (h : s ≠ "") : truthy (some s) = some s := by
  simp [truthy, h]

theorem mem_filterDevices {Device : Type} {seen : Device → String → Bool} {devices : List Device} {d : Device}
    {incl excl : Option (List String)} (hd : d ∈ devices) :
    d ∈ filterDevices seen devices incl excl ↔ keeps (seen d) (incl.getD []) (excl.getD []) = true := by
  rw [filterDevices, List.mem_filter, and_iff_right hd]

theorem byHostname_included {toLowerCase : String → String} {asset : AssetLite} {candidate : String}
    (type : String)
    (h : truthy asset.hostname = some candidate) :
    (byHostname toLowerCase type asset config).included =
      keeps (fun p => matchesWildcard toLowerCase p candidate) (asStringArray config.deviceInclude)
        (asStringArray config.deviceExclude) := by
  simp only [byHostname, h, decideBy_included]

theorem obsString_getD (s : String) : (obsString s).getD s = if trim s = "" then s else trim s := by
  by_cases h : trim s = ""
  · rw [obsString, h, if_pos rfl]
    rfl
  · rw [obsString, truthy_some_ne h, if_neg h, Option.getD_some]

theorem matchDevice_iff (d : FortiManagerDevice) (p : String) :
    FortiManager.matchDevice L.toLowerCase d p = true ↔
    (L.asks p).Fits (L.text d.name) ∨ d.hostname ≠ "" ∧ (L.asks p).Fits (L.text d.hostname) := by
  rw [FortiManager.matchDevice, Bool.or_eq_true, Bool.and_eq_true, decide_eq_true_iff, matchesWildcard_iff,
    matchesWildcard_iff]
  rfl

theorem fortiManager_iff {devices : List FortiManagerDevice} {d : FortiManagerDevice} {asset : AssetLite}
    (hd : d ∈ devices) (ha : asset ∈ fortiManagerAsset d) :
    (((assetMatchesIntegrationFilter L.toLowerCase asset ⟨.fortimanager, config⟩).included = true ↔
      d ∈ FortiManager.filterDevices L.toLowerCase devices config.deviceInclude config.deviceExclude) ↔
        FortiManagerAlike L config d) := by
  rw [fortiManagerAsset] at ha
  obtain ⟨fgHostname, hfg, hasset⟩ := Option.map_eq_some_iff.mp ha
  have hne : fgHostname ≠ "" := by
    obtain h | ⟨-, h⟩ := Option.or_eq_some_iff.mp hfg
    · exact (Reservations.truthy_some h).2
    · exact (Reservations.truthy_some h).2
  have hstored : (obsString fgHostname).getD fgHostname ≠ "" := by
    rw [obsString_getD]
    split_ifs with h
    · exact hne
    · exact h
  have htruthy : truthy asset.hostname = some ((obsString fgHostname).getD fgHostname) := by
    rw [← hasset]
    exact truthy_some_ne hstored
  rw [FortiManager.filterDevices, mem_filterDevices hd, assetMatchesIntegrationFilter]
  dsimp only
  rw [byHostname_included _ htruthy, FortiManagerAlike, hfg, obsString_getD]
  rw [obsString_getD] at hstored
  simp only [Option.mem_some_iff, forall_eq']
  exact alike_iff _ _ (matchDevice_iff d) (fun p => matchesWildcard_iff _ p _) fun h =>
    hstored ((L.fits_empty _).mp h)

theorem entra_iff {devices : List DiscoveredEntraDevice} {d : DiscoveredEntraDevice} (hd : d ∈ devices) :
    (((assetMatchesIntegrationFilter L.toLowerCase (entraAsset d) ⟨.entraid, config⟩).included = true ↔
      d ∈ Entra.filterDevices L.toLowerCase devices config.deviceInclude config.deviceExclude) ↔
        EntraAlike L config d) := by
  rw [Entra.filterDevices, mem_filterDevices hd, assetMatchesIntegrationFilter, EntraAlike]
  dsimp only
  by_cases hblank : trim d.displayName = ""
  · have hnone : obsString d.displayName = none := by
      rw [obsString, hblank]
      rfl
    have hincluded : (byHostname L.toLowerCase IntegrationType.entraid.text (entraAsset d)
      config).included = true := by
      simp [byHostname, entraAsset, hnone, truthy]
    rw [hincluded, if_pos hblank]
    exact untold_iff _ _ fun p => matchesWildcard_iff _ p _
  · have htruthy : truthy (entraAsset d).hostname = some (trim d.displayName) := by
      rw [entraAsset, obsString, truthy_some_ne hblank, truthy_some_ne hblank]
    rw [byHostname_included _ htruthy, if_neg hblank]
    exact alike_iff _ _ (fun p => matchesWildcard_iff _ p _) (fun p => matchesWildcard_iff _ p _)
      fun h => hblank ((L.fits_empty _).mp h)

theorem ouPathOf_adAsset (d : DiscoveredAdDevice) :
    ouPathOf (adAsset L.toUpperCase d) = ActiveDirectory.deriveOuPath L.toUpperCase d.distinguishedName := by
  unfold ouPathOf adAsset
  by_cases h : ActiveDirectory.deriveOuPath L.toUpperCase d.distinguishedName = ""
  · rw [h]
    rfl
  · simp [truthy_some_ne h, trim_path]

theorem candidates_iff {d : DiscoveredAdDevice} (hunits : unitsOf L d.distinguishedName ≠ []) (p : String) :
    (candidates (adAsset L.toUpperCase d)).any (matchesWildcard L.toLowerCase p ·) = true ↔
      (L.asks p).Lies '/' (unitParts L d.distinguishedName) ∨
        d.cn ≠ "" ∧ (L.asks p).Lies ','
          [L.text ("CN=" ++ d.cn), ['/'].intercalate (unitParts L d.distinguishedName)] := by
  have hparts : unitParts L d.distinguishedName ≠ [] := mt List.map_eq_nil_iff.mp hunits
  have hpath : (L.asks p).Fits (L.text (ActiveDirectory.deriveOuPath L.toUpperCase d.distinguishedName)) ↔
      (L.asks p).Lies '/' (unitParts L d.distinguishedName) := by
    rw [text_path, Shape.fits_joined hparts]
  have hnamed : L.text ("CN=" ++ d.cn ++ "," ++
    ActiveDirectory.deriveOuPath L.toUpperCase d.distinguishedName) =
      [','].intercalate [L.text ("CN=" ++ d.cn), ['/'].intercalate (unitParts L d.distinguishedName)] := by
    have hcomma : "," = String.singleton ',' := by decide
    rw [intercalate_cons, List.intercalate_singleton, ← text_path, hcomma, L.text_sep (.inl rfl)]
  rw [← hpath, ← Shape.fits_joined (List.cons_ne_nil _ _), ← hnamed, candidates, ouPathOf_adAsset,
    List.any_cons,
    Bool.or_eq_true, matchesWildcard_iff]
  refine or_congr_right ?_
  by_cases hcn : d.cn = ""
  · simp [adAsset, truthy, hcn]
  · simp [adAsset, truthy_some_ne hcn, hcn, matchesWildcard_iff]
    rfl

theorem ad_iff {devices : List DiscoveredAdDevice} {d : DiscoveredAdDevice} (hd : d ∈ devices) :
    (((assetMatchesIntegrationFilter L.toLowerCase (adAsset L.toUpperCase d)
        ⟨.activedirectory, config⟩).included = true ↔
      d ∈ ActiveDirectory.filterDevices L.toLowerCase devices config.ouInclude config.ouExclude) ↔
        AdAlike L config d) := by
  have hdn : ∀ p, matchesWildcard L.toLowerCase p d.distinguishedName = true ↔
      (L.asks p).Lies ',' (dnParts L d.distinguishedName) := by
    intro p
    rw [matchesWildcard_iff, ← Shape.fits_joined (dnParts_ne_nil L _), ← text_dn]
    rfl
  rw [ActiveDirectory.filterDevices, mem_filterDevices hd, assetMatchesIntegrationFilter, AdAlike]
  dsimp only
  rw [byOuPath, ouPathOf_adAsset]
  by_cases hunits : unitsOf L d.distinguishedName = []
  · rw [if_pos (path_eq_empty.mpr hunits), if_pos hunits]
    exact untold_iff _ _ hdn
  · rw [if_neg (mt path_eq_empty.mp hunits), if_neg hunits, decideBy_included]
    refine alike_iff _ _ hdn (candidates_iff hunits) fun h => ?_
    rw [← candidates_iff hunits, List.any_eq_true] at h
    obtain ⟨c, hc, hmatch⟩ := h
    obtain rfl := (L.fits_empty c).mp ((matchesWildcard_iff _ _ _).mp hmatch)
    rw [candidates, ouPathOf_adAsset] at hc
    obtain hc | hc := List.mem_cons.mp hc
    · exact hunits (path_eq_empty.mp hc.symm)
    · simp at hc

def plainLower (s : String) : String := String.ofList (s.toList.map Char.toLower)

def plainUpper (s : String) : String := String.ofList (s.toList.map Char.toUpper)

theorem isSpace_toLower (c : Char) : isSpace c.toLower = isSpace c := by
  by_cases h : 65 ≤ c.toNat ∧ c.toNat ≤ 90
  · rw [← Char.ofNat_toNat c]
    generalize c.toNat = n at h
    obtain ⟨h1, h2⟩ := h
    interval_cases n <;> decide
  · have hc : c.toLower = c := dif_neg fun hup => h (by simpa [UInt32.le_iff_toNat_le] using hup)
    rw [hc]

def plain : Letters where
  toLowerCase := plainLower
  toUpperCase := plainUpper
  lower_sep s t sep h := by
    have hsep : sep.toLower = sep := by
      obtain rfl | rfl := h <;> decide
    apply String.toList_inj.mp
    simp [plainLower, hsep]
  lower_trim s := by
    apply String.toList_inj.mp
    rw [plainLower, plainLower, String.toList_ofList, toList_trim, toList_trim, String.toList_ofList,
      trimBy_map isSpace_toLower]
  lower_empty s := by simp [plainLower]
  upper_empty := rfl

def labMachine : DiscoveredAdDevice :=
  { cn := "pc1", distinguishedName := "CN=pc1,OU=Lab,OU=HQ,DC=corp,DC=local" }

end Claims

end Polaris.IntegrationFilter
