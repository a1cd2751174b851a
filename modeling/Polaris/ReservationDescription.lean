import Polaris.SubnetRefresh
import Polaris.Lib.Trim

namespace Polaris.ReservationDescription

open Polaris.Lib.Text Polaris.Lib.Trim Polaris.ReservationPush Polaris.SubnetRefresh

section Trimming

def trimChars (cs : List Char) : List Char := (cs.dropWhile isSpace).rdropWhile isSpace

theorem toList_trim (s : String) : (trim s).toList = trimChars s.toList := by
  rw [trim, String.toList_ofList]
  rfl

theorem trim_ofList (cs : List Char) : trim (String.ofList cs) = String.ofList (trimChars cs) := by
  rw [trim, String.toList_ofList]
  rfl

theorem trimChars_trimChars (cs : List Char) : trimChars (trimChars cs) = trimChars cs :=
  trimBy_trimBy isSpace cs

end Trimming

section Brackets

/-- The text ends in a pair of brackets around a text that is not empty and
opens no pair of its own. -/
def Closes (v w : List Char) : Prop :=
  (∃ before, v = before ++ '[' :: (w ++ [']'])) ∧ w ≠ [] ∧ '[' ∉ w.dropLast

def opened : List Char → Option (List Char)
  | '[' :: c :: cs => some (c :: cs)
  | _ => none

def lastOpened (cs : List Char) : Option (List Char) := (cs.tails.filterMap opened).getLast?

theorem lastOpened_cons (c : Char) (cs : List Char) :
    lastOpened (c :: cs) = (lastOpened cs).or (opened (c :: cs)) := by
  unfold lastOpened
  rw [List.tails_cons, List.filterMap_cons]
  cases opened (c :: cs) with
  | none => simp
  | some w => simp [List.getLast?_cons]

theorem opened_eq_some {cs w : List Char} : opened cs = some w ↔ cs = '[' :: w ∧ w ≠ [] := by
  unfold opened
  split
  · simp only [Option.some.injEq, List.cons.injEq, true_and]
    exact ⟨fun h => ⟨h, by simp [← h]⟩, fun h => h.1⟩
  · rename_i h
    simp only [reduceCtorEq, false_iff, not_and]
    rintro rfl hne
    cases w with
    | nil => exact hne rfl
    | cons c cs => exact h c cs rfl

theorem lastOpened_eq_none {cs : List Char} : lastOpened cs = none ↔ '[' ∉ cs.dropLast := by
  induction cs with
  | nil => simp [lastOpened, opened]
  | cons c cs ih =>
    rw [lastOpened_cons, Option.or_eq_none_iff, ih, Option.eq_none_iff_forall_ne_some]
    simp only [ne_eq, opened_eq_some, List.cons.injEq]
    cases cs with
    | nil => simp
    | cons d ds =>
      rw [List.dropLast_cons_cons, List.mem_cons, not_or]
      constructor
      · rintro ⟨hrest, hfirst⟩
        exact ⟨fun hc => hfirst (d :: ds) ⟨⟨hc.symm, rfl⟩, by simp⟩, hrest⟩
      · rintro ⟨hc, hrest⟩
        exact ⟨hrest, fun w h => hc h.1.1.symm⟩

theorem lastOpened_eq_some {cs w : List Char} :
    lastOpened cs = some w ↔ (∃ before, cs = before ++ '[' :: w) ∧ w ≠ [] ∧ '[' ∉ w.dropLast := by
  induction cs with
  | nil => simp [lastOpened, opened]
  | cons c cs ih =>
    rw [lastOpened_cons, Option.or_eq_some_iff, ih, opened_eq_some, lastOpened_eq_none]
    constructor
    · rintro (⟨⟨before, rfl⟩, hw⟩ | ⟨hnone, hcs, hne⟩)
      · exact ⟨⟨c :: before, rfl⟩, hw⟩
      · obtain ⟨rfl, rfl⟩ := List.cons.inj hcs
        exact ⟨⟨[], rfl⟩, hne, hnone⟩
    · rintro ⟨⟨before, hcs⟩, hne, hnone⟩
      cases before with
      | nil =>
        obtain ⟨rfl, rfl⟩ := List.cons.inj hcs
        exact .inr ⟨hnone, rfl, hne⟩
      | cons b before =>
        obtain ⟨rfl, rfl⟩ := List.cons.inj hcs
        exact .inl ⟨⟨before, rfl⟩, hne, hnone⟩

theorem bracketed_eq {v : List Char} :
    bracketed v = if v.getLast? = some ']' then lastOpened v.dropLast else none := rfl

theorem bracketed_eq_some {v w : List Char} : bracketed v = some w ↔ Closes v w := by
  rw [bracketed_eq]
  split_ifs with hlast
  · obtain ⟨ys, rfl⟩ := List.getLast?_eq_some_iff.mp hlast
    rw [List.dropLast_concat, lastOpened_eq_some, Closes]
    refine and_congr_left fun _ => exists_congr fun before => ?_
    constructor
    · rintro rfl
      simp
    · intro h
      have h' : ys ++ [']'] = (before ++ '[' :: w) ++ [']'] := by simpa using h
      exact List.append_cancel_right h'
  · refine iff_of_false (by simp) ?_
    rintro ⟨⟨before, rfl⟩, -⟩
    have hconcat : before ++ '[' :: (w ++ [']']) = (before ++ '[' :: w) ++ [']'] := by simp
    exact hlast (by rw [hconcat, List.getLast?_concat])

end Brackets

section Slices

variable {k : Nat} {xs ys : List Char} {c : Char}

def units (cs : List Char) : Nat := (cs.map utf16Length).sum

theorem sliceUnits_append (h : units xs ≤ k) :
    sliceUnits k (xs ++ ys) = xs ++ sliceUnits (k - units xs) ys := by
  induction xs generalizing k with
  | nil => rfl
  | cons x xs ih =>
    have hsum : units (x :: xs) = utf16Length x + units xs := rfl
    rw [hsum] at h ⊢
    rw [List.cons_append, sliceUnits, if_pos (by omega), ih (by omega), List.cons_append]
    congr 3
    omega

theorem mem_sliceUnits_cut {d : Char} (hd : utf16Length d = 1) (h : k ≤ units xs)
    (hc : c ∈ sliceUnits k (xs ++ d :: ys)) : c ∈ xs := by
  induction xs generalizing k with
  | nil =>
    have hk : k = 0 := Nat.le_zero.mp h
    simp [sliceUnits, hd, hk] at hc
  | cons x xs ih =>
    have hsum : units (x :: xs) = utf16Length x + units xs := rfl
    rw [List.cons_append, sliceUnits] at hc
    split_ifs at hc
    · obtain rfl | hc := List.mem_cons.mp hc
      · exact List.mem_cons_self
      · exact List.mem_cons_of_mem x (ih (by omega) hc)
    · cases hc

end Slices

section Decoding

variable {cs : List Char}

/-- What the decoder makes of the text after the colon. -/
def readBody (v : List Char) : Option String :=
  if v = [] ∨ v.any lineTerminator then none else some (trim (String.ofList ((bracketed v).getD v)))

theorem readBody_iff {v : List Char} (hv : trimChars v = v) (host : String) :
    readBody v = none ∨ readBody v = some host ↔
      v = [] ∨ (∃ c ∈ v, lineTerminator c = true) ∨
        (∃ w, Closes v w ∧ String.ofList (trimChars w) = host) ∨
        (∀ w, ¬ Closes v w) ∧ String.ofList v = host := by
  unfold readBody
  by_cases hunread : v = [] ∨ v.any lineTerminator = true
  · rw [if_pos hunread]
    rw [List.any_eq_true] at hunread
    refine iff_of_true (.inl rfl) ?_
    obtain hnil | hline := hunread
    · exact .inl hnil
    · exact .inr (.inl hline)
  · rw [if_neg hunread]
    rw [List.any_eq_true, not_or] at hunread
    simp only [reduceCtorEq, false_or, Option.some.injEq, hunread.1, hunread.2]
    cases hb : bracketed v with
    | none =>
      have hnone : ∀ w, ¬ Closes v w := fun w hw => by
        rw [← bracketed_eq_some, hb] at hw
        cases hw
      simp [hnone, trim_ofList, hv]
    | some w =>
      have hw := bracketed_eq_some.mp hb
      have honly : ∀ x, Closes v x ↔ x = w := by
        intro x
        rw [← bracketed_eq_some, hb, Option.some.injEq]
        exact eq_comm
      simp [honly, trim_ofList]

theorem polarisBody_plain (v : List Char) : polarisBody ("Polaris".toList ++ ':' :: v) = some v := rfl

theorem polarisBody_named {name : List Char} (hne : name ≠ []) (hname : ':' ∉ name) (v : List Char) :
    polarisBody ("Polaris/".toList ++ name ++ ':' :: v) = some v := by
  have hspan : (name ++ ':' :: v).span (· ≠ ':') = (name, ':' :: v) := by
    rw [List.span_eq_takeWhile_dropWhile, List.takeWhile_append_of_pos, List.dropWhile_append_of_pos]
    · simp
    · exact fun c hc => by simpa using fun h : c = ':' => hname (h ▸ hc)
    · exact fun c hc => by simpa using fun h : c = ':' => hname (h ▸ hc)
  have hassoc : "Polaris/".toList ++ name ++ ':' :: v =
      "Polaris".toList ++ '/' :: (name ++ ':' :: v) := by simp
  have hstart : "Polaris".toList.isPrefixOf? ("Polaris".toList ++ '/' :: (name ++ ':' :: v)) =
      some ('/' :: (name ++ ':' :: v)) := List.isPrefixOf?_eq_some_iff_append_eq.mpr rfl
  rw [hassoc]
  obtain ⟨c, cs, rfl⟩ := List.exists_cons_of_ne_nil hne
  simp only [polarisBody, hstart, hspan]

theorem polarisBody_colon {v : List Char} (h : polarisBody cs = some v) : ':' ∈ cs := by
  unfold polarisBody at h
  split at h
  · rename_i rest hp
    rw [← List.isPrefixOf?_eq_some_iff_append_eq.mp hp]
    simp
  · rename_i rest hp
    rw [← List.isPrefixOf?_eq_some_iff_append_eq.mp hp]
    split at h
    · rename_i name _ body hspan
      rw [List.span_eq_takeWhile_dropWhile] at hspan
      have hdrop : rest.dropWhile (· ≠ ':') = ':' :: body := congrArg Prod.snd hspan
      have hmem : ':' ∈ rest := List.dropWhile_subset _ (by rw [hdrop]; exact List.mem_cons_self)
      simp [hmem]
    · cases h
  · cases h

theorem trimChars_polaris (before v : List Char) :
    trimChars ('P' :: before ++ ':' :: v) = 'P' :: before ++ ':' :: v.rdropWhile isSpace := by
  rw [trimChars, List.cons_append, List.dropWhile_cons_of_neg (by decide), ← List.cons_append]
  exact rdropWhile_append (by decide) _ _

theorem extract_of_polarisBody {before v : List Char}
    (hbody : ∀ v, polarisBody ('P' :: before ++ ':' :: v) = some v) :
    extractHostnameFromDescription (String.ofList ('P' :: before ++ ':' :: v)) =
      readBody (trimChars v) := by
  unfold extractHostnameFromDescription
  rw [toList_trim, String.toList_ofList, trimChars_polaris, hbody]
  simp only [dropWhile_rdropWhile]
  rfl

theorem mem_trimChars {c : Char} (h : c ∈ trimChars cs) : c ∈ cs := mem_trimBy h

theorem extract_eq_none (h : ':' ∉ cs) :
    extractHostnameFromDescription (String.ofList cs) = none := by
  unfold extractHostnameFromDescription
  rw [toList_trim, String.toList_ofList]
  cases hb : polarisBody (trimChars cs) with
  | none => rfl
  | some v => exact absurd (mem_trimChars (polarisBody_colon hb)) h

theorem extract_nameless (v : List Char) :
    extractHostnameFromDescription (String.ofList ("Polaris/".toList ++ ':' :: v)) = none := by
  unfold extractHostnameFromDescription
  rw [toList_trim, String.toList_ofList]
  have htrim : trimChars ("Polaris/".toList ++ ':' :: v) =
      "Polaris/".toList ++ ':' :: v.rdropWhile isSpace := trimChars_polaris "olaris/".toList v
  rw [htrim]
  rfl

end Decoding

section RoundTrip

variable (hostname createdBy : Option String) (fallback : String) (notes : Option String)

def author : List Char := (trim (createdBy.getD "")).toList

def bodyText : String :=
  if trim (notes.getD "") = "" then
    if trim (hostname.getD "") ≠ "" then trim (hostname.getD "")
    else if fallback ≠ "" then fallback else "(unnamed)"
  else if trim (hostname.getD "") = "" then trim (notes.getD "")
  else trim (notes.getD "") ++ " [" ++ trim (hostname.getD "") ++ "]"

/-- What fits behind a head of some length, without the white space around it. -/
def visible (used : Nat) (text : List Char) : Option (List Char) :=
  if used ≤ 64 then some (trimChars (sliceUnits (64 - used) text)) else none

/-- What stands behind the first colon of the description. An author with a
colon puts the rest of the name there, and one that starts with it hides all. -/
def shown : Option (List Char) :=
  let body := (bodyText hostname fallback notes).toList
  match (author createdBy).span (· ≠ ':') with
  | ([], []) => visible 8 (' ' :: body)
  | ([], _ :: _) => none
  | (name, []) => visible (9 + units name) (' ' :: body)
  | (name, _ :: more) => visible (9 + units name) (more ++ ':' :: ' ' :: body)

theorem buildDescription_eq :
    buildDescription hostname createdBy fallback notes =
      String.ofList (sliceUnits 64
        ((if author createdBy = [] then "Polaris: ".toList
          else "Polaris/".toList ++ author createdBy ++ ": ".toList) ++
          (bodyText hostname fallback notes).toList)) := by
  unfold buildDescription bodyText author
  by_cases h : trim (createdBy.getD "") = ""
  · simp [h]
  · simp [h]

variable {hostname createdBy fallback notes}

theorem units_append (xs ys : List Char) : units (xs ++ ys) = units xs + units ys := by
  simp [units]

theorem extract_named {name text : List Char} (hne : name ≠ []) (hname : ':' ∉ name) :
    extractHostnameFromDescription
        (String.ofList (sliceUnits 64 ("Polaris/".toList ++ name ++ ':' :: text))) =
      (visible (9 + units name) text).bind readBody := by
  have hhead : units ("Polaris/".toList ++ name) = 8 + units name := units_append _ _
  unfold visible
  split_ifs with hfits
  · have hslice : sliceUnits 64 ("Polaris/".toList ++ name ++ ':' :: text) =
        "Polaris/".toList ++ name ++ ':' :: sliceUnits (64 - (9 + units name)) text := by
      have hunits : units ("Polaris/".toList ++ name ++ [':']) = 9 + units name := by
        rw [units_append, hhead]
        change 8 + units name + 1 = 9 + units name
        omega
      have hassoc : ∀ cs : List Char, "Polaris/".toList ++ name ++ ':' :: cs =
          ("Polaris/".toList ++ name ++ [':']) ++ cs := by simp
      rw [hassoc text, sliceUnits_append (by omega), hunits, ← hassoc]
    rw [hslice]
    exact extract_of_polarisBody (polarisBody_named hne hname)
  · refine extract_eq_none fun hmem => ?_
    have hin := mem_sliceUnits_cut rfl (by omega) hmem
    obtain hin | hin := List.mem_append.mp hin
    · revert hin
      decide
    · exact hname hin

theorem extract_plain (body : List Char) :
    extractHostnameFromDescription (String.ofList (sliceUnits 64 ("Polaris: ".toList ++ body))) =
      (visible 8 (' ' :: body)).bind readBody := by
  have hassoc : ∀ cs : List Char, "Polaris".toList ++ ':' :: cs = "Polaris:".toList ++ cs := by simp
  have htext : "Polaris: ".toList ++ body = "Polaris:".toList ++ ' ' :: body := by simp
  have hunits : units "Polaris:".toList = 8 := by decide
  have hslice : sliceUnits 64 ("Polaris: ".toList ++ body) =
      "Polaris".toList ++ ':' :: sliceUnits 56 (' ' :: body) := by
    rw [htext, sliceUnits_append (by omega), hunits, hassoc]
  rw [hslice, visible, if_pos (by decide)]
  exact extract_of_polarisBody polarisBody_plain

variable (hostname createdBy fallback notes) in
theorem extract_buildDescription :
    extractHostnameFromDescription (buildDescription hostname createdBy fallback notes) =
      (shown hostname createdBy fallback notes).bind readBody := by
  rw [buildDescription_eq]
  unfold shown
  generalize (bodyText hostname fallback notes).toList = body
  obtain hall | ⟨name, c, more, hu, hname, hc⟩ := blank_or_split (· ≠ ':') (author createdBy)
  · have hspan : (author createdBy).span (· ≠ ':') = (author createdBy, []) := by
      rw [List.span_eq_takeWhile_dropWhile, List.takeWhile_eq_self_iff.mpr hall,
        List.dropWhile_eq_nil_iff.mpr hall]
    rw [hspan]
    have hcolon : ':' ∉ author createdBy := fun h => by simpa using hall ':' h
    cases hu : author createdBy with
    | nil => exact extract_plain body
    | cons a as =>
      rw [hu] at hcolon
      have htext : "Polaris/".toList ++ (a :: as) ++ ": ".toList ++ body =
          "Polaris/".toList ++ (a :: as) ++ ':' :: ' ' :: body := by simp
      rw [if_neg (by simp), htext]
      exact extract_named (by simp) hcolon
  · obtain rfl : c = ':' := by simpa using hc
    have hcolon : ':' ∉ name := fun h => by simpa using hname ':' h
    have hspan : (author createdBy).span (· ≠ ':') = (name, ':' :: more) := by
      rw [List.span_eq_takeWhile_dropWhile, hu, dropWhile_split hname hc,
        List.takeWhile_append_of_pos hname]
      simp
    rw [hspan, if_neg (by simp [hu]), hu]
    have htext : "Polaris/".toList ++ (name ++ ':' :: more) ++ ": ".toList ++ body =
        "Polaris/".toList ++ name ++ ':' :: (more ++ ':' :: ' ' :: body) := by simp
    rw [htext]
    cases name with
    | nil => exact extract_nameless _
    | cons a as => exact extract_named (by simp) hcolon

variable (hostname createdBy fallback notes) in
/-- Nothing is shown, or what is shown breaks off at a line end, ends in
brackets around the hostname, or is the hostname and ends in no brackets. -/
def Legible : Prop :=
  ∀ v, shown hostname createdBy fallback notes = some v →
    v = [] ∨ (∃ c ∈ v, lineTerminator c = true) ∨
      (∃ w, Closes v w ∧ String.ofList (trimChars w) = trim (hostname.getD "")) ∨
      (∀ w, ¬ Closes v w) ∧ String.ofList v = trim (hostname.getD "")

theorem shown_trimmed {v : List Char} (h : shown hostname createdBy fallback notes = some v) :
    trimChars v = v := by
  have hvisible : ∀ {used : Nat} {text : List Char}, visible used text = some v → trimChars v = v := by
    intro used text hv
    unfold visible at hv
    split_ifs at hv
    cases hv
    exact trimChars_trimChars _
  unfold shown at h
  dsimp only at h
  split at h
  · exact hvisible h
  · cases h
  · exact hvisible h
  · exact hvisible h

end RoundTrip

end Polaris.ReservationDescription
