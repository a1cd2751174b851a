import Mathlib.Data.List.Infix

namespace Polaris.Lib.Lines

variable {α : Type*} (p : α → Bool) (head : List α)

/-- A line starts behind this much of a text. -/
def Starts (atStart : Bool) (before : List α) : Prop := before.getLast?.elim atStart p = true

def Ends (after : List α) : Prop := after.head?.elim true p = true

/-- The first line that starts with a text, with what stands before and
behind it. The elements already passed are kept in reverse. -/
def findLine [DecidableEq α] : Bool → List α → List α → Option (List α × List α × List α)
  | _, _, [] => none
  | atStart, before, c :: cs =>
    if atStart && head.isPrefixOf (c :: cs) then
      some (before.reverse, (c :: cs).takeWhile (! p ·), (c :: cs).dropWhile (! p ·))
    else findLine (p c) (c :: before) cs

variable {p head} {atStart : Bool} {before u v w cs : List α} {c : α}

theorem starts_cons : Starts p atStart (c :: v) ↔ Starts p (p c) v := by
  rw [Starts, Starts, List.getLast?_cons]
  cases v.getLast? with
  | none => rfl
  | some t => rfl

theorem prefix_append_iff (hhead : ∀ c ∈ head, p c = false) {r : List α} (hr : ∃ t ∈ r, p t = true)
    (x : List α) :
    head <+: r ++ x ↔ head <+: r := by
  refine ⟨fun h => ?_, fun h => h.trans (List.prefix_append r x)⟩
  obtain hle | hle := List.prefix_or_prefix_of_prefix h (List.prefix_append r x)
  · exact hle
  · obtain ⟨t, ht, hpt⟩ := hr
    rw [hhead t (hle.subset ht)] at hpt
    cases hpt

theorem starts_mem (h : Starts p atStart (v ++ w)) (hne : w ≠ []) : ∃ t ∈ w, p t = true := by
  obtain ⟨zs, t, rfl⟩ := (List.eq_nil_or_concat w).resolve_left hne
  rw [Starts, List.concat_eq_append, ← List.append_assoc, List.getLast?_concat] at h
  exact ⟨t, by simp, h⟩

theorem takeWhile_line (hu : ∀ c ∈ u, p c = false) (hw : Ends p w) : (u ++ w).takeWhile (! p ·) = u := by
  rw [List.takeWhile_append_of_pos fun c hc => by rw [hu c hc]; rfl]
  cases w with
  | nil => rw [List.takeWhile_nil, List.append_nil]
  | cons t w =>
    have ht : p t = true := hw
    rw [List.takeWhile_cons_of_neg (by rw [ht]; decide), List.append_nil]

theorem dropWhile_line (hu : ∀ c ∈ u, p c = false) (hw : Ends p w) : (u ++ w).dropWhile (! p ·) = w := by
  rw [List.dropWhile_append_of_pos fun c hc => by rw [hu c hc]; rfl]
  cases w with
  | nil => rfl
  | cons t w =>
    have ht : p t = true := hw
    rw [List.dropWhile_cons_of_neg (by rw [ht]; decide)]

theorem ends_dropWhile (w : List α) : Ends p (w.dropWhile (! p ·)) := by
  induction w with
  | nil => rfl
  | cons c w ih =>
    rw [List.dropWhile_cons]
    split
    next => exact ih
    next h =>
      rw [Bool.not_eq_true, Bool.not_eq_false'] at h
      exact h

section Find

variable [DecidableEq α]

theorem findLine_of_first (hne : head ≠ []) (hu : Starts p atStart u) (hw : head <+: w)
    (hfirst : ∀ v r, u = v ++ r → r ≠ [] → Starts p atStart v → ¬ head <+: r ++ w) :
    findLine p head atStart before (u ++ w) =
      some (before.reverse ++ u, w.takeWhile (! p ·), w.dropWhile (! p ·)) := by
  induction u generalizing atStart before with
  | nil =>
    cases w with
    | nil => exact absurd (List.prefix_nil.mp hw) hne
    | cons c w =>
      have hstart : atStart = true := hu
      have hpre : head.isPrefixOf (c :: w) = true := List.isPrefixOf_iff_prefix.mpr hw
      rw [List.nil_append, findLine, hstart, hpre, Bool.and_self, if_pos rfl, List.append_nil]
  | cons c u ih =>
    have hnot : ¬ (atStart && head.isPrefixOf (c :: (u ++ w))) = true := by
      intro h
      obtain ⟨hstart, hpre⟩ := Bool.and_eq_true_iff.mp h
      exact hfirst [] (c :: u) rfl (List.cons_ne_nil c u) hstart (List.isPrefixOf_iff_prefix.mp hpre)
    rw [List.cons_append, findLine, if_neg hnot, ih (starts_cons.mp hu) fun v r huv hr hv => ?_]
    · simp
    · exact hfirst (c :: v) r (by rw [huv, List.cons_append]) hr (starts_cons.mpr hv)

theorem findLine_some {x : List α × List α × List α} (h : findLine p head atStart before cs = some x) :
    ∃ u w, cs = u ++ w ∧ Starts p atStart u ∧ head <+: w ∧
      x = (before.reverse ++ u, w.takeWhile (! p ·), w.dropWhile (! p ·)) ∧
      ∀ v r, u = v ++ r → r ≠ [] → Starts p atStart v → ¬ head <+: r ++ w := by
  induction cs generalizing atStart before with
  | nil => cases h
  | cons c cs ih =>
    rw [findLine] at h
    split at h
    next hmatch =>
      obtain ⟨hstart, hpre⟩ := Bool.and_eq_true_iff.mp hmatch
      obtain rfl := Option.some.inj h
      refine ⟨[], c :: cs, rfl, hstart, List.isPrefixOf_iff_prefix.mp hpre, by rw [List.append_nil], ?_⟩
      intro v r hv hr
      exact absurd (List.append_eq_nil_iff.mp hv.symm).2 hr
    next hnot =>
      obtain ⟨u, w, rfl, hu, hw, rfl, hfirst⟩ := ih h
      refine ⟨c :: u, w, rfl, starts_cons.mpr hu, hw, by simp, fun v r hv hr hstart hpre => ?_⟩
      cases v with
      | nil =>
        rw [List.nil_append] at hv
        subst hv
        exact hnot (Bool.and_eq_true_iff.mpr ⟨hstart, List.isPrefixOf_iff_prefix.mpr hpre⟩)
      | cons d v =>
        obtain ⟨rfl, htail⟩ := List.cons.inj (hv.trans (List.cons_append ..))
        exact hfirst v r htail hr (starts_cons.mp hstart) hpre

theorem findLine_none (hne : head ≠ []) (h : findLine p head atStart before cs = none) :
    ∀ v r, cs = v ++ r → Starts p atStart v → ¬ head <+: r := by
  induction cs generalizing atStart before with
  | nil =>
    intro v r hv _ hpre
    rw [(List.append_eq_nil_iff.mp hv.symm).2] at hpre
    exact hne (List.prefix_nil.mp hpre)
  | cons c cs ih =>
    rw [findLine] at h
    split at h
    next => cases h
    next hnot =>
      intro v r hv hstart hpre
      cases v with
      | nil =>
        rw [List.nil_append] at hv
        subst hv
        exact hnot (Bool.and_eq_true_iff.mpr ⟨hstart, List.isPrefixOf_iff_prefix.mpr hpre⟩)
      | cons d v =>
        obtain ⟨rfl, htail⟩ := List.cons.inj (hv.trans (List.cons_append ..))
        exact ih h v r htail (starts_cons.mp hstart) hpre

end Find

section Split

variable {xs ys l : List α}

theorem splitOnP_start (h : Starts p true xs) :
    xs = [] ∨ ∃ zs t, xs = zs ++ [t] ∧ p t = true := by
  obtain rfl | ⟨zs, t, rfl⟩ := List.eq_nil_or_concat xs
  · exact Or.inl rfl
  · refine Or.inr ⟨zs, t, List.concat_eq_append, ?_⟩
    rw [List.concat_eq_append, Starts, List.getLast?_concat] at h
    exact h

/-- A reading of a text line by line that finds nothing in an empty line. -/
def entries {β : Type*} (p : α → Bool) (assign : List α → Option β) (cs : List α) : List β :=
  (cs.splitOnP p).filterMap assign

variable {β : Type*} {assign : List α → Option β}

theorem entries_line (h : ∀ c ∈ l, p c = false) : entries p assign l = (assign l).toList := by
  rw [entries, List.splitOnP_eq_singleton h]
  cases hl : assign l with
  | none => rw [List.filterMap_cons_none hl]; rfl
  | some b => rw [List.filterMap_cons_some hl]; rfl

theorem entries_nil (hblank : assign [] = none) : entries p assign [] = [] := by
  rw [entries_line fun _ hc => absurd hc List.not_mem_nil, hblank]
  rfl

theorem entries_break {t : α} (ht : p t = true) (xs ys : List α) :
    entries p assign (xs ++ t :: ys) = entries p assign xs ++ entries p assign ys := by
  rw [entries, entries, entries, List.splitOnP_append_cons xs ys ht, List.filterMap_append]

theorem entries_start (hblank : assign [] = none) (h : Starts p true xs) (ys : List α) :
    entries p assign (xs ++ ys) = entries p assign xs ++ entries p assign ys := by
  obtain rfl | ⟨zs, t, rfl, ht⟩ := splitOnP_start h
  · rw [entries_nil hblank]
    rfl
  · rw [List.append_assoc, List.singleton_append, entries_break ht, entries_break ht, entries_nil hblank,
      List.append_nil]

theorem entries_end (hblank : assign [] = none) (h : Ends p ys) (xs : List α) :
    entries p assign (xs ++ ys) = entries p assign xs ++ entries p assign ys := by
  cases ys with
  | nil => rw [entries_nil hblank, List.append_nil, List.append_nil]
  | cons t ys =>
    have ht : p t = true := h
    have hys : entries p assign (t :: ys) = entries p assign ys := by
      have hbreak := @entries_break α p β assign t ht [] ys
      rw [entries_nil hblank] at hbreak
      exact hbreak
    rw [entries_break ht, hys]

end Split

end Polaris.Lib.Lines
