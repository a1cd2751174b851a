import Mathlib.Data.List.Chain
import Mathlib.Data.List.Nodup
import Mathlib.Data.List.Perm.Subperm
import Mathlib.Algebra.Order.Ring.Nat

namespace Polaris.Lib.Chains

section Defs

variable {α : Type}

/-- Who is next to whom among some nodes. -/
structure Network (near : α → List α) (nodes : List α) : Prop where
  nodup : ∀ x, (near x).Nodup
  closed : ∀ x ∈ nodes, ∀ y ∈ near x, y ∈ nodes
  symm : ∀ x ∈ nodes, ∀ y ∈ near x, x ∈ near y

/-- Nodes without repetition, each next to the one before. -/
structure Trail (near : α → List α) (nodes p : List α) : Prop where
  chain : p.IsChain fun x y => y ∈ near x
  nodup : p.Nodup
  nodes : ∀ x ∈ p, x ∈ nodes

/-- A trail whose last node is next to its first; a link there and back is
none. -/
structure Ring (near : α → List α) (nodes c : List α) : Prop where
  trail : Trail near nodes c
  closes : ∃ last ∈ c.getLast?, ∃ first ∈ c.head?, first ∈ near last
  length : c.length ≠ 2

/-- All nodes in one row, with no links but those along it. -/
structure SimplePath (near : α → List α) (nodes p : List α) : Prop where
  nodup : p.Nodup
  covers : ∀ x, x ∈ p ↔ x ∈ nodes
  steps : ∀ x ∈ nodes, ∀ y, y ∈ near x ↔ [x, y] <:+: p ∨ [y, x] <:+: p

end Defs

section Rows

variable {α : Type} {p t : List α} {h x y z : α}

theorem pair_infix_cons : [x, y] <:+: h :: t ↔ h = x ∧ t.head? = some y ∨ [x, y] <:+: t := by
  rw [List.infix_cons_iff, List.cons_prefix_cons]
  refine or_congr_left (and_congr eq_comm ?_)
  cases t with
  | nil => simp
  | cons a t => simp [eq_comm]

theorem pair_mem (hp : [x, y] <:+: p) : x ∈ p ∧ y ∈ p :=
  ⟨hp.subset List.mem_cons_self, hp.subset (List.mem_cons_of_mem _ List.mem_cons_self)⟩

theorem pair_ne (hp : p.Nodup) (hxy : [x, y] <:+: p) : x ≠ y := by
  have hpair := List.nodup_cons.mp (hp.sublist hxy.sublist)
  exact fun heq => hpair.1 (List.mem_singleton.mpr heq)

theorem next_unique (hp : p.Nodup) (hy : [x, y] <:+: p) (hz : [x, z] <:+: p) : y = z := by
  induction p with
  | nil => simp at hy
  | cons h t ih =>
    obtain ⟨hnot, ht⟩ := List.nodup_cons.mp hp
    obtain ⟨rfl, hnext⟩ | hrest := pair_infix_cons.mp hy
    · obtain ⟨-, hnext'⟩ | hrest := pair_infix_cons.mp hz
      · exact Option.some.inj (hnext.symm.trans hnext')
      · exact absurd (pair_mem hrest).1 hnot
    · obtain ⟨rfl, -⟩ | hrest' := pair_infix_cons.mp hz
      · exact absurd (pair_mem hrest).1 hnot
      · exact ih ht hrest hrest'

theorem not_pair_head (hp : (h :: t).Nodup) : ¬ [x, h] <:+: h :: t := by
  intro hx
  have hnot := (List.nodup_cons.mp hp).1
  obtain ⟨-, hh⟩ | hx := pair_infix_cons.mp hx
  · exact hnot (List.mem_of_head? hh)
  · exact hnot (pair_mem hx).2

theorem pair_asymm (hp : p.Nodup) (hxy : [x, y] <:+: p) : ¬ [y, x] <:+: p := by
  induction p with
  | nil => simp at hxy
  | cons h t ih =>
    intro hyx
    obtain ⟨rfl, -⟩ | hrest := pair_infix_cons.mp hxy
    · exact not_pair_head hp hyx
    · obtain ⟨rfl, -⟩ | hrest' := pair_infix_cons.mp hyx
      · exact not_pair_head hp hxy
      · exact ih (List.nodup_cons.mp hp).2 hrest hrest'

theorem exists_prev (hx : x ∈ h :: t) (hne : x ≠ h) : ∃ v, [v, x] <:+: h :: t := by
  induction t generalizing h with
  | nil => exact absurd (List.mem_singleton.mp hx) hne
  | cons a t ih =>
    by_cases hxa : x = a
    · exact ⟨h, pair_infix_cons.mpr (.inl ⟨rfl, congrArg some hxa.symm⟩)⟩
    · obtain ⟨v, hv⟩ := ih ((List.mem_cons.mp hx).resolve_left hne) hxa
      exact ⟨v, pair_infix_cons.mpr (.inr hv)⟩

theorem exists_next (hx : x ∈ p) (hlast : p.getLast? ≠ some x) : ∃ v, [x, v] <:+: p := by
  induction p with
  | nil => exact absurd hx List.not_mem_nil
  | cons h t ih =>
    cases t with
    | nil => exact absurd (congrArg some (List.mem_singleton.mp hx)).symm hlast
    | cons a t =>
      obtain rfl | hx := List.mem_cons.mp hx
      · exact ⟨a, pair_infix_cons.mpr (.inl ⟨rfl, rfl⟩)⟩
      · obtain ⟨v, hv⟩ := ih hx (by rwa [List.getLast?_cons_cons] at hlast)
        exact ⟨v, pair_infix_cons.mpr (.inr hv)⟩

theorem exists_first {c : List α} (hp : p.Nodup) (hmeet : ∃ x ∈ p, x ∈ c) :
    ∃ x ∈ c, ∀ y ∈ c, ¬ [y, x] <:+: p := by
  induction p with
  | nil =>
    obtain ⟨x, hx, -⟩ := hmeet
    exact absurd hx List.not_mem_nil
  | cons h t ih =>
    by_cases hh : h ∈ c
    · exact ⟨h, hh, fun y _ => not_pair_head hp⟩
    · obtain ⟨x, hx, hxc⟩ := hmeet
      have hxt : x ∈ t := (List.mem_cons.mp hx).resolve_left fun heq => hh (heq ▸ hxc)
      obtain ⟨x, hxc, hfirst⟩ := ih (List.nodup_cons.mp hp).2 ⟨x, hxt, hxc⟩
      refine ⟨x, hxc, fun y hy hpair => ?_⟩
      obtain ⟨rfl, -⟩ | hpair := pair_infix_cons.mp hpair
      · exact hh hy
      · exact hfirst y hy hpair

theorem exists_between (hx : x ∈ p) (hy : y ∈ p) (hne : x ≠ y) :
    ∃ b, x :: b ++ [y] <:+: p ∨ y :: b ++ [x] <:+: p := by
  obtain ⟨a, c, rfl⟩ := List.append_of_mem hx
  obtain hy | hy := List.mem_append.mp hy
  · obtain ⟨a, b, rfl⟩ := List.append_of_mem hy
    exact ⟨b, .inr ⟨a, c, by simp⟩⟩
  · obtain ⟨b, c, rfl⟩ := List.append_of_mem ((List.mem_cons.mp hy).resolve_left hne.symm)
    exact ⟨b, .inl ⟨a, c, by simp⟩⟩

end Rows

section Trails

variable {α : Type} {near : α → List α} {nodes p q c : List α} {x y : α}

theorem Trail.part (hp : Trail near nodes p) (hq : q <:+: p) : Trail near nodes q where
  chain := List.IsChain.infix hp.chain hq
  nodup := hp.nodup.sublist hq.sublist
  nodes x hx := hp.nodes x (hq.subset hx)

theorem Trail.step (hp : Trail near nodes p) (hxy : [x, y] <:+: p) : y ∈ near x :=
  List.isChain_pair.mp (hp.part hxy).chain

theorem trail_single (hx : x ∈ nodes) : Trail near nodes [x] :=
  ⟨List.isChain_singleton x, List.nodup_singleton x, fun _ hy => List.mem_singleton.mp hy ▸ hx⟩

theorem not_near_self (hring : ¬ ∃ c, Ring near nodes c) (hx : x ∈ nodes) : x ∉ near x :=
  fun hself => hring ⟨[x], trail_single hx, ⟨x, rfl, x, rfl, hself⟩, by simp⟩

/-- Where nothing closes, the links among the nodes of a trail are its own
steps. -/
theorem no_chord (hnet : Network near nodes) (hring : ¬ ∃ c, Ring near nodes c) (hp : Trail near nodes p)
    (hx : x ∈ p) (hy : y ∈ p)
    (hxy : y ∈ near x) : [x, y] <:+: p ∨ [y, x] <:+: p := by
  have hne : x ≠ y := by
    rintro rfl
    exact not_near_self hring (hp.nodes x hx) hxy
  obtain ⟨b, hb | hb⟩ := exists_between hx hy hne
  · cases b with
    | nil => exact .inl hb
    | cons z b =>
      exact absurd ⟨_, hp.part hb, ⟨y, List.getLast?_concat, x, rfl,
        hnet.symm x (hp.nodes x hx) y hxy⟩, by simp⟩ hring
  · cases b with
    | nil => exact .inr hb
    | cons z b =>
      exact absurd ⟨_, hp.part hb, ⟨x, List.getLast?_concat, y, rfl, hxy⟩, by simp⟩ hring

theorem Trail.length_le (hp : Trail near nodes p) : p.length ≤ nodes.length :=
    (List.subperm_of_subset hp.nodup hp.nodes).length_le

theorem Trail.lead {t : List α} {h w : α} (hnet : Network near nodes) (hp : Trail near nodes (h :: t))
    (hw : w ∈ near h)
    (hout : w ∉ h :: t) : Trail near nodes (w :: h :: t) := by
  have hh : h ∈ nodes := hp.nodes h List.mem_cons_self
  exact ⟨List.isChain_cons_cons.mpr ⟨hnet.symm h hh w hw, hp.chain⟩, List.nodup_cons.mpr ⟨hout, hp.nodup⟩,
    List.forall_mem_cons.mpr ⟨hnet.closed h hh w hw, hp.nodes⟩⟩

theorem exists_grown (hnet : Network near nodes) {t : List α} {h : α} (hp : Trail near nodes (h :: t)) :
    ∃ h' t', h :: t <:+ h' :: t' ∧ Trail near nodes (h' :: t') ∧ ∀ w ∈ near h', w ∈ h' :: t' := by
  obtain ⟨n, hn⟩ : ∃ n, nodes.length ≤ t.length + n := ⟨nodes.length, Nat.le_add_left _ _⟩
  induction n generalizing h t with
  | zero =>
    have hlength := hp.length_le
    rw [List.length_cons] at hlength
    omega
  | succ n ih =>
    by_cases hdead : ∀ w ∈ near h, w ∈ h :: t
    · exact ⟨h, t, List.suffix_rfl, hp, hdead⟩
    · push Not at hdead
      obtain ⟨w, hw, hout⟩ := hdead
      obtain ⟨h', t', hsuffix, hgrown⟩ := ih (hp.lead hnet hw hout) (by rw [List.length_cons]; omega)
      exact ⟨h', t', (List.suffix_cons w _).trans hsuffix, hgrown⟩

/-- Where nothing closes, such a head has one neighbour at most. -/
theorem dead_end (hnet : Network near nodes) (hring : ¬ ∃ c, Ring near nodes c) {t : List α} {h : α}
    (hp : Trail near nodes (h :: t)) (hdead : ∀ w ∈ near h, w ∈ h :: t) : (near h).length ≤ 1 := by
  have hnext : ∀ w ∈ near h, t.head? = some w := fun w hw => by
    obtain hpair | hpair := no_chord hnet hring hp List.mem_cons_self (hdead w hw) hw
    · obtain ⟨-, hhead⟩ | hrest := pair_infix_cons.mp hpair
      · exact hhead
      · exact absurd (pair_mem hrest).1 (List.nodup_cons.mp hp.nodup).1
    · exact absurd hpair (not_pair_head hp.nodup)
  by_contra hmore
  obtain ⟨a, b, rest, hnear⟩ : ∃ a b rest, near h = a :: b :: rest := by
    cases hl : near h with
    | nil => simp [hl] at hmore
    | cons a l =>
      cases l with
      | nil => simp [hl] at hmore
      | cons b rest => exact ⟨a, b, rest, rfl⟩
  have ha := hnext a (by rw [hnear]; exact List.mem_cons_self)
  have hb := hnext b (by rw [hnear]; exact List.mem_cons_of_mem _ List.mem_cons_self)
  have hnodup := hnet.nodup h
  rw [hnear, Option.some.inj (ha.symm.trans hb)] at hnodup
  exact (List.nodup_cons.mp hnodup).1 List.mem_cons_self

end Trails

section Rings

variable {α : Type} {near : α → List α} {nodes p c : List α} {x : α}

/-- In a ring of more than one node each has two neighbours. -/
theorem ring_neighbours (hnet : Network near nodes) (hc : Ring near nodes c) (hlength : c.length ≠ 1)
    (hx : x ∈ c) :
    ∃ y ∈ c, ∃ z ∈ c, y ≠ z ∧ y ∈ near x ∧ z ∈ near x := by
  obtain ⟨last, hlast, first, hfirst, hclose⟩ := hc.closes
  have hback : ∀ v ∈ c, x ∈ near v → v ∈ near x := fun v hv h => hnet.symm v (hc.trail.nodes v hv) x h
  obtain ⟨a, b, rfl⟩ := List.append_of_mem hx
  have hnodup := hc.trail.nodup
  cases b with
  | cons w b =>
    have hw : w ∈ near x := hc.trail.step ⟨a, b, by simp⟩
    cases a using List.reverseRecOn with
    | nil =>
      cases b with
      | nil => exact absurd rfl hc.length
      | cons u b =>
        obtain rfl := Option.some.inj hfirst
        have hlastMem : last ∈ u :: b := List.mem_of_getLast? (by simpa using hlast)
        refine ⟨w, by simp, last, by simp_all, ?_, hw, hback last (by simp_all) hclose⟩
        rintro rfl
        simp_all
    | append_singleton a v =>
      have hv : x ∈ near v := hc.trail.step ⟨a, w :: b, by simp⟩
      refine ⟨w, by simp, v, by simp, ?_, hw, hback v (by simp) hv⟩
      rintro rfl
      exact (List.nodup_append.mp hnodup).2.2 w (by simp) w (by simp) rfl
  | nil =>
    cases a using List.reverseRecOn with
    | nil => exact absurd rfl hlength
    | append_singleton a v =>
      have hv : x ∈ near v := hc.trail.step ⟨a, [], by simp⟩
      cases a with
      | nil => exact absurd rfl hc.length
      | cons u a =>
        obtain rfl := Option.some.inj hfirst
        have hlastIs : last = x := Option.some.inj (hlast.symm.trans List.getLast?_concat)
        refine ⟨u, by simp, v, by simp, ?_, hlastIs ▸ hclose, hback v (by simp) hv⟩
        rintro rfl
        simp_all

/-- A row of all nodes has no ring: its first node would follow on another
node of the ring. -/
theorem SimplePath.no_ring (hnet : Network near nodes) (hp : SimplePath near nodes p) :
    ¬ ∃ c, Ring near nodes c := by
  rintro ⟨c, hc⟩
  by_cases hlength : c.length = 1
  · obtain ⟨x, rfl⟩ := List.length_eq_one_iff.mp hlength
    obtain ⟨last, hlast, first, hfirst, hclose⟩ := hc.closes
    obtain rfl := Option.some.inj hlast
    obtain rfl := Option.some.inj hfirst
    obtain hpair | hpair := (hp.steps _ (hc.trail.nodes _ List.mem_cons_self) _).mp hclose
    · exact pair_ne hp.nodup hpair rfl
    · exact pair_ne hp.nodup hpair rfl
  · obtain ⟨x₀, hx₀⟩ : ∃ x, x ∈ c := by
      obtain ⟨last, hlast, -⟩ := hc.closes
      exact ⟨last, List.mem_of_getLast? hlast⟩
    obtain ⟨x, hx, hfirst⟩ := exists_first hp.nodup ⟨x₀, (hp.covers x₀).mpr (hc.trail.nodes x₀ hx₀), hx₀⟩
    obtain ⟨y, hy, z, hz, hne, hxy, hxz⟩ := ring_neighbours hnet hc hlength hx
    have hxnode := hc.trail.nodes x hx
    exact hne (next_unique hp.nodup (((hp.steps x hxnode y).mp hxy).resolve_right (hfirst y hy))
      (((hp.steps x hxnode z).mp hxz).resolve_right (hfirst z hz)))

end Rings

section Counts

variable {α : Type} {near : α → List α} {nodes p c : List α} {x y z : α}

/-- Every node is an end, lies between two others, or stands alone. -/
theorem degrees_sum (d : α → Nat) (l : List α) (h : ∀ x ∈ l, d x ≤ 2) :
    (l.map d).sum + (l.filter (d · = 1)).length + 2 * (l.filter (d · = 0)).length = 2 * l.length := by
  induction l with
  | nil => rfl
  | cons x l ih =>
    obtain ⟨hx, hl⟩ := List.forall_mem_cons.mp h
    have hsum := ih hl
    rw [List.map_cons, List.sum_cons, List.filter_cons, List.filter_cons, List.length_cons]
    obtain hd | hd | hd : d x = 0 ∨ d x = 1 ∨ d x = 2 := by omega
    · simp only [hd, decide_true, if_true, List.length_cons, Nat.reduceEqDiff, decide_false,
        Bool.false_eq_true,
        if_false]
      omega
    · simp only [hd, decide_true, if_true, List.length_cons, Nat.reduceEqDiff, decide_false,
        Bool.false_eq_true,
        if_false]
      omega
    · simp only [hd, Nat.reduceEqDiff, decide_false, Bool.false_eq_true, if_false]
      omega

theorem only_neighbour (hdegree : (near x).length = 1) (hy : y ∈ near x) (hz : z ∈ near x) : y = z := by
  obtain ⟨a, ha⟩ := List.length_eq_one_iff.mp hdegree
  rw [ha, List.mem_singleton] at hy hz
  exact hy.trans hz.symm

theorem no_third (hdegree : (near x).length ≤ 2) {w : α} (hy : y ∈ near x) (hz : z ∈ near x) (hne : y ≠ z)
    (hw : w ∈ near x) : w = y ∨ w = z := by
  by_contra hother
  rw [not_or] at hother
  have hnodup : [w, y, z].Nodup := by simp [hother.1, hother.2, hne]
  have hsub : ([w, y, z] : List α) ⊆ near x := by simp [hw, hy, hz]
  have hlength := (List.subperm_of_subset hnodup hsub).length_le
  simp only [List.length_cons, List.length_nil] at hlength
  omega

/-- What the counts say: everyone has one neighbour or two, and just two
entries have one. -/
structure Counted (near : α → List α) (nodes : List α) : Prop where
  degree : ∀ x ∈ nodes, (near x).length = 1 ∨ (near x).length = 2
  ends : (nodes.filter fun x => (near x).length = 1).length = 2

theorem counted_of_sums (hpos : 0 < nodes.length)
    (hsum : (nodes.map fun x => (near x).length).sum = 2 * (nodes.length - 1))
    (hends : (nodes.filter fun x => (near x).length = 1).length = 2)
    (hbranch : ∀ x ∈ nodes, (near x).length ≤ 2) :
    Counted near nodes := by
  refine ⟨fun x hx => ?_, hends⟩
  have hdegrees := degrees_sum (fun x => (near x).length) nodes hbranch
  have halone : (nodes.filter fun x => (near x).length = 0).length = 0 := by
    rw [hsum, hends] at hdegrees
    omega
  have hsome : (near x).length ≠ 0 := fun hzero => by
    have hmem : x ∈ nodes.filter fun x => (near x).length = 0 :=
      List.mem_filter.mpr ⟨hx, decide_eq_true hzero⟩
    rw [List.eq_nil_of_length_eq_zero halone] at hmem
    exact List.not_mem_nil hmem
  have hle := hbranch x hx
  omega

theorem Counted.pos (h : Counted near nodes) (hx : x ∈ nodes) : ∃ y, y ∈ near x :=
  List.exists_mem_of_length_pos (by have := h.degree x hx; omega)

theorem exists_spanned (hnet : Network near nodes) (h : Counted near nodes)
    (hring : ¬ ∃ c, Ring near nodes c) :
    ∃ a b t, Trail near nodes (a :: t) ∧ (a :: t).getLast? = some b ∧ (near b).length = 1 ∧
      (∀ w ∈ near a, w ∈ a :: t) ∧
      ∀ x ∈ nodes, (near x).length = 1 → x = a ∨ x = b := by
  obtain ⟨b, b', hends⟩ := List.length_eq_two.mp h.ends
  have hb : b ∈ nodes ∧ (near b).length = 1 := by
    have hmem : b ∈ nodes.filter fun x => (near x).length = 1 := hends ▸ List.mem_cons_self
    exact ⟨(List.mem_filter.mp hmem).1, of_decide_eq_true (List.mem_filter.mp hmem).2⟩
  obtain ⟨a, t, hsuffix, htrail, hdead⟩ := exists_grown hnet (trail_single hb.1)
  have hanode : a ∈ nodes := htrail.nodes a List.mem_cons_self
  have hlast : (a :: t).getLast? = some b := by
    obtain ⟨s, hs⟩ := hsuffix
    rw [← hs]
    exact List.getLast?_concat
  have hdegree : (near a).length = 1 := by
    have hle := dead_end hnet hring htrail hdead
    have hone := h.degree a hanode
    omega
  have hne : a ≠ b := by
    rintro rfl
    obtain ⟨w, hw⟩ := h.pos hanode
    cases t with
    | nil => exact not_near_self hring hanode (List.mem_singleton.mp (hdead w hw) ▸ hw)
    | cons u t =>
      rw [List.getLast?_cons_cons] at hlast
      exact (List.nodup_cons.mp htrail.nodup).1 (List.mem_of_getLast? hlast)
  refine ⟨a, b, t, htrail, hlast, hb.2, hdead, fun x hx hone => ?_⟩
  have hall : ∀ y ∈ nodes, (near y).length = 1 → y = b ∨ y = b' := fun y hy hyone => by
    have hmem : y ∈ nodes.filter fun x => (near x).length = 1 :=
      List.mem_filter.mpr ⟨hy, decide_eq_true hyone⟩
    rw [hends] at hmem
    simpa using hmem
  have hab' : a = b' := (hall a hanode hdegree).resolve_left hne
  exact hab' ▸ (hall x hx hone).symm

theorem spanned_closed (hnet : Network near nodes) (h : Counted near nodes) {a b : α} {t : List α}
    (htrail : Trail near nodes (a :: t)) (hlast : (a :: t).getLast? = some b) (hb : (near b).length = 1)
    (hdead : ∀ w ∈ near a, w ∈ a :: t) : ∀ x ∈ a :: t, ∀ w ∈ near x, w ∈ a :: t := by
  intro x hx w hw
  by_cases hxa : x = a
  · exact hdead w (hxa ▸ hw)
  obtain ⟨v, hv⟩ := exists_prev hx hxa
  have hvnear : v ∈ near x := hnet.symm v (htrail.nodes v (pair_mem hv).1) x (htrail.step hv)
  obtain hone | htwo := h.degree x (htrail.nodes x hx)
  · exact only_neighbour hone hvnear hw ▸ (pair_mem hv).1
  · have hxlast : (a :: t).getLast? ≠ some x := fun hlast' => by
      rw [Option.some.inj (hlast.symm.trans hlast')] at hb
      omega
    obtain ⟨u, hu⟩ := exists_next hx hxlast
    have hne : v ≠ u := by
      rintro rfl
      exact pair_asymm htrail.nodup hv hu
    obtain rfl | rfl := no_third htwo.le hvnear (htrail.step hu) hne hw
    · exact (pair_mem hv).1
    · exact (pair_mem hu).2

theorem trail_inside {S : α → Prop} (hS : ∀ x, S x → ∀ w ∈ near x, S w) {t : List α} {h : α}
    (htrail : Trail near nodes (h :: t))
    (hh : S h) : ∀ x ∈ h :: t, S x := by
  induction t generalizing h with
  | nil => exact fun x hx => List.mem_singleton.mp hx ▸ hh
  | cons a t ih =>
    have ha : S a := hS h hh a (htrail.step ⟨[], t, rfl⟩)
    exact List.forall_mem_cons.mpr ⟨hh, ih (htrail.part (List.suffix_cons h _).isInfix) ha⟩

theorem simplePath_iff (hnet : Network near nodes) (h : Counted near nodes) :
    (∃ p, SimplePath near nodes p) ↔ ¬ ∃ c, Ring near nodes c := by
  refine ⟨fun ⟨p, hp⟩ => hp.no_ring hnet, fun hring => ?_⟩
  obtain ⟨a, b, t, htrail, hlast, hb, hdead, hends⟩ := exists_spanned hnet h hring
  have hclosed := spanned_closed hnet h htrail hlast hb hdead
  have hcovers : ∀ u ∈ nodes, u ∈ a :: t := by
    intro u hu
    obtain ⟨v, t', hsuffix, htrail', hdead'⟩ := exists_grown hnet (trail_single hu)
    have hv : v ∈ nodes := htrail'.nodes v List.mem_cons_self
    have hone : (near v).length = 1 := by
      have hle := dead_end hnet hring htrail' hdead'
      have hdegree := h.degree v hv
      omega
    have hin : v ∈ a :: t := by
      obtain rfl | rfl := hends v hv hone
      · exact List.mem_cons_self
      · exact List.mem_of_getLast? hlast
    exact trail_inside (S := (· ∈ a :: t)) hclosed htrail' hin u (hsuffix.subset List.mem_cons_self)
  refine ⟨a :: t, htrail.nodup, fun x => ⟨htrail.nodes x, hcovers x⟩,
    fun x hx y => ⟨fun hy => ?_, fun hpair => ?_⟩⟩
  · exact no_chord hnet hring htrail (hcovers x hx) (hclosed x (hcovers x hx) y hy) hy
  · obtain hpair | hpair := hpair
    · exact htrail.step hpair
    · exact hnet.symm y (htrail.nodes y (pair_mem hpair).1) x (htrail.step hpair)

/-- In a row of more than two nobody is alone with one other. -/
theorem SimplePath.no_pair (h : Counted near nodes) (hp : SimplePath near nodes p)
    (hlength : nodes.length ≠ 2) :
    ¬ ∃ x ∈ nodes, ∃ y, near x = [y] ∧ near y = [x] := by
  have hpairs : ∀ x y, near x = [y] → near y = [x] → ¬ [x, y] <:+: p := by
    rintro x y hx hy ⟨a, b, rfl⟩
    have hnodes : ∀ z ∈ a ++ [x, y] ++ b, z ∈ nodes := fun z hz => (hp.covers z).mp hz
    have hapart : ¬ [y, x] <:+: a ++ [x, y] ++ b := pair_asymm hp.nodup ⟨a, b, rfl⟩
    have hb : b = [] := by
      cases b with
      | nil => rfl
      | cons w b =>
        have hnext : [y, w] <:+: a ++ [x, y] ++ w :: b := ⟨a ++ [x], b, by simp⟩
        have hw := (hp.steps y (hnodes y (by simp)) w).mpr (.inl hnext)
        rw [hy, List.mem_singleton] at hw
        exact absurd (hw ▸ hnext) hapart
    have ha : a = [] := by
      cases a using List.reverseRecOn with
      | nil => rfl
      | append_singleton a v =>
        have hprev : [v, x] <:+: a ++ [v] ++ [x, y] ++ b := ⟨a, y :: b, by simp⟩
        have hv := (hp.steps x (hnodes x (by simp)) v).mpr (.inr hprev)
        rw [hx, List.mem_singleton] at hv
        exact absurd (hv ▸ hprev) hapart
    subst hb ha
    have hfilter : (nodes.filter fun z => (near z).length = 1) = nodes := by
      refine List.filter_eq_self.mpr fun z hz => decide_eq_true ?_
      have hmem := (hp.covers z).mpr hz
      rw [List.nil_append, List.append_nil, List.mem_pair] at hmem
      obtain rfl | rfl := hmem
      · rw [hx]
        rfl
      · rw [hy]
        rfl
    exact hlength (hfilter ▸ h.ends)
  rintro ⟨x, hx, y, hxy, hyx⟩
  obtain hpair | hpair := (hp.steps x hx y).mp (by rw [hxy]; exact List.mem_cons_self)
  · exact hpairs x y hxy hyx hpair
  · exact hpairs y x hyx hxy hpair

end Counts

end Polaris.Lib.Chains
