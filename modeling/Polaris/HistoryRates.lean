import Polaris.Lib.Series
import Polaris.SampleHistory

namespace Polaris.HistoryRates

open Polaris.Lib.Rollup Polaris.Lib.Aggregates Polaris.Lib.Series Polaris.SampleRollup Polaris.SampleStreams
  Polaris.SampleRollupDays Polaris.SampleQueryRouter Polaris.SampleHistory

section Spec

def rolledUp (detail : Detail) (sinceHourly sinceDaily : Int) : Tables :=
  let hourly := runAllHourly sinceHourly detail .empty
  ⟨detail, hourly, runAllDaily sinceDaily hourly .empty⟩

def unitOf (tier : SampleTier) : Int := if tier = .hourly then hourMs else dayMs

def secondsOf (ms : Int) : ℚ := (ms : ℚ) / 1000

section Bucket

variable (k : NamedKey) (tier : SampleTier) (c : Counter) (samples : List InterfaceSample)

def bucketSamples : List InterfaceSample := group (interface.bucket (unitOf tier)) k samples

def inOrder : List InterfaceSample := (bucketSamples k tier samples).insertionSort fun a b =>
    a.timestamp ≤ b.timestamp

/-- From the start of the bucket to its last sample. -/
def stretches : List (Segment ℚ) :=
  segments (secondsOf k.2) none none
    ((inOrder k tier samples).map fun r => (secondsOf r.timestamp, asRat (c.sample r)))

/-- The counter grows at a constant rate, and was read twice at least. -/
def Steady (r : ℚ) : Prop :=
  0 ≤ r ∧
    (∀ a ∈ bucketSamples k tier samples, ∀ b ∈ bucketSamples k tier samples, ∀ x ∈ c.sample a,
      ∀ y ∈ c.sample b,
      ((y - x : Int) : ℚ) = r * secondsOf (b.timestamp - a.timestamp)) ∧
    ∃ a ∈ bucketSamples k tier samples, ∃ b ∈ bucketSamples k tier samples, a.timestamp < b.timestamp ∧
      (c.sample a).isSome ∧ (c.sample b).isSome

/-- A counter that grows steadily is read at the start of the bucket and in
its last sample. -/
def SteadyAligned : Prop :=
  ∀ r, Steady k tier c samples r → r = 0 ∨
    (∃ a ∈ bucketSamples k tier samples, a.timestamp = k.2 ∧ (c.sample a).isSome) ∧
      ∃ b ∈ bucketSamples k tier samples, (c.sample b).isSome ∧
        ∀ a ∈ bucketSamples k tier samples, a.timestamp ≤ b.timestamp

/-- Unless it ends lower than it began, the counter levels out where the
detail tier has no rate. -/
def LevelsOut : Prop :=
  ∀ x ∈ ((inOrder k tier samples).filterMap c.sample).head?,
    ∀ y ∈ ((inOrder k tier samples).filterMap c.sample).getLast?, x ≤ y → Levels (stretches k tier c samples)

end Bucket

variable (t : Tables) (k : NamedKey) (tier : SampleTier) (c : Counter) (since untilAt : Int)

def bucketRate : Option ℚ :=
  ((readInterfaceHistory t k.1.1 since untilAt tier k.1.2).1.find? fun r => r.timestamp = k.2).bind
    (·.perSec c)

def detailRates : List ℚ :=
  (derivePerIntervalSeries c
    (readInterfaceHistory t k.1.1 k.2 (k.2 + unitOf tier - 1) .detail k.1.2).1).filterMap id

def SteadyExact : Prop :=
  ∀ r, Steady k tier c t.detail.interface r → bucketRate t k tier c since untilAt = some r

def WithinDetail : Prop :=
  ∀ x ∈ bucketRate t k tier c since untilAt,
    ∃ m ∈ (detailRates t k tier c).min?, ∃ M ∈ (detailRates t k tier c).max?, m ≤ x ∧ x ≤ M

end Spec

variable {detail : Detail} {samples : List InterfaceSample} {sinceHourly sinceDaily since untilAt : Int}
  {k : NamedKey}
  {tier : SampleTier} {c : Counter}

section Rows

theorem lookup_hourly {α ρ ε : Type} [DecidableEq ε] (s : Stream α ρ ε) {rows : List α} {h : ε × Int}
    (hsh : sinceHourly ≤ h.2) :
    lookup s.key h (s.sqlHourly sinceHourly rows []) =
      if group (s.bucket hourMs) h rows = [] then none
      else some (s.aggregateHourly h (group (s.bucket hourMs) h rows)) := by
  have hgroup : group (s.bucket hourMs) h (rows.filter fun r => sinceHourly ≤ s.timestamp r) =
      group (s.bucket hourMs) h rows := by
    unfold group
    rw [List.filter_filter]
    refine List.filter_congr fun r _ => ?_
    by_cases hr : s.bucket hourMs r = h
    · have hle : h.2 ≤ s.timestamp r := hr ▸ dateTrunc_le (by decide)
      simp [hr, hsh.trans hle]
    · simp [hr]
  unfold Stream.sqlHourly
  rw [lookup_insertSelect _ s.key_hourly, hgroup]
  rfl

/-- The row of a bucket aggregates the detail rows of the bucket. -/
theorem lookup_rollup (htier : tier ≠ .detail) (hsh : sinceHourly ≤ k.2) (hsd : sinceDaily ≤ k.2)
    (hd : ((bucketSamples k tier detail.interface).map (·.timestamp)).Nodup) :
    lookup InterfaceBucket.key k ((rolledUp detail sinceHourly sinceDaily).rollups tier).interface =
      if bucketSamples k tier detail.interface = [] then none
      else some (aggregateInterface k (bucketSamples k tier detail.interface)) := by
  cases tier with
  | detail => exact absurd rfl htier
  | hourly => exact lookup_hourly interface hsh
  | daily =>
    have hday := (lookup_daily_iff interface detail.interface k hsh hsd (fun _ => trivial)
      fun _ hks => iff_true_intro (interface_day hks hd)).mpr trivial
    exact hday

variable (detail sinceHourly sinceDaily tier) in
theorem nodup_rollup : (((rolledUp detail sinceHourly sinceDaily).rollups tier).interface.map
    InterfaceBucket.key).Nodup := by
  unfold Tables.rollups
  split_ifs
  · exact nodup_insertSelect_nil _ interface.key_hourly _
  · exact nodup_insertSelect_nil _ interface.key_daily _

variable (k tier samples) in
theorem inOrder_perm : (inOrder k tier samples).Perm (bucketSamples k tier samples) :=
  List.perm_insertionSort _ _

theorem inOrder_sorted (hd : ((bucketSamples k tier samples).map (·.timestamp)).Nodup) :
    (inOrder k tier samples).Pairwise fun a b => a.timestamp < b.timestamp := by
  have htotal : Std.Total fun a b : InterfaceSample => a.timestamp ≤ b.timestamp := ⟨fun a b => le_total _ _⟩
  have htrans : IsTrans InterfaceSample fun a b => a.timestamp ≤ b.timestamp := ⟨fun _ _ _ => le_trans⟩
  have hle := List.pairwise_insertionSort (fun a b : InterfaceSample => a.timestamp ≤ b.timestamp)
    (bucketSamples k tier samples)
  have hne : (inOrder k tier samples).Pairwise fun a b => a.timestamp ≠ b.timestamp := by
    rw [← List.pairwise_map]
    exact ((inOrder_perm samples k tier).map _).nodup_iff.mpr hd
  exact (hle.and hne).imp fun h => lt_of_le_of_ne h.1 h.2

theorem bucketRate_eq (htier : tier ≠ .detail) (hsh : sinceHourly ≤ k.2) (hsd : sinceDaily ≤ k.2)
    (hs : since ≤ k.2) (hu : k.2 ≤ untilAt)
    (hd : ((bucketSamples k tier detail.interface).map (·.timestamp)).Nodup) :
    bucketRate (rolledUp detail sinceHourly sinceDaily) k tier c since untilAt =
      rate ((inOrder k tier detail.interface).filterMap c.sample).head?
        ((inOrder k tier detail.interface).filterMap c.sample).getLast? k.2
        (((inOrder k tier detail.interface).getLast?.map (·.timestamp)).getD 0) := by
  have hsorted := inOrder_sorted hd
  have hperm := inOrder_perm detail.interface k tier
  unfold bucketRate readInterfaceHistory
  rw [if_neg htier]
  dsimp only
  have hkey : ∀ r : InterfaceBucket, r.key = k ↔
      decide (r.assetId = k.1.1 ∧ r.ifName = k.1.2) = true ∧ r.bucketStart = k.2 := by
    intro r
    simp [InterfaceBucket.key, Prod.ext_iff]
  have hfind := find_selectRange (nodup_rollup detail sinceHourly sinceDaily tier) hkey hs hu
  rw [List.find?_map]
  have hcomp : (fun r : InterfaceHistoryRow => decide (r.timestamp = k.2)) ∘ interfaceRollupRow =
      fun r => decide (r.bucketStart = k.2) := rfl
  rw [hcomp, hfind, lookup_rollup htier hsh hsd hd]
  split_ifs with hnil
  · rw [hnil] at hperm
    rw [hperm.eq_nil]
    rfl
  · have hmax : ((bucketSamples k tier detail.interface).filterMap fun r => some r.timestamp).max? =
        (inOrder k tier detail.interface).getLast?.map (·.timestamp) := by
      rw [← max_of_sorted hperm hsorted]
      rw [List.filterMap_eq_map']
    have hfirst : first _ c.sample _ = _ := first_of_sorted hperm hsorted
    have hlast : first _ c.sample _ = _ := last_of_sorted hperm hsorted
    rw [Option.map_some, Option.bind_some, ← hfirst, ← hlast, ← hmax]
    cases c <;> rfl

end Rows

section Detail

theorem unitOf_pos : 0 < unitOf tier := by
  unfold unitOf
  split_ifs <;> decide

theorem dateTrunc_eq_iff {unit b time : Int} (hunit : 0 < unit) (hb : dateTrunc unit b = b) :
    dateTrunc unit time = b ↔ b ≤ time ∧ time ≤ b + unit - 1 := by
  unfold dateTrunc at *
  constructor
  · intro h
    have hle := Int.ediv_mul_le time hunit.ne'
    have hlt := Int.lt_ediv_add_one_mul_self time hunit
    rw [add_mul, one_mul] at hlt
    omega
  · rintro ⟨hlow, hhigh⟩
    have hq : time / unit = b / unit := by
      refine le_antisymm ?_ (Int.ediv_le_ediv hunit hlow)
      refine Int.lt_add_one_iff.mp ((Int.ediv_lt_iff_lt_mul hunit).mpr ?_)
      rw [add_mul, hb, one_mul]
      omega
    rw [hq, hb]

theorem readInterfaceHistory_detail {t : Tables} (halign : dateTrunc (unitOf tier) k.2 = k.2) :
    (readInterfaceHistory t k.1.1 k.2 (k.2 + unitOf tier - 1) .detail k.1.2).1 =
      (inOrder k tier t.detail.interface).map interfaceDetailRow := by
  have hfilter : (t.detail.interface.filter fun s => decide (s.assetId = k.1.1 ∧ s.ifName = k.1.2) &&
      decide (k.2 ≤ s.timestamp) && decide (s.timestamp ≤ k.2 + unitOf tier - 1)) =
        bucketSamples k tier t.detail.interface := by
    refine List.filter_congr fun s _ => ?_
    have hiff : dateTrunc (unitOf tier) s.timestamp = k.2 ↔ _ := dateTrunc_eq_iff unitOf_pos halign
    rw [Bool.eq_iff_iff]
    simp only [Bool.and_eq_true, decide_eq_true_eq, Stream.bucket, Prod.ext_iff]
    rw [and_assoc, ← hiff]
    rfl
  unfold readInterfaceHistory selectRange
  rw [if_pos rfl, hfilter]
  rfl

/-- The differences of neighbouring samples are the rates of the measured
stretches. -/
theorem derive_rates {p : InterfaceSample} {rest : List InterfaceSample} {carried : Option ℚ}
    (hc : ∀ v, c.sample p = some v → carried = some (v : ℚ))
    (hs : (p :: rest).Pairwise fun a b => a.timestamp < b.timestamp) :
    (derivePerIntervalSeries c ((p :: rest).map interfaceDetailRow)).filterMap id =
      rates (segments (secondsOf p.timestamp) (asRat (c.sample p)) carried
        (rest.map fun r => (secondsOf r.timestamp, asRat (c.sample r)))) := by
  induction rest generalizing p carried with
  | nil => rfl
  | cons q rest ih =>
    have hlt : p.timestamp < q.timestamp := (List.pairwise_cons.mp hs).1 q List.mem_cons_self
    have hdt : ¬ q.timestamp - p.timestamp ≤ 0 := by omega
    have hnext : ∀ v, c.sample q = some v → (asRat (c.sample q)).or carried = some (v : ℚ) := by
      intro v hv
      rw [hv]
      rfl
    have hrest := ih hnext (List.pairwise_cons.mp hs).2
    have hstep : derivePerIntervalSeries c ((p :: q :: rest).map interfaceDetailRow) =
        (delta (c.sample p) (c.sample q)).map
          (fun d => d / (((q.timestamp - p.timestamp : Int) : ℚ) / 1000)) ::
          derivePerIntervalSeries c ((q :: rest).map interfaceDetailRow) := by
      unfold derivePerIntervalSeries
      simp only [List.map_cons, List.tail_cons, List.zip_cons_cons, List.filterMap_cons,
        interfaceDetailRow, hdt,
        if_false]
    have htime : secondsOf q.timestamp - secondsOf p.timestamp =
        ((q.timestamp - p.timestamp : Int) : ℚ) / 1000 := by
      simp only [secondsOf, Int.cast_sub]
      ring
    rw [hstep, List.filterMap_cons, hrest, List.map_cons]
    cases hp : c.sample p with
    | none => rw [rates_unread (by simp [asRat])]; rfl
    | some x =>
      rw [hc x hp]
      cases hq : c.sample q with
      | none => rw [rates_unread (by simp [asRat])]; rfl
      | some y =>
        have hgrown : grown (some (x : ℚ)) (asRat (some y)) = ((y - x : Int) : ℚ) := (Int.cast_sub y x).symm
        by_cases hback : y - x < 0
        · rw [rates_unread (by rw [hgrown, Int.cast_nonneg_iff]; omega)]
          simp [delta, hback]
        · rw [rates_read rfl rfl (by rw [hgrown, Int.cast_nonneg_iff]; omega), hgrown, htime]
          simp [delta, hback]

theorem detailRates_eq {t : Tables} (halign : dateTrunc (unitOf tier) k.2 = k.2)
    (hd : ((bucketSamples k tier t.detail.interface).map (·.timestamp)).Nodup) :
    detailRates t k tier c = rates (stretches k tier c t.detail.interface) := by
  have hsorted := inOrder_sorted hd
  unfold detailRates stretches
  rw [readInterfaceHistory_detail halign]
  cases hS : inOrder k tier t.detail.interface with
  | nil => rfl
  | cons p rest =>
    rw [hS] at hsorted
    rw [List.map_cons (f := fun r : InterfaceSample => (secondsOf r.timestamp, asRat (c.sample r))),
      rates_unread (by simp), Option.or_none]
    exact derive_rates (fun v hv => by rw [hv]; rfl) hsorted

end Detail

section Ends

variable (k tier c samples) in
/-- The first and the last reading of the bucket, and its last sample. -/
structure Ends (f l s : InterfaceSample) (x y : Int) : Prop where
  first : f ∈ bucketSamples k tier samples
  last : l ∈ bucketSamples k tier samples
  sample : s ∈ bucketSamples k tier samples
  head : c.sample f = some x
  tail : c.sample l = some y
  between : ∀ a ∈ bucketSamples k tier samples, (c.sample a).isSome → f.timestamp ≤ a.timestamp ∧
    a.timestamp ≤ l.timestamp
  latest : ∀ a ∈ bucketSamples k tier samples, a.timestamp ≤ s.timestamp
  head? : ((inOrder k tier samples).filterMap c.sample).head? = some x
  getLast? : ((inOrder k tier samples).filterMap c.sample).getLast? = some y
  newest : (inOrder k tier samples).getLast?.map (·.timestamp) = some s.timestamp

theorem exists_ends (hd : ((bucketSamples k tier samples).map (·.timestamp)).Nodup) {a : InterfaceSample}
    (ha : a ∈ bucketSamples k tier samples) (hread : (c.sample a).isSome) :
    ∃ f l s x y, Ends samples k tier c f l s x y := by
  have hperm := inOrder_perm samples k tier
  have hsorted := inOrder_sorted hd
  have hfirst : first _ c.sample _ = _ := first_of_sorted hperm hsorted
  have hlast : first _ c.sample _ = _ := last_of_sorted hperm hsorted
  have hmax := max_of_sorted hperm hsorted
  have hne : ∀ order : InterfaceSample → Int, first order c.sample (bucketSamples k tier samples) ≠ none :=
    fun order hnone => by simp [first_eq_none_iff.mp hnone a ha] at hread
  obtain ⟨x, hx⟩ := Option.ne_none_iff_exists'.mp (hne (·.timestamp))
  obtain ⟨y, hy⟩ := Option.ne_none_iff_exists'.mp (hne fun r => -r.timestamp)
  obtain ⟨f, hf, hfx, hleast⟩ := first_eq_some hx
  obtain ⟨l, hl, hly, hmost⟩ := first_eq_some hy
  have hsome : ((bucketSamples k tier samples).map (·.timestamp)).max?.isSome :=
    List.isSome_max?_of_ne_nil (List.ne_nil_of_mem (List.mem_map_of_mem ha))
  obtain ⟨time, htime⟩ := Option.isSome_iff_exists.mp hsome
  obtain ⟨hin, hge⟩ := List.max?_eq_some_iff.mp htime
  obtain ⟨s, hs, rfl⟩ := List.mem_map.mp hin
  refine ⟨f, l, s, x, y, hf, hl, hs, hfx, hly, fun b hb hbread => ?_,
    fun b hb => hge _ (List.mem_map_of_mem hb),
    hfirst ▸ hx, hlast ▸ hy, hmax ▸ htime⟩
  have hb' : c.sample b ≠ none := Option.isSome_iff_ne_none.mp hbread
  exact ⟨hleast b hb hb', neg_le_neg_iff.mp (hmost b hb hb')⟩

variable {f l s : InterfaceSample} {x y : Int}

theorem Ends.totals (h : Ends samples k tier c f l s x y) :
    totalTime (stretches k tier c samples) = secondsOf (s.timestamp - k.2) ∧
      totalGrowth (stretches k tier c samples) = ((y - x : Int) : ℚ) := by
  have hreadings : ((inOrder k tier samples).map fun r => (secondsOf r.timestamp,
    asRat (c.sample r))).filterMap (·.2) =
      ((inOrder k tier samples).filterMap c.sample).map (Int.cast : Int → ℚ) := by
    rw [List.filterMap_map, List.map_filterMap]
    rfl
  obtain ⟨r, hr, htime⟩ := Option.map_eq_some_iff.mp h.newest
  refine ⟨?_, ?_⟩
  · rw [stretches, totalTime_segments, List.getLast?_map, hr]
    simp only [Option.map_some, Option.getD_some, htime, secondsOf, Int.cast_sub]
    ring
  · rw [stretches, totalGrowth_segments, hreadings, List.head?_map, List.getLast?_map, h.head?, h.getLast?]
    exact (Int.cast_sub y x).symm

theorem start_le {a : InterfaceSample} (ha : a ∈ bucketSamples k tier samples) : k.2 ≤ a.timestamp := by
  obtain ⟨-, hk⟩ := List.mem_filter.mp ha
  have hbucket : interface.bucket (unitOf tier) a = k := of_decide_eq_true hk
  rw [← hbucket]
  exact dateTrunc_le unitOf_pos

theorem Ends.rate (h : Ends samples k tier c f l s x y) :
    SampleHistory.rate ((inOrder k tier samples).filterMap c.sample).head?
        ((inOrder k tier samples).filterMap c.sample).getLast? k.2
        (((inOrder k tier samples).getLast?.map (·.timestamp)).getD 0) =
      if y < x then none
      else if s.timestamp ≤ k.2 then some 0
      else some (((y - x : Int) : ℚ) / secondsOf (s.timestamp - k.2)) := by
  have hseconds : (((s.timestamp - k.2 : Int) : ℚ) / 1000 ≤ 0) ↔ s.timestamp ≤ k.2 := by
    rw [div_le_iff₀ (by norm_num), zero_mul, Int.cast_nonpos]
    omega
  rw [h.head?, h.getLast?, h.newest, Option.getD_some]
  simp only [SampleHistory.rate, sub_neg, hseconds, secondsOf]

/-- A bucket whose last sample is at its start has no other. -/
theorem rates_single (hd : ((bucketSamples k tier samples).map (·.timestamp)).Nodup)
    (h : ∀ a ∈ bucketSamples k tier samples, a.timestamp ≤ k.2) :
    rates (stretches k tier c samples) = [] := by
  have hsorted := inOrder_sorted hd
  have hmem : ∀ a ∈ inOrder k tier samples, a.timestamp = k.2 := fun a ha =>
    have hin := (inOrder_perm samples k tier).subset ha
    le_antisymm (h a hin) (start_le hin)
  unfold stretches
  cases hS : inOrder k tier samples with
  | nil => rfl
  | cons p rest =>
    cases rest with
    | nil => rw [List.map_cons, rates_unread (by simp)]; rfl
    | cons q rest =>
      rw [hS] at hsorted hmem
      have hlt := (List.pairwise_cons.mp hsorted).1 q List.mem_cons_self
      rw [hmem p (by simp), hmem q (by simp)] at hlt
      exact absurd hlt (lt_irrefl _)

end Ends

section Exactness

/-- The chart covers the bucket on a rollup tier, and no two of its samples
were taken at once. -/
structure Shown (detail : Detail) (sinceHourly sinceDaily since untilAt : Int) (k : NamedKey)
  (tier : SampleTier) : Prop where
  rollup : tier ≠ .detail
  hourly : sinceHourly ≤ k.2
  daily : sinceDaily ≤ k.2
  since : since ≤ k.2
  untilAt : k.2 ≤ untilAt
  aligned : dateTrunc (unitOf tier) k.2 = k.2
  distinct : ((bucketSamples k tier detail.interface).map (·.timestamp)).Nodup

variable {f l s : InterfaceSample} {x y : Int} {r : ℚ}

theorem Ends.bucketRate (h : Ends detail.interface k tier c f l s x y)
    (hshown : Shown detail sinceHourly sinceDaily since untilAt k tier) :
    bucketRate (rolledUp detail sinceHourly sinceDaily) k tier c since untilAt =
      if y < x then none
      else if s.timestamp ≤ k.2 then some 0
      else some (((y - x : Int) : ℚ) / secondsOf (s.timestamp - k.2)) :=
  (bucketRate_eq hshown.rollup hshown.hourly hshown.daily hshown.since hshown.untilAt
    hshown.distinct).trans h.rate

theorem bucketRate_unread (hshown : Shown detail sinceHourly sinceDaily since untilAt k tier)
    (h : ∀ a ∈ bucketSamples k tier detail.interface, c.sample a = none) :
    HistoryRates.bucketRate (rolledUp detail sinceHourly sinceDaily) k tier c since untilAt = none ∧
      LevelsOut k tier c detail.interface := by
  have hnil : (inOrder k tier detail.interface).filterMap c.sample = [] :=
    List.filterMap_eq_nil_iff.mpr fun a ha => h a ((inOrder_perm detail.interface k tier).subset ha)
  refine ⟨?_, ?_⟩
  · rw [bucketRate_eq hshown.rollup hshown.hourly hshown.daily hshown.since hshown.untilAt
      hshown.distinct, hnil]
    rfl
  · unfold LevelsOut
    rw [hnil]
    rintro x ⟨⟩

theorem withinDetail_iff (hshown : Shown detail sinceHourly sinceDaily since untilAt k tier) :
    WithinDetail (rolledUp detail sinceHourly sinceDaily) k tier c since untilAt ↔
      LevelsOut k tier c detail.interface := by
  have hrates : detailRates (rolledUp detail sinceHourly sinceDaily) k tier c =
      rates (stretches k tier c detail.interface) := detailRates_eq hshown.aligned hshown.distinct
  unfold WithinDetail
  rw [hrates]
  by_cases hread : ∃ a ∈ bucketSamples k tier detail.interface, (c.sample a).isSome
  · obtain ⟨a, ha, hread⟩ := hread
    obtain ⟨f, l, s, x, y, h⟩ := exists_ends hshown.distinct ha hread
    obtain ⟨htime, hgrowth⟩ := h.totals
    rw [h.bucketRate hshown]
    unfold LevelsOut
    rw [h.head?, h.getLast?]
    simp only [Option.mem_def, Option.some.injEq, forall_eq']
    by_cases hback : y < x
    · rw [if_pos hback]
      exact iff_of_true (by rintro _ ⟨⟩) fun hle => absurd hle (not_le.mpr hback)
    · rw [if_neg hback]
      simp only [not_lt.mp hback, true_imp_iff]
      by_cases hs : s.timestamp ≤ k.2
      · have hnone := rates_single (c := c) hshown.distinct fun b hb => (h.latest b hb).trans hs
        rw [if_pos hs, hnone]
        refine iff_of_false (fun hall => ?_) fun hlevels => ?_
        · obtain ⟨m, hm, -⟩ := hall 0 rfl
          cases hm
        · obtain ⟨m, hm, -⟩ := hlevels
          rw [hnone] at hm
          cases hm
      · have hpos : 0 < totalTime (stretches k tier c detail.interface) := by
          rw [htime, secondsOf]
          exact div_pos (Int.cast_pos.mpr (by omega)) (by norm_num)
        have hiff := between_iff hpos
        rw [if_neg hs, ← hiff, htime, hgrowth]
        simp only [Option.some.injEq, forall_eq', Option.mem_def]
  · have hnone : ∀ a ∈ bucketSamples k tier detail.interface, c.sample a = none := by
      intro a ha
      rw [← Option.not_isSome_iff_eq_none]
      exact fun hsome => hread ⟨a, ha, hsome⟩
    obtain ⟨hrate, hlevels⟩ := bucketRate_unread hshown hnone
    rw [hrate]
    exact iff_of_true (by rintro _ ⟨⟩) hlevels

theorem steadyExact_iff (hshown : Shown detail sinceHourly sinceDaily since untilAt k tier) :
    SteadyExact (rolledUp detail sinceHourly sinceDaily) k tier c since untilAt ↔
      SteadyAligned k tier c detail.interface := by
  refine forall_congr' fun r => forall_congr' fun hsteady => ?_
  obtain ⟨hr, hgrows, a, ha, b, hb, hlt, hra, hrb⟩ := hsteady
  obtain ⟨f, l, s, x, y, h⟩ := exists_ends hshown.distinct ha hra
  have hspan : f.timestamp < l.timestamp :=
    (h.between a ha hra).1.trans_lt (hlt.trans_le (h.between b hb hrb).2)
  have hstart : k.2 ≤ f.timestamp := start_le h.first
  have hend : l.timestamp ≤ s.timestamp := h.latest l h.last
  have hgrowth : ((y - x : Int) : ℚ) = r * secondsOf (l.timestamp - f.timestamp) :=
    hgrows f h.first l h.last x h.head y h.tail
  have hsec : ∀ {u v : Int}, u < v → 0 < secondsOf (v - u) := by
    intro u v huv
    exact div_pos (Int.cast_pos.mpr (by omega)) (by norm_num)
  have hback : ¬ y < x := by
    have hnonneg : (0 : ℚ) ≤ ((y - x : Int) : ℚ) := by
      rw [hgrowth]
      exact mul_nonneg hr (hsec hspan).le
    rw [Int.cast_nonneg_iff] at hnonneg
    omega
  have hpos : 0 < secondsOf (s.timestamp - k.2) := hsec (by omega)
  rw [h.bucketRate hshown, if_neg hback, if_neg (by omega), hgrowth, Option.some.injEq, div_eq_iff hpos.ne',
    mul_eq_mul_left_iff, or_comm]
  refine or_congr_right ?_
  have hspans : secondsOf (l.timestamp - f.timestamp) = secondsOf (s.timestamp - k.2) ↔
      f.timestamp = k.2 ∧ l.timestamp = s.timestamp := by
    unfold secondsOf
    rw [div_left_inj' (by norm_num), Int.cast_inj]
    omega
  rw [hspans]
  constructor
  · rintro ⟨hf, hl⟩
    exact ⟨⟨f, h.first, hf, by rw [h.head]; rfl⟩, l,
      h.last, by rw [h.tail]; rfl, fun d hd => hl ▸ h.latest d hd⟩
  · rintro ⟨⟨d, hd, hdk, hdread⟩, e, he, heread, hlatest⟩
    have hlow := (h.between d hd hdread).1
    have hhigh := (h.between e he heread).2
    have hlast := hlatest s h.sample
    omega

def reading (minute octets : Int) : InterfaceSample :=
  { assetId := "a1", timestamp := minute * 60000, ifName := "wan1", inOctets := some octets }

/-- One interface that is read at these minutes of its first hour. -/
def readings (points : List (Int × Int)) : Detail :=
  ⟨[], [], [], [], points.map fun p => reading p.1 p.2⟩

def wan : NamedKey := (("a1", "wan1"), 0)

theorem shown_readings {points : List (Int × Int)}
    (h : ((bucketSamples wan .hourly (readings points).interface).map (·.timestamp)).Nodup) :
    Shown (readings points) 0 0 0 0 wan .hourly :=
  ⟨by decide, le_refl _, le_refl _, le_refl _, le_refl _, by decide, h⟩

end Exactness

end Polaris.HistoryRates
