import Mathlib.Tactic.Linarith
import Mathlib.Tactic.Positivity
import Polaris.CapacityAdvisor
import Polaris.Lib.Quantile

namespace Polaris.WorkHistogram

open Polaris.CapacityAdvisor Polaris.Lib.Quantile

section Source

def cadenceText : CadenceKey → String
  | .probe => "probe"
  | .fastFiltered => "fastFiltered"
  | .telemetry => "telemetry"
  | .systemInfo => "systemInfo"

/-- The boundary of a bucket; the last bucket has none. -/
inductive Le
  | bound (b : ℚ)
  | inf
  deriving DecidableEq

structure Labels where
  cadence : String
  assetType : String
  transport : String
  le : Option Le := none

structure HistogramBucketValue where
  labels : Labels
  value : ℚ
  metricName : Option String

def COLD_START_MIN_SAMPLES : ℚ := 100

def HISTOGRAM_BUCKETS : List ℚ := [5 / 100, 1 / 10, 5 / 10, 1, 2, 5, 10, 30, 60]

def endsWith (name : Option String) (suffix : String) : Bool :=
  name.any fun m => suffix.toList.isSuffixOf m.toList

structure Sums where
  bucketSums : Le → ℚ := fun _ => 0
  totalCount : ℚ := 0

def addEntry (sums : Sums) (entry : HistogramBucketValue) : Sums :=
  if endsWith entry.metricName "_count" then { sums with totalCount := sums.totalCount + entry.value }
  else if endsWith entry.metricName "_sum" then sums
  else match entry.labels.le with
    | none => sums
    | some key =>
      { sums with bucketSums := Function.update sums.bucketSums key (sums.bucketSums key + entry.value) }

/-- The loop over the boundaries, with the boundary and the count before. -/
def interpolate (bucketSums : Le → ℚ) (target : ℚ) : ℚ → ℚ → List ℚ → Option ℚ
  | _, _, [] => none
  | prevBoundary, prevCum, boundary :: rest =>
    let cum := bucketSums (.bound boundary)
    if cum ≥ target then
      let within := cum - prevCum
      if within ≤ 0 then some boundary
      else
        let frac := (target - prevCum) / within
        some (prevBoundary + (boundary - prevBoundary) * frac)
    else interpolate bucketSums target boundary cum rest

structure Percentile where
  value : Option ℚ
  sampleCount : ℚ

def percentile (values : List HistogramBucketValue) (cadence : CadenceKey) (p : ℚ) : Percentile :=
  let sums := (values.filter (·.labels.cadence = cadenceText cadence)).foldl addEntry {}
  if sums.totalCount < COLD_START_MIN_SAMPLES then ⟨none, sums.totalCount⟩
  else
    let target := sums.totalCount * p
    ⟨some ((interpolate sums.bucketSums target 0 0 HISTOGRAM_BUCKETS).getD (HISTOGRAM_BUCKETS.getLastD 0)),
      sums.totalCount⟩

end Source

section Metric

/-- The durations that one combination of labels has been given. -/
structure Series where
  cadence : CadenceKey
  assetType : String
  transport : String
  durations : List ℚ

def buckets : List ℚ := [5 / 100, 1 / 10, 5 / 10, 1, 2, 5, 10, 30, 60]

def metric : String := "polaris_monitor_work_duration_seconds"

def Series.labels (s : Series) : Labels := ⟨cadenceText s.cadence, s.assetType, s.transport, none⟩

/-- What the metric tells of one combination: a cumulative count per boundary,
then the sum and the count. -/
def Series.values (s : Series) : List HistogramBucketValue :=
  buckets.map (fun b => ⟨{ s.labels with le := some (.bound b) }, below s.durations b,
    some (metric ++ "_bucket")⟩) ++
    [⟨{ s.labels with le := some .inf }, s.durations.length, some (metric ++ "_bucket")⟩,
      ⟨s.labels, s.durations.sum, some (metric ++ "_sum")⟩,
      ⟨s.labels, s.durations.length, some (metric ++ "_count")⟩]

def histogramValues (series : List Series) : List HistogramBucketValue := series.flatMap Series.values

def merged (series : List Series) (cadence : CadenceKey) : List ℚ :=
  (series.filter (·.cadence = cadence)).flatMap Series.durations

end Metric

section Counting

variable {series : List Series} {cadence : CadenceKey} {sums : Sums} {s : Series}

theorem addEntry_bucket (labels : Labels) (key : Le) (value : ℚ) (h : labels.le = some key) :
    addEntry sums ⟨labels, value, some (metric ++ "_bucket")⟩ =
      { sums with bucketSums := Function.update sums.bucketSums key (sums.bucketSums key + value) } := by
  have hc : endsWith (some (metric ++ "_bucket")) "_count" = false := by decide +kernel
  have hs : endsWith (some (metric ++ "_bucket")) "_sum" = false := by decide +kernel
  rw [addEntry]
  dsimp only
  rw [hc, hs, h, if_neg Bool.false_ne_true, if_neg Bool.false_ne_true]

theorem addEntry_sum (labels : Labels) (value : ℚ) :
    addEntry sums ⟨labels, value, some (metric ++ "_sum")⟩ = sums := by
  have hc : endsWith (some (metric ++ "_sum")) "_count" = false := by decide +kernel
  have hs : endsWith (some (metric ++ "_sum")) "_sum" = true := by decide +kernel
  rw [addEntry]
  dsimp only
  rw [hc, hs, if_neg Bool.false_ne_true, if_pos rfl]

theorem addEntry_count (labels : Labels) (value : ℚ) :
    addEntry sums ⟨labels, value, some (metric ++ "_count")⟩ =
    { sums with totalCount := sums.totalCount + value } := by
  have hc : endsWith (some (metric ++ "_count")) "_count" = true := by decide +kernel
  rw [addEntry]
  dsimp only
  rw [hc, if_pos rfl]

theorem foldl_buckets (labels : Labels) (value : ℚ → ℚ) {bs : List ℚ} (hn : bs.Nodup) (sums : Sums) :
    ((bs.map fun b => (⟨{ labels with le := some (.bound b) }, value b, some (metric ++ "_bucket")⟩ :
      HistogramBucketValue)).foldl addEntry sums).totalCount = sums.totalCount ∧
    ∀ b, ((bs.map fun b => (⟨{ labels with le := some (.bound b) }, value b, some (metric ++ "_bucket")⟩ :
      HistogramBucketValue)).foldl addEntry sums).bucketSums (.bound b) =
        sums.bucketSums (.bound b) + if b ∈ bs then value b else 0 := by
  induction bs generalizing sums with
  | nil => simp
  | cons c bs ih =>
    obtain ⟨hc, hbs⟩ := List.nodup_cons.mp hn
    rw [List.map_cons, List.foldl_cons, addEntry_bucket _ _ _ rfl]
    refine ⟨(ih hbs _).1, fun b => ?_⟩
    rw [(ih hbs _).2 b]
    by_cases hbc : b = c
    · subst hbc
      simp [hc]
    · simp [hbc]

theorem foldl_values (s : Series) (sums : Sums) :
    (s.values.foldl addEntry sums).totalCount = sums.totalCount + s.durations.length ∧
      ∀ b ∈ buckets, (s.values.foldl addEntry sums).bucketSums (.bound b) =
        sums.bucketSums (.bound b) + below s.durations b := by
  have hn : buckets.Nodup := by decide +kernel
  obtain ⟨htotal, hbuckets⟩ := foldl_buckets s.labels (fun b => (below s.durations b : ℚ)) hn sums
  rw [Series.values, List.foldl_append, List.foldl_cons, List.foldl_cons, List.foldl_cons, List.foldl_nil,
    addEntry_bucket _ _ _ rfl, addEntry_sum, addEntry_count]
  refine ⟨by rw [htotal], fun b hb => ?_⟩
  have hne : Le.bound b ≠ Le.inf := by simp
  dsimp only
  rw [Function.update_of_ne hne, hbuckets b, if_pos hb]

theorem cadenceText_injective {c d : CadenceKey} (h : cadenceText c = cadenceText d) : c = d := by
  cases c <;> cases d <;> first | rfl | exact absurd h (by decide)

theorem filter_values (s : Series) (cadence : CadenceKey) :
    s.values.filter (·.labels.cadence = cadenceText cadence) = if s.cadence = cadence then s.values
      else [] := by
  have hall : ∀ v ∈ s.values, v.labels.cadence = cadenceText s.cadence := by
    intro v hv
    rw [Series.values, List.mem_append, List.mem_map] at hv
    obtain ⟨b, -, rfl⟩ | hv := hv
    · rfl
    · simp only [List.mem_cons, List.not_mem_nil, or_false] at hv
      obtain rfl | rfl | rfl := hv <;> rfl
  split
  · next hc =>
    exact List.filter_eq_self.mpr fun v hv => decide_eq_true ((hall v hv).trans (congrArg cadenceText hc))
  · next hc =>
    refine List.filter_eq_nil_iff.mpr fun v hv => ?_
    rw [decide_eq_true_eq, hall v hv]
    exact fun h => hc (cadenceText_injective h)

theorem foldl_histogramValues (series : List Series) (cadence : CadenceKey) (sums : Sums) :
    (((histogramValues series).filter (·.labels.cadence = cadenceText cadence)).foldl
      addEntry sums).totalCount =
      sums.totalCount + (merged series cadence).length ∧
    ∀ b ∈ buckets, (((histogramValues series).filter (·.labels.cadence = cadenceText cadence)).foldl addEntry
      sums).bucketSums (.bound b) = sums.bucketSums (.bound b) + below (merged series cadence) b := by
  induction series generalizing sums with
  | nil => simp [histogramValues, merged, below]
  | cons s series ih =>
    have hvalues : (histogramValues (s :: series)).filter (·.labels.cadence = cadenceText cadence) =
        (if s.cadence = cadence then s.values else []) ++
          (histogramValues series).filter (·.labels.cadence = cadenceText cadence) := by
      rw [histogramValues, List.flatMap_cons, List.filter_append, filter_values]
      rfl
    rw [hvalues, List.foldl_append]
    by_cases hc : s.cadence = cadence
    · have hmerged : merged (s :: series) cadence = s.durations ++ merged series cadence := by
        rw [merged, List.filter_cons_of_pos (by simpa using hc), List.flatMap_cons]
        rfl
      obtain ⟨htotal, hbuckets⟩ := foldl_values s sums
      rw [if_pos hc, hmerged, List.length_append]
      refine ⟨?_, fun b hb => ?_⟩
      · rw [(ih _).1, htotal]
        push_cast
        ring
      · rw [(ih _).2 b hb, hbuckets b hb, below_append]
        push_cast
        ring
    · have hmerged : merged (s :: series) cadence = merged series cadence := by
        rw [merged, List.filter_cons_of_neg (by simpa using hc)]
        rfl
      rw [if_neg hc, List.foldl_nil, hmerged]
      exact ih sums

end Counting

section Interpolation

variable {f : Le → ℚ} {target t t' prev prevCum lower upper v top : ℚ} {bs : List ℚ}

theorem lerp_between (hb : prev ≤ upper) (hprev : prevCum < t) (hcum : t ≤ f (.bound upper)) :
    prev ≤ prev + (upper - prev) * ((t - prevCum) / (f (.bound upper) - prevCum)) ∧
      prev + (upper - prev) * ((t - prevCum) / (f (.bound upper) - prevCum)) ≤ upper := by
  have hwithin : 0 < f (.bound upper) - prevCum := by linarith
  have hfrac : 0 ≤ (t - prevCum) / (f (.bound upper) - prevCum) := div_nonneg (by linarith) hwithin.le
  have hone : (t - prevCum) / (f (.bound upper) - prevCum) ≤ 1 := (div_le_one hwithin).mpr (by linarith)
  have hspan : 0 ≤ upper - prev := by linarith
  constructor
  · linarith [mul_nonneg hspan hfrac]
  · linarith [mul_le_of_le_one_right hspan hone]

theorem interpolate_hit (rest : List ℚ) (hprev : prevCum < t) (hcum : t ≤ f (.bound upper)) :
    interpolate f t prev prevCum (upper :: rest) =
      some (prev + (upper - prev) * ((t - prevCum) / (f (.bound upper) - prevCum))) := by
  rw [interpolate]
  dsimp only
  rw [if_pos hcum, if_neg (by linarith)]

theorem interpolate_skip (rest : List ℚ) (hcum : f (.bound upper) < t) :
    interpolate f t prev prevCum (upper :: rest) = interpolate f t upper (f (.bound upper)) rest := by
  rw [interpolate]
  dsimp only
  rw [if_neg (not_le.mpr hcum)]

theorem interpolate_none (hprev : prevCum < t) (h : interpolate f t prev prevCum bs = none) :
    ∀ b ∈ bs, f (.bound b) < t := by
  induction bs generalizing prev prevCum with
  | nil => exact fun b hb => absurd hb List.not_mem_nil
  | cons c bs ih =>
    obtain hcum | hcum := le_or_gt t (f (.bound c))
    · rw [interpolate_hit bs hprev hcum] at h
      cases h
    · rw [interpolate_skip bs hcum] at h
      exact List.forall_mem_cons.mpr ⟨hcum, ih hcum h⟩

theorem interpolate_some (hsorted : (prev :: bs).Pairwise (· ≤ ·)) (hprev : prevCum < t)
    (h : interpolate f t prev prevCum bs = some v) :
    ∃ lower upper, (lower, upper) ∈ (prev :: bs).zip bs ∧ t ≤ f (.bound upper) ∧
      (lower = prev ∨ lower ∈ bs ∧ f (.bound lower) < t) ∧ lower ≤ v ∧ v ≤ upper := by
  induction bs generalizing prev prevCum with
  | nil => cases h
  | cons c bs ih =>
    obtain ⟨hle, htail⟩ := List.pairwise_cons.mp hsorted
    obtain hcum | hcum := le_or_gt t (f (.bound c))
    · rw [interpolate_hit bs hprev hcum] at h
      cases h
      exact ⟨prev, c, List.mem_cons_self, hcum, .inl rfl, lerp_between (hle c List.mem_cons_self) hprev hcum⟩
    · rw [interpolate_skip bs hcum] at h
      obtain ⟨lower, upper, hmem, hu, hl, hv⟩ := ih htail hcum h
      refine ⟨lower, upper, List.mem_cons_of_mem _ hmem, hu, .inr ?_, hv⟩
      obtain rfl | ⟨hb, hlow⟩ := hl
      · exact ⟨List.mem_cons_self, hcum⟩
      · exact ⟨List.mem_cons_of_mem _ hb, hlow⟩

theorem interpolate_ge (hsorted : (prev :: bs).Pairwise (· ≤ ·)) (hprev : prevCum < t) (htop : prev ≤ top) :
    prev ≤ (interpolate f t prev prevCum bs).getD top := by
  cases h : interpolate f t prev prevCum bs with
  | none => exact htop
  | some v =>
    obtain ⟨lower, upper, -, -, hl, hv, -⟩ := interpolate_some hsorted hprev h
    refine le_trans ?_ hv
    obtain rfl | ⟨hb, -⟩ := hl
    · exact le_rfl
    · exact (List.pairwise_cons.mp hsorted).1 lower hb

theorem interpolate_mono (hsorted : (prev :: bs).Pairwise (· ≤ ·)) (hprev : prevCum < t) (ht : t ≤ t')
    (htop : ∀ b ∈ bs, b ≤ top) :
    (interpolate f t prev prevCum bs).getD top ≤ (interpolate f t' prev prevCum bs).getD top := by
  induction bs generalizing prev prevCum with
  | nil => exact le_rfl
  | cons c bs ih =>
    obtain ⟨hle, htail⟩ := List.pairwise_cons.mp hsorted
    obtain ⟨hc, hbs⟩ := List.forall_mem_cons.mp htop
    have hspan := hle c List.mem_cons_self
    obtain hcum' | hcum' := le_or_gt t' (f (.bound c))
    · rw [interpolate_hit bs hprev (ht.trans hcum'), interpolate_hit bs (hprev.trans_le ht) hcum']
      have hwithin : 0 ≤ f (.bound c) - prevCum := by linarith
      have hfrac := div_le_div_of_nonneg_right (sub_le_sub_right ht prevCum) hwithin
      have hscaled := mul_le_mul_of_nonneg_left hfrac (sub_nonneg.mpr hspan)
      exact add_le_add_right hscaled prev
    · rw [interpolate_skip bs hcum']
      obtain hcum | hcum := le_or_gt t (f (.bound c))
      · rw [interpolate_hit bs hprev hcum]
        exact (lerp_between hspan hprev hcum).2.trans (interpolate_ge htail hcum' hc)
      · rw [interpolate_skip bs hcum]
        exact ih htail hcum hbs

end Interpolation

section Quantiles

variable {series : List Series} {cadence : CadenceKey}

def counts (xs : List ℚ) : Le → ℚ
  | .bound b => below xs b
  | .inf => xs.length

theorem interpolate_congr {f g : Le → ℚ} {bs : List ℚ} (h : ∀ b ∈ bs, f (.bound b) = g (.bound b))
    (t prev prevCum : ℚ) :
    interpolate f t prev prevCum bs = interpolate g t prev prevCum bs := by
  induction bs generalizing prev prevCum with
  | nil => rfl
  | cons c bs ih =>
    obtain ⟨hc, hbs⟩ := List.forall_mem_cons.mp h
    rw [interpolate, interpolate, hc, ih hbs]

theorem percentile_eq (series : List Series) (cadence : CadenceKey) (p : ℚ) :
    percentile (histogramValues series) cadence p =
      if ((merged series cadence).length : ℚ) < COLD_START_MIN_SAMPLES then ⟨none,
        (merged series cadence).length⟩
      else ⟨some ((interpolate (counts (merged series cadence))
          ((merged series cadence).length * p) 0 0 buckets).getD 60),
        (merged series cadence).length⟩ := by
  obtain ⟨htotal, hbuckets⟩ := foldl_histogramValues series cadence {}
  rw [zero_add] at htotal
  have hcounts : ∀ b ∈ buckets,
    (((histogramValues series).filter (·.labels.cadence = cadenceText cadence)).foldl
      addEntry {}).bucketSums (.bound b) = counts (merged series cadence) (.bound b) := by
    intro b hb
    rw [hbuckets b hb, counts]
    exact zero_add _
  rw [percentile]
  dsimp only
  rw [htotal]
  change ite _ _ (Percentile.mk (some (Option.getD (interpolate _ _ _ _ buckets) 60)) _) = _
  rw [interpolate_congr hcounts]

/-- A value in the bucket of the quantile; behind the last boundary there is
only that boundary. -/
def SharesBucket (q v : ℚ) : Prop :=
  (∃ lower upper, (lower, upper) ∈ (0 :: buckets).zip buckets ∧ lower ≤ q ∧ q ≤ upper ∧
    (lower < q ∨ lower = 0) ∧
    lower ≤ v ∧ v ≤ upper) ∨ (∀ b ∈ buckets, b < q) ∧ v = 60

structure Faithful (series : List Series) (cadence : CadenceKey) : Prop where
  located : ∀ p, 0 < p → p ≤ 1 → ∃ q v, IsQuantile (merged series cadence) p q ∧
    (percentile (histogramValues series) cadence p).value = some v ∧ SharesBucket q v
  ordered : ∃ v v', (percentile (histogramValues series) cadence (5 / 10)).value = some v ∧
    (percentile (histogramValues series) cadence (9 / 10)).value = some v' ∧ v ≤ v'
  own : ∀ p others mixed, (∀ s ∈ others, s.cadence ≠ cadence) → mixed.Perm (series ++ others) →
    percentile (histogramValues mixed) cadence p = percentile (histogramValues series) cadence p

theorem buckets_sorted : (0 :: buckets).Pairwise (· ≤ ·) := by decide +kernel

theorem buckets_le : ∀ b ∈ buckets, b ≤ 60 := by decide +kernel

theorem percentile_value (hn : 100 ≤ (merged series cadence).length) (p : ℚ) :
    (percentile (histogramValues series) cadence p).value =
      some ((interpolate (counts (merged series cadence)) ((merged series cadence).length * p) 0 0
        buckets).getD 60) := by
  have hmany : ¬ ((merged series cadence).length : ℚ) < COLD_START_MIN_SAMPLES := by
    rw [COLD_START_MIN_SAMPLES, not_lt]
    exact_mod_cast hn
  rw [percentile_eq, if_neg hmany]

theorem target_pos (hn : 100 ≤ (merged series cadence).length) {p : ℚ} (hp : 0 < p) :
    0 < ((merged series cadence).length : ℚ) * p := by
  have hlen : (0 : ℚ) < (merged series cadence).length := by
    have : 0 < (merged series cadence).length := by omega
    exact_mod_cast this
  exact mul_pos hlen hp

theorem sharesBucket {xs : List ℚ} {p q : ℚ} (hd : ∀ d ∈ xs, 0 ≤ d) (hq : IsQuantile xs p q) (hp : 0 < p)
    (ht : 0 < (xs.length : ℚ) * p) :
    SharesBucket q ((interpolate (counts xs) (xs.length * p) 0 0 buckets).getD 60) := by
  have hle : ∀ b, q ≤ b ↔ xs.length * p ≤ counts xs (.bound b) := by
    intro b
    rw [hq.le_iff hp, mul_comm]
    rfl
  have hlt : ∀ b, counts xs (.bound b) < xs.length * p → b < q := fun b hb =>
    lt_of_not_ge fun h => absurd ((hle b).mp h) (not_le.mpr hb)
  cases h : interpolate (counts xs) (xs.length * p) 0 0 buckets with
  | none => exact .inr ⟨fun b hb => hlt b (interpolate_none ht h b hb), rfl⟩
  | some v =>
    obtain ⟨lower, upper, hmem, hu, hl, hv⟩ := interpolate_some buckets_sorted ht h
    have hq0 := hd q hq.mem
    refine .inl ⟨lower, upper, hmem, ?_, (hle upper).mpr hu, ?_, hv⟩
    · obtain rfl | ⟨-, hcum⟩ := hl
      · exact hq0
      · exact (hlt lower hcum).le
    · obtain rfl | ⟨-, hcum⟩ := hl
      · exact .inr rfl
      · exact .inl (hlt lower hcum)

theorem merged_mixed {others mixed : List Series} (ho : ∀ s ∈ others, s.cadence ≠ cadence)
    (hm : mixed.Perm (series ++ others)) : (merged mixed cadence).Perm (merged series cadence) := by
  have hnone : others.filter (·.cadence = cadence) = [] :=
    List.filter_eq_nil_iff.mpr fun s hs => by simpa using ho s hs
  have hfilter := hm.filter (·.cadence = cadence)
  rw [List.filter_append, hnone, List.append_nil] at hfilter
  exact hfilter.flatMap_right Series.durations

/-- The percentile of the histogram shares the bucket of the quantile of all
durations of the cadence. -/
theorem percentile_faithful (series : List Series) (cadence : CadenceKey)
    (hn : 100 ≤ (merged series cadence).length)
    (hd : ∀ s ∈ series, ∀ d ∈ s.durations, 0 ≤ d) : Faithful series cadence where
  located p hp h1 := by
    have hne : merged series cadence ≠ [] := by
      intro hnil
      rw [hnil] at hn
      exact absurd hn (by decide)
    obtain ⟨q, hq⟩ := exists_quantile h1 hne
    refine ⟨q, _, hq, percentile_value hn p, sharesBucket (fun d hmem => ?_) hq hp (target_pos hn hp)⟩
    obtain ⟨s, hs, hds⟩ := List.mem_flatMap.mp hmem
    exact hd s (List.mem_filter.mp hs).1 d hds
  ordered := by
    refine ⟨_, _, percentile_value hn _, percentile_value hn _, ?_⟩
    refine interpolate_mono buckets_sorted (target_pos hn (by norm_num)) ?_ buckets_le
    exact mul_le_mul_of_nonneg_left (by norm_num) (Nat.cast_nonneg _)
  own p others mixed ho hm := by
    have hperm := merged_mixed ho hm
    have hcounts : counts (merged mixed cadence) = counts (merged series cadence) := by
      funext le
      cases le with
      | bound b => exact congrArg Nat.cast (hperm.countP_eq _)
      | inf => exact congrArg Nat.cast hperm.length_eq
    rw [percentile_eq, percentile_eq, hperm.length_eq, hcounts]

/-- Fast answers of the servers, and some hosts that take minutes. -/
def officeSeries : List Series :=
  [⟨.probe, "server", "icmp", List.replicate 90 (2 / 100)⟩, ⟨.telemetry, "server", "snmp", [3, 4]⟩,
    ⟨.probe, "workstation", "winrm", List.replicate 20 95⟩]

theorem percentile_faithful_office : Faithful officeSeries .probe := by
  refine percentile_faithful officeSeries .probe (by decide +kernel) fun s hs d hd => ?_
  rw [officeSeries] at hs
  simp only [List.mem_cons, List.not_mem_nil, or_false] at hs
  obtain rfl | rfl | rfl := hs
  · rw [List.eq_of_mem_replicate hd]
    norm_num
  · obtain rfl | rfl := List.mem_pair.mp hd <;> norm_num
  · rw [List.eq_of_mem_replicate hd]
    norm_num

end Quantiles

end Polaris.WorkHistogram
