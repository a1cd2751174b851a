import Polaris.SampleRollup

namespace Polaris.SampleRollupRuns

open Polaris.Lib.Rollup Polaris.SampleRollup

variable {lookbackHours now : Int} {es fs : List Event} {k : BucketKey}

/-- A tick has run since the hour ended and its samples arrived. -/
def Due (es : List Event) (k : BucketKey) : Prop :=
  ∃ past now rest, es = past ++ .tickHourly now :: rest ∧ k.2 + hourMs ≤ now ∧ arrived k rest = []

/-- Once an hour is due its row aggregates all of its samples, and stays as
it is for as long as no further sample of the hour arrives. -/
def Settles (lookbackHours : Int) (es : List Event) : Prop :=
  ∀ past, past <+: es → ∀ k, Due past k →
    hourlyRow lookbackHours past k = completeRow k (arrived k past) ∧
      ∀ rest, past ++ rest <+: es → arrived k rest = [] →
        hourlyRow lookbackHours (past ++ rest) k = hourlyRow lookbackHours past k

def ReachesAll (lookbackHours now : Int) (rows : List MonitorSample) : Prop :=
  ∀ row ∈ rows, lookbackStart lookbackHours now ≤ row.timestamp

def ReachesNone (lookbackHours now : Int) (rows : List MonitorSample) : Prop :=
  ∀ row ∈ rows, row.timestamp < lookbackStart lookbackHours now

/-- Some tick reached every sample of the hour, and the lookback boundary of
no later tick fell between two of them. -/
def Covered (lookbackHours : Int) (es : List Event) (k : BucketKey) : Prop :=
  arrived k es = [] ∨ ∃ past now rest, es = past ++ .tickHourly now :: rest ∧
    arrived k rest = [] ∧ ReachesAll lookbackHours now (arrived k es) ∧
    ∀ later, Event.tickHourly later ∈ rest →
      ReachesAll lookbackHours later (arrived k es) ∨ ReachesNone lookbackHours later (arrived k es)

section Windows

variable {rows : List MonitorSample}

theorem filter_eq_nil_iff_reachesNone :
    rows.filter (lookbackStart lookbackHours now ≤ ·.timestamp) = [] ↔
      ReachesNone lookbackHours now rows := by
  simp [ReachesNone, List.filter_eq_nil_iff]

theorem filter_eq_self_iff_reachesAll :
    rows.filter (lookbackStart lookbackHours now ≤ ·.timestamp) = rows ↔
      ReachesAll lookbackHours now rows := by
  simp [ReachesAll, List.filter_eq_self]

theorem reachesAll_not_reachesNone (hrows : rows ≠ []) (hall : ReachesAll lookbackHours now rows) :
    ¬ ReachesNone lookbackHours now rows := by
  intro hnone
  obtain ⟨row, hrow⟩ := List.exists_mem_of_ne_nil rows hrows
  exact absurd (hall row hrow) (not_le.mpr (hnone row hrow))

theorem aggregate_filter_eq_iff :
    aggregateMonitor k (rows.filter (lookbackStart lookbackHours now ≤ ·.timestamp)) =
      aggregateMonitor k rows ↔ ReachesAll lookbackHours now rows := by
  rw [← filter_eq_self_iff_reachesAll]
  constructor
  · intro h
    have hcount := congrArg MonitorBucket.sampleCount h
    exact List.filter_sublist.eq_of_length hcount
  · intro h
    rw [h]

end Windows

theorem hourlyRow_sampleCount (b : MonitorBucket) (h : hourlyRow lookbackHours es k = some b) :
    b.sampleCount ≤ (arrived k es).length := by
  induction es using List.reverseRecOn generalizing b with
  | nil => cases h
  | append_singleton es e ih =>
    rw [arrived_append, List.length_append]
    cases e with
    | sample row =>
      rw [hourlyRow_sample] at h
      exact (ih b h).trans (Nat.le_add_right _ _)
    | tickHourly now =>
      rw [hourlyRow_tick] at h
      split_ifs at h
      · exact (ih b h).trans (Nat.le_add_right _ _)
      · cases h
        exact (List.length_filter_le _ _).trans (Nat.le_add_right _ _)

theorem covered_sample {row : MonitorSample} :
    Covered lookbackHours (es ++ [.sample row]) k ↔ row.hour ≠ k ∧ Covered lookbackHours es k := by
  have harr : row.hour ≠ k → arrived k (es ++ [.sample row]) = arrived k es := by
    intro hne
    rw [arrived_append, arrived_sample, if_neg hne, List.append_nil]
  constructor
  · intro h
    have hne : row.hour ≠ k := by
      intro heq
      obtain hnil | ⟨past, now, rest, hes, hrest, _⟩ := h
      · simp [arrived_sample, heq] at hnil
      · obtain rfl | ⟨rest', e, rfl⟩ := List.eq_nil_or_concat' rest
        · simp at hes
        · rw [← List.cons_append, ← List.append_assoc] at hes
          obtain ⟨_, he⟩ := List.append_inj' hes rfl
          rw [← he, arrived_append, arrived_sample, if_pos heq] at hrest
          simp at hrest
    refine ⟨hne, ?_⟩
    obtain hnil | ⟨past, now, rest, hes, hrest, hall, hlater⟩ := h
    · exact .inl (harr hne ▸ hnil)
    · rw [harr hne] at hall hlater
      obtain rfl | ⟨rest', e, rfl⟩ := List.eq_nil_or_concat' rest
      · simp at hes
      · rw [← List.cons_append, ← List.append_assoc] at hes
        obtain ⟨hes, _⟩ := List.append_inj' hes rfl
        rw [arrived_append, List.append_eq_nil_iff] at hrest
        exact .inr ⟨past, now, rest', hes, hrest.1, hall,
          fun later hl => hlater later (List.mem_append_left _ hl)⟩
  · rintro ⟨hne, hnil | ⟨past, now, rest, rfl, hrest, hall, hlater⟩⟩
    · exact .inl (by rw [harr hne, hnil])
    · refine .inr ⟨past, now, rest ++ [.sample row], by simp, ?_, ?_, ?_⟩
      · rw [arrived_append, hrest, arrived_sample, if_neg hne, List.append_nil]
      · rw [harr hne]
        exact hall
      · intro later hl
        rw [harr hne]
        exact hlater later (by simpa using hl)

theorem covered_tick :
    Covered lookbackHours (es ++ [.tickHourly now]) k ↔
      ReachesAll lookbackHours now (arrived k es) ∨
        (ReachesNone lookbackHours now (arrived k es) ∧ Covered lookbackHours es k) := by
  have harr : arrived k (es ++ [.tickHourly now]) = arrived k es := by simp
  unfold Covered
  rw [harr]
  constructor
  · rintro (hnil | ⟨past, t, rest, hes, hrest, hall, hlater⟩)
    · exact .inl (by simp [ReachesAll, hnil])
    · obtain rfl | ⟨rest', e, rfl⟩ := List.eq_nil_or_concat' rest
      · obtain ⟨_, he⟩ := List.append_inj' hes rfl
        cases he
        exact .inl hall
      · rw [← List.cons_append, ← List.append_assoc] at hes
        obtain ⟨hpast, he⟩ := List.append_inj' hes rfl
        cases he
        refine (hlater now (by simp)).imp_right fun hnone => ⟨hnone, .inr ?_⟩
        exact ⟨past, t, rest', hpast, by simpa using hrest, hall,
          fun later hl => hlater later (List.mem_append_left _ hl)⟩
  · rintro (hall | ⟨hnone, hnil | ⟨past, t, rest, rfl, hrest, hall, hlater⟩⟩)
    · exact .inr ⟨es, now, [], rfl, rfl, hall, by simp⟩
    · exact .inl hnil
    · refine .inr ⟨past, t, rest ++ [.tickHourly now], by simp, by simpa using hrest, hall, ?_⟩
      intro later hl
      obtain hl | hl := List.mem_append.mp hl
      · exact hlater later hl
      · cases List.mem_singleton.mp hl
        exact .inr hnone

theorem hourlyRow_complete_iff :
    hourlyRow lookbackHours es k = completeRow k (arrived k es) ↔ Covered lookbackHours es k := by
  induction es using List.reverseRecOn with
  | nil => exact iff_of_true rfl (.inl rfl)
  | append_singleton es e ih =>
    cases e with
    | sample row =>
      rw [covered_sample, hourlyRow_sample, arrived_append, arrived_sample]
      by_cases h : row.hour = k
      · refine iff_of_false (fun heq => ?_) (fun hc => hc.1 h)
        rw [if_pos h, completeRow, if_neg (by simp)] at heq
        have hcount := hourlyRow_sampleCount _ heq
        simp only [aggregateMonitor, List.length_append, List.length_singleton] at hcount
        omega
      · rw [if_neg h, List.append_nil, ih]
        exact ⟨fun hc => ⟨h, hc⟩, fun hc => hc.2⟩
    | tickHourly now =>
      rw [covered_tick, hourlyRow_tick, ← ih, arrived_append, arrived_tick, arrived_nil,
        List.append_nil]
      by_cases hnone : ReachesNone lookbackHours now (arrived k es)
      · rw [if_pos (filter_eq_nil_iff_reachesNone.mpr hnone)]
        refine ⟨fun h => .inr ⟨hnone, h⟩, fun h => ?_⟩
        obtain hall | h := h
        · refine ih.mpr (.inl (by_contra fun hne => ?_))
          exact reachesAll_not_reachesNone hne hall hnone
        · exact h.2
      · have hne : arrived k es ≠ [] := fun hnil => hnone (by simp [ReachesNone, hnil])
        rw [if_neg (mt filter_eq_nil_iff_reachesNone.mp hnone), completeRow, if_neg hne,
          Option.some.injEq, aggregate_filter_eq_iff]
        exact ⟨.inl, fun h => h.resolve_right fun hr => hnone hr.1⟩

theorem due_append (h : Due es k) (hrest : arrived k fs = []) : Due (es ++ fs) k := by
  obtain ⟨past, now, rest, rfl, hnow, hno⟩ := h
  exact ⟨past, now, rest ++ fs, by simp, hnow, by simp [hno, hrest]⟩

/-- A run keeps every due hour's row complete exactly when each due hour has
a tick that reached all of its samples and no later boundary splits them. -/
theorem settles_iff_covered (lookbackHours : Int) (es : List Event) :
    Settles lookbackHours es ↔
      ∀ past, past <+: es → ∀ k, Due past k → Covered lookbackHours past k := by
  constructor
  · intro h past hpast k hdue
    exact hourlyRow_complete_iff.mp (h past hpast k hdue).1
  · intro h past hpast k hdue
    have hrow := hourlyRow_complete_iff.mpr (h past hpast k hdue)
    refine ⟨hrow, fun rest hes hrest => ?_⟩
    have hlater := hourlyRow_complete_iff.mpr (h _ hes k (due_append hdue hrest))
    rw [hlater, hrow, arrived_append, hrest, List.append_nil]

def probe (timestamp : Int) : Event := .sample ⟨"a", timestamp, true, some 12⟩

/-- Samples at 01:10 and 01:50, a tick at 02:10 and one at 03:30 whose
lookback boundary is 01:30. -/
def splitHour : List Event :=
  [probe 4200000, probe 6600000, .tickHourly 7800000, .tickHourly 12600000]

theorem late_tick_drops_samples :
    (hourlyRow 2 (splitHour.take 3) ("a", hourMs)).map (·.sampleCount) = some 2 ∧
      (hourlyRow 2 splitHour ("a", hourMs)).map (·.sampleCount) = some 1 ∧
      ¬ Settles 2 splitHour := by
  have hcount : (hourlyRow 2 splitHour ("a", hourMs)).map (·.sampleCount) = some 1 := by decide
  refine ⟨by decide, hcount, fun h => ?_⟩
  have hdue : Due splitHour ("a", hourMs) := ⟨splitHour.take 2, 7800000, _, rfl, by decide, rfl⟩
  obtain ⟨hrow, _⟩ := h splitHour List.prefix_rfl ("a", hourMs) hdue
  rw [hrow] at hcount
  exact absurd hcount (by decide)

end Polaris.SampleRollupRuns
