import Polaris.Lib.TwoRuns
import Polaris.SettingsMigration

namespace Polaris.SampleRetentionService

open Polaris.Lib.TwoRuns Polaris.SettingsMigration

section Data

inductive RetentionStream
  | sample | telemetry | systemInfo
  deriving DecidableEq

inductive RetentionTier
  | detail | hourly | daily
  deriving DecidableEq

inductive RetentionClass
  | default | switch | accessPoint
  deriving DecidableEq

structure ClassRetention where
  default : Nat
  switch : Nat
  accessPoint : Nat
  deriving DecidableEq

structure TierRetention where
  detail : ClassRetention
  hourly : ClassRetention
  daily : ClassRetention
  deriving DecidableEq

structure SampleRetention where
  sample : TierRetention
  telemetry : TierRetention
  systemInfo : TierRetention
  deriving DecidableEq

def ClassRetention.get (r : ClassRetention) : RetentionClass → Nat
  | .default => r.default
  | .switch => r.switch
  | .accessPoint => r.accessPoint

def TierRetention.get (r : TierRetention) : RetentionTier → ClassRetention
  | .detail => r.detail
  | .hourly => r.hourly
  | .daily => r.daily

def SampleRetention.get (r : SampleRetention) : RetentionStream → TierRetention
  | .sample => r.sample
  | .telemetry => r.telemetry
  | .systemInfo => r.systemInfo

def pickClassForAssetType (assetType : Option String) : RetentionClass :=
  if assetType = some "switch" then .switch
  else if assetType = some "access_point" then .accessPoint
  else .default

def DEFAULT_DETAIL_DAYS : Nat := 7
def DEFAULT_HOURLY_DAYS : Nat := 30
def DEFAULT_DAILY_DAYS : Nat := 365

def defaultClass (value : Nat) : ClassRetention := ⟨value, value, value⟩

def defaultTier : TierRetention :=
  ⟨defaultClass DEFAULT_DETAIL_DAYS, defaultClass DEFAULT_HOURLY_DAYS, defaultClass DEFAULT_DAILY_DAYS⟩

def defaultSampleRetention : SampleRetention := ⟨defaultTier, defaultTier, defaultTier⟩

def ClassRetention.json (r : ClassRetention) : Json :=
  .obj [("default", .num r.default), ("switch", .num r.switch), ("accessPoint", .num r.accessPoint)]

def TierRetention.json (r : TierRetention) : Json :=
  .obj [("detail", r.detail.json), ("hourly", r.hourly.json), ("daily", r.daily.json)]

def SampleRetention.json (r : SampleRetention) : Json :=
  .obj [("sample", r.sample.json), ("telemetry", r.telemetry.json), ("systemInfo", r.systemInfo.json)]

end Data

section Parse

variable (Number : Json → Option Rat)

def isNullish : Option Json → Bool
  | none | some .null => true
  | some _ => false

def toPositiveInt (v : Option Json) (fallback : Nat) : Nat :=
  if isNullish v then fallback
  else
    match v.bind Number with
    | none => fallback
    | some n => if n < 0 then fallback else ⌊n⌋.toNat

def parseClass (raw : Option Json) (fallback : ClassRetention) : ClassRetention :=
  match raw.filter Json.isObject with
  | none => fallback
  | some r =>
    ⟨toPositiveInt Number (r.get "default") fallback.default,
      toPositiveInt Number (r.get "switch") fallback.switch,
      toPositiveInt Number (r.get "accessPoint") fallback.accessPoint⟩

def parseTier (raw : Option Json) (fallback : TierRetention) : TierRetention :=
  match raw.filter Json.isObject with
  | none => fallback
  | some r =>
    ⟨parseClass Number (r.get "detail") fallback.detail,
      parseClass Number (r.get "hourly") fallback.hourly,
      parseClass Number (r.get "daily") fallback.daily⟩

def parseSampleRetention (raw : Option Json) : SampleRetention :=
  match raw.filter Json.isObject with
  | none => defaultSampleRetention
  | some r =>
    ⟨parseTier Number (r.get "sample") defaultSampleRetention.sample,
      parseTier Number (r.get "telemetry") defaultSampleRetention.telemetry,
      parseTier Number (r.get "systemInfo") defaultSampleRetention.systemInfo⟩

def mergeClass (current : ClassRetention) (input : Option Json) : ClassRetention :=
  match input.filter Json.isObject with
  | none => current
  | some i =>
    ⟨if isNullish (i.get "default") then current.default
      else toPositiveInt Number (i.get "default") current.default,
      if isNullish (i.get "switch") then current.switch
        else toPositiveInt Number (i.get "switch") current.switch,
      if isNullish (i.get "accessPoint") then current.accessPoint
      else toPositiveInt Number (i.get "accessPoint") current.accessPoint⟩

def mergeTier (current : TierRetention) (input : Option Json) : TierRetention :=
  match input.filter Json.isObject with
  | none => current
  | some i =>
    ⟨if isNullish (i.get "detail") then current.detail else mergeClass Number current.detail (i.get "detail"),
      if isNullish (i.get "hourly") then current.hourly
        else mergeClass Number current.hourly (i.get "hourly"),
      if isNullish (i.get "daily") then current.daily else mergeClass Number current.daily (i.get "daily")⟩

def mergeRetention (current : SampleRetention) (i : Json) : SampleRetention :=
  ⟨if isNullish (i.get "sample") then current.sample else mergeTier Number current.sample (i.get "sample"),
    if isNullish (i.get "telemetry") then current.telemetry
    else mergeTier Number current.telemetry (i.get "telemetry"),
    if isNullish (i.get "systemInfo") then current.systemInfo
    else mergeTier Number current.systemInfo (i.get "systemInfo")⟩

end Parse

section Service

structure Cached where
  value : SampleRetention
  fetchedAt : Int

structure Store where
  row : Option Json := none
  cache : Option Cached := none

def CACHE_TTL_MS : Int := 5000

variable (Number : Json → Option Rat) (now : Int) (s : Store)

def fresh : Option SampleRetention :=
  (s.cache.filter fun c => now - c.fetchedAt < CACHE_TTL_MS).map (·.value)

def getSampleRetention : SampleRetention × Store :=
  match fresh now s with
  | some value => (value, s)
  | none =>
    let value := parseSampleRetention Number s.row
    (value, { s with cache := some ⟨value, now⟩ })

def updateSampleRetention (input : Json) : SampleRetention × Store :=
  let (current, s) := getSampleRetention Number now s
  let merged := mergeRetention Number current input
  (merged, { s with row := some merged.json, cache := none })

end Service

section Prune

structure SampleRow where
  assetId : String
  time : Int
  deriving DecidableEq

structure ClassIds where
  switchIds : List String
  accessPointIds : List String
  disjoint : ∀ id ∈ switchIds, id ∉ accessPointIds

def ClassIds.classOf (ids : ClassIds) (id : String) : RetentionClass :=
  if id ∈ ids.switchIds then .switch
  else if id ∈ ids.accessPointIds then .accessPoint
  else .default

def DAY_MS : Int := 24 * 3600 * 1000

/-- A row of the time is still in a tier that keeps so many days, zero for
ever. -/
def Held (days : Nat) (now time : Int) : Prop := days = 0 ∨ now - days * DAY_MS ≤ time

instance (days : Nat) (now time : Int) : Decidable (Held days now time) := inferInstanceAs (Decidable (_ ∨ _))

def deleteMany (p : SampleRow → Bool) (rows : List SampleRow) : List SampleRow × Nat :=
  (rows.filter fun r => !p r, rows.countP p)

def pruneClass (now : Int) (days : Nat) (p : String → Bool) (rows : List SampleRow) : List SampleRow × Nat :=
  if 0 < days then deleteMany (fun r => p r.assetId && decide (r.time < now - days * DAY_MS)) rows
    else (rows, 0)

def pruneOneTable (dropChunks : Int → List SampleRow → List SampleRow) (now : Int) (days : ClassRetention)
    (ids : ClassIds) (rows : List SampleRow) : List SampleRow × Nat :=
  let longest := max days.default (max days.switch days.accessPoint)
  let rows := if 0 < longest then dropChunks (now - longest * DAY_MS) rows else rows
  let tagged := ids.switchIds ++ ids.accessPointIds
  let (rows, others) := pruneClass now days.default (fun id => !tagged.contains id) rows
  let (rows, switches) := pruneClass now days.switch ids.switchIds.contains rows
  let (rows, accessPoints) := pruneClass now days.accessPoint ids.accessPointIds.contains rows
  (rows, others + switches + accessPoints)

end Prune

variable {Number : Json → Option Rat} {now : Int} {s : Store}

section Documents

variable (current : ClassRetention) (tier : TierRetention) (input : Option Json)

theorem ite_nullish {α : Type} {v : Option Json} {read held : α}
    (h : isNullish v = true → read = held) : (if isNullish v then held else read) = read := by
  split_ifs with hv
  · exact (h hv).symm
  · rfl

theorem toPositiveInt_nullish {fallback : Nat} (h : isNullish input = true) :
    toPositiveInt Number input fallback = fallback := by
  simp [toPositiveInt, h]

theorem filter_nullish (h : isNullish input = true) : input.filter Json.isObject = none := by
  cases input with
  | none => rfl
  | some v => cases v <;> first | rfl | cases h

theorem parseClass_nullish (h : isNullish input = true) : parseClass Number input current = current := by
  rw [parseClass, filter_nullish input h]

theorem parseTier_nullish (h : isNullish input = true) : parseTier Number input tier = tier := by
  rw [parseTier, filter_nullish input h]

theorem mergeClass_eq : mergeClass Number current input = parseClass Number input current := by
  unfold mergeClass parseClass
  cases input.filter Json.isObject with
  | none => rfl
  | some i =>
    simp only
    congr 1
    all_goals exact ite_nullish (toPositiveInt_nullish _)

theorem mergeTier_eq : mergeTier Number tier input = parseTier Number input tier := by
  unfold mergeTier parseTier
  cases input.filter Json.isObject with
  | none => rfl
  | some i =>
    simp only [mergeClass_eq]
    congr 1
    all_goals exact ite_nullish (parseClass_nullish _ _)

theorem mergeRetention_eq (held : SampleRetention) (i : Json) :
    mergeRetention Number held i = ⟨parseTier Number (i.get "sample") held.sample,
      parseTier Number (i.get "telemetry") held.telemetry,
      parseTier Number (i.get "systemInfo") held.systemInfo⟩ := by
  simp only [mergeRetention, mergeTier_eq]
  congr 1
  all_goals exact ite_nullish (parseTier_nullish _ _)

theorem toPositiveInt_num (hN : ∀ q, Number (.num q) = some q) (n fallback : Nat) :
    toPositiveInt Number (some (.num n)) fallback = n := by
  simp [toPositiveInt, isNullish, hN]

theorem parseClass_json (hN : ∀ q, Number (.num q) = some q) (r fallback : ClassRetention) :
    parseClass Number (some r.json) fallback = r := by
  simp [parseClass, ClassRetention.json, Option.filter, Json.isObject, Json.get, Json.spread, Fields.get,
    toPositiveInt_num hN]

theorem parseTier_json (hN : ∀ q, Number (.num q) = some q) (r fallback : TierRetention) :
    parseTier Number (some r.json) fallback = r := by
  simp [parseTier, TierRetention.json, Option.filter, Json.isObject, Json.get, Json.spread, Fields.get,
    parseClass_json hN]

/-- Whatever the settings page writes is a document that parses to itself. -/
theorem parseSampleRetention_json (hN : ∀ q, Number (.num q) = some q) (r : SampleRetention) :
    parseSampleRetention Number (some r.json) = r := by
  simp [parseSampleRetention, SampleRetention.json, Option.filter, Json.isObject, Json.get, Json.spread,
    Fields.get, parseTier_json hN]

end Documents

section Reads

inductive Request
  | read
  | update (input : Json)

variable (Number) in
def handle (s : Store) (r : Int × Request) : Store × SampleRetention :=
  match r.2 with
  | .read => (getSampleRetention Number r.1 s).swap
  | .update input => (updateSampleRetention Number r.1 s input).swap

variable (Number) in
/-- What a request does to the settings themselves: an update is read over
them. -/
def meant (v : SampleRetention) (r : Int × Request) : SampleRetention × SampleRetention :=
  let v := match r.2 with
    | .read => v
    | .update i =>
      ⟨parseTier Number (i.get "sample") v.sample, parseTier Number (i.get "telemetry") v.telemetry,
      parseTier Number (i.get "systemInfo") v.systemInfo⟩
  (v, v)

variable (Number) in
/-- The row and the cache stand for the settings. -/
def Stands (s : Store) (v : SampleRetention) : Prop :=
  parseSampleRetention Number s.row = v ∧ ∀ c ∈ s.cache, c.value = v

variable {v : SampleRetention}

theorem getSampleRetention_stands (h : Stands Number s v) :
    (getSampleRetention Number now s).1 = v ∧ Stands Number (getSampleRetention Number now s).2 v := by
  rw [getSampleRetention]
  cases hf : fresh now s with
  | some value =>
    obtain ⟨c, hc, rfl⟩ := Option.map_eq_some_iff.mp hf
    exact ⟨h.2 c (Option.filter_eq_some_iff.mp hc).1, h⟩
  | none => exact ⟨h.1, h.1, fun c hc => Option.some.inj hc ▸ h.1⟩

theorem handle_stands (hN : ∀ q, Number (.num q) = some q) (r : Int × Request) (h : Stands Number s v) :
    (handle Number s r).2 = (meant Number v r).2 ∧
      Stands Number (handle Number s r).1 (meant Number v r).1 := by
  obtain ⟨at', r⟩ := r
  cases r with
  | read => exact getSampleRetention_stands h
  | update input =>
    have hmerged : (updateSampleRetention Number at' s input).1 =
      (meant Number v (at', .update input)).2 := by
      change mergeRetention Number (getSampleRetention Number at' s).1 input = _
      rw [(getSampleRetention_stands h).1, mergeRetention_eq, meant]
    refine ⟨hmerged, ?_, fun c hc => absurd hc (Option.not_mem_none c)⟩
    exact (parseSampleRetention_json hN _).trans hmerged

/-- The cache never shows through: whatever is read and updated, and when, a
process answers with the document of its row and all updates since, each read
over the ones before. -/
theorem reads_meant (hN : ∀ q, Number (.num q) = some q) (row : Option Json)
    (requests : List (Int × Request)) :
    answers (handle Number) { row } requests =
      answers (meant Number) (parseSampleRetention Number row) requests :=
  (answers_refine (R := Stands Number) (fun _ _ r h => (handle_stands hN r h).1)
    (fun _ _ r h => (handle_stands hN r h).2)
    ⟨rfl, fun c hc => absurd hc (Option.not_mem_none c)⟩ requests).1

def numeric : Json → Option Rat
  | .num q => some q
  | _ => none

/-- An update within the life of the cache. -/
theorem update_read_at_once : (answers (handle numeric) {}
      [(0, .read), (1, .update (.obj [("sample", .obj [("detail", .obj [("switch", .num 14)])])])),
        (2, .read)]).map
        (·.sample.detail) = [⟨7, 7, 7⟩, ⟨7, 14, 7⟩, ⟨7, 14, 7⟩] := by
  rw [reads_meant fun _ => rfl]
  decide +kernel

end Reads

section Prune

variable {days : ClassRetention} {ids : ClassIds} {rows : List SampleRow} {r : SampleRow}

theorem mem_pruneClass {n : Nat} {p : String → Bool} :
    r ∈ (pruneClass now n p rows).1 ↔ r ∈ rows ∧ (p r.assetId = true → Held n now r.time) := by
  unfold pruneClass
  split_ifs with hn
  · simp only [deleteMany, List.mem_filter, Bool.not_eq_true', Bool.and_eq_false_imp, decide_eq_false_iff_not,
      Held, Nat.ne_of_gt hn, false_or, not_lt]
  · simp [Held, Nat.eq_zero_of_not_pos hn]

theorem mem_pruneOneTable (dropChunks : Int → List SampleRow → List SampleRow) :
    r ∈ (pruneOneTable dropChunks now days ids rows).1 ↔
      r ∈ (if 0 < max days.default (max days.switch days.accessPoint) then
        dropChunks (now - max days.default (max days.switch days.accessPoint) * DAY_MS) rows else rows) ∧
      Held (days.get (ids.classOf r.assetId)) now r.time := by
  simp only [pruneOneTable, mem_pruneClass, and_assoc]
  refine and_congr_right fun _ => ?_
  simp only [ClassIds.classOf, List.contains_eq_mem, decide_eq_true_eq, Bool.not_eq_true', List.mem_append,
    decide_eq_false_iff_not, not_or]
  have hone := ids.disjoint r.assetId
  split_ifs with hs ha
  · simp [hs, hone hs, ClassRetention.get]
  · simp [hs, ha, ClassRetention.get]
  · simp [hs, ha, ClassRetention.get]

end Prune

end Polaris.SampleRetentionService
