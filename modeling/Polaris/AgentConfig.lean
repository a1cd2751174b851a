import Mathlib.Algebra.Order.Ring.Nat
import Polaris.Lib.Text
import Polaris.Lib.Trim

namespace Polaris.AgentConfig

open Polaris.Lib.Text (isDigit_of_mem_decimal)
open Polaris.Lib.Trim

section Text

abbrev Text := List Char

def isSpace (c : Char) : Bool :=
  c ∈ ['\t', '\n', '\u000b', '\u000c', '\r', ' ', '\u0085', '\u00a0', '\u1680', '\u2028', '\u2029', '\u202f',
    '\u205f', '\u3000'] || ('\u2000' ≤ c && c ≤ '\u200a')

def TrimSpace (s : Text) : Text := trimBy isSpace s

/-- What the code relies on of the table of lower case letters. -/
structure Unicode where
  toLower : Char → Char
  toLower_toLower : ∀ c, toLower (toLower c) = toLower c
  toLower_space : ∀ c, isSpace c = true → toLower c = c
  isSpace_toLower : ∀ c, isSpace (toLower c) = isSpace c

/-- A number of the platform. -/
abbrev GoInt := {n : Int // -2 ^ 63 ≤ n ∧ n < 2 ^ 63}

def sign (s : Text) : Int := if s.head? = some '-' then -1 else 1

def digits (s : Text) : Text :=
  (if s.head? = some '-' ∨ s.head? = some '+' then s.tail else s).takeWhile Char.isDigit

def inRange (n : Int) : Option GoInt := if h : -2 ^ 63 ≤ n ∧ n < 2 ^ 63 then some ⟨n, h⟩ else none

/-- The leading decimal integer of a text, where it has one that is no
larger than a number can be. -/
def sscanf (s : Text) : Option GoInt :=
  if digits s = [] then none else inRange (sign s * Nat.ofDigitChars 10 (digits s) 0)

end Text

section Model

structure Config where
  path : Text
  ServerURL : Text := []
  CertFingerprint : Text := []
  AgentID : Text := []
  BearerToken : Text := []
  EnrollmentToken : Text := []
  ResponseTimeIntervalSec : GoInt := ⟨0, by decide⟩
  HeartbeatIntervalSec : GoInt := ⟨0, by decide⟩
  TelemetryIntervalSec : GoInt := ⟨0, by decide⟩
  InterfacesIntervalSec : GoInt := ⟨0, by decide⟩
  StorageIntervalSec : GoInt := ⟨0, by decide⟩
  deriving DecidableEq

variable (U : Unicode)

def ToLower (s : Text) : Text := s.map U.toLower

/-- A number that does not scan leaves what was there. -/
def Config.set (cfg : Config) (key val : Text) : Config :=
  if key = "server_url".toList then { cfg with ServerURL := val }
  else if key = "cert_fingerprint".toList then { cfg with CertFingerprint := ToLower U val }
  else if key = "agent_id".toList then { cfg with AgentID := val }
  else if key = "bearer_token".toList then { cfg with BearerToken := val }
  else if key = "enrollment_token".toList then { cfg with EnrollmentToken := val }
  else if key = "response_time_interval_sec".toList then
    { cfg with ResponseTimeIntervalSec := (sscanf val).getD cfg.ResponseTimeIntervalSec }
  else if key = "heartbeat_interval_sec".toList then
    { cfg with HeartbeatIntervalSec := (sscanf val).getD cfg.HeartbeatIntervalSec }
  else if key = "telemetry_interval_sec".toList then
    { cfg with TelemetryIntervalSec := (sscanf val).getD cfg.TelemetryIntervalSec }
  else if key = "interfaces_interval_sec".toList then
    { cfg with InterfacesIntervalSec := (sscanf val).getD cfg.InterfacesIntervalSec }
  else if key = "storage_interval_sec".toList then
    { cfg with StorageIntervalSec := (sscanf val).getD cfg.StorageIntervalSec }
  else cfg

def lineSize (line : Text) : Nat := (line.map Char.utf8Size).sum

/-- The buffer of the scanner is full before it holds the end of a longer
line. -/
def maxLine : Nat := 64 * 1024 - 1

def dropCR (line : Text) : Text := if line.getLast? = some '\r' then line.dropLast else line

def scanLines (text : Text) : List Text :=
  let lines := text.splitOn '\n'
  if lines.getLast? = some [] then lines.dropLast else lines

def skipped (line : Text) : Bool :=
  line = [] || line.head? = some '#' || line.head? = some ';'

/-- The two sides of the first equals sign. -/
def keyOf (line : Text) : Text := TrimSpace (line.takeWhile (· ≠ '='))

def valueOf (line : Text) : Text := TrimSpace (line.dropWhile (· ≠ '=')).tail

def loadLine (cfg : Config) (lineNo : Nat) (line : Text) : Except Text Config :=
  if skipped line then .ok cfg
  else if '=' ∉ line then .error (cfg.path ++ (":" ++ toString lineNo ++ ": missing '='").toList)
  else .ok (cfg.set U (keyOf line) (valueOf line))

def loadLines (cfg : Config) : Nat → List Text → Except Text Config
  | _, [] => .ok cfg
  | lineNo, line :: lines =>
    if maxLine < lineSize line then
      .error ("read ".toList ++ cfg.path ++ ": bufio.Scanner: token too long".toList)
    else
      match loadLine U cfg (lineNo + 1) (TrimSpace (dropCR line)) with
      | .ok cfg => loadLines cfg (lineNo + 1) lines
      | .error e => .error e

def Load (path text : Text) : Except Text Config := loadLines U { path } 0 (scanLines text)

def entry (label : String) (val : Text) : Text := label.toList ++ val

def number (n : GoInt) : Text := (toString n.val).toList

def optional (label : String) (val : Text) : List Text := if val ≠ [] then [entry label val] else []

def positive (label : String) (n : GoInt) : List Text := if 0 < n.val then [entry label (number n)] else []

def Config.lines (c : Config) : List Text :=
  ["# Polaris Agent configuration. Managed by agentInstallService at install".toList,
    "# time and rewritten by the agent on enrollment. Do not edit by hand.".toList,
    entry "server_url       = " c.ServerURL, entry "cert_fingerprint = " c.CertFingerprint] ++
  (optional "agent_id         = " c.AgentID ++ (optional "bearer_token     = " c.BearerToken ++
  (optional "enrollment_token = " c.EnrollmentToken ++
  (positive "response_time_interval_sec = " c.ResponseTimeIntervalSec ++
  (positive "heartbeat_interval_sec     = " c.HeartbeatIntervalSec ++
  (positive "telemetry_interval_sec     = " c.TelemetryIntervalSec ++
  (positive "interfaces_interval_sec    = " c.InterfacesIntervalSec ++
  positive "storage_interval_sec       = " c.StorageIntervalSec)))))))

def Save (c : Config) : Text := c.lines.flatMap (· ++ ['\n'])

end Model

section Lines

variable {U : Unicode} {cfg cfg' : Config} {n : Nat} {line s v a : Text} {lines : List Text}

theorem TrimSpace_dropCR (line : Text) : TrimSpace (dropCR line) = TrimSpace line := by
  rw [dropCR]
  split
  · rename_i h
    obtain ⟨front, rfl⟩ := List.getLast?_eq_some_iff.mp h
    rw [List.dropLast_concat]
    exact (trimBy_concat (p := isSpace) (c := '\r') (by decide) front).symm
  · rfl

theorem takeWhile_key (ha : '=' ∉ a) (v : Text) : (a ++ '=' :: v).takeWhile (· ≠ '=') = a := by
  have hne : ∀ c ∈ a, decide (c ≠ '=') = true := fun c hc => decide_eq_true (ne_of_mem_of_not_mem hc ha)
  rw [List.takeWhile_append_of_pos hne, List.takeWhile_cons_of_neg (by decide), List.append_nil]

theorem dropWhile_key (ha : '=' ∉ a) (v : Text) : (a ++ '=' :: v).dropWhile (· ≠ '=') = '=' :: v := by
  have hne : ∀ c ∈ a, decide (c ≠ '=') = true := fun c hc => decide_eq_true (ne_of_mem_of_not_mem hc ha)
  rw [List.dropWhile_append_of_pos hne, List.dropWhile_cons_of_neg (by decide)]

theorem loadLine_cut (ha : '=' ∉ a) (hskip : skipped (a.dropWhile isSpace ++ ['=']) = false) (v : Text) :
    loadLine U cfg n (TrimSpace (a ++ '=' :: v)) = .ok (cfg.set U (TrimSpace a) (TrimSpace v)) := by
  have ht : TrimSpace (a ++ '=' :: v) = a.dropWhile isSpace ++ '=' :: v.rdropWhile isSpace :=
    trimBy_append (by decide) a v
  have ha' : '=' ∉ a.dropWhile isSpace := fun h => ha (List.dropWhile_subset _ h)
  have hs : skipped (a.dropWhile isSpace ++ '=' :: v.rdropWhile isSpace) = false := by
    cases hd : a.dropWhile isSpace with
    | nil => rfl
    | cons c cs => simpa [skipped, hd] using hskip
  rw [ht, loadLine, hs, if_neg Bool.false_ne_true, if_neg (by simp), keyOf, valueOf, takeWhile_key ha',
    dropWhile_key ha', List.tail_cons]
  exact congrArg Except.ok (congrArg₂ _ (trimBy_dropWhile isSpace a) (trimBy_rdropWhile isSpace v))

theorem loadLines_cons (hsize : lineSize line ≤ maxLine)
    (h : loadLine U cfg (n + 1) (TrimSpace line) = .ok cfg') :
    loadLines U cfg n (line :: lines) = loadLines U cfg' (n + 1) lines := by
  rw [loadLines, if_neg (Nat.not_lt.mpr hsize), TrimSpace_dropCR, h]

def front (label : String) : Text := label.toList.dropLast.dropLast

/-- What Save puts in front of a value names its key. -/
structure Names (label key : String) : Prop where
  cut : label.toList = front label ++ ['=', ' ']
  first : '=' ∉ front label
  key : TrimSpace (front label) = key.toList
  read : skipped ((front label).dropWhile isSpace ++ ['=']) = false

theorem loadLines_entry {label key : String} (hl : Names label key) (hv : TrimSpace v = v)
    (hsize : lineSize (entry label v) ≤ maxLine) :
    loadLines U cfg n (entry label v :: lines) = loadLines U (cfg.set U key.toList v) (n + 1) lines := by
  have he : entry label v = front label ++ '=' :: ' ' :: v := by
    rw [entry, hl.cut, List.append_assoc]
    rfl
  have hsp : TrimSpace (' ' :: v) = v := (trimBy_cons (by decide) v).trans hv
  refine loadLines_cons hsize ?_
  rw [he, loadLine_cut hl.first hl.read, hl.key, hsp]

/-- Whatever stands behind them, the lines take one configuration to
another. -/
def Reaches (U : Unicode) (cfg : Config) (lines : List Text) (cfg' : Config) : Prop :=
  ∀ n rest, ∃ n', loadLines U cfg n (lines ++ rest) = loadLines U cfg' n' rest

theorem Reaches.append {cfg'' : Config} {lines' : List Text} (h : Reaches U cfg lines cfg')
    (h' : Reaches U cfg' lines' cfg'') : Reaches U cfg (lines ++ lines') cfg'' := by
  intro n rest
  obtain ⟨m, hm⟩ := h n (lines' ++ rest)
  obtain ⟨k, hk⟩ := h' m rest
  exact ⟨k, by rw [List.append_assoc, hm, hk]⟩

theorem Reaches.ok (h : Reaches U cfg lines cfg') (n : Nat) : loadLines U cfg n lines = .ok cfg' := by
  obtain ⟨n', hn⟩ := h n []
  rwa [List.append_nil] at hn

theorem reaches_comment (hsize : lineSize line ≤ maxLine) (hs : skipped (TrimSpace line) = true) :
    Reaches U cfg [line] cfg := fun n _ => ⟨n + 1, loadLines_cons hsize (if_pos hs)⟩

theorem reaches_entry {label : String} (key : String) (hl : Names label key) (hv : TrimSpace v = v)
    (hsize : lineSize (entry label v) ≤ maxLine) (hset : cfg.set U key.toList v = cfg') :
    Reaches U cfg [entry label v] cfg' := fun n _ => ⟨n + 1, hset ▸ loadLines_entry hl hv hsize⟩

theorem reaches_optional {label : String} (key : String) (hl : Names label key) (hv : TrimSpace v = v)
    (hsize : ∀ line ∈ optional label v, lineSize line ≤ maxLine) (hset : cfg.set U key.toList v = cfg')
    (hnil : v = [] → cfg = cfg') : Reaches U cfg (optional label v) cfg' := by
  rw [optional] at *
  by_cases h : v = []
  · rw [if_neg (not_not.mpr h), hnil h]
    exact fun n _ => ⟨n, rfl⟩
  · rw [if_pos h] at hsize ⊢
    exact reaches_entry key hl hv (hsize _ (by simp)) hset

theorem number_pos {m : GoInt} (h : 0 < m.val) : number m = Nat.toDigits 10 m.val.toNat := by
  obtain ⟨k, hk⟩ := Int.eq_ofNat_of_zero_le (Int.le_of_lt h)
  have hr : number m = (k : Int).repr.toList := by rw [number, hk]; rfl
  rw [hr, hk, Int.toNat_natCast]
  exact Nat.toList_repr

theorem isDigit_of_mem_number {m : GoInt} (h : 0 < m.val) {c : Char} (hc : c ∈ number m) :
    c.isDigit = true := by
  rw [number_pos h] at hc
  exact isDigit_of_mem_decimal hc

theorem isSpace_of_isDigit {c : Char} (h : c.isDigit = true) : isSpace c = false := by
  have hd : 48 ≤ c.toNat ∧ c.toNat ≤ 57 := by
    simpa [Char.isDigit, UInt32.le_iff_toNat_le] using h
  rw [← Char.ofNat_toNat c]
  generalize c.toNat = n at hd
  obtain ⟨h1, h2⟩ := hd
  interval_cases n <;> decide

theorem TrimSpace_number {m : GoInt} (h : 0 < m.val) : TrimSpace (number m) = number m := by
  have hns : ∀ c ∈ number m, isSpace c = false := fun c hc => isSpace_of_isDigit (isDigit_of_mem_number h hc)
  have hd : (number m).dropWhile isSpace = number m := by
    cases hm : number m with
    | nil => rfl
    | cons c cs => exact List.dropWhile_cons_of_neg (by simp [hns c (by simp [hm])])
  rw [TrimSpace, trimBy, hd, List.rdropWhile_eq_self_iff]
  exact fun hne => by simp [hns _ (List.getLast_mem hne)]

theorem sscanf_number {m : GoInt} (h : 0 < m.val) : sscanf (number m) = some m := by
  have hall : ∀ c ∈ number m, c.isDigit = true := fun c hc => isDigit_of_mem_number h hc
  have hne : number m ≠ [] := by
    rw [number_pos h]
    exact Nat.toDigits_ne_nil
  have hhead : ∀ c, c.isDigit = false → (number m).head? ≠ some c := fun c hc hh => by
    simp [hall c (List.mem_of_head? hh)] at hc
  have hd : digits (number m) = number m := by
    rw [digits, if_neg (not_or.mpr ⟨hhead '-' rfl, hhead '+' rfl⟩), List.takeWhile_eq_self_iff.mpr hall]
  have hn : sign (number m) * (Nat.ofDigitChars 10 (number m) 0 : Nat) = m.val := by
    rw [sign, if_neg (hhead '-' rfl), number_pos h, Nat.ofDigitChars_ten_toDigits]
    omega
  rw [sscanf, hd, if_neg hne, hn, inRange]
  exact dif_pos m.property

def nonNegative (n : GoInt) : GoInt := if 0 < n.val then n else ⟨0, by decide⟩

theorem reaches_positive {label : String} {m old : GoInt} (key : String) (put : GoInt → Config)
    (hl : Names label key) (hsize : ∀ line ∈ positive label m, lineSize line ≤ maxLine)
    (hset : cfg.set U key.toList (number m) = put ((sscanf (number m)).getD old))
    (hnil : cfg = put ⟨0, by decide⟩) : Reaches U cfg (positive label m) (put (nonNegative m)) := by
  rw [positive, nonNegative] at *
  by_cases h : 0 < m.val
  · rw [if_pos h] at hsize ⊢
    rw [sscanf_number h, Option.getD_some] at hset
    rw [if_pos h]
    exact reaches_entry key hl (TrimSpace_number h) (hsize _ (by simp)) hset
  · rw [if_neg h, if_neg h, ← hnil]
    exact fun n _ => ⟨n, rfl⟩

end Lines

section Saved

variable {U : Unicode} {c : Config} {lines : List Text}

theorem splitOn_lines (h : ∀ line ∈ lines, '\n' ∉ line) :
    (lines.flatMap (· ++ ['\n'])).splitOn '\n' = lines ++ [[]] := by
  induction lines with
  | nil => rfl
  | cons line lines ih =>
    rw [List.flatMap_cons, List.append_assoc, List.singleton_append,
      List.splitOn_append_cons_self_of_not_mem (h line (by simp)), ih fun l hl => h l (by simp [hl])]
    rfl

inductive StringKey
  | server_url | cert_fingerprint | agent_id | bearer_token | enrollment_token
  deriving DecidableEq

def StringKey.name : StringKey → String
  | .server_url => "server_url"
  | .cert_fingerprint => "cert_fingerprint"
  | .agent_id => "agent_id"
  | .bearer_token => "bearer_token"
  | .enrollment_token => "enrollment_token"

def Config.get (c : Config) : StringKey → Text
  | .server_url => c.ServerURL
  | .cert_fingerprint => c.CertFingerprint
  | .agent_id => c.AgentID
  | .bearer_token => c.BearerToken
  | .enrollment_token => c.EnrollmentToken

/-- The values that a file can hold. -/
structure Clean (U : Unicode) (c : Config) : Prop where
  newline : ∀ k, '\n' ∉ c.get k
  trimmed : ∀ k, TrimSpace (c.get k) = c.get k
  lower : ToLower U c.CertFingerprint = c.CertFingerprint

def Config.readBack (c : Config) : Config :=
  { c with
    ResponseTimeIntervalSec := nonNegative c.ResponseTimeIntervalSec
    HeartbeatIntervalSec := nonNegative c.HeartbeatIntervalSec
    TelemetryIntervalSec := nonNegative c.TelemetryIntervalSec
    InterfacesIntervalSec := nonNegative c.InterfacesIntervalSec
    StorageIntervalSec := nonNegative c.StorageIntervalSec }

def Config.Short (c : Config) : Prop := ∀ line ∈ c.lines, lineSize line ≤ maxLine

theorem mem_optional {label : String} {v line : Text} (h : line ∈ optional label v) :
    line = entry label v := by
  rw [optional] at h
  split at h
  · exact List.mem_singleton.mp h
  · exact absurd h List.not_mem_nil

theorem mem_positive {label : String} {n : GoInt} {line : Text} (h : line ∈ positive label n) :
    0 < n.val ∧ line = entry label (number n) := by
  rw [positive] at h
  split at h
  · exact ⟨‹_›, List.mem_singleton.mp h⟩
  · exact absurd h List.not_mem_nil

theorem newline_not_mem_entry {label : String} {v : Text} (hl : '\n' ∉ label.toList) (hv : '\n' ∉ v) :
    '\n' ∉ entry label v := by
  rw [entry, List.mem_append, not_or]
  exact ⟨hl, hv⟩

theorem newline_not_mem_number {n : GoInt} (h : 0 < n.val) : '\n' ∉ number n := fun hn => by
  simpa using isDigit_of_mem_number h hn

theorem newline_not_mem_lines (h : Clean U c) : ∀ line ∈ c.lines, '\n' ∉ line := by
  intro line hl
  simp only [Config.lines, List.mem_append, List.mem_cons, List.not_mem_nil, or_false] at hl
  obtain (rfl | rfl | rfl | rfl) | hl | hl | hl | hl | hl | hl | hl | hl := hl
  · decide +kernel
  · decide +kernel
  · exact newline_not_mem_entry (by decide) (h.newline .server_url)
  · exact newline_not_mem_entry (by decide) (h.newline .cert_fingerprint)
  · exact mem_optional hl ▸ newline_not_mem_entry (by decide) (h.newline .agent_id)
  · exact mem_optional hl ▸ newline_not_mem_entry (by decide) (h.newline .bearer_token)
  · exact mem_optional hl ▸ newline_not_mem_entry (by decide) (h.newline .enrollment_token)
  all_goals
    obtain ⟨hn, rfl⟩ := mem_positive hl
    exact newline_not_mem_entry (by decide) (newline_not_mem_number hn)

theorem scanLines_Save (h : Clean U c) : scanLines (Save c) = c.lines := by
  rw [scanLines, Save, splitOn_lines (newline_not_mem_lines h)]
  simp

def Config.strings (c : Config) : Config :=
  { path := c.path, ServerURL := c.ServerURL, CertFingerprint := c.CertFingerprint, AgentID := c.AgentID,
    BearerToken := c.BearerToken, EnrollmentToken := c.EnrollmentToken }

theorem reaches_strings (h : Clean U c) (hs : c.Short) :
    ∃ lines, Reaches U { path := c.path } lines c.strings ∧
    c.lines = lines ++ (positive "response_time_interval_sec = " c.ResponseTimeIntervalSec ++
      (positive "heartbeat_interval_sec     = " c.HeartbeatIntervalSec ++
      (positive "telemetry_interval_sec     = " c.TelemetryIntervalSec ++
      (positive "interfaces_interval_sec    = " c.InterfacesIntervalSec ++
      positive "storage_interval_sec       = " c.StorageIntervalSec)))) := by
  rw [Config.Short, Config.lines] at hs
  simp only [List.forall_mem_append, List.forall_mem_cons] at hs
  obtain ⟨⟨h1, h2, h3, h4, -⟩, h5, h6, h7, -⟩ := hs
  have hfirst : Reaches U { path := c.path }
    (["# Polaris Agent configuration. Managed by agentInstallService at install".toList] ++
      (["# time and rewritten by the agent on enrollment. Do not edit by hand.".toList] ++
      ([entry "server_url       = " c.ServerURL] ++ [entry "cert_fingerprint = " c.CertFingerprint])))
      { path := c.path, ServerURL := c.ServerURL, CertFingerprint := c.CertFingerprint } := by
    refine (reaches_comment h1 (by decide)).append ((reaches_comment h2 (by decide)).append ?_)
    refine (reaches_entry "server_url" (by constructor <;> decide) (h.trimmed .server_url) h3 rfl).append ?_
    refine reaches_entry "cert_fingerprint" (by constructor <;> decide) (h.trimmed .cert_fingerprint) h4 ?_
    conv_rhs => rw [← h.lower]
    rfl
  have hrest : Reaches U { path := c.path, ServerURL := c.ServerURL, CertFingerprint := c.CertFingerprint }
      (optional "agent_id         = " c.AgentID ++ (optional "bearer_token     = " c.BearerToken ++
      optional "enrollment_token = " c.EnrollmentToken)) c.strings := by
    refine (reaches_optional "agent_id" (by constructor <;> decide) (h.trimmed .agent_id) h5 rfl
      fun he => ?_).append
      ((reaches_optional "bearer_token" (by constructor <;> decide) (h.trimmed .bearer_token) h6 rfl
        fun he => ?_).append
      (reaches_optional "enrollment_token" (by constructor <;> decide) (h.trimmed .enrollment_token)
        h7 rfl fun he => ?_))
    · rw [he]
      rfl
    · rw [he]
      rfl
    · rw [Config.strings, he]
      rfl
  exact ⟨_, hfirst.append hrest, by simp only [Config.lines, List.append_assoc, List.cons_append,
                                               List.nil_append]⟩

/-- What Save writes, Load reads. -/
theorem Load_Save (h : Clean U c) (hs : c.Short) : Load U c.path (Save c) = .ok c.readBack := by
  rw [Load, scanLines_Save h]
  obtain ⟨lines, hl, he⟩ := reaches_strings h hs
  rw [Config.Short, he] at hs
  simp only [List.forall_mem_append] at hs
  obtain ⟨-, h8, h9, h10, h11, h12⟩ := hs
  rw [he]
  refine (hl.append ?_).ok 0
  have e8 := reaches_positive (U := U) "response_time_interval_sec"
    (fun n => { c.strings with ResponseTimeIntervalSec := n }) (by constructor <;> decide) h8 rfl rfl
  have e9 := reaches_positive (U := U) "heartbeat_interval_sec"
    (fun n => { c.strings with
      ResponseTimeIntervalSec := nonNegative c.ResponseTimeIntervalSec, HeartbeatIntervalSec := n })
    (by constructor <;> decide) h9 rfl rfl
  have e10 := reaches_positive (U := U) "telemetry_interval_sec"
    (fun n => { c.strings with
      ResponseTimeIntervalSec := nonNegative c.ResponseTimeIntervalSec
      HeartbeatIntervalSec := nonNegative c.HeartbeatIntervalSec, TelemetryIntervalSec := n })
    (by constructor <;> decide) h10 rfl rfl
  have e11 := reaches_positive (U := U) "interfaces_interval_sec"
    (fun n => { c.strings with
      ResponseTimeIntervalSec := nonNegative c.ResponseTimeIntervalSec
      HeartbeatIntervalSec := nonNegative c.HeartbeatIntervalSec
      TelemetryIntervalSec := nonNegative c.TelemetryIntervalSec, InterfacesIntervalSec := n })
    (by constructor <;> decide) h11 rfl rfl
  have e12 := reaches_positive (U := U) "storage_interval_sec"
    (fun n => { c.strings with
      ResponseTimeIntervalSec := nonNegative c.ResponseTimeIntervalSec
      HeartbeatIntervalSec := nonNegative c.HeartbeatIntervalSec
      TelemetryIntervalSec := nonNegative c.TelemetryIntervalSec
      InterfacesIntervalSec := nonNegative c.InterfacesIntervalSec, StorageIntervalSec := n })
    (by constructor <;> decide) h12 rfl rfl
  exact e8.append (e9.append (e10.append (e11.append e12)))

end Saved

section Loaded

variable {U : Unicode} {cfg cfg' : Config} {n : Nat} {lines : List Text} {key v : Text}

theorem newline_not_mem_splitOn {text line : Text} (h : line ∈ text.splitOn '\n') : '\n' ∉ line := by
  induction text generalizing line with
  | nil =>
    obtain rfl := List.mem_singleton.mp h
    exact List.not_mem_nil
  | cons c text ih =>
    rw [List.splitOn_cons_eq_if_modifyHead] at h
    split at h
    · obtain rfl | h := List.mem_cons.mp h
      · exact List.not_mem_nil
      · exact ih h
    · rename_i hc
      obtain ⟨first, rest, hs⟩ := List.exists_cons_of_ne_nil (List.splitOn_ne_nil '\n' text)
      rw [hs, List.modifyHead_cons] at h
      obtain rfl | h := List.mem_cons.mp h
      · rw [List.mem_cons, not_or]
        exact ⟨fun he => hc (by rw [he]; exact beq_self_eq_true c), ih (by rw [hs]; exact List.mem_cons_self)⟩
      · exact ih (by rw [hs]; exact List.mem_cons_of_mem _ h)

theorem newline_not_mem_scanLines {text line : Text} (h : line ∈ scanLines text) : '\n' ∉ line := by
  rw [scanLines] at h
  split at h
  · exact newline_not_mem_splitOn (List.dropLast_subset _ h)
  · exact newline_not_mem_splitOn h

theorem ToLower_ToLower (v : Text) : ToLower U (ToLower U v) = ToLower U v := by
  rw [ToLower, ToLower, List.map_map]
  exact List.map_congr_left fun c _ => U.toLower_toLower c

theorem TrimSpace_ToLower (h : TrimSpace v = v) : TrimSpace (ToLower U v) = ToLower U v :=
  (trimBy_map U.isSpace_toLower v).trans (congrArg _ h)

theorem newline_not_mem_ToLower (h : '\n' ∉ v) : '\n' ∉ ToLower U v := by
  intro hm
  obtain ⟨c, hc, he⟩ := List.mem_map.mp hm
  have hs : isSpace c = true := by rw [← U.isSpace_toLower, he]; decide
  rw [U.toLower_space c hs] at he
  exact h (he ▸ hc)

def StringKey.read (U : Unicode) (k : StringKey) (v : Text) : Text :=
  if k = .cert_fingerprint then ToLower U v else v

theorem name_inj : ∀ k k' : StringKey, k.name.toList = k'.name.toList → k = k' := by
  intro k k' h
  cases k <;> cases k' <;> first | rfl | exact absurd h (by decide)

def Config.put (U : Unicode) (c : Config) (v : Text) : StringKey → Config
  | .server_url => { c with ServerURL := v }
  | .cert_fingerprint => { c with CertFingerprint := ToLower U v }
  | .agent_id => { c with AgentID := v }
  | .bearer_token => { c with BearerToken := v }
  | .enrollment_token => { c with EnrollmentToken := v }

theorem set_cases (cfg : Config) (key v : Text) :
    (∃ k : StringKey, key = k.name.toList ∧ cfg.set U key v = cfg.put U v k) ∨
      (∀ k : StringKey, key ≠ k.name.toList) ∧ ∀ k, (cfg.set U key v).get k = cfg.get k := by
  rw [Config.set]
  by_cases h1 : key = "server_url".toList
  · exact .inl ⟨.server_url, h1, if_pos h1⟩
  by_cases h2 : key = "cert_fingerprint".toList
  · rw [if_neg h1]
    exact .inl ⟨.cert_fingerprint, h2, if_pos h2⟩
  by_cases h3 : key = "agent_id".toList
  · rw [if_neg h1, if_neg h2]
    exact .inl ⟨.agent_id, h3, if_pos h3⟩
  by_cases h4 : key = "bearer_token".toList
  · rw [if_neg h1, if_neg h2, if_neg h3]
    exact .inl ⟨.bearer_token, h4, if_pos h4⟩
  by_cases h5 : key = "enrollment_token".toList
  · rw [if_neg h1, if_neg h2, if_neg h3, if_neg h4]
    exact .inl ⟨.enrollment_token, h5, if_pos h5⟩
  rw [if_neg h1, if_neg h2, if_neg h3, if_neg h4, if_neg h5]
  refine .inr ⟨fun k => ?_, fun k => ?_⟩
  · cases k with
    | server_url => exact h1
    | cert_fingerprint => exact h2
    | agent_id => exact h3
    | bearer_token => exact h4
    | enrollment_token => exact h5
  · repeat' split
    all_goals cases k <;> rfl

theorem get_put (cfg : Config) (v : Text) (k k' : StringKey) :
    (cfg.put U v k').get k = if k' = k then k.read U v else cfg.get k := by
  cases k' <;> cases k <;> rfl

theorem get_set (cfg : Config) (key v : Text) (k : StringKey) :
    (cfg.set U key v).get k = if key = k.name.toList then k.read U v else cfg.get k := by
  obtain ⟨k', rfl, hs⟩ | ⟨hne, hs⟩ := set_cases (U := U) cfg key v
  · rw [hs, get_put]
    exact if_congr ⟨fun h => by rw [h], name_inj k' k⟩ rfl rfl
  · rw [hs, if_neg (hne k)]

theorem Clean.set (h : Clean U cfg) (hn : '\n' ∉ v) (ht : TrimSpace v = v) (key : Text) :
    Clean U (cfg.set U key v) := by
  have hread : ∀ k : StringKey, '\n' ∉ k.read U v ∧ TrimSpace (k.read U v) = k.read U v := by
    intro k
    rw [StringKey.read]
    split
    · exact ⟨newline_not_mem_ToLower hn, TrimSpace_ToLower ht⟩
    · exact ⟨hn, ht⟩
  refine ⟨fun k => ?_, fun k => ?_, ?_⟩
  · rw [get_set]
    split
    · exact (hread k).1
    · exact h.newline k
  · rw [get_set]
    split
    · exact (hread k).2
    · exact h.trimmed k
  · change ToLower U ((cfg.set U key v).get .cert_fingerprint) = (cfg.set U key v).get .cert_fingerprint
    rw [get_set]
    split
    · exact ToLower_ToLower v
    · exact h.lower

theorem path_set (cfg : Config) (key v : Text) : (cfg.set U key v).path = cfg.path := by
  rw [Config.set]
  repeat' split
  all_goals rfl

theorem trimmed_valueOf (line : Text) : TrimSpace (valueOf line) = valueOf line := trimBy_trimBy isSpace _

theorem mem_valueOf {line : Text} {c : Char} (h : c ∈ valueOf line) : c ∈ line :=
  List.dropWhile_subset _ (List.mem_of_mem_tail (mem_trimBy h))

theorem loadLine_cases {line : Text} (h : loadLine U cfg n line = .ok cfg') :
    (skipped line = true ∧ cfg' = cfg) ∨
      (skipped line = false ∧ cfg' = cfg.set U (keyOf line) (valueOf line)) := by
  rw [loadLine] at h
  split at h
  · exact .inl ⟨‹_›, (Except.ok.inj h).symm⟩
  · rename_i hs
    split at h
    · cases h
    · exact .inr ⟨Bool.not_eq_true _ ▸ hs, (Except.ok.inj h).symm⟩

theorem loadLines_step {line : Text} (h : loadLines U cfg n (line :: lines) = .ok cfg') :
    lineSize line ≤ maxLine ∧ ∃ mid, loadLine U cfg (n + 1) (TrimSpace (dropCR line)) = .ok mid ∧
      loadLines U mid (n + 1) lines = .ok cfg' := by
  rw [loadLines] at h
  split at h
  · cases h
  · rename_i hs
    split at h
    · exact ⟨Nat.le_of_not_lt hs, _, ‹_›, h⟩
    · cases h

theorem loadLines_small (h : loadLines U cfg n lines = .ok cfg') :
    ∀ line ∈ lines, lineSize line ≤ maxLine := by
  induction lines generalizing cfg n with
  | nil => exact fun _ h => absurd h List.not_mem_nil
  | cons line lines ih =>
    obtain ⟨hs, mid, -, hrest⟩ := loadLines_step h
    exact List.forall_mem_cons.mpr ⟨hs, ih hrest⟩

theorem mem_dropCR {line : Text} {c : Char} (h : c ∈ dropCR line) : c ∈ line := by
  rw [dropCR] at h
  split at h
  · exact List.dropLast_subset _ h
  · exact h

theorem loadLines_clean (hl : ∀ line ∈ lines, '\n' ∉ line) (hc : Clean U cfg)
    (h : loadLines U cfg n lines = .ok cfg') : Clean U cfg' ∧ cfg'.path = cfg.path := by
  induction lines generalizing cfg n with
  | nil =>
    obtain rfl := Except.ok.inj h
    exact ⟨hc, rfl⟩
  | cons line lines ih =>
    obtain ⟨-, mid, hline, hrest⟩ := loadLines_step h
    have hl' := fun l hm => hl l (List.mem_cons_of_mem _ hm)
    obtain ⟨-, rfl⟩ | ⟨-, rfl⟩ := loadLine_cases hline
    · exact ih hl' hc hrest
    · have hn : '\n' ∉ valueOf (TrimSpace (dropCR line)) := fun hm =>
        hl line (by simp) (mem_dropCR (mem_trimBy (mem_valueOf hm)))
      obtain ⟨hc', hp⟩ := ih hl' (hc.set hn (trimmed_valueOf _) _) hrest
      exact ⟨hc', hp.trans (path_set _ _ _)⟩

theorem Load_clean {path text : Text} (h : Load U path text = .ok cfg) : Clean U cfg ∧ cfg.path = path :=
  loadLines_clean (fun _ => newline_not_mem_scanLines)
    ⟨fun k => by cases k <;> exact List.not_mem_nil, fun k => by cases k <;> rfl, rfl⟩ h

def pick (key v line : Text) : Text :=
  if !skipped (TrimSpace (dropCR line)) && keyOf (TrimSpace (dropCR line)) = key then
    valueOf (TrimSpace (dropCR line))
  else v

def lastValue (key text : Text) : Text := (scanLines text).foldl (pick key) []

theorem loadLines_get {k : StringKey} (h : loadLines U cfg n lines = .ok cfg') (hv : cfg.get k = k.read U v) :
    cfg'.get k = k.read U (lines.foldl (pick k.name.toList) v) := by
  induction lines generalizing cfg n v with
  | nil =>
    obtain rfl := Except.ok.inj h
    exact hv
  | cons line lines ih =>
    obtain ⟨-, mid, hline, hrest⟩ := loadLines_step h
    refine ih hrest ?_
    obtain ⟨hs, rfl⟩ | ⟨hs, rfl⟩ := loadLine_cases hline
    · rw [pick, hs]
      exact hv
    · rw [get_set, pick, hs]
      by_cases hk : keyOf (TrimSpace (dropCR line)) = k.name.toList
      · rw [if_pos hk, if_pos (by simp [hk])]
      · rw [if_neg hk, if_neg (by simp [hk])]
        exact hv

theorem Load_get {path text : Text} (h : Load U path text = .ok cfg) (k : StringKey) :
    cfg.get k = k.read U (lastValue k.name.toList text) := by
  refine loadLines_get h ?_
  cases k <;> rfl

end Loaded

section Sizes

variable {U : Unicode} {c : Config}

theorem lineSize_append (s t : Text) : lineSize (s ++ t) = lineSize s + lineSize t := by
  rw [lineSize, List.map_append, List.sum_append, lineSize, lineSize]

theorem lineSize_le (s : Text) : lineSize s ≤ 4 * s.length := by
  induction s with
  | nil => exact Nat.le_refl 0
  | cons c s ih =>
    have := c.utf8Size_le_four
    rw [lineSize, List.map_cons, List.sum_cons, List.length_cons]
    rw [lineSize] at ih
    omega

theorem number_length {n : GoInt} (h : 0 < n.val) : (number n).length ≤ 19 := by
  have hlt := n.property.2
  rw [number_pos h, Nat.length_toDigits_le_iff (by decide) (by decide)]
  omega

theorem positive_small {label : String} {n : GoInt} (hl : label.toList.length ≤ 40) {line : Text}
    (h : line ∈ positive label n) : lineSize line ≤ maxLine := by
  obtain ⟨hn, rfl⟩ := mem_positive h
  have hle := lineSize_le (entry label (number n))
  have hd := number_length hn
  rw [entry, List.length_append] at hle
  rw [maxLine, entry]
  omega

theorem entry_small {label : String} {v : Text} (hl : lineSize label.toList = 19) :
    lineSize (entry label v) ≤ maxLine ↔ 19 + lineSize v ≤ maxLine := by
  rw [entry, lineSize_append, hl]

theorem optional_small {label : String} {v : Text} (hl : lineSize label.toList = 19) :
    (∀ line ∈ optional label v, lineSize line ≤ maxLine) ↔ 19 + lineSize v ≤ maxLine := by
  rw [optional]
  by_cases h : v = []
  · rw [if_neg (not_not.mpr h), h]
    exact iff_of_true (fun _ h => absurd h List.not_mem_nil) (by decide)
  · rw [if_pos h, List.forall_mem_singleton]
    exact entry_small hl

theorem short_iff : c.Short ↔ ∀ k, 19 + lineSize (c.get k) ≤ maxLine := by
  rw [Config.Short, Config.lines]
  simp only [List.forall_mem_append, List.forall_mem_cons]
  constructor
  · rintro ⟨⟨-, -, h3, h4, -⟩, h5, h6, h7, -⟩ k
    cases k with
    | server_url => exact (entry_small (by decide)).mp h3
    | cert_fingerprint => exact (entry_small (by decide)).mp h4
    | agent_id => exact (optional_small (by decide)).mp h5
    | bearer_token => exact (optional_small (by decide)).mp h6
    | enrollment_token => exact (optional_small (by decide)).mp h7
  · intro h
    refine ⟨⟨by decide, by decide, (entry_small (by decide)).mpr (h .server_url),
      (entry_small (by decide)).mpr (h .cert_fingerprint), fun _ h => absurd h List.not_mem_nil⟩,
      (optional_small (by decide)).mpr (h .agent_id), (optional_small (by decide)).mpr (h .bearer_token),
      (optional_small (by decide)).mpr (h .enrollment_token), ?_, ?_, ?_, ?_, ?_⟩ <;>
    exact fun _ => positive_small (by decide)

end Sizes

section RoundTrip

variable {U : Unicode} {c : Config}

structure Config.NonNegative (c : Config) : Prop where
  responseTime : 0 ≤ c.ResponseTimeIntervalSec.val
  heartbeat : 0 ≤ c.HeartbeatIntervalSec.val
  telemetry : 0 ≤ c.TelemetryIntervalSec.val
  interfaces : 0 ≤ c.InterfacesIntervalSec.val
  storage : 0 ≤ c.StorageIntervalSec.val

theorem nonNegative_of_le {n : GoInt} (h : 0 ≤ n.val) : nonNegative n = n := by
  rw [nonNegative]
  split
  · rfl
  · exact Subtype.ext (show (0 : Int) = n.val by omega)

theorem readBack_of_nonNegative (h : c.NonNegative) : c.readBack = c := by
  rw [Config.readBack, nonNegative_of_le h.responseTime, nonNegative_of_le h.heartbeat,
    nonNegative_of_le h.telemetry, nonNegative_of_le h.interfaces, nonNegative_of_le h.storage]

/-- With its label in front of it, the last value of each key fits into a
line. -/
def Fits (U : Unicode) (text : Text) : Prop :=
  ∀ k : StringKey, 19 + lineSize (k.read U (lastValue k.name.toList text)) ≤ maxLine

theorem short_of_Load {path text : Text} (h : Load U path text = .ok c) : c.Short ↔ Fits U text := by
  rw [short_iff]
  exact forall_congr' fun k => by rw [Load_get h k]

theorem Load_Save_iff {path text : Text} (h : Load U path text = .ok c) :
    Load U path (Save c) = .ok c.readBack ↔ Fits U text := by
  obtain ⟨hclean, rfl⟩ := Load_clean h
  rw [← short_of_Load h]
  constructor
  · intro hl
    rw [Load, scanLines_Save hclean] at hl
    exact loadLines_small hl
  · exact Load_Save hclean

variable (U) in
/-- What is saved is loaded again, and what was loaded is too as long as its
lines fit. -/
theorem config_round_trip :
    (∀ c, Clean U c → c.NonNegative → c.Short → Load U c.path (Save c) = .ok c) ∧
      ∀ path text cfg, Load U path text = .ok cfg →
      (Load U path (Save cfg) = .ok cfg.readBack ↔ Fits U text) := by
  refine ⟨fun c hc hn hs => ?_, fun path text cfg => Load_Save_iff⟩
  rw [Load_Save hc hs, readBack_of_nonNegative hn]

def lowerAscii (c : Char) : Char := if 65 ≤ c.toNat ∧ c.toNat ≤ 90 then Char.ofNat (c.toNat + 32) else c

theorem lowerAscii_upper {c : Char} (h : 65 ≤ c.toNat ∧ c.toNat ≤ 90) :
    lowerAscii (lowerAscii c) = lowerAscii c ∧ isSpace c = false ∧ isSpace (lowerAscii c) = false := by
  rw [← Char.ofNat_toNat c]
  generalize c.toNat = n at h
  obtain ⟨h1, h2⟩ := h
  interval_cases n <;> decide

def ascii : Unicode where
  toLower := lowerAscii
  toLower_toLower c := by
    by_cases h : 65 ≤ c.toNat ∧ c.toNat ≤ 90
    · exact (lowerAscii_upper h).1
    · rw [lowerAscii.eq_def c, if_neg h, lowerAscii, if_neg h]
  toLower_space c hs := by
    refine if_neg fun h => ?_
    rw [(lowerAscii_upper h).2.1] at hs
    exact Bool.false_ne_true hs
  isSpace_toLower c := by
    by_cases h : 65 ≤ c.toNat ∧ c.toNat ≤ 90
    · rw [(lowerAscii_upper h).2.1, (lowerAscii_upper h).2.2]
    · rw [lowerAscii, if_neg h]

def site : Config :=
  { path := "agent.conf".toList, ServerURL := "https://polaris:3000".toList
    CertFingerprint := "sha256:ab12".toList, BearerToken := "polaris_x=;#".toList
    HeartbeatIntervalSec := ⟨30, by decide⟩ }

theorem clean_site : Clean ascii site :=
  ⟨fun k => by cases k <;> decide, fun k => by cases k <;> decide, by decide⟩

theorem short_site : site.Short := short_iff.mpr fun k => by cases k <;> decide

theorem config_round_trip_site : Load ascii site.path (Save site) = .ok site ∧
    (Load ascii site.path (Save site) = .ok site.readBack ↔ Fits ascii (Save site)) := by
  have hl := (config_round_trip ascii).1 site clean_site (by constructor <;> decide) short_site
  exact ⟨hl, (config_round_trip ascii).2 site.path (Save site) site hl⟩

theorem scanLines_single {text : Text} (h : '\n' ∉ text) (hne : text ≠ []) : scanLines text = [text] := by
  rw [scanLines, List.splitOn_eq_singleton h]
  simp [hne]

/-- A file of one line, without the blanks that Save puts behind the key. -/
theorem Load_single {v : Text} (hn : '\n' ∉ v) (ht : TrimSpace v = v) (hsize : 11 + lineSize v ≤ maxLine)
    (path : Text) : Load U path ("server_url".toList ++ '=' :: v) = .ok { path, ServerURL := v } := by
  have hline : '\n' ∉ "server_url".toList ++ '=' :: v := by
    rw [List.mem_append, List.mem_cons, not_or, not_or]
    exact ⟨by decide, by decide, hn⟩
  have hsize' : lineSize ("server_url".toList ++ '=' :: v) ≤ maxLine := by
    have h11 : lineSize "server_url".toList + lineSize ['='] = 11 := by decide
    rw [lineSize_append, ← List.singleton_append, lineSize_append]
    omega
  have hcut : loadLine U { path } 1 (TrimSpace ("server_url".toList ++ '=' :: v)) =
      .ok (({ path } : Config).set U (TrimSpace "server_url".toList) (TrimSpace v)) :=
    loadLine_cut (by decide) (by decide) v
  rw [ht] at hcut
  rw [Load, scanLines_single hline (by simp), loadLines_cons hsize' hcut]
  rfl

theorem Load_Save_long {v : Text} (hn : '\n' ∉ v) (ht : TrimSpace v = v) (h : 11 + lineSize v ≤ maxLine)
    (hlong : maxLine < 19 + lineSize v) (path : Text) :
    ∃ cfg, Load U path ("server_url".toList ++ '=' :: v) = .ok cfg ∧
      Load U path (Save cfg) ≠ .ok cfg.readBack := by
  have hl := Load_single (U := U) hn ht h path
  refine ⟨_, hl, fun he => ?_⟩
  have hs := short_iff.mp ((short_of_Load hl).mpr ((Load_Save_iff hl).mp he)) .server_url
  exact Nat.not_lt.mpr hs hlong

theorem lineSize_replicate (n : Nat) : lineSize (List.replicate n 'x') = n := by
  induction n with
  | zero => rfl
  | succ n ih =>
    rw [List.replicate_succ, ← List.singleton_append, lineSize_append, ih, Nat.add_comm]
    rfl

theorem TrimSpace_replicate (n : Nat) : TrimSpace (List.replicate n 'x') = List.replicate n 'x' := by
  cases n with
  | zero => rfl
  | succ n =>
    rw [TrimSpace, trimBy, List.replicate_succ, List.dropWhile_cons_of_neg (by decide),
      List.rdropWhile_eq_self_iff]
    intro hne
    have hx : (('x' :: List.replicate n 'x').getLast hne) = 'x' :=
      List.eq_of_mem_replicate (n := n + 1) (List.getLast_mem hne)
    rw [hx]
    decide

theorem config_round_trip_long :
    ∃ cfg, Load ascii "agent.conf".toList ("server_url".toList ++ '=' :: List.replicate 65520 'x') = .ok cfg ∧
      Load ascii "agent.conf".toList (Save cfg) ≠ .ok cfg.readBack := by
  refine Load_Save_long (v := List.replicate 65520 'x') (fun hm => ?_) (TrimSpace_replicate _) ?_ ?_ _
  · exact absurd (List.eq_of_mem_replicate hm) (by decide)
  · rw [lineSize_replicate]
    decide
  · rw [lineSize_replicate]
    decide

end RoundTrip

end Polaris.AgentConfig
