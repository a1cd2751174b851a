import Polaris.DnsCodec
import Polaris.Lib.Loops

namespace Polaris.DnsSafety

open Polaris.Lib.Bytes Polaris.Lib.Loops Polaris.Cidr Polaris.DnsWire Polaris.DnsCodec

section Passes

variable (buf : Buffer)

def skipPass (offset : Nat) : Pass Nat Nat :=
  match buf[offset]? with
  | none => .leave offset
  | some len =>
    if len = 0 then .leave (offset + 1)
    else if isPointer len then .leave (offset + 2)
    else .again (offset + 1 + len.toNat)

/-- The loop of skipDnsName, pass by pass. -/
def Skips (offset next : Nat) : Prop := Runs (graph (skipPass buf)) offset next

structure Reading where
  labels : List Buffer
  seen : List Nat
  pos : Nat

def readPass (s : Reading) : Pass Reading (List Buffer) :=
  match buf[s.pos]? with
  | none => .leave s.labels
  | some len =>
    if s.pos ∈ s.seen then .leave s.labels
    else if len = 0 then .leave s.labels
    else if isPointer len then .again ⟨s.labels, s.pos :: s.seen, pointerTarget buf s.pos len⟩
    else .again ⟨s.labels ++ [(buf.drop (s.pos + 1)).take len.toNat], s.pos :: s.seen, s.pos + 1 + len.toNat⟩

def Reads (offset : Nat) (name : String) : Prop :=
  ∃ labels, Runs (graph (readPass buf)) ⟨[], [], offset⟩ labels ∧ name = nameText labels

structure Questions where
  i : Nat
  offset : Nat

inductive QuestionPass (qdcount : Nat) : Questions → Pass Questions Nat → Prop
  | done {s : Questions} (h : ¬ s.i < qdcount) : QuestionPass qdcount s (.leave s.offset)
  | next {s : Questions} {offset : Nat} (h : s.i < qdcount) (hskip : Skips buf s.offset offset) :
    QuestionPass qdcount s (.again ⟨s.i + 1, offset + 4⟩)

variable {ρ : Type}

structure Answers (ρ : Type) where
  i : Nat
  offset : Nat
  results : List ρ

/-- Whether a reader of records comes to a result; it may throw. -/
abbrev ReaderRuns (ρ : Type) := Nat → Nat → Nat → Nat → Option (List ρ) → Prop

inductive AnswerPass (reads : ReaderRuns ρ) (ancount : Nat) :
  Answers ρ → Pass (Answers ρ) (Option (List ρ)) → Prop
  | done {s : Answers ρ} (h : ¬ (s.i < ancount ∧ s.offset < buf.length)) :
    AnswerPass reads ancount s (.leave (some s.results))
  | short {s : Answers ρ} {offset : Nat} (h : s.i < ancount ∧ s.offset < buf.length)
    (hskip : Skips buf s.offset offset) (hlen : buf.length < offset + 10) :
    AnswerPass reads ancount s (.leave (some s.results))
  | record {s : Answers ρ} {offset rtype ttl rdlength : Nat} {found : List ρ}
    (h : s.i < ancount ∧ s.offset < buf.length) (hskip : Skips buf s.offset offset)
    (hlen : offset + 10 ≤ buf.length)
    (htype : readUInt16BE buf offset = some rtype) (httl : readUInt32BE buf (offset + 4) = some ttl)
    (hrd : readUInt16BE buf (offset + 8) = some rdlength)
    (hread : reads rtype ttl rdlength (offset + 10) (some found)) :
    AnswerPass reads ancount s (.again ⟨s.i + 1, offset + 10 + rdlength, s.results ++ found⟩)
  | threw {s : Answers ρ} {offset rtype ttl rdlength : Nat}
    (h : s.i < ancount ∧ s.offset < buf.length) (hskip : Skips buf s.offset offset)
    (hlen : offset + 10 ≤ buf.length)
    (htype : readUInt16BE buf offset = some rtype) (httl : readUInt32BE buf (offset + 4) = some ttl)
    (hrd : readUInt16BE buf (offset + 8) = some rdlength)
    (hread : reads rtype ttl rdlength (offset + 10) none) : AnswerPass reads ancount s (.leave none)

/-- A parse, with its header and its two loops. -/
inductive Parses (reads : ReaderRuns ρ) : Option (List ρ) → Prop
  | header (h : buf.length < 12) : Parses reads (some [])
  | empty (h : 12 ≤ buf.length) (hcount : readUInt16BE buf 6 = some 0) : Parses reads (some [])
  | answers {ancount qdcount offset : Nat} {result : Option (List ρ)} (h : 12 ≤ buf.length)
    (hcount : readUInt16BE buf 6 = some ancount) (hne : ancount ≠ 0) (hqd : readUInt16BE buf 4 = some qdcount)
    (hquestions : Runs (QuestionPass buf qdcount) ⟨0, 12⟩ offset)
    (hanswers : Runs (AnswerPass buf reads ancount) ⟨0, offset, []⟩ result) : Parses reads result

def ptrReads : ReaderRuns PtrRecord := fun rtype ttl _ offset found =>
  if rtype = 12 then ∃ name, Reads buf offset name ∧ found = some (if name ≠ "" then [⟨name, ttl⟩] else [])
  else found = some []

def ptrReader : Reader PtrRecord := fun rtype ttl _ offset =>
  if rtype = 12 ∧ readDnsName buf offset ≠ "" then some [⟨readDnsName buf offset, ttl⟩] else some []

def aReader (qtype : Nat) (family : IpVersion) : Reader ARecord := fun rtype _ rdlength offset =>
  if rtype = qtype then
    match family with
    | .v4 => if rdlength = 4 then some [⟨dotted buf offset, .v4⟩] else some []
    | .v6 => if rdlength = 16 then (groups buf offset).map fun address => [⟨address, .v6⟩] else some []
  else some []

def aReads (qtype : Nat) (family : IpVersion) : ReaderRuns ARecord := fun rtype ttl rdlength offset found =>
  found = aReader buf qtype family rtype ttl rdlength offset

end Passes

section Termination

variable {buf : Buffer}

theorem skips_skipFrom {fuel offset : Nat} (h : buf.length ≤ fuel + offset) :
    Skips buf offset (skipFrom buf fuel offset) := by
  induction fuel generalizing offset with
  | zero =>
    refine .leave ?_
    rw [graph, skipPass, List.getElem?_eq_none (by omega)]
    rfl
  | succ fuel ih =>
    rw [skipFrom]
    cases hlen : buf[offset]? with
    | none => exact .leave (by rw [graph, skipPass, hlen])
    | some len =>
      dsimp only
      by_cases hz : len = 0
      · rw [if_pos hz]
        exact .leave (by rw [graph, skipPass, hlen]; exact if_pos hz)
      · rw [if_neg hz]
        by_cases hp : isPointer len = true
        · rw [if_pos hp]
          refine .leave ?_
          rw [graph, skipPass, hlen]
          dsimp only
          rw [if_neg hz, if_pos hp]
        · rw [if_neg hp]
          have hpass : graph (skipPass buf) offset (.again (offset + 1 + len.toNat)) := by
            rw [graph, skipPass, hlen]
            dsimp only
            rw [if_neg hz, if_neg hp]
          exact .again hpass (ih (by omega))

theorem skips_skipDnsName (buf : Buffer) (offset : Nat) : Skips buf offset (skipDnsName buf offset) :=
  skips_skipFrom (Nat.le_add_right _ _)

theorem Skips.eq {offset next : Nat} (h : Skips buf offset next) : next = skipDnsName buf offset :=
  h.unique (deterministic_graph _) (skips_skipDnsName buf offset)

/-- Each pass sees a place that no pass has seen. -/
theorem runs_readFrom {fuel : Nat} {s : Reading} (hnodup : s.seen.Nodup) (hlt : ∀ p ∈ s.seen, p < buf.length)
    (h : buf.length ≤ fuel + s.seen.length) :
    Runs (graph (readPass buf)) s (s.labels ++ readFrom buf fuel s.seen s.pos) := by
  induction fuel generalizing s with
  | zero =>
    refine .leave ?_
    rw [graph, readPass, readFrom, List.append_nil]
    cases hlen : buf[s.pos]? with
    | none => rfl
    | some len =>
      have hpos : s.pos < buf.length := (List.getElem?_eq_some_iff.mp hlen).1
      exact if_pos (mem_of_nodup_full hnodup hlt (by omega) hpos)
  | succ fuel ih =>
    rw [readFrom]
    cases hlen : buf[s.pos]? with
    | none => exact .leave (by rw [graph, readPass, hlen, List.append_nil])
    | some len =>
      have hpos : s.pos < buf.length := (List.getElem?_eq_some_iff.mp hlen).1
      dsimp only
      by_cases hs : s.pos ∈ s.seen
      · rw [if_pos hs, List.append_nil]
        exact .leave (by rw [graph, readPass, hlen]; exact if_pos hs)
      have hnodup' : (s.pos :: s.seen).Nodup := List.nodup_cons.mpr ⟨hs, hnodup⟩
      have hlt' : ∀ p ∈ s.pos :: s.seen, p < buf.length := List.forall_mem_cons.mpr ⟨hpos, hlt⟩
      have hfuel : buf.length ≤ fuel + (s.pos :: s.seen).length := by rw [List.length_cons]; omega
      rw [if_neg hs]
      by_cases hz : len = 0
      · rw [if_pos hz, List.append_nil]
        refine .leave ?_
        rw [graph, readPass, hlen]
        dsimp only
        rw [if_neg hs, if_pos hz]
      rw [if_neg hz]
      by_cases hp : isPointer len = true
      · rw [if_pos hp]
        refine .again ?_
          (ih (s := ⟨s.labels, s.pos :: s.seen, pointerTarget buf s.pos len⟩) hnodup' hlt' hfuel)
        rw [graph, readPass, hlen]
        dsimp only
        rw [if_neg hs, if_neg hz, if_pos hp]
      · rw [if_neg hp, ← List.singleton_append, ← List.append_assoc]
        refine .again ?_ (ih (s := ⟨s.labels ++ [(buf.drop (s.pos + 1)).take len.toNat], s.pos :: s.seen,
          s.pos + 1 + len.toNat⟩) hnodup' hlt' hfuel)
        rw [graph, readPass, hlen]
        dsimp only
        rw [if_neg hs, if_neg hz, if_neg hp]

theorem reads_readDnsName (buf : Buffer) (offset : Nat) : Reads buf offset (readDnsName buf offset) :=
  ⟨_, runs_readFrom List.nodup_nil (fun _ h => absurd h List.not_mem_nil) (Nat.le_add_right _ _), rfl⟩

theorem Reads.eq {offset : Nat} {name : String} (h : Reads buf offset name) :
    name = readDnsName buf offset := by
  obtain ⟨labels, hr, rfl⟩ := h
  obtain ⟨labels', hr', he⟩ := reads_readDnsName buf offset
  rw [he, hr.unique (deterministic_graph _) hr']

theorem deterministic_questionPass (qdcount : Nat) : Deterministic (QuestionPass buf qdcount) := by
  intro s p p' h h'
  cases h with
  | done h =>
    cases h' with
    | done => rfl
    | next h' => exact absurd h' h
  | next h hskip =>
    cases h' with
    | done h' => exact absurd h h'
    | next _ hskip' => rw [hskip.eq, hskip'.eq]

theorem runs_skipQuestions (buf : Buffer) (n i offset : Nat) :
    Runs (QuestionPass buf (i + n)) ⟨i, offset⟩ (skipQuestions buf n offset) := by
  induction n generalizing i offset with
  | zero => exact .leave (.done (Nat.lt_irrefl i))
  | succ n ih =>
    have hnext := ih (i + 1) (skipDnsName buf offset + 4)
    rw [Nat.add_assoc, Nat.add_comm 1] at hnext
    exact .again (.next (by dsimp only; omega) (skips_skipDnsName buf offset)) hnext

theorem exists_readUInt16BE (buf : Buffer) (pos : Nat) (h : pos + 2 ≤ buf.length) :
    ∃ n, readUInt16BE buf pos = some n := by
  rw [readUInt16BE, List.getElem?_eq_getElem (by omega), List.getElem?_eq_getElem (by omega)]
  exact ⟨_, rfl⟩

theorem exists_readUInt32BE (buf : Buffer) (pos : Nat) (h : pos + 4 ≤ buf.length) :
    ∃ n, readUInt32BE buf pos = some n := by
  obtain ⟨hi, hhi⟩ := exists_readUInt16BE buf pos (by omega)
  obtain ⟨lo, hlo⟩ := exists_readUInt16BE buf (pos + 2) (by omega)
  rw [readUInt32BE, hhi, hlo]
  exact ⟨_, rfl⟩

section Records

variable {ρ : Type} {reads : ReaderRuns ρ} {read : Reader ρ}

/-- The reader ends, and with this result. -/
def Computes (reads : ReaderRuns ρ) (read : Reader ρ) : Prop :=
  ∀ rtype ttl rdlength offset found, reads rtype ttl rdlength offset found ↔
    found = read rtype ttl rdlength offset

theorem deterministic_answerPass (h : Computes reads read) (ancount : Nat) :
    Deterministic (AnswerPass buf reads ancount) := by
  intro s p p' hp hp'
  cases hp with
  | done hd =>
    cases hp' with
    | done => rfl
    | short hi | record hi | threw hi => exact absurd hi hd
  | short hi hskip hlen =>
    obtain rfl := hskip.eq
    cases hp' with
    | done hd => exact absurd hi hd
    | short => rfl
    | record _ hskip' hlen' | threw _ hskip' hlen' =>
      obtain rfl := hskip'.eq
      omega
  | record hi hskip hlen htype httl hrd hread =>
    obtain rfl := hskip.eq
    cases hp' with
    | done hd => exact absurd hi hd
    | short _ hskip' hlen' =>
      obtain rfl := hskip'.eq
      omega
    | record _ hskip' _ htype' httl' hrd' hread' =>
      obtain rfl := hskip'.eq
      obtain rfl := Option.some.inj (htype.symm.trans htype')
      obtain rfl := Option.some.inj (httl.symm.trans httl')
      obtain rfl := Option.some.inj (hrd.symm.trans hrd')
      obtain rfl := Option.some.inj (((h ..).mp hread).trans ((h ..).mp hread').symm)
      rfl
    | threw _ hskip' _ htype' httl' hrd' hread' =>
      obtain rfl := hskip'.eq
      obtain rfl := Option.some.inj (htype.symm.trans htype')
      obtain rfl := Option.some.inj (httl.symm.trans httl')
      obtain rfl := Option.some.inj (hrd.symm.trans hrd')
      cases ((h ..).mp hread).trans ((h ..).mp hread').symm
  | threw hi hskip hlen htype httl hrd hread =>
    obtain rfl := hskip.eq
    cases hp' with
    | done hd => exact absurd hi hd
    | short _ hskip' hlen' =>
      obtain rfl := hskip'.eq
      omega
    | record _ hskip' _ htype' httl' hrd' hread' =>
      obtain rfl := hskip'.eq
      obtain rfl := Option.some.inj (htype.symm.trans htype')
      obtain rfl := Option.some.inj (httl.symm.trans httl')
      obtain rfl := Option.some.inj (hrd.symm.trans hrd')
      cases ((h ..).mp hread).trans ((h ..).mp hread').symm
    | threw => rfl

theorem runs_readAnswers (buf : Buffer) (h : Computes reads read) (n i offset : Nat) (results : List ρ) :
    Runs (AnswerPass buf reads (i + n)) ⟨i, offset, results⟩
      ((readAnswers buf read n offset).map (results ++ ·)) := by
  induction n generalizing i offset results with
  | zero =>
    rw [readAnswers, Option.map_some, List.append_nil]
    exact .leave (.done fun hi => Nat.lt_irrefl i hi.1)
  | succ n ih =>
    rw [readAnswers]
    by_cases hlt : buf.length ≤ offset
    · rw [if_pos hlt, Option.map_some, List.append_nil]
      exact .leave (.done fun hi => Nat.not_le_of_lt hi.2 hlt)
    have hi : i < i + (n + 1) ∧ offset < buf.length := ⟨by omega, Nat.lt_of_not_le hlt⟩
    have hskip := skips_skipDnsName buf offset
    rw [if_neg hlt]
    dsimp only
    by_cases hlen : buf.length < skipDnsName buf offset + 10
    · rw [if_pos hlen, Option.map_some, List.append_nil]
      exact .leave (.short hi hskip hlen)
    obtain ⟨rtype, htype⟩ := exists_readUInt16BE buf (skipDnsName buf offset) (by omega)
    obtain ⟨ttl, httl⟩ := exists_readUInt32BE buf (skipDnsName buf offset + 4) (by omega)
    obtain ⟨rdlength, hrd⟩ := exists_readUInt16BE buf (skipDnsName buf offset + 8) (by omega)
    have hlen' := Nat.le_of_not_lt hlen
    rw [if_neg hlen, htype, httl, hrd]
    simp only [Option.bind_eq_bind, Option.bind_some, pure]
    cases hread : read rtype ttl rdlength (skipDnsName buf offset + 10) with
    | none => exact .leave (.threw hi hskip hlen' htype httl hrd ((h ..).mpr hread.symm))
    | some found =>
      have hnext := ih (i + 1) (skipDnsName buf offset + 10 + rdlength) (results ++ found)
      rw [Nat.add_assoc, Nat.add_comm 1] at hnext
      refine .again (.record hi hskip hlen' htype httl hrd ((h ..).mpr hread.symm)) ?_
      cases hrest : readAnswers buf read n (skipDnsName buf offset + 10 + rdlength) with
      | none => simpa [hrest] using hnext
      | some rest => simpa [hrest] using hnext

theorem parses_parseAnswers (h : Computes reads read) : Parses buf reads (parseAnswers buf read) := by
  rw [parseAnswers]
  by_cases hlen : buf.length < 12
  · rw [if_pos hlen]
    exact .header hlen
  have hlen' := Nat.le_of_not_lt hlen
  obtain ⟨ancount, hcount⟩ := exists_readUInt16BE buf 6 (by omega)
  obtain ⟨qdcount, hqd⟩ := exists_readUInt16BE buf 4 (by omega)
  rw [if_neg hlen, hcount, hqd]
  simp only [Option.bind_eq_bind, Option.bind_some, pure]
  by_cases hz : ancount = 0
  · rw [if_pos hz]
    exact .empty hlen' (hz ▸ hcount)
  · rw [if_neg hz]
    have hq := runs_skipQuestions buf qdcount 0 12
    have ha := runs_readAnswers buf h ancount 0 (skipQuestions buf qdcount 12) []
    rw [Nat.zero_add] at hq ha
    refine .answers hlen' hcount hz hqd hq ?_
    simpa using ha

theorem Parses.unique (h : Computes reads read) {result result' : Option (List ρ)}
    (hp : Parses buf reads result)
    (hp' : Parses buf reads result') : result = result' := by
  cases hp with
  | header hlen =>
    cases hp' with
    | header => rfl
    | empty hlen' | answers hlen' => omega
  | empty hlen hcount =>
    cases hp' with
    | header hlen' => omega
    | empty => rfl
    | answers _ hcount' hne => exact absurd (Option.some.inj (hcount'.symm.trans hcount)) hne
  | answers hlen hcount hne hqd hquestions hanswers =>
    cases hp' with
    | header hlen' => omega
    | empty _ hcount' => exact absurd (Option.some.inj (hcount.symm.trans hcount')) hne
    | answers _ hcount' _ hqd' hquestions' hanswers' =>
      obtain rfl := Option.some.inj (hcount.symm.trans hcount')
      obtain rfl := Option.some.inj (hqd.symm.trans hqd')
      obtain rfl := hquestions.unique (deterministic_questionPass _) hquestions'
      exact hanswers.unique (deterministic_answerPass h _) hanswers'

theorem parses_iff (h : Computes reads read) {result : Option (List ρ)} :
    Parses buf reads result ↔ result = parseAnswers buf read :=
  ⟨fun hp => hp.unique h (parses_parseAnswers h), fun he => he ▸ parses_parseAnswers h⟩

end Records

theorem computes_ptrReads : Computes (ptrReads buf) (ptrReader buf) := by
  intro rtype ttl rdlength offset found
  rw [ptrReads, ptrReader]
  by_cases ht : rtype = 12
  · have hread : some (if readDnsName buf offset ≠ "" then [⟨readDnsName buf offset, ttl⟩] else []) =
        (if rtype = 12 ∧ readDnsName buf offset ≠ "" then some [⟨readDnsName buf offset, ttl⟩] else some [] :
          Option (List PtrRecord)) := by
      by_cases hn : readDnsName buf offset = "" <;> simp [hn, ht]
    rw [if_pos ht, ← hread]
    constructor
    · rintro ⟨name, hname, rfl⟩
      rw [hname.eq]
    · exact fun he => ⟨_, reads_readDnsName buf offset, he⟩
  · rw [if_neg ht, if_neg fun h => ht h.1]

theorem computes_aReads (qtype : Nat) (family : IpVersion) :
    Computes (aReads buf qtype family) (aReader buf qtype family) := fun _ _ _ _ _ => Iff.rfl

theorem parses_ptr {result : Option (List PtrRecord)} :
    Parses buf (ptrReads buf) result ↔ result = parseDnsResponse buf := parses_iff computes_ptrReads

theorem parses_address {qtype : Nat} {family : IpVersion} {result : Option (List ARecord)} :
    Parses buf (aReads buf qtype family) result ↔ result = parseDnsAResponse buf qtype family :=
  parses_iff (computes_aReads qtype family)

end Termination

section Walk

/-- A record as the walk over the answer section finds it: where its data
begins, and how long that claims to be. -/
structure Head where
  rtype : Nat
  ttl : Nat
  rdlength : Nat
  offset : Nat
  deriving DecidableEq

def headReader : Reader Head := fun rtype ttl rdlength offset => some [⟨rtype, ttl, rdlength, offset⟩]

def walk (buf : Buffer) : List Head := (parseAnswers buf headReader).getD []

variable {buf : Buffer} {ρ : Type} {read : Reader ρ}

def Head.yield (read : Reader ρ) (h : Head) : Option (List ρ) := read h.rtype h.ttl h.rdlength h.offset

theorem readAnswers_succ (buf : Buffer) (offset : Nat) :
    (∀ {ρ : Type} (read : Reader ρ) (n : Nat), readAnswers buf read (n + 1) offset = some []) ∨
      ∃ (h : Head) (next : Nat), ∀ {ρ : Type} (read : Reader ρ) (n : Nat),
        readAnswers buf read (n + 1) offset =
        (h.yield read).bind fun found => (readAnswers buf read n next).map (found ++ ·) := by
  by_cases hlt : buf.length ≤ offset
  · refine .inl fun read n => ?_
    rw [readAnswers]
    exact if_pos hlt
  by_cases hlen : buf.length < skipDnsName buf offset + 10
  · refine .inl fun read n => ?_
    rw [readAnswers, if_neg hlt]
    exact if_pos hlen
  obtain ⟨rtype, htype⟩ := exists_readUInt16BE buf (skipDnsName buf offset) (by omega)
  obtain ⟨ttl, httl⟩ := exists_readUInt32BE buf (skipDnsName buf offset + 4) (by omega)
  obtain ⟨rdlength, hrd⟩ := exists_readUInt16BE buf (skipDnsName buf offset + 8) (by omega)
  refine .inr ⟨⟨rtype, ttl, rdlength, skipDnsName buf offset + 10⟩, skipDnsName buf offset + 10 + rdlength,
    fun read n => ?_⟩
  rw [readAnswers, if_neg hlt]
  dsimp only
  rw [if_neg hlen, htype, httl, hrd, Head.yield]
  simp only [Option.bind_eq_bind, Option.bind_some, pure]
  cases read rtype ttl rdlength (skipDnsName buf offset + 10) with
  | none => rfl
  | some found => cases readAnswers buf read n (skipDnsName buf offset + 10 + rdlength) <;> rfl

theorem readAnswers_heads (buf : Buffer) (n offset : Nat) :
    ∃ heads, readAnswers buf headReader n offset = some heads ∧
    ∀ {ρ : Type} (read : Reader ρ), readAnswers buf read n offset =
      (heads.mapM (Head.yield read)).map List.flatten := by
  induction n generalizing offset with
  | zero => exact ⟨[], rfl, fun _ => rfl⟩
  | succ n ih =>
    obtain hstop | ⟨h, next, hstep⟩ := readAnswers_succ buf offset
    · exact ⟨[], hstop _ n, fun read => hstop read n⟩
    · obtain ⟨heads, hh, hr⟩ := ih next
      refine ⟨h :: heads, ?_, fun read => ?_⟩
      · rw [hstep, hh]
        rfl
      · rw [hstep, hr, List.mapM_cons]
        cases h.yield read with
        | none => rfl
        | some found => cases heads.mapM (Head.yield read) <;> rfl

/-- The two parsers make their results of the same records. -/
theorem parseAnswers_walk (read : Reader ρ) :
    parseAnswers buf read = ((walk buf).mapM (Head.yield read)).map List.flatten := by
  have hparse : ∃ heads, parseAnswers buf headReader = some heads ∧
      parseAnswers buf read = (heads.mapM (Head.yield read)).map List.flatten := by
    rw [parseAnswers, parseAnswers]
    by_cases hlen : buf.length < 12
    · rw [if_pos hlen, if_pos hlen]
      exact ⟨[], rfl, rfl⟩
    obtain ⟨ancount, hcount⟩ := exists_readUInt16BE buf 6 (by omega)
    obtain ⟨qdcount, hqd⟩ := exists_readUInt16BE buf 4 (by omega)
    rw [if_neg hlen, if_neg hlen, hcount, hqd]
    simp only [Option.bind_eq_bind, Option.bind_some, pure]
    by_cases hz : ancount = 0
    · rw [if_pos hz, if_pos hz]
      exact ⟨[], rfl, rfl⟩
    · rw [if_neg hz, if_neg hz]
      obtain ⟨heads, hh, hr⟩ := readAnswers_heads buf ancount (skipQuestions buf qdcount 12)
      exact ⟨heads, hh, hr read⟩
  obtain ⟨heads, hh, hr⟩ := hparse
  rw [walk, hh, hr]
  rfl

end Walk

section Safety

variable {buf : Buffer} {qtype : Nat} {family : IpVersion}

/-- The text of an address of the buffer: four bytes in decimal, or eight
groups of two in hexadecimal. -/
def ReadInside (buf : Buffer) (r : ARecord) : Prop :=
  match r.family with
  | .v4 => ∃ pos address, address.length = 4 ∧ At buf pos address ∧ r.address = dottedText address
  | .v6 => ∃ pos address, address.length = 16 ∧ At buf pos address ∧ r.address = groupText address

def Terminates (buf : Buffer) : Prop :=
  (∀ offset, ∃ next, Skips buf offset next) ∧ (∀ offset, ∃ name, Reads buf offset name) ∧
    (∃ result, Parses buf (ptrReads buf) result) ∧
      ∀ qtype family, ∃ result, Parses buf (aReads buf qtype family) result

structure Safe (buf : Buffer) (qtype : Nat) (family : IpVersion) : Prop where
  ends : Terminates buf
  inside : ∀ rs, Parses buf (aReads buf qtype family) (some rs) → ∀ r ∈ rs, r.family = family ∧
    ReadInside buf r
  whole : ∀ h ∈ walk buf, buf.length < h.offset + h.rdlength → ∀ found,
    aReads buf qtype family h.rtype h.ttl h.rdlength h.offset (some found) → found = []

/-- No record that would be read as an IPv4 address ends behind the buffer. -/
def Untruncated (buf : Buffer) (qtype : Nat) (family : IpVersion) : Prop :=
  family = .v4 → ∀ h ∈ walk buf, h.rtype = qtype → h.rdlength = 4 → h.offset + 4 ≤ buf.length

theorem mem_of_mapM {α β : Type} {f : α → Option (List β)} {as : List α} {bss : List (List β)}
    (h : as.mapM f = some bss) {b : β} (hb : b ∈ bss.flatten) : ∃ a ∈ as, ∃ bs, f a = some bs ∧ b ∈ bs := by
  induction as generalizing bss with
  | nil =>
    cases h
    exact absurd hb List.not_mem_nil
  | cons a as ih =>
    rw [List.mapM_cons] at h
    cases ha : f a with
    | none => simp [ha] at h
    | some bs =>
      cases has : as.mapM f with
      | none => simp [ha, has] at h
      | some rest =>
        obtain rfl : bs :: rest = bss := by simpa [ha, has] using h
        rw [List.flatten_cons, List.mem_append] at hb
        obtain hb | hb := hb
        · exact ⟨a, by simp, bs, ha, hb⟩
        · obtain ⟨a', hm, hf⟩ := ih has hb
          exact ⟨a', by simp [hm], hf⟩

theorem terminates (buf : Buffer) : Terminates buf :=
  ⟨fun offset => ⟨_, skips_skipDnsName buf offset⟩, fun offset => ⟨_, reads_readDnsName buf offset⟩,
    ⟨_, parses_ptr.mpr rfl⟩, fun _ _ => ⟨_, parses_address.mpr rfl⟩⟩

theorem at_slice {pos n : Nat} (h : pos + n ≤ buf.length) :
    ∃ address, address.length = n ∧ At buf pos address := by
  refine ⟨(buf.drop pos).take n, ?_, List.take_prefix n _⟩
  rw [List.length_take, List.length_drop]
  omega

theorem readUInt16BE_bound {pos n : Nat} (h : readUInt16BE buf pos = some n) : pos + 2 ≤ buf.length := by
  by_contra hlt
  rw [readUInt16BE, List.getElem?_eq_none (i := pos + 1) (by omega)] at h
  cases hb : buf[pos]? <;> simp [hb] at h

theorem exists_of_mapM {α β : Type} {f : α → Option β} {as : List α} {bs : List β} (h : as.mapM f = some bs)
    {a : α} (ha : a ∈ as) : ∃ b, f a = some b := by
  induction as generalizing bs with
  | nil => exact absurd ha List.not_mem_nil
  | cons a' as ih =>
    rw [List.mapM_cons] at h
    cases hf : f a' with
    | none => simp [hf] at h
    | some b =>
      cases has : as.mapM f with
      | none => simp [hf, has] at h
      | some rest =>
        obtain rfl | hm := List.mem_cons.mp ha
        · exact ⟨b, hf⟩
        · exact ih has hm

theorem groups_bound {pos : Nat} {address : String} (h : groups buf pos = some address) :
    pos + 16 ≤ buf.length := by
  obtain ⟨gs, hgs, -⟩ := Option.map_eq_some_iff.mp h
  obtain ⟨n, hn⟩ := exists_of_mapM hgs (a := 7) (by decide)
  exact readUInt16BE_bound hn

/-- What a record of the asked type yields, it holds in the buffer. -/
theorem readInside_yield {h : Head} (hu : Untruncated buf qtype family) (hh : h ∈ walk buf)
    {found : List ARecord}
    (hf : h.yield (aReader buf qtype family) = some found) : ∀ r ∈ found, r.family = family ∧
      ReadInside buf r := by
  rw [Head.yield, aReader.eq_def] at hf
  by_cases ht : h.rtype = qtype
  · rw [if_pos ht] at hf
    cases family with
    | v4 =>
      dsimp only at hf
      by_cases hlen : h.rdlength = 4
      · rw [if_pos hlen] at hf
        obtain ⟨address, hl, ha⟩ := at_slice (hu rfl h hh ht hlen)
        obtain rfl := Option.some.inj hf
        intro r hr
        obtain rfl := List.mem_singleton.mp hr
        exact ⟨rfl, h.offset, address, hl, ha, dotted_at hl ha⟩
      · rw [if_neg hlen] at hf
        obtain rfl := Option.some.inj hf
        exact fun _ hr => absurd hr List.not_mem_nil
    | v6 =>
      dsimp only at hf
      by_cases hlen : h.rdlength = 16
      · rw [if_pos hlen] at hf
        obtain ⟨text, hg, rfl⟩ := Option.map_eq_some_iff.mp hf
        obtain ⟨address, hl, ha⟩ := at_slice (groups_bound hg)
        intro r hr
        obtain rfl := List.mem_singleton.mp hr
        exact ⟨rfl, h.offset, address, hl, ha, Option.some.inj (hg.symm.trans (groups_at hl ha))⟩
      · rw [if_neg hlen] at hf
        obtain rfl := Option.some.inj hf
        exact fun _ hr => absurd hr List.not_mem_nil
  · rw [if_neg ht] at hf
    obtain rfl := Option.some.inj hf
    exact fun _ hr => absurd hr List.not_mem_nil

theorem yield_past_end {h : Head} (hu : Untruncated buf qtype family) (hh : h ∈ walk buf)
    (hlt : buf.length < h.offset + h.rdlength) {found : List ARecord}
    (hf : h.yield (aReader buf qtype family) = some found) : found = [] := by
  rw [Head.yield, aReader.eq_def] at hf
  by_cases ht : h.rtype = qtype
  · rw [if_pos ht] at hf
    cases family with
    | v4 =>
      dsimp only at hf
      by_cases hlen : h.rdlength = 4
      · have := hu rfl h hh ht hlen
        omega
      · rw [if_neg hlen] at hf
        exact (Option.some.inj hf).symm
    | v6 =>
      dsimp only at hf
      by_cases hlen : h.rdlength = 16
      · rw [if_pos hlen] at hf
        obtain ⟨text, hg, -⟩ := Option.map_eq_some_iff.mp hf
        have := groups_bound hg
        omega
      · rw [if_neg hlen] at hf
        exact (Option.some.inj hf).symm
  · rw [if_neg ht] at hf
    exact (Option.some.inj hf).symm

theorem safe_of_untruncated (hu : Untruncated buf qtype family) : Safe buf qtype family := by
  refine ⟨terminates buf, fun rs hp r hr => ?_, fun h hh hlt found hf => yield_past_end hu hh hlt hf.symm⟩
  have hparse : parseAnswers buf (aReader buf qtype family) = some rs := (parses_address.mp hp).symm
  rw [parseAnswers_walk] at hparse
  obtain ⟨bss, hm, rfl⟩ := Option.map_eq_some_iff.mp hparse
  obtain ⟨h, hh, found, hf, hmem⟩ := mem_of_mapM hm hr
  exact readInside_yield hu hh hf r hmem

theorem Safe.untruncated (hs : Safe buf qtype family) : Untruncated buf qtype family := by
  rintro rfl h hh ht hlen
  by_contra hlt
  have hread : aReader buf qtype .v4 h.rtype h.ttl h.rdlength h.offset =
      some [⟨dotted buf h.offset, .v4⟩] := by
    rw [aReader, if_pos ht]
    exact if_pos hlen
  exact List.cons_ne_nil _ _ (hs.whole h hh (by omega) _ hread.symm)

/-- The parse of address records is safe unless the walk reaches an IPv4 record
whose data ends behind the buffer. -/
theorem parse_safe_iff (buf : Buffer) (qtype : Nat) (family : IpVersion) :
    Safe buf qtype family ↔ Untruncated buf qtype family := ⟨Safe.untruncated, safe_of_untruncated⟩

/-- One question-less answer, cut off in the middle of its address. -/
def truncatedResponse : Buffer :=
  [0x12, 0x34, 0x81, 0x80, 0, 0, 0, 1, 0, 0, 0, 0] ++ [0, 0, 1, 0, 1, 0, 0, 0, 60, 0, 4, 10, 0]

theorem truncated_not_safe :
    parseDnsAResponse truncatedResponse 1 .v4 = some [⟨"10.0.undefined.undefined", .v4⟩] ∧
      ¬ Safe truncatedResponse 1 .v4 := by
  have hwalk : walk truncatedResponse = [⟨1, 60, 4, 23⟩] := by decide +kernel
  refine ⟨by decide +kernel, fun h => ?_⟩
  have := h.untruncated rfl ⟨1, 60, 4, 23⟩ (by rw [hwalk]; exact List.mem_singleton_self _) rfl rfl
  exact absurd this (by decide)

end Safety

end Polaris.DnsSafety
