import Polaris.DnsWire

namespace Polaris.DnsCodec

open Polaris.Lib.Bytes Polaris.Lib.Text Polaris.Cidr Polaris.DnsWire

section Bits

theorem isPointer_iff (len : UInt8) : isPointer len = true ↔ 192 ≤ len.toNat := by
  have hall : ∀ n : Fin 256, isPointer (UInt8.ofNat n) = true ↔ 192 ≤ n.val := by decide +kernel
  have hlen := hall ⟨len.toNat, len.toNat_lt⟩
  rwa [UInt8.ofNat_toNat] at hlen

theorem isPointer_label {n : Nat} (h : n ≤ 63) : isPointer (UInt8.ofNat n) = false := by
  rw [Bool.eq_false_iff, ne_eq, isPointer_iff, UInt8.toNat_ofNat']
  omega

theorem ofNat_ne_zero {n : Nat} (hpos : 0 < n) (hlt : n < 256) : UInt8.ofNat n ≠ 0 := by
  intro h
  have := congrArg UInt8.toNat h
  rw [UInt8.toNat_ofNat'] at this
  change n % 2 ^ 8 = 0 at this
  omega

end Bits

section Fuel

variable {buf : Buffer}

theorem skipFrom_fuel {fuel offset : Nat} (h : buf.length ≤ fuel + offset) (more : Nat) :
    skipFrom buf (fuel + more) offset = skipFrom buf fuel offset := by
  induction fuel generalizing offset with
  | zero =>
    cases more with
    | zero => rfl
    | succ more =>
      have hnone : buf[offset]? = none := List.getElem?_eq_none (by omega)
      simp [skipFrom, hnone]
  | succ fuel ih =>
    rw [Nat.succ_add, skipFrom, skipFrom]
    cases hlen : buf[offset]? with
    | none => rfl
    | some len =>
      dsimp only
      split_ifs with hzero
      · rfl
      · rfl
      · exact ih (by omega)

theorem readFrom_fuel {fuel pos : Nat} {seen : List Nat} (hnodup : seen.Nodup)
    (hlt : ∀ p ∈ seen, p < buf.length) (h : buf.length ≤ fuel + seen.length) (more : Nat) :
    readFrom buf (fuel + more) seen pos = readFrom buf fuel seen pos := by
  induction fuel generalizing seen pos with
  | zero =>
    cases more with
    | zero => rfl
    | succ more =>
      rw [Nat.zero_add, readFrom, readFrom]
      cases hlen : buf[pos]? with
      | none => rfl
      | some len =>
        have hpos : pos < buf.length := (List.getElem?_eq_some_iff.mp hlen).1
        have hmem : pos ∈ seen := mem_of_nodup_full hnodup hlt (by omega) hpos
        simp [hmem]
  | succ fuel ih =>
    rw [Nat.succ_add, readFrom, readFrom]
    cases hlen : buf[pos]? with
    | none => rfl
    | some len =>
      dsimp only
      by_cases hseen : pos ∈ seen
      · rw [if_pos hseen, if_pos hseen]
      · have hpos : pos < buf.length := (List.getElem?_eq_some_iff.mp hlen).1
        have hnext : ∀ pos', readFrom buf (fuel + more) (pos :: seen) pos' =
            readFrom buf fuel (pos :: seen) pos' := fun pos' =>
          ih (List.nodup_cons.mpr ⟨hseen, hnodup⟩) (List.forall_mem_cons.mpr ⟨hpos, hlt⟩) (by simp; omega)
        rw [if_neg hseen, if_neg hseen, hnext, hnext]

end Fuel

section Names

/-- A name as RFC 1035 has it, read in so many steps, and the position behind
it. It ends in the root or in a pointer to another name. -/
inductive NameAt (buf : Buffer) : Nat → Nat → List Buffer → Nat → Prop
  | root {pos : Nat} (h : buf[pos]? = some 0) : NameAt buf 0 pos [] (pos + 1)
  | label {steps pos next : Nat} {label : Buffer} {labels : List Buffer} (hpos : 0 < label.length)
    (hlen : label.length ≤ 63) (h : At buf pos (UInt8.ofNat label.length :: label))
    (rest : NameAt buf steps (pos + 1 + label.length) labels next) :
    NameAt buf (steps + 1) pos (label :: labels) next
  | pointer {steps pos target next : Nat} {labels : List Buffer} (ht : target < 16384)
    (h : At buf pos [UInt8.ofNat (192 + target / 256), UInt8.ofNat target])
    (rest : NameAt buf steps target labels next) : NameAt buf (steps + 1) pos labels (pos + 2)

variable {buf : Buffer} {steps pos next : Nat} {labels : List Buffer}

theorem pointer_byte {target : Nat} (ht : target < 16384) :
    isPointer (UInt8.ofNat (192 + target / 256)) = true := by
  rw [isPointer_iff, UInt8.toNat_ofNat']
  omega

theorem pointerTarget_at {target : Nat} (ht : target < 16384)
    (h : At buf pos [UInt8.ofNat (192 + target / 256), UInt8.ofNat target]) :
    pointerTarget buf pos (UInt8.ofNat (192 + target / 256)) = target := by
  obtain ⟨-, hlo⟩ := at_cons.mp h
  obtain ⟨hlo, -⟩ := at_cons.mp hlo
  have hhi : (UInt8.ofNat (192 + target / 256)).toNat = 192 + target / 256 := by
    rw [UInt8.toNat_ofNat']
    omega
  have hmask : (192 + target / 256) &&& 0x3f = target / 256 := by
    have := Nat.and_two_pow_sub_one_eq_mod (192 + target / 256) 6
    norm_num at this
    omega
  rw [pointerTarget, hlo, hhi, hmask, Option.elim_some, UInt8.toNat_ofNat',
    ← Nat.shiftLeft_add_eq_or_of_lt (by omega), Nat.shiftLeft_eq]
  omega

theorem NameAt.lt (h : NameAt buf steps pos labels next) : pos < buf.length := by
  cases h with
  | root h => exact (List.getElem?_eq_some_iff.mp h).1
  | label _ _ h _ => exact (List.getElem?_eq_some_iff.mp (at_cons.mp h).1).1
  | pointer _ h _ => exact (List.getElem?_eq_some_iff.mp (at_cons.mp h).1).1

theorem label_byte {label : Buffer} (hpos : 0 < label.length) (hlen : label.length ≤ 63) :
    UInt8.ofNat label.length ≠ 0 ∧ isPointer (UInt8.ofNat label.length) = false ∧
      (UInt8.ofNat label.length).toNat = label.length := by
  refine ⟨ofNat_ne_zero hpos (by omega), isPointer_label hlen, ?_⟩
  rw [UInt8.toNat_ofNat']
  omega

theorem skipFrom_nameAt (h : NameAt buf steps pos labels next) {fuel : Nat} (hfuel : steps < fuel) :
    skipFrom buf fuel pos = next := by
  induction h generalizing fuel with
  | root h =>
    obtain ⟨fuel, rfl⟩ := Nat.exists_eq_succ_of_ne_zero (Nat.ne_of_gt hfuel)
    simp [skipFrom, h]
  | label hpos hlen h rest ih =>
    obtain ⟨fuel, rfl⟩ := Nat.exists_eq_succ_of_ne_zero (Nat.ne_of_gt (Nat.zero_lt_of_lt hfuel))
    obtain ⟨hne, hplain, hnat⟩ := label_byte hpos hlen
    rw [skipFrom, (at_cons.mp h).1]
    dsimp only
    rw [if_neg hne, hplain, hnat]
    exact ih (by omega)
  | @pointer steps pos target next labels ht h rest ih =>
    obtain ⟨fuel, rfl⟩ := Nat.exists_eq_succ_of_ne_zero (Nat.ne_of_gt (Nat.zero_lt_of_lt hfuel))
    have hne : UInt8.ofNat (192 + target / 256) ≠ 0 := ofNat_ne_zero (by omega) (by omega)
    rw [skipFrom, (at_cons.mp h).1]
    dsimp only
    rw [if_neg hne, if_pos (pointer_byte ht)]

theorem skipDnsName_nameAt (h : NameAt buf steps pos labels next) : skipDnsName buf pos = next := by
  rw [skipDnsName, ← skipFrom_fuel (Nat.le_add_right _ _) (steps + 1)]
  exact skipFrom_nameAt h (by omega)

theorem NameAt.steps_eq {steps' next' : Nat} {labels' : List Buffer} (h : NameAt buf steps pos labels next)
    (h' : NameAt buf steps' pos labels' next') : steps = steps' := by
  induction h generalizing steps' next' labels' with
  | root h => 
    cases h' with
    | root _ => rfl
    | label hpos hlen h' _ =>
      exact absurd (Option.some.inj ((at_cons.mp h').1.symm.trans h)) (label_byte hpos hlen).1
    | pointer ht h' _ =>
      have hbyte := Option.some.inj ((at_cons.mp h').1.symm.trans h)
      have := pointer_byte ht
      rw [hbyte] at this
      cases this
  | label hpos hlen h rest ih =>
    cases h' with
    | root h' => exact absurd (Option.some.inj ((at_cons.mp h).1.symm.trans h')) (label_byte hpos hlen).1
    | label hpos' hlen' h' rest' =>
      have hbyte := Option.some.inj ((at_cons.mp h).1.symm.trans (at_cons.mp h').1)
      have hlength := congrArg UInt8.toNat hbyte
      rw [(label_byte hpos hlen).2.2, (label_byte hpos' hlen').2.2] at hlength
      rw [← hlength] at rest'
      rw [ih rest']
    | pointer ht h' _ =>
      have hbyte := Option.some.inj ((at_cons.mp h).1.symm.trans (at_cons.mp h').1)
      have := pointer_byte ht
      rw [← hbyte, (label_byte hpos hlen).2.1] at this
      cases this
  | pointer ht h rest ih =>
    cases h' with
    | root h' =>
      have hbyte := Option.some.inj ((at_cons.mp h).1.symm.trans h')
      have := pointer_byte ht
      rw [hbyte] at this
      cases this
    | label hpos hlen h' _ =>
      have hbyte := Option.some.inj ((at_cons.mp h).1.symm.trans (at_cons.mp h').1)
      have := pointer_byte ht
      rw [hbyte, (label_byte hpos hlen).2.1] at this
      cases this
    | pointer ht' h' rest' =>
      have htarget := pointerTarget_at ht h
      have hbyte := Option.some.inj ((at_cons.mp h).1.symm.trans (at_cons.mp h').1)
      rw [hbyte, pointerTarget_at ht' h'] at htarget
      rw [htarget] at rest'
      rw [ih rest']

/-- The positions seen so far are read in more steps than the one at hand, so
it is none of them. -/
theorem readFrom_nameAt (h : NameAt buf steps pos labels next) {fuel : Nat} {seen : List Nat}
    (hfuel : steps < fuel)
    (hseen : ∀ p ∈ seen, ∃ steps' labels' next', steps < steps' ∧ NameAt buf steps' p labels' next') :
    readFrom buf fuel seen pos = labels := by
  induction h generalizing fuel seen with
  | root h =>
    obtain ⟨fuel, rfl⟩ := Nat.exists_eq_succ_of_ne_zero (Nat.ne_of_gt hfuel)
    simp [readFrom, h]
  | @label steps pos next label labels hpos hlen h rest ih =>
    obtain ⟨fuel, rfl⟩ := Nat.exists_eq_succ_of_ne_zero (Nat.ne_of_gt (Nat.zero_lt_of_lt hfuel))
    have hself : NameAt buf (steps + 1) pos (label :: labels) next := .label hpos hlen h rest
    have hnew : pos ∉ seen := by
      intro hmem
      obtain ⟨steps', labels', next', hlt, h'⟩ := hseen pos hmem
      exact absurd (hself.steps_eq h') (by omega)
    obtain ⟨hne, hplain, hnat⟩ := label_byte hpos hlen
    obtain ⟨hbyte, hlabel⟩ := at_cons.mp h
    rw [readFrom, hbyte]
    dsimp only
    rw [if_neg hnew, if_neg hne, hplain, if_neg Bool.false_ne_true, hnat, hlabel.slice]
    congr 1
    refine ih (by omega) (List.forall_mem_cons.mpr ⟨⟨_, _, _, Nat.lt_succ_self _, hself⟩, fun p hp => ?_⟩)
    obtain ⟨steps', labels', next', hlt, h'⟩ := hseen p hp
    exact ⟨steps', labels', next', by omega, h'⟩
  | @pointer steps pos target next labels ht h rest ih =>
    obtain ⟨fuel, rfl⟩ := Nat.exists_eq_succ_of_ne_zero (Nat.ne_of_gt (Nat.zero_lt_of_lt hfuel))
    have hself : NameAt buf (steps + 1) pos labels (pos + 2) := .pointer ht h rest
    have hnew : pos ∉ seen := by
      intro hmem
      obtain ⟨steps', labels', next', hlt, h'⟩ := hseen pos hmem
      exact absurd (hself.steps_eq h') (by omega)
    have hne : UInt8.ofNat (192 + target / 256) ≠ 0 := ofNat_ne_zero (by omega) (by omega)
    rw [readFrom, (at_cons.mp h).1]
    dsimp only
    rw [if_neg hnew, if_neg hne, if_pos (pointer_byte ht), pointerTarget_at ht h]
    refine ih (by omega) (List.forall_mem_cons.mpr ⟨⟨_, _, _, Nat.lt_succ_self _, hself⟩, fun p hp => ?_⟩)
    obtain ⟨steps', labels', next', hlt, h'⟩ := hseen p hp
    exact ⟨steps', labels', next', by omega, h'⟩

theorem readDnsName_nameAt (h : NameAt buf steps pos labels next) :
    readDnsName buf pos = nameText labels := by
  rw [readDnsName, ← readFrom_fuel List.nodup_nil (by simp) (by simp) (steps + 1)]
  rw [readFrom_nameAt h (by omega) (by simp)]

end Names

section Queries

variable {labels : List (List Char)}

/-- A label of 1 to 63 ASCII characters without dots. -/
def Plain (label : List Char) : Prop :=
  0 < label.length ∧ label.length ≤ 63 ∧ ∀ c ∈ label, c.toNat < 128 ∧ c ≠ '.'

theorem units_plain {label : List Char} (h : Plain label) : label.flatMap units = label.map Char.toNat := by
  have hunits : ∀ c ∈ label, units c = [c.toNat] := fun c hc => if_pos (by have := (h.2.2 c hc).1; omega)
  rw [List.flatMap_congr hunits]
  exact List.flatMap_pure_eq_map _ _

def octets (label : List Char) : Buffer := label.map fun c => UInt8.ofNat c.toNat

theorem encodeLabel_plain {label : List Char} (h : Plain label) :
    encodeLabel label = UInt8.ofNat (octets label).length :: octets label := by
  rw [encodeLabel, units_plain h, List.map_map, octets]
  simp [Function.comp_def]

theorem ascii_octets {label : List Char} (h : Plain label) : ascii (octets label) = label := by
  rw [ascii, octets, List.map_map]
  refine (List.map_congr_left fun c hc => ?_).trans (List.map_id label)
  have hc := (h.2.2 c hc).1
  have hnat : (UInt8.ofNat c.toNat).toNat % 128 = c.toNat := by
    rw [UInt8.toNat_ofNat']
    omega
  change Char.ofNat ((UInt8.ofNat c.toNat).toNat % 128) = c
  rw [hnat, Char.ofNat_toNat]

theorem encodeDnsName_plain (h : ∀ l ∈ labels, Plain l) :
    encodeDnsName (join '.' labels) = labels.flatMap encodeLabel ++ [0] := by
  rw [encodeDnsName]
  cases labels with
  | nil => rfl
  | cons l ls =>
    have hsep : ∀ p ∈ l :: ls, '.' ∉ p := fun p hp hdot => ((h p hp).2.2 '.' hdot).2 rfl
    have hkeep : (l :: ls).filter (· ≠ []) = l :: ls := List.filter_eq_self.mpr fun p hp => by
      simpa using List.length_pos_iff.mp (h p hp).1
    rw [split_join '.' (l :: ls) (by simp) hsep, hkeep]

theorem nameAt_encoded {buf : Buffer} {pos : Nat} (h : ∀ l ∈ labels, Plain l)
    (hat : At buf pos (labels.flatMap encodeLabel ++ [0])) :
    NameAt buf labels.length pos (labels.map octets) (pos + (labels.flatMap encodeLabel ++ [0]).length) := by
  induction labels generalizing pos with
  | nil => exact .root (at_cons.mp hat).1
  | cons l ls ih =>
    obtain ⟨hl, hls⟩ := List.forall_mem_cons.mp h
    have hlen : (octets l).length = l.length := List.length_map _
    rw [List.flatMap_cons, List.append_assoc, encodeLabel_plain hl] at hat
    obtain ⟨hlabel, hrest⟩ := at_append.mp hat
    have hpos : pos + (UInt8.ofNat (octets l).length :: octets l).length = pos + 1 + (octets l).length := by
      rw [List.length_cons]
      omega
    rw [hpos] at hrest
    have hnext := ih hls hrest
    have hname := NameAt.label (hlen ▸ hl.1) (hlen ▸ hl.2.1) hlabel hnext
    have hend : pos + 1 + (octets l).length + (ls.flatMap encodeLabel ++ [0]).length =
        pos + ((l :: ls).flatMap encodeLabel ++ [0]).length := by
      rw [List.flatMap_cons, encodeLabel_plain hl]
      simp only [List.length_append, List.length_cons]
      omega
    rw [hend] at hname
    exact hname

/-- A query is read back as it was asked. -/
theorem query_roundtrip (id qtype : UInt16) (h : ∀ l ∈ labels, Plain l) :
    let query := buildDnsQuery id (join '.' labels) qtype
    readDnsName query 12 = join '.' labels ∧ skipDnsName query 12 = query.length - 4 ∧
      query.drop (query.length - 4) = writeUInt16BE qtype ++ writeUInt16BE 1 := by
  intro query
  have hat : At query 12 (labels.flatMap encodeLabel ++ [0]) := by
    rw [← encodeDnsName_plain h]
    exact at_mid (writeUInt16BE id ++ writeUInt16BE 0x0100 ++ writeUInt16BE 1 ++ [0, 0, 0, 0, 0, 0]) _ _
  have hname := nameAt_encoded h hat
  have hlength : query.length = 12 + (labels.flatMap encodeLabel ++ [0]).length + 4 := by
    rw [← encodeDnsName_plain h]
    simp only [query, buildDnsQuery, writeUInt16BE, List.length_append, List.length_cons, List.length_nil]
    omega
  refine ⟨?_, ?_, ?_⟩
  · rw [readDnsName_nameAt hname, nameText, List.map_map]
    congr 1
    exact (List.map_congr_left fun l hl => ascii_octets (h l hl)).trans (List.map_id labels)
  · rw [skipDnsName_nameAt hname, hlength]
    omega
  · have hquery : query = (writeUInt16BE id ++ writeUInt16BE 0x0100 ++ writeUInt16BE 1 ++
        [0, 0, 0, 0, 0, 0] ++ encodeDnsName (join '.' labels)) ++
          (writeUInt16BE qtype ++ writeUInt16BE 1) := by
      simp only [query, buildDnsQuery, List.append_assoc]
    have hdrop : query.length - 4 = (writeUInt16BE id ++ writeUInt16BE 0x0100 ++ writeUInt16BE 1 ++
        [0, 0, 0, 0, 0, 0] ++ encodeDnsName (join '.' labels)).length := by
      rw [hlength, ← encodeDnsName_plain h]
      simp only [writeUInt16BE, List.length_append, List.length_cons, List.length_nil]
      omega
    rw [hdrop]
    conv_lhs => rw [hquery]
    exact List.drop_left

end Queries

section Responses

/-- The data of a record; a name in it may be compressed. -/
inductive RData
  | ptr (target : List Buffer)
  | a (address : Buffer)
  | aaaa (address : Buffer)
  | other (rtype : UInt16) (data : Buffer)

def RData.rtype : RData → UInt16
  | .ptr _ => 12
  | .a _ => 1
  | .aaaa _ => 28
  | .other rtype _ => rtype

structure Record where
  owner : List Buffer
  rclass : UInt16
  ttl : UInt32
  data : RData

def RDataAt (buf : Buffer) (pos rdlength : Nat) : RData → Prop
  | .ptr target => ∃ steps, NameAt buf steps pos target (pos + rdlength)
  | .a address => rdlength = 4 ∧ address.length = 4 ∧ At buf pos address
  | .aaaa address => rdlength = 16 ∧ address.length = 16 ∧ At buf pos address
  | .other rtype data => rtype ∉ [1, 12, 28] ∧ data.length = rdlength ∧ At buf pos data

def RecordAt (buf : Buffer) (pos : Nat) (r : Record) (next : Nat) : Prop :=
  ∃ steps mid, ∃ rdlength : UInt16, NameAt buf steps pos r.owner mid ∧
    At buf mid (writeUInt16BE r.data.rtype ++ (writeUInt16BE r.rclass ++ (writeUInt32BE r.ttl ++
      writeUInt16BE rdlength))) ∧
    RDataAt buf (mid + 10) rdlength.toNat r.data ∧ next = mid + 10 + rdlength.toNat

def QuestionAt (buf : Buffer) (pos : Nat) (name : List Buffer) (next : Nat) : Prop :=
  ∃ steps mid, ∃ qtype qclass : UInt16, NameAt buf steps pos name mid ∧
    At buf mid (writeUInt16BE qtype ++ writeUInt16BE qclass) ∧ next = mid + 4

/-- A response of RFC 1035 up to the end of its answer section. -/
structure Response (buf : Buffer) (records : List Record) : Prop where
  header : 12 ≤ buf.length
  layout : ∃ questions start stop, ∃ qdcount ancount : UInt16, qdcount.toNat = List.length questions ∧
    ancount.toNat = records.length ∧ At buf 4 (writeUInt16BE qdcount ++ writeUInt16BE ancount) ∧
    Sequence (QuestionAt buf) 12 questions start ∧ Sequence (RecordAt buf) start records stop

variable {buf : Buffer} {pos next : Nat} {r : Record} {ρ : Type}

theorem skipQuestions_sequence {questions : List (List Buffer)}
    (h : Sequence (QuestionAt buf) pos questions next) : skipQuestions buf questions.length pos = next := by
  induction h with
  | nil pos => rfl
  | cons head tail ih =>
    obtain ⟨steps, mid, qtype, qclass, hname, -, rfl⟩ := head
    rw [List.length_cons, skipQuestions, skipDnsName_nameAt hname]
    exact ih

/-- The loop reads each record where it stands. -/
theorem readAnswers_sequence {read : Reader ρ} {value : Record → List ρ} {records : List Record}
    (h : Sequence (RecordAt buf) pos records next)
    (hread : ∀ mid, ∀ rdlength : UInt16, ∀ r ∈ records, RDataAt buf (mid + 10) rdlength.toNat r.data →
      read r.data.rtype.toNat r.ttl.toNat rdlength.toNat (mid + 10) = some (value r)) :
    readAnswers buf read records.length pos = some (records.flatMap value) := by
  induction h with
  | nil pos => rfl
  | @cons pos mid next r records head tail ih =>
    obtain ⟨steps, mid, rdlength, hname, hat, hdata, rfl⟩ := head
    have hbound : mid + 10 ≤ buf.length := hat.bound (by simp [writeUInt16BE])
    obtain ⟨htype, hat⟩ := at_append.mp hat
    obtain ⟨-, hat⟩ := at_append.mp hat
    obtain ⟨httl, hlength⟩ := at_append.mp hat
    have httl : At buf (mid + 4) (writeUInt32BE r.ttl) := httl
    have hlength : At buf (mid + 8) (writeUInt16BE rdlength) := hlength
    have hpos := hname.lt
    rw [List.length_cons, readAnswers, if_neg (by omega)]
    dsimp only
    rw [skipDnsName_nameAt hname, if_neg (by omega), readUInt16BE_at htype, readUInt32BE_at httl,
      readUInt16BE_at hlength]
    simp only [Option.bind_eq_bind, Option.bind_some, pure]
    rw [hread mid rdlength r List.mem_cons_self hdata, ih fun mid rdlength r hr => hread mid rdlength r
      (List.mem_cons_of_mem _ hr), List.flatMap_cons]
    rfl

theorem parseAnswers_response {read : Reader ρ} {value : Record → List ρ} {records : List Record}
    (h : Response buf records)
    (hread : ∀ mid, ∀ rdlength : UInt16, ∀ r ∈ records, RDataAt buf (mid + 10) rdlength.toNat r.data →
      read r.data.rtype.toNat r.ttl.toNat rdlength.toNat (mid + 10) = some (value r)) :
    parseAnswers buf read = some (records.flatMap value) := by
  obtain ⟨questions, start, stop, qdcount, ancount, hqd, han, hat, hquestions, hrecords⟩ := h.layout
  obtain ⟨hatqd, hatan⟩ := at_append.mp hat
  have hheader := h.header
  have hcount : readUInt16BE buf 6 = some ancount.toNat := readUInt16BE_at hatan
  rw [parseAnswers, if_neg (by omega), hcount, readUInt16BE_at hatqd]
  simp only [Option.bind_eq_bind, Option.bind_some, pure]
  rw [han, hqd, skipQuestions_sequence hquestions]
  cases records with
  | nil => rfl
  | cons r records =>
    rw [if_neg (by simp)]
    exact readAnswers_sequence hrecords hread

def ptrTargets (r : Record) : List PtrRecord :=
  match r.data with
  | .ptr target => [⟨nameText target, r.ttl.toNat⟩]
  | _ => []

def rootTarget (r : Record) : Bool :=
  match r.data with
  | .ptr target => target.isEmpty
  | _ => false

def dottedText (address : Buffer) : String := join '.' (address.map fun b => (toString b.toNat).toList)

def words : Buffer → List Nat
  | hi :: lo :: rest => (hi.toNat * 256 + lo.toNat) :: words rest
  | _ => []

def groupText (address : Buffer) : String := join ':' ((words address).map (Nat.toDigits 16))

def aAddresses (r : Record) : List ARecord :=
  match r.data with
  | .a address => [⟨dottedText address, .v4⟩]
  | _ => []

def aaaaAddresses (r : Record) : List ARecord :=
  match r.data with
  | .aaaa address => [⟨groupText address, .v6⟩]
  | _ => []

theorem nameText_root : nameText [] = "" := rfl

theorem nameText_eq_empty {labels : List Buffer} (h : ∀ l ∈ labels, l ≠ []) :
    nameText labels = "" ↔ labels = [] := by
  cases labels with
  | nil => simp [nameText_root]
  | cons l ls =>
    refine iff_of_false (fun he => ?_) (by simp)
    obtain ⟨b, bs, rfl⟩ := List.exists_cons_of_ne_nil (h l List.mem_cons_self)
    have hchars := congrArg String.toList he
    cases ls with
    | nil => simp [nameText, join, ascii] at hchars
    | cons l' ls => simp [nameText, join, ascii, List.intercalate_cons_cons] at hchars

theorem byteText_at {b : UInt8} {bytes : Buffer} (h : At buf pos (b :: bytes)) :
    byteText buf pos = toString b.toNat := by
  rw [byteText, (at_cons.mp h).1]
  rfl

theorem dotted_at {address : Buffer} (hlen : address.length = 4) (h : At buf pos address) :
    dotted buf pos = dottedText address := by
  obtain ⟨b₀, address, rfl⟩ := List.exists_cons_of_length_eq_add_one hlen
  obtain ⟨b₁, address, rfl⟩ := List.exists_cons_of_length_eq_add_one (Nat.succ.inj hlen)
  obtain ⟨b₂, address, rfl⟩ := List.exists_cons_of_length_eq_add_one (Nat.succ.inj (Nat.succ.inj hlen))
  obtain ⟨b₃, address, rfl⟩ := List.exists_cons_of_length_eq_add_one
    (Nat.succ.inj (Nat.succ.inj (Nat.succ.inj hlen)))
  obtain rfl : address = [] := List.length_eq_zero_iff.mp (by simpa using hlen)
  have h₁ := (at_cons.mp h).2
  have h₂ := (at_cons.mp h₁).2
  have h₃ := (at_cons.mp h₂).2
  rw [dotted, byteText_at h, byteText_at h₁, byteText_at h₂, byteText_at h₃, dottedText]
  apply String.toList_injective
  simp [join, List.intercalate_cons_cons]

theorem mapM_words {address : Buffer} {n : Nat} (hlen : address.length = 2 * n) (h : At buf pos address) :
    ((List.range n).mapM fun g => readUInt16BE buf (pos + g * 2)) = some (words address) := by
  induction n generalizing pos address with
  | zero =>
    obtain rfl : address = [] := List.length_eq_zero_iff.mp hlen
    rfl
  | succ n ih =>
    obtain ⟨hi, address, rfl⟩ := List.exists_cons_of_length_eq_add_one (n := 2 * n + 1) (by omega)
    rw [List.length_cons] at hlen
    obtain ⟨lo, address, rfl⟩ := List.exists_cons_of_length_eq_add_one (l := address) (n := 2 * n) (by omega)
    have hlo := (at_cons.mp h).2
    have hrest := (at_cons.mp hlo).2
    have hread : readUInt16BE buf (pos + 0 * 2) = some (hi.toNat * 256 + lo.toNat) := by
      simp [readUInt16BE, (at_cons.mp h).1, (at_cons.mp hlo).1]
    have hshift : (fun g => readUInt16BE buf (pos + (g + 1) * 2)) = fun g =>
      readUInt16BE buf (pos + 2 + g * 2) := by
      funext g
      congr 1
      omega
    rw [List.range_succ_eq_map, List.mapM_cons, hread, List.mapM_map]
    simp only [Function.comp_def, Nat.succ_eq_add_one]
    rw [hshift, ih (by rw [List.length_cons] at hlen; omega) hrest]
    rfl

theorem groups_at {address : Buffer} (hlen : address.length = 16) (h : At buf pos address) :
    groups buf pos = some (groupText address) := by
  rw [groups, mapM_words (n := 8) hlen h]
  rfl

theorem toNat_ne {rtype n : UInt16} (h : rtype ≠ n) : rtype.toNat ≠ n.toNat := fun he =>
    h (UInt16.toNat_inj.mp he)

theorem NameAt.labels_ne {steps : Nat} {labels : List Buffer} (h : NameAt buf steps pos labels next) :
    ∀ l ∈ labels, l ≠ [] := by
  induction h with
  | root _ => simp
  | label hpos _ _ _ ih => exact List.forall_mem_cons.mpr ⟨List.length_pos_iff.mp hpos, ih⟩
  | pointer _ _ _ ih => exact ih

theorem flatMap_filter {records : List Record} (p : Record → Bool) (f : Record → List ρ) :
    (records.filter p).flatMap f = records.flatMap fun r => if p r then f r else [] := by
  induction records with
  | nil => rfl
  | cons r records ih => cases hp : p r <;> simp [hp, ih]

/-- The PTR targets are found, except for the root. -/
theorem parseDnsResponse_response {records : List Record} (h : Response buf records) :
    parseDnsResponse buf = some ((records.filter (! rootTarget ·)).flatMap ptrTargets) := by
  rw [flatMap_filter]
  refine parseAnswers_response h fun mid rdlength r _ hdata => ?_
  obtain ⟨owner, rclass, ttl, data⟩ := r
  cases data with
  | ptr target =>
    obtain ⟨steps, hname⟩ := hdata
    have htype : (RData.ptr target).rtype.toNat = 12 := rfl
    have hempty := nameText_eq_empty hname.labels_ne
    dsimp only
    rw [readDnsName_nameAt hname, htype]
    by_cases hroot : target = []
    · subst hroot
      rfl
    · rw [if_pos ⟨rfl, hempty.not.mpr hroot⟩]
      simp [rootTarget, hroot, ptrTargets]
  | a address => rfl
  | aaaa address => rfl
  | other rtype data =>
    have hne : rtype.toNat ≠ 12 := toNat_ne (n := 12) fun he => hdata.1 (by simp [he])
    exact if_neg fun htype => hne htype.1

theorem parseDnsAResponse_v4 {records : List Record} (h : Response buf records) :
    parseDnsAResponse buf 1 .v4 = some (records.flatMap aAddresses) := by
  refine parseAnswers_response h fun mid rdlength r _ hdata => ?_
  obtain ⟨owner, rclass, ttl, data⟩ := r
  cases data with
  | ptr target => rfl
  | a address =>
    obtain ⟨hrd, hlen, hat⟩ := hdata
    have htype : (RData.a address).rtype.toNat = 1 := rfl
    dsimp only
    rw [if_pos htype, if_pos hrd, dotted_at hlen hat]
    rfl
  | aaaa address => rfl
  | other rtype data =>
    have hne : rtype.toNat ≠ 1 := toNat_ne (n := 1) fun he => hdata.1 (by simp [he])
    exact if_neg hne

theorem parseDnsAResponse_v6 {records : List Record} (h : Response buf records) :
    parseDnsAResponse buf 28 .v6 = some (records.flatMap aaaaAddresses) := by
  refine parseAnswers_response h fun mid rdlength r _ hdata => ?_
  obtain ⟨owner, rclass, ttl, data⟩ := r
  cases data with
  | ptr target => rfl
  | a address => rfl
  | aaaa address =>
    obtain ⟨hrd, hlen, hat⟩ := hdata
    have htype : (RData.aaaa address).rtype.toNat = 28 := rfl
    dsimp only
    rw [if_pos htype, if_pos hrd, groups_at hlen hat]
    rfl
  | other rtype data =>
    have hne : rtype.toNat ≠ 28 := toNat_ne (n := 28) fun he => hdata.1 (by simp [he])
    exact if_neg hne

end Responses

section Framing

variable {stream more message : Buffer}

theorem completeMessage_append (h : completeMessage stream = some message) (more : Buffer) :
    completeMessage (stream ++ more) = some message := by
  unfold completeMessage at h ⊢
  cases hlen : readUInt16BE stream 0 with
  | none => simp [hlen] at h
  | some msgLen =>
    rw [hlen] at h
    dsimp only at h
    split_ifs at h with hfull
    cases h
    have hread : readUInt16BE (stream ++ more) 0 = some msgLen := by
      rw [← hlen, readUInt16BE, readUInt16BE, List.getElem?_append_left (by omega),
        List.getElem?_append_left (by omega)]
    rw [hread]
    dsimp only
    rw [if_pos (by rw [List.length_append]; omega), List.drop_append_of_le_length (by omega),
      List.take_append_of_le_length (by rw [List.length_drop]; omega)]

/-- What is written for a query is the query to the other end. -/
theorem completeMessage_frameQuery {query framed : Buffer} (h : frameQuery query = some framed) :
    completeMessage framed = some query := by
  unfold frameQuery at h
  split_ifs at h with hlen
  cases h
  have hread : readUInt16BE (writeUInt16BE (UInt16.ofNat query.length) ++ query) 0 = some query.length := by
    have hat : At (writeUInt16BE (UInt16.ofNat query.length) ++ query) 0
        (writeUInt16BE (UInt16.ofNat query.length)) := at_mid [] _ query
    rw [readUInt16BE_at hat, UInt16.toNat_ofNat']
    congr 1
    omega
  have hfull : (writeUInt16BE (UInt16.ofNat query.length) ++ query).length ≥ 2 + query.length := by
    rw [List.length_append, writeUInt16BE]
    exact Nat.le_refl _
  rw [completeMessage, hread]
  dsimp only
  rw [if_pos hfull]
  simp [writeUInt16BE]

/-- What a stream comes to, whatever its chunks. -/
def outcome (stream : Buffer) : Except Failure Buffer :=
  match completeMessage stream with
  | some message => .ok message
  | none => .error (.thrown "DoT connection closed before complete response")

theorem signal_data (chunks : List Buffer) :
    (completeMessage chunks.flatten = none ∧
      (chunks.map Signal.data).foldl signal {} = { chunks := chunks }) ∨
    ∃ message, completeMessage chunks.flatten = some message ∧
      ((chunks.map Signal.data).foldl signal {}).destroyed = true ∧
      ((chunks.map Signal.data).foldl signal {}).settled = some (.ok message) := by
  induction chunks using List.reverseRecOn with
  | nil => exact .inl ⟨rfl, rfl⟩
  | append_singleton chunks chunk ih =>
    rw [List.map_append, List.foldl_append, List.flatten_append, List.map_singleton, List.foldl_cons,
      List.foldl_nil]
    obtain ⟨-, hopen⟩ | ⟨message, hmessage, hdestroyed, hsettled⟩ := ih
    · rw [hopen, signal]
      simp only [Bool.false_eq_true, if_false, List.flatten_append]
      cases hcomplete : completeMessage (chunks.flatten ++ [chunk].flatten) with
      | none => exact .inl ⟨rfl, rfl⟩
      | some message => exact .inr ⟨message, rfl, rfl, rfl⟩
    · refine .inr ⟨message, completeMessage_append hmessage _, ?_, ?_⟩
      · rw [signal, if_pos hdestroyed]
        exact hdestroyed
      · rw [signal, if_pos hdestroyed]
        exact hsettled

theorem sendTlsQuery_chunks (chunks : List Buffer) :
    sendTlsQuery (chunks.map Signal.data ++ [.close]) = some (outcome chunks.flatten) := by
  rw [sendTlsQuery, List.foldl_append, List.foldl_cons, List.foldl_nil]
  obtain ⟨hnone, hopen⟩ | ⟨message, hmessage, -, hsettled⟩ := signal_data chunks
  · rw [hopen, signal, outcome]
    simp only [hnone]
    rfl
  · have hkept : ∀ x result, (settle x result).settled = x.settled.or (some result) := fun _ _ => rfl
    rw [signal, outcome, hmessage]
    cases completeMessage ((chunks.map Signal.data).foldl signal {}).chunks.flatten with
    | none => simp [hkept, hsettled]
    | some other => simp [hkept, hsettled]

def received (signals : List Signal) : Buffer :=
  signals.flatMap fun
    | .data chunk => chunk
    | _ => []

/-- The chunks kept are those emitted, up to the end, and a message handed on
is the one of the stream. -/
structure Faithful (x : Exchange) (stream : Buffer) : Prop where
  kept : ∃ rest, stream = x.chunks.flatten ++ rest
  exact : x.destroyed = false → stream = x.chunks.flatten
  handed : ∀ message, x.settled = some (.ok message) → completeMessage stream = some message

theorem faithful_settle {x : Exchange} {result : Except Failure Buffer} (h : Faithful x stream)
    (hresult : ∀ message, result = .ok message → completeMessage stream = some message) :
    Faithful (settle x result) stream := by
  refine ⟨h.kept, h.exact, fun message hmessage => ?_⟩
  obtain hsettled | ⟨-, hnew⟩ := Option.or_eq_some_iff.mp hmessage
  · exact h.handed message hsettled
  · exact hresult message (Option.some.inj hnew)

theorem faithful_destroy {x : Exchange} (h : Faithful x stream) :
    Faithful { x with destroyed := true } stream :=
  ⟨h.kept, fun hopen => Bool.noConfusion hopen, h.handed⟩

theorem faithful_signal {x : Exchange} (h : Faithful x stream) (s : Signal) :
    Faithful (signal x s) (stream ++ received [s]) := by
  have hsame : Faithful x (stream ++ []) := by rwa [List.append_nil]
  cases s with
  | data chunk =>
    have hdata : received [.data chunk] = chunk := List.append_nil chunk
    rw [hdata, signal]
    split_ifs with hdestroyed
    · obtain ⟨rest, hrest⟩ := h.kept
      refine ⟨⟨rest ++ chunk, by rw [hrest, List.append_assoc]⟩, fun hopen => ?_, fun message hmessage => ?_⟩
      · rw [hdestroyed] at hopen
        cases hopen
      · exact completeMessage_append (h.handed message hmessage) chunk
    · have hstream : stream ++ chunk = (x.chunks ++ [chunk]).flatten := by
        rw [h.exact (by simpa using hdestroyed)]
        simp
      have hnext : Faithful { x with chunks := x.chunks ++ [chunk] } (stream ++ chunk) :=
        ⟨⟨[], by rw [List.append_nil]; exact hstream⟩, fun _ => hstream,
          fun message hmessage => completeMessage_append (h.handed message hmessage) chunk⟩
      dsimp only
      split
      · next message hmessage =>
        refine faithful_settle (faithful_destroy hnext) fun message' hmessage' => ?_
        cases hmessage'
        rw [hstream]
        exact hmessage
      · exact hnext
  | timeout => exact faithful_settle (faithful_destroy hsame) fun message hmessage => by cases hmessage
  | error e => exact faithful_settle hsame fun message hmessage => by cases hmessage
  | close =>
    rw [signal]
    split
    · next message hmessage =>
      refine faithful_settle (faithful_destroy hsame) fun message' hmessage' => ?_
      cases hmessage'
      obtain ⟨rest, hrest⟩ := hsame.kept
      have hclosed : stream ++ received [Signal.close] = stream ++ [] := rfl
      rw [hclosed, hrest]
      exact completeMessage_append hmessage rest
    · exact faithful_settle (faithful_destroy hsame) fun message hmessage => by cases hmessage

theorem faithful_signals (signals : List Signal) : Faithful (signals.foldl signal {}) (received signals) := by
  induction signals using List.reverseRecOn with
  | nil => exact ⟨⟨[], rfl⟩, fun _ => rfl, fun message hmessage => by cases hmessage⟩
  | append_singleton signals s ih =>
    have hreceived : received (signals ++ [s]) = received signals ++ received [s] := List.flatMap_append
    rw [List.foldl_append, List.foldl_cons, List.foldl_nil, hreceived]
    exact faithful_signal ih s

end Framing

section Codec

/-- Queries are read back, responses are parsed into their records, and the
message handed to the parsers is that of the stream. -/
theorem dns_codec_correct :
    (∀ (id qtype : UInt16) (labels : List (List Char)), (∀ l ∈ labels, Plain l) →
      let query := buildDnsQuery id (join '.' labels) qtype
      readDnsName query 12 = join '.' labels ∧ skipDnsName query 12 = query.length - 4 ∧
        query.drop (query.length - 4) = writeUInt16BE qtype ++ writeUInt16BE 1) ∧
    (∀ (buf : Buffer) (records : List Record), Response buf records →
      parseDnsResponse buf = some ((records.filter (! rootTarget ·)).flatMap ptrTargets) ∧
        parseDnsAResponse buf 1 .v4 = some (records.flatMap aAddresses) ∧
        parseDnsAResponse buf 28 .v6 = some (records.flatMap aaaaAddresses)) ∧
    (∀ chunks : List Buffer, sendTlsQuery (chunks.map Signal.data ++ [.close]) =
      some (outcome chunks.flatten)) ∧
    ∀ (signals : List Signal) (message : Buffer), sendTlsQuery signals = some (.ok message) →
      completeMessage (received signals) = some message :=
  ⟨fun id qtype _ h => query_roundtrip id qtype h,
    fun _ _ h => ⟨parseDnsResponse_response h, parseDnsAResponse_v4 h, parseDnsAResponse_v6 h⟩,
    sendTlsQuery_chunks, fun signals => (faithful_signals signals).handed⟩

/-- The answer `c.b` to a question for `a.b`, with the names compressed, and
an address. -/
def sampleResponse : Buffer :=
  [0, 1, 0x81, 0x80, 0, 1, 0, 2, 0, 0, 0, 0] ++ [1, 97, 1, 98, 0, 0, 12, 0, 1] ++
    [0xc0, 12, 0, 12, 0, 1, 0, 0, 0, 60, 0, 4, 1, 99, 0xc0, 14] ++
    [0xc0, 12, 0, 1, 0, 1, 0, 0, 0, 60, 0, 4, 10, 0, 0, 1]

def sampleRecords : List Record :=
  [⟨[[97], [98]], 1, 60, .ptr [[99], [98]]⟩, ⟨[[97], [98]], 1, 60, .a [10, 0, 0, 1]⟩]

theorem response_sample : Response sampleResponse sampleRecords := by
  have hb : NameAt sampleResponse 1 14 [[98]] 17 :=
    .label (by decide) (by decide) (by decide) (.root (by decide))
  have hab : NameAt sampleResponse 2 12 [[97], [98]] 17 := .label (by decide) (by decide) (by decide) hb
  have htarget : NameAt sampleResponse 3 33 [[99], [98]] 37 :=
    .label (by decide) (by decide) (by decide) (.pointer (by decide) (by decide) hb)
  have hptr : RecordAt sampleResponse 21 ⟨[[97], [98]], 1, 60, .ptr [[99], [98]]⟩ 37 :=
    ⟨3, 23, 4, .pointer (by decide) (by decide) hab, by decide, ⟨3, htarget⟩, rfl⟩
  have ha : RecordAt sampleResponse 37 ⟨[[97], [98]], 1, 60, .a [10, 0, 0, 1]⟩ 53 :=
    ⟨3, 39, 4, .pointer (by decide) (by decide) hab, by decide, ⟨rfl, rfl, by decide⟩, rfl⟩
  refine ⟨by decide, [[[97], [98]]], 21, 53, 1, 2, rfl, rfl, by decide, ?_, ?_⟩
  · exact .cons ⟨2, 17, 12, 1, hab, by decide, rfl⟩ (.nil 21)
  · exact .cons hptr (.cons ha (.nil 53))

theorem dns_codec_correct_sample :
    parseDnsResponse sampleResponse = some [⟨"c.b", 60⟩] ∧
      parseDnsAResponse sampleResponse 1 .v4 = some [⟨"10.0.0.1", .v4⟩] := by
  obtain ⟨hptr, ha, -⟩ := dns_codec_correct.2.1 sampleResponse sampleRecords response_sample
  exact ⟨hptr.trans (by decide +kernel), ha.trans (by decide +kernel)⟩

def rootResponse : Buffer :=
  [0, 1, 0x81, 0x80, 0, 0, 0, 1, 0, 0, 0, 0] ++ [0, 0, 12, 0, 1, 0, 0, 0, 60, 0, 1, 0]

/-- A PTR record that points to the root is left out. -/
theorem root_target_left_out :
    Response rootResponse [⟨[], 1, 60, .ptr []⟩] ∧ parseDnsResponse rootResponse = some [] ∧
      ¬ ∀ (buf : Buffer) (records : List Record), Response buf records →
        parseDnsResponse buf = some (records.flatMap ptrTargets) := by
  have hresponse : Response rootResponse [⟨[], 1, 60, .ptr []⟩] := by
    refine ⟨by decide, [], 12, 24, 0, 1, rfl, rfl, by decide, .nil 12, ?_⟩
    exact .cons ⟨0, 13, 1, .root (by decide), by decide, ⟨0, .root (by decide)⟩, rfl⟩ (.nil 24)
  refine ⟨hresponse, by decide +kernel, fun h => ?_⟩
  have hparsed := h rootResponse _ hresponse
  revert hparsed
  decide +kernel

end Codec

end Polaris.DnsCodec
