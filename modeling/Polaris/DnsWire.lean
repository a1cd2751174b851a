import Polaris.Lib.Bytes
import Polaris.Lib.Text
import Polaris.Cidr

namespace Polaris.DnsWire

open Polaris.Lib.Bytes Polaris.Lib.Text Polaris.Cidr

section Queries

def units (c : Char) : List Nat :=
  if c.toNat < 65536 then [c.toNat]
  else [0xd800 + (c.toNat - 65536) / 1024, 0xdc00 + (c.toNat - 65536) % 1024]

/-- A label, with its length in a byte of its own and the low byte of each
unit. -/
def encodeLabel (label : List Char) : Buffer :=
  UInt8.ofNat (label.flatMap units).length :: (label.flatMap units).map UInt8.ofNat

def encodeDnsName (name : String) : Buffer :=
  ((split '.' name).filter (· ≠ [])).flatMap encodeLabel ++ [0]

def buildDnsQuery (id : UInt16) (name : String) (qtype : UInt16) : Buffer :=
  (writeUInt16BE id ++ writeUInt16BE 0x0100 ++ writeUInt16BE 1 ++ [0, 0, 0, 0, 0, 0]) ++
    (encodeDnsName name ++ (writeUInt16BE qtype ++ writeUInt16BE 1))

end Queries

section Names

/-- The two high bits of a length byte mark a compression pointer. -/
def isPointer (len : UInt8) : Bool := len &&& 0xc0 = 0xc0

/-- The loop of skipDnsName. The offset grows with each pass, so the length
of the buffer is fuel enough. -/
def skipFrom (buf : Buffer) : Nat → Nat → Nat
  | 0, offset => offset
  | fuel + 1, offset =>
    match buf[offset]? with
    | none => offset
    | some len =>
      if len = 0 then offset + 1
      else if isPointer len then offset + 2
      else skipFrom buf fuel (offset + 1 + len.toNat)

def skipDnsName (buf : Buffer) (offset : Nat) : Nat := skipFrom buf buf.length offset

def pointerTarget (buf : Buffer) (pos : Nat) (len : UInt8) : Nat :=
  ((len.toNat &&& 0x3f) <<< 8) ||| (buf[pos + 1]?.elim 0 UInt8.toNat)

/-- The loop of readDnsName. Each pass sees another position of the buffer, so
its length is fuel enough. -/
def readFrom (buf : Buffer) : Nat → List Nat → Nat → List Buffer
  | 0, _, _ => []
  | fuel + 1, seen, pos =>
    match buf[pos]? with
    | none => []
    | some len =>
      if pos ∈ seen then []
      else if len = 0 then []
      else if isPointer len then readFrom buf fuel (pos :: seen) (pointerTarget buf pos len)
      else (buf.drop (pos + 1)).take len.toNat :: readFrom buf fuel (pos :: seen) (pos + 1 + len.toNat)

/-- The text of a label; the high bit of a byte is dropped. -/
def ascii (label : Buffer) : List Char := label.map fun b => Char.ofNat (b.toNat % 128)

def nameText (labels : List Buffer) : String := join '.' (labels.map ascii)

def readDnsName (buf : Buffer) (offset : Nat) : String := nameText (readFrom buf buf.length [] offset)

end Names

section Responses

structure PtrRecord where
  name : String
  ttl : Nat
  deriving DecidableEq

structure ARecord where
  address : String
  family : IpVersion
  deriving DecidableEq

def skipQuestions (buf : Buffer) : Nat → Nat → Nat
  | 0, offset => offset
  | n + 1, offset => skipQuestions buf n (skipDnsName buf offset + 4)

variable {ρ : Type}

/-- What becomes of a record, from its type, its TTL, and the length and
offset of its data. -/
abbrev Reader (ρ : Type) := Nat → Nat → Nat → Nat → Option (List ρ)

/-- The loop over the answer section. -/
def readAnswers (buf : Buffer) (read : Reader ρ) : Nat → Nat → Option (List ρ)
  | 0, _ => some []
  | n + 1, start =>
    if start ≥ buf.length then some []
    else
      let offset := skipDnsName buf start
      if offset + 10 > buf.length then some []
      else do
        let rtype ← readUInt16BE buf offset
        let ttl ← readUInt32BE buf (offset + 4)
        let rdlength ← readUInt16BE buf (offset + 8)
        let found ← read rtype ttl rdlength (offset + 10)
        let rest ← readAnswers buf read n (offset + 10 + rdlength)
        return found ++ rest

/-- The two parsers differ only in what they make of a record. -/
def parseAnswers (buf : Buffer) (read : Reader ρ) : Option (List ρ) :=
  if buf.length < 12 then some []
  else do
    let ancount ← readUInt16BE buf 6
    if ancount = 0 then return []
    let qdcount ← readUInt16BE buf 4
    readAnswers buf read ancount (skipQuestions buf qdcount 12)

def parseDnsResponse (buf : Buffer) : Option (List PtrRecord) :=
  parseAnswers buf fun rtype ttl _ offset =>
    if rtype = 12 ∧ readDnsName buf offset ≠ "" then some [⟨readDnsName buf offset, ttl⟩] else some []

def byteText (buf : Buffer) (i : Nat) : String := buf[i]?.elim "undefined" fun b => toString b.toNat

def dotted (buf : Buffer) (offset : Nat) : String :=
  byteText buf offset ++ "." ++ byteText buf (offset + 1) ++ "." ++ byteText buf (offset + 2) ++ "." ++
    byteText buf (offset + 3)

def groups (buf : Buffer) (offset : Nat) : Option String :=
  ((List.range 8).mapM fun g => readUInt16BE buf (offset + g * 2)).map fun gs =>
    join ':' (gs.map (Nat.toDigits 16))

def parseDnsAResponse (buf : Buffer) (qtype : Nat) (family : IpVersion) : Option (List ARecord) :=
  parseAnswers buf fun rtype _ rdlength offset =>
    if rtype = qtype then
      match family with
      | .v4 => if rdlength = 4 then some [⟨dotted buf offset, .v4⟩] else some []
      | .v6 => if rdlength = 16 then (groups buf offset).map fun address => [⟨address, .v6⟩] else some []
    else some []

end Responses

section Framing

/-- What is written to the socket; a query that is too long throws. -/
def frameQuery (query : Buffer) : Option Buffer :=
  if query.length < 65536 then some (writeUInt16BE (UInt16.ofNat query.length) ++ query) else none

def completeMessage (buf : Buffer) : Option Buffer :=
  match readUInt16BE buf 0 with
  | none => none
  | some msgLen => if buf.length ≥ 2 + msgLen then some ((buf.drop 2).take msgLen) else none

/-- The promise of one query. It settles once, and a socket that is
destroyed emits no more data. -/
structure Exchange where
  chunks : List Buffer := []
  destroyed : Bool := false
  settled : Option (Except Failure Buffer) := none

inductive Signal
  | data (chunk : Buffer)
  | timeout
  | error (e : Failure)
  | close

variable (x : Exchange)

def settle (result : Except Failure Buffer) : Exchange := { x with settled := x.settled.or (some result) }

def signal : Signal → Exchange
  | .data chunk =>
    if x.destroyed then x
    else
      let x := { x with chunks := x.chunks ++ [chunk] }
      match completeMessage x.chunks.flatten with
      | some message => settle { x with destroyed := true } (.ok message)
      | none => x
  | .timeout => settle { x with destroyed := true } (.error (.thrown "DoT query timed out (5s)"))
  | .error e => settle x (.error e)
  | .close =>
    match completeMessage x.chunks.flatten with
    | some message => settle { x with destroyed := true } (.ok message)
    | none =>
      settle { x with destroyed := true } (.error (.thrown "DoT connection closed before complete response"))

/-- What sendTlsQuery comes to on the events of its socket. -/
def sendTlsQuery (signals : List Signal) : Option (Except Failure Buffer) :=
  (signals.foldl signal {}).settled

end Framing

end Polaris.DnsWire
