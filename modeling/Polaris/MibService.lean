import Polaris.Cidr
import Polaris.OidRegistry

namespace Polaris.MibService

open Polaris.Lib.Regex Polaris.Lib.Text Polaris.MibParserUtils
open Polaris.Cidr (Failure)
open Polaris.OidRegistry (notBrace wordOrHyphen assignedTo tokens isInteger)

def MAX_BYTES : Nat := 1024 * 1024

structure ParsedMib where
  moduleName : String
  imports : List String
  cleanText : List Char
  deriving DecidableEq

def utf16Units (c : Char) : Nat := if c.toNat < 0x10000 then 1 else 2

def textLength (text : List Char) : Nat := (text.map utf16Units).sum

def isControl (c : Char) : Bool :=
  c != '\t' && c != '\n' && c != '\r' && (c.toNat < 0x20 || c.toNat == 0x7f)

def upperOrHyphen (c : Char) : Bool := c.isUpper || c == '-'

def headRe : Pattern :=
  concat [.group (.seq (.chars Char.isUpper) (many fun c => c.isUpper || c.isDigit || c == '-')),
    some1 isSpace, lit "DEFINITIONS", .star true (.seq (some1 isSpace) (some1 upperOrHyphen)),
    many isSpace, lit "::=", many isSpace, lit "BEGIN"]

def endRe : Pattern := concat [.boundary, lit "END", many isSpace, .finish]

def importsRe : Pattern :=
  concat [.boundary, lit "IMPORTS", .boundary, .group (manyLazy fun _ => true), char ';']

def fromRe : Pattern :=
  concat [.boundary, lit "FROM", some1 isSpace,
    .group (.seq (.chars Char.isAlpha) (many wordOrHyphen))]

def trimChars (cs : List Char) : List Char :=
  ((cs.dropWhile isSpace).reverse.dropWhile isSpace).reverse

def importsOf (stripped : List Char) : List String :=
  match exec importsRe stripped with
  | none => []
  | some m =>
    ((matchAll fromRe (m.groups.headD [])).map fun gs => String.ofList (gs.headD [])).foldl
      (fun seen name => if name ∈ seen then seen else seen ++ [name]) []

def parseMib (raw : List Char) : Except Failure ParsedMib := do
  let text := if raw.head? = some '\ufeff' then raw.tail else raw
  if text = [] then throw (.app 400 "MIB file is empty")
  if MAX_BYTES < textLength text then throw (.app 400 "MIB file exceeds 1048576 bytes")
  if text.any isControl then
    throw (.app 400
      "MIB file contains binary or control characters — only plain ASN.1/SMI text is accepted")
  let stripped := stripComments text
  match exec headRe stripped with
  | none =>
    throw (.app 400
      "MIB file is missing the `<NAME> DEFINITIONS ::= BEGIN` header — not a valid SMI module")
  | some head =>
    if !test endRe (trimChars stripped) then
      throw (.app 400 "MIB file does not end with the `END` token — file may be truncated")
    return ⟨String.ofList (head.groups.headD []), importsOf stripped, text⟩

inductive MibBaseType
  | INTEGER | OCTET_STRING | Counter32 | Counter64 | Gauge32 | TimeTicks | OBJECT_IDENTIFIER
  | IpAddress | BITS | SEQUENCE | SEQUENCE_OF | OTHER
  deriving DecidableEq

inductive MibAccess
  | readOnly | readWrite | readCreate | notAccessible | accessibleForNotify
  deriving DecidableEq

inductive MibStatus
  | current | deprecated | obsolete
  deriving DecidableEq

inductive MibSymbolKind
  | objectType | objectIdentity | notificationType | moduleIdentity
  deriving DecidableEq

structure MibEnumValue where
  label : String
  value : Int
  deriving DecidableEq

structure MibSymbol where
  name : String
  parentName : Option String
  oidIndex : Option Int
  fullOid : Option String
  kind : MibSymbolKind
  syntaxText : Option String
  baseType : MibBaseType
  enumValues : Option (List MibEnumValue)
  access : Option MibAccess
  status : Option MibStatus
  description : Option String
  isTableRow : Bool
  indexNames : Option (List String)
  deriving DecidableEq

structure MibTable where
  name : String
  rowSymbol : String
  columns : List String
  indexNames : List String
  description : Option String
  deriving DecidableEq

structure ParsedMibStructured where
  moduleName : String
  imports : List String
  symbols : List MibSymbol
  tables : List MibTable
  deriving DecidableEq

def ACCESS_VALUES : List (String × MibAccess) :=
  [("read-only", .readOnly), ("read-write", .readWrite), ("read-create", .readCreate),
   ("not-accessible", .notAccessible), ("accessible-for-notify", .accessibleForNotify)]

def STATUS_VALUES : List (String × MibStatus) :=
  [("current", .current), ("deprecated", .deprecated), ("obsolete", .obsolete)]

def DESC_MAX : Nat := 4096

def clauseRe (keyword : String) : Pattern := concat [.boundary, lit keyword, .boundary]

def CLAUSE_END_RE : Pattern :=
  .alt (concat [.boundary, oneOf [lit "MAX-ACCESS", lit "ACCESS", lit "STATUS", lit "DESCRIPTION",
      lit "REFERENCE", lit "INDEX", lit "AUGMENTS", lit "UNITS", lit "DEFVAL"], .boundary])
    (lit "::=")

/-- Runs of white space become single spaces, and the ends are trimmed. -/
def trimWhitespace (cs : List Char) : List Char :=
  [' '].intercalate ((cs.splitOnP isSpace).filter (· ≠ []))

def nonEmpty (cs : List Char) : Option (List Char) := if cs = [] then none else some cs

def extractClause (body : List Char) (keyword : String) : Option (List Char) := do
  let start ← exec (clauseRe keyword) body
  let raw := match exec CLAUSE_END_RE start.rest with
    | some fin => fin.before
    | none => start.rest
  nonEmpty (trimChars raw)

def clauseValue (body : List Char) (keyword : String) : Option (List Char) :=
  (extractClause body keyword).map trimWhitespace

def startsWith (r : Pattern) (text : List Char) : Bool := (matchAt r none text).isSome

def word (text : String) : Pattern := .seq (litAnyCase text) .boundary

def words (first second : String) : Pattern :=
  concat [litAnyCase first, some1 isSpace, litAnyCase second, .boundary]

def baseTypes : List (Pattern × MibBaseType) :=
  [(.seq (litAnyCase "INTEGER") (oneOf [.boundary, .chars isSpace, char '(', char '\x7b']), .INTEGER),
   (.seq (litAnyCase "Integer32") (oneOf [.boundary, .chars isSpace, char '(']), .INTEGER),
   (word "Counter32", .Counter32), (word "Counter64", .Counter64), (word "Gauge32", .Gauge32),
   (word "Unsigned32", .Gauge32), (word "TimeTicks", .TimeTicks), (word "IpAddress", .IpAddress),
   (words "OCTET" "STRING", .OCTET_STRING), (word "DisplayString", .OCTET_STRING),
   (word "MacAddress", .OCTET_STRING), (word "PhysAddress", .OCTET_STRING),
   (words "OBJECT" "IDENTIFIER", .OBJECT_IDENTIFIER), (word "BITS", .BITS)]

def classifyBaseType (syntaxRaw : Option (List Char)) (isTableEntry : Bool) : MibBaseType :=
  match syntaxRaw with
  | none => .OTHER
  | some cs =>
    let s := trimWhitespace cs
    if startsWith (words "SEQUENCE" "OF") s then .SEQUENCE_OF
    else if isTableEntry then .SEQUENCE
    else ((baseTypes.find? fun t => startsWith t.1 s).map (·.2)).getD .OTHER

def bracedRe : Pattern := concat [char '\x7b', .group (some1 notBrace), char '\x7d']

def enumRe : Pattern :=
  concat [.group (.seq (.chars Char.isAlpha) (many fun c => c.isAlphanum || c == '-')),
    many isSpace, char '(', many isSpace, .group (.seq (opt (char '-')) (some1 Char.isDigit)),
    many isSpace, char ')']

def enumValueOf : Groups → Option MibEnumValue
  | [label, value] => (parseInt value).map (⟨String.ofList label, ·⟩)
  | _ => none

def parseEnumValues (syntaxRaw : Option (List Char)) : Option (List MibEnumValue) := do
  let m ← exec bracedRe (← syntaxRaw)
  let out := (matchAll enumRe (m.groups.headD [])).filterMap enumValueOf
  if out = [] then none else some out

def named {α : Type} (values : List (String × α)) (value : Option (List Char)) : Option α := do
  let lc := String.ofList ((trimChars (← value)).map Char.toLower)
  values.lookup lc

def parseAccess (value : Option (List Char)) : Option MibAccess := named ACCESS_VALUES value

def parseStatus (value : Option (List Char)) : Option MibStatus := named STATUS_VALUES value

/-- A string up to its closing quote, where two quotes in a row stand for
one. -/
def quotedText : List Char → List Char
  | [] => []
  | '"' :: '"' :: cs => '"' :: quotedText cs
  | '"' :: _ => []
  | c :: cs => c :: quotedText cs

def parseDescription (body : List Char) : Option String := do
  let m ← exec (clauseRe "DESCRIPTION") body
  let fromQuote := m.rest.dropWhile (· != '"')
  if fromQuote = [] then none
  let normalized ← nonEmpty (trimWhitespace (quotedText fromQuote.tail))
  return String.ofList (normalized.take DESC_MAX)

def indexRe : Pattern :=
  concat [.boundary, lit "INDEX", many isSpace, char '\x7b', .group (some1 notBrace), char '\x7d']

def impliedRe : Pattern := .seq (litAnyCase "IMPLIED") (some1 isSpace)

def indexName (part : List Char) : List Char :=
  let t := trimChars part
  let bare := match matchAt impliedRe none t with
    | some m => m.rest
    | none => t
  bare.filter fun c => c.isAlphanum || c == '-'

def parseIndexNames (body : List Char) : Option (List String) := do
  let m ← exec indexRe body
  let out := (((m.groups.headD []).splitOn ',').map indexName).filter (· ≠ [])
  if out = [] then none else some (out.map String.ofList)

def OBJECT_DECL_RE : Pattern :=
  concat [.boundary, .group (.seq (.chars Char.isLower) (many wordOrHyphen)), some1 isSpace,
    .group (oneOf [lit "OBJECT-TYPE", lit "OBJECT-IDENTITY", lit "NOTIFICATION-TYPE",
      lit "MODULE-IDENTITY"]),
    .boundary, .group (manyLazy fun _ => true), assignedTo]

def OID_SHORTHAND_RE : Pattern :=
  concat [.boundary, .group (.seq (.chars Char.isLower) (many wordOrHyphen)), some1 isSpace,
    lit "OBJECT", some1 isSpace, lit "IDENTIFIER", many isSpace, assignedTo]

def kindOf (macroName : String) : MibSymbolKind :=
  if macroName = "OBJECT-IDENTITY" then .objectIdentity
  else if macroName = "NOTIFICATION-TYPE" then .notificationType
  else if macroName = "MODULE-IDENTITY" then .moduleIdentity
  else .objectType

def parentOf (oidParts : List String) : Option String :=
  oidParts.head?.filter fun p => p.toList.head?.any Char.isLower

def arc (part : String) : Option Int := if isInteger part then parseInt part.toList else none

def symbolOf : Groups → Option MibSymbol
  | [name, macroName, body, oid] =>
    let oidParts := tokens oid
    let syntaxRaw := extractClause body "SYNTAX"
    let indexNames := parseIndexNames body
    some {
      name := String.ofList name
      parentName := parentOf oidParts
      oidIndex := match oidParts with
        | [part] => arc part
        | _ :: part :: _ => arc part
        | [] => none
      fullOid := none
      kind := kindOf (String.ofList macroName)
      syntaxText := syntaxRaw.map String.ofList
      baseType := classifyBaseType syntaxRaw indexNames.isSome
      enumValues := parseEnumValues syntaxRaw
      access := parseAccess ((clauseValue body "MAX-ACCESS").or (clauseValue body "ACCESS"))
      status := parseStatus (clauseValue body "STATUS")
      description := parseDescription body
      isTableRow := indexNames.isSome
      indexNames := indexNames }
  | _ => none

def shorthandOf : Groups → Option MibSymbol
  | [name, oid] =>
    let oidParts := tokens oid
    some {
      name := String.ofList name
      parentName := parentOf oidParts
      oidIndex := match oidParts with
        | _ :: part :: _ => arc part
        | _ => none
      fullOid := none
      kind := .objectIdentity
      syntaxText := none
      baseType := .OBJECT_IDENTIFIER
      enumValues := none
      access := none
      status := none
      description := none
      isTableRow := false
      indexNames := none }
  | _ => none

/-- A symbol declared again replaces the earlier one in its place. -/
def setSymbol (symbols : List MibSymbol) (s : MibSymbol) : List MibSymbol :=
  if symbols.any (·.name = s.name) then symbols.map fun t => if t.name = s.name then s else t
  else symbols ++ [s]

def addShorthand (symbols : List MibSymbol) (s : MibSymbol) : List MibSymbol :=
  if symbols.any (·.name = s.name) then symbols else symbols ++ [s]

def symbolsByName (stripped : List Char) : List MibSymbol :=
  ((matchAll OID_SHORTHAND_RE stripped).filterMap shorthandOf).foldl addShorthand
    (((matchAll OBJECT_DECL_RE stripped).filterMap symbolOf).foldl setSymbol [])

def seqOfRe : Pattern :=
  concat [litAnyCase "SEQUENCE", some1 isSpace, litAnyCase "OF", some1 isSpace,
    .group (.seq (.chars Char.isAlpha) (many isWord))]

def rowTypeName (s : MibSymbol) : Option String := do
  let m ← matchAt seqOfRe none (← s.syntaxText).toList
  return String.ofList (m.groups.headD [])

def rowOf (symbols : List MibSymbol) (s : MibSymbol) : Option MibSymbol :=
  let children := symbols.filter (·.parentName = some s.name)
  (((rowTypeName s).bind fun t => children.find? (·.syntaxText = some t)).or
    (children.find? (·.indexNames.isSome))).or
    (if children.length = 1 then children.head? else none)

def markRow (row : MibSymbol) : MibSymbol :=
  { row with
    isTableRow := true
    baseType := if row.baseType = .OTHER then .SEQUENCE else row.baseType }

def columnsOf (symbols : List MibSymbol) (row : MibSymbol) : List String :=
  ((symbols.filter (·.parentName = some row.name)).insertionSort
    fun a b => a.oidIndex.getD 0 ≤ b.oidIndex.getD 0).map (·.name)

/-- The visit of one symbol in the search for tables. The row it finds is
marked in the symbols that later visits see. -/
def visit (state : List MibSymbol × List MibTable) (name : String) : List MibSymbol × List MibTable :=
  match state.1.find? (·.name = name) with
  | none => state
  | some s =>
    if s.baseType ≠ .SEQUENCE_OF then state
    else match rowOf state.1 s with
      | none => state
      | some row =>
        (state.1.map fun t => if t.name = row.name then markRow t else t,
          state.2 ++ [⟨s.name, row.name, columnsOf state.1 row, row.indexNames.getD [], s.description⟩])

def parseMibStructured (localeCompare : String → String → Int) (raw : List Char) :
    Except Failure ParsedMibStructured := do
  let head ← parseMib raw
  let declared := symbolsByName (stripComments head.cleanText)
  let (symbols, tables) := (declared.map (·.name)).foldl visit (declared, [])
  return {
    moduleName := head.moduleName
    imports := head.imports
    symbols := symbols.insertionSort fun a b => localeCompare a.name b.name ≤ 0
    tables := tables.insertionSort fun a b => localeCompare a.name b.name ≤ 0 }

end Polaris.MibService
