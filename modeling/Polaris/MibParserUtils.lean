import Mathlib.Data.List.Basic

namespace Polaris.MibParserUtils

/-- Where the scan of a module stands: in its code, inside a quoted string
or inside a comment. -/
inductive Scan
  | code
  | quoted
  | comment
  deriving DecidableEq

/-- A blank for each of the UTF-16 units of a character. -/
def blanks (c : Char) : List Char :=
  if c = '\t' then ['\t'] else List.replicate (if c.toNat < 65536 then 1 else 2) ' '

def stripFrom : Scan → List Char → List Char
  | _, [] => []
  | .code, '"' :: cs => '"' :: stripFrom .quoted cs
  | .code, '-' :: '-' :: cs => ' ' :: ' ' :: stripFrom .comment cs
  | .code, c :: cs => c :: stripFrom .code cs
  | .quoted, '"' :: cs => '"' :: stripFrom .code cs
  | .quoted, c :: cs => c :: stripFrom .quoted cs
  | .comment, '\n' :: cs => '\n' :: stripFrom .code cs
  | .comment, '\r' :: cs => '\r' :: stripFrom .code cs
  | .comment, '-' :: '-' :: cs => ' ' :: ' ' :: stripFrom .code cs
  | .comment, c :: cs => blanks c ++ stripFrom .comment cs

/-- Comments become white space of the same length. A `--` inside a quoted
string is kept. -/
def stripComments (text : List Char) : List Char := stripFrom .code text

end Polaris.MibParserUtils
