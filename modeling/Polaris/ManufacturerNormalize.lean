import Mathlib.Logic.Function.Basic
import Polaris.Lib.Text

namespace Polaris.ManufacturerNormalize

open Polaris.Lib.Text

/-- The canonical name of an alias, under its trimmed lower-case text. -/
abbrev AliasMap := String → Option String

variable (toLowerCase : String → String)

def setAlias (next : AliasMap) (entry : String × String) : AliasMap :=
  let key := toLowerCase (trim entry.1)
  if key = "" then next else Function.update next key (some entry.2)

def setAliasMap (entries : List (String × String)) : AliasMap :=
  entries.foldl (setAlias toLowerCase) fun _ => none

def normalizeText (aliasMap : Option AliasMap) (trimmed : String) : String :=
  match aliasMap with
  | none => trimmed
  | some map => (map (toLowerCase trimmed)).getD trimmed

def normalizeManufacturer (aliasMap : Option AliasMap) (input : Option String) : Option String :=
  input.bind fun input =>
    if trim input = "" then none else some (normalizeText toLowerCase aliasMap (trim input))

end Polaris.ManufacturerNormalize
