import Criterion.Datum.Basic

/-!
# JSON text of data

Data is written without spaces, objects in the order of their names. In a text only the quote, the
backslash and the characters below the space are escaped, five of them by a letter.
-/

namespace Criterion

/-- The two lower-case hexadecimal digits of a number below 256. -/
def hexPair (n : Nat) : List Char := [Nat.digitChar (n / 16), Nat.digitChar (n % 16)]

/-- A character inside a quoted text. -/
def escapeChar (c : Char) : List Char :=
  if c = '"' then ['\\', '"']
  else if c = '\\' then ['\\', '\\']
  else if c = '\x08' then ['\\', 'b']
  else if c = '\x0c' then ['\\', 'f']
  else if c = '\n' then ['\\', 'n']
  else if c = '\r' then ['\\', 'r']
  else if c = '\t' then ['\\', 't']
  -- the other control characters have no letter
  else if c.toNat < 0x20 then '\\' :: 'u' :: '0' :: '0' :: hexPair c.toNat
  else [c]

def quoteJson (text : String) : String :=
  "\"" ++ String.ofList (text.toList.flatMap escapeChar) ++ "\""

namespace Datum

mutual

/-- The JSON text of a value. -/
def toJson : Datum → String
  | .null => "null"
  | .bool b => if b then "true" else "false"
  | .number n => n.toText
  | .text s => quoteJson s
  | .list items => "[" ++ ",".intercalate (itemTexts items) ++ "]"
  | .object fields => "\x7b" ++ ",".intercalate (fieldTexts fields) ++ "\x7d"

def itemTexts : List Datum → List String
  | [] => []
  | item :: items => item.toJson :: itemTexts items

/-- The JSON texts of fields, each a quoted name and its value. -/
def fieldTexts : List (String × Datum) → List String
  | [] => []
  | (name, value) :: fields => (quoteJson name ++ ":" ++ value.toJson) :: fieldTexts fields

end

end Datum

end Criterion
