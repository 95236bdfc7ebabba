import Criterion.Text.Alphanumeric
import Criterion.Text.Blank

/-!
# Environment files

An environment file has one assignment `NAME=value` a line. What the environment has already, and
what an earlier line says, is not replaced. The file is read up to the first line that is wrong. No
value can hold a zero character; a file that would give one to a variable cannot be read at all.

A value may be quoted: between single quotes everything stands for itself, and between double quotes
all but the backslash and the dollar. `$name` and `${name}` stand for the value of another variable.
A name without braces ends at the first character that is no letter or digit of any script, and that
character is taken as it stands, quotes included.
-/

namespace Criterion.Dotenv

abbrev Environment := String → Option String

/-- How far a value has been read. -/
inductive Mode where
  | bare
  | singleQuoted
  | doubleQuoted
  /-- Behind a backslash, between double quotes or not. -/
  | escaped (quoted : Bool)
  /-- In a name behind a dollar, last character first. -/
  | name (reversed : List Char) (quoted : Bool)
  /-- In a name between braces, last character first. -/
  | braced (reversed : List Char) (quoted : Bool)
  /-- Behind the value, where a comment may follow. -/
  | done
deriving DecidableEq, Repr

/-- Outside of names, between double quotes or not. -/
def Mode.text (quoted : Bool) : Mode := if quoted then .doubleQuoted else .bare

def unescape? (c : Char) : Option Char :=
  if c == '\\' || c == '\'' || c == '"' || c == '$' || c == ' ' then some c
  else if c == 'n' then some '\n'
  else none

/-- What is found in the environment under a name. An entry there is a text `name=value`; the one that
begins with the name in question and an equals sign is found. So `a=b` is found in the entry of `a`, if
its value begins with `b=`. -/
def find? (env : Environment) (name : List Char) : Option (List Char) :=
  let holder := String.ofList (name.takeWhile (· != '='))
  match name.dropWhile (· != '=') with
  | [] => (env holder).map String.toList
  | _ :: start => do
    let value := (← env holder).toList
    if (start ++ ['=']).isPrefixOf value then return value.drop (start.length + 1) else none

/-- What a name stands for, last character first; nothing if nothing is found under it. -/
def expansion (env : Environment) (reversed : List Char) : List Char :=
  ((find? env reversed.reverse).getD []).reverse

/-- Reads a value; `taken` is what it is so far, last character first. -/
def value? (env : Environment) : Mode → (taken : List Char) → List Char → Option (List Char)
  | .bare, taken, [] | .done, taken, [] | .escaped false, taken, [] => some taken.reverse
  | .name reversed false, taken, [] => some (expansion env reversed ++ taken).reverse
  -- a quote or a brace is still open
  | _, _, [] => none
  | .done, taken, c :: cs =>
    if c == ' ' || c == '\t' then value? env .done taken cs
    else if c == '#' then some taken.reverse
    else none
  | .escaped quoted, taken, c :: cs =>
    match unescape? c with
    | some d => value? env (.text quoted) (d :: taken) cs
    | none => none
  | .singleQuoted, taken, c :: cs =>
    if c == '\'' then value? env .bare taken cs else value? env .singleQuoted (c :: taken) cs
  | .name reversed quoted, taken, c :: cs =>
    if isAlphanumeric c then value? env (.name (c :: reversed) quoted) taken cs
    else if c == '\x7b' && reversed.isEmpty then value? env (.braced [] quoted) taken cs
    else
      -- the name ends here; but for a dollar, what ends it stands for itself
      let taken := expansion env reversed ++ taken
      if c == '$' then value? env (.name [] quoted) taken cs
      else value? env (.text quoted) (c :: taken) cs
  | .braced reversed quoted, taken, c :: cs =>
    if c == '\x7d' then value? env (.text quoted) (expansion env reversed ++ taken) cs
    else value? env (.braced (c :: reversed) quoted) taken cs
  | .doubleQuoted, taken, c :: cs =>
    if c == '$' then value? env (.name [] true) taken cs
    else if c == '"' then value? env .bare taken cs
    else if c == '\\' then value? env (.escaped true) taken cs
    else value? env .doubleQuoted (c :: taken) cs
  | .bare, taken, c :: cs =>
    if c == '$' then value? env (.name [] false) taken cs
    else if c == '\'' then value? env .singleQuoted taken cs
    else if c == '"' then value? env .doubleQuoted taken cs
    else if c == '\\' then value? env (.escaped false) taken cs
    else if c == ' ' || c == '\t' then value? env .done taken cs
    else value? env .bare (c :: taken) cs

/-- The name at the start of a text, and what follows it. -/
def name? (cs : List Char) : Option (List Char × List Char) :=
  let isInside (c : Char) := c.isAlphanum || c == '_' || c == '.'
  if cs.head?.any fun c => c.isAlpha || c == '_' then
    some (cs.takeWhile isInside, cs.dropWhile isInside)
  else none

/-- Is nothing but a comment left? -/
def isOver (cs : List Char) : Bool := cs.head?.all (· == '#')

/-- What a line says: nothing, or the value of a variable; none if it is wrong. -/
def line? (env : Environment) (line : List Char) : Option (Option (String × String)) :=
  let cs := trimBlanks line
  if isOver cs then some none
  else do
    let (first, rest) ← name? cs
    let rest := rest.dropWhile isBlank
    -- `export` in front of a name is passed over; `export=` sets a variable of that name
    let (name, rest) ←
      if first == "export".toList && rest.head? != some '=' then
        (name? rest).map fun (name, rest) => (name, rest.dropWhile isBlank)
      else some (first, rest)
    match rest with
    | '=' :: rest =>
      let rest := rest.dropWhile isBlank
      let value ← if isOver rest then some [] else value? env .bare [] rest
      return some (String.ofList name, String.ofList value)
    | _ => none

def define (env : Environment) (name value : String) : Environment := fun other =>
  if other = name then some value else env other

/-- The environment after a file has been read, if it can be. -/
def load? (env : Environment) (text : String) : Option Environment :=
  go env ((text.splitOn "\n").map String.toList)
where
  /-- Reads the lines up to the first one that is wrong. -/
  go (env : Environment) : List (List Char) → Option Environment
    | [] => some env
    | line :: rest =>
      match line? env line with
      -- what the lines before a wrong one say still counts
      | none => some env
      | some none => go env rest
      | some (some (name, value)) =>
        if (env name).isSome then go env rest
        else if value.toList.contains '\x00' then none
        else go (define env name value) rest

/-- The names behind the dollars of a text, up to an equals sign. -/
def mentioned : List Char → List String
  | [] => []
  | '$' :: rest =>
    let name := match rest with
      | '\x7b' :: braced => braced.takeWhile fun c => c != '\x7d' && c != '='
      | _ => rest.takeWhile isAlphanumeric
    String.ofList name :: mentioned rest
  | _ :: rest => mentioned rest

end Criterion.Dotenv
