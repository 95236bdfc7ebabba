import Criterion.Error
import Criterion.Text.Blank
import Criterion.Yaml.Datum

/-!
# Parameters

Parameters give values to names. They come from a file with a YAML mapping, and from assignments
`name=value` that are put over those of the file, the later over the earlier. The file is the one that
is asked for, or else the one that the environment names.
-/

namespace Criterion

/-- The content of each file that can be read. -/
abbrev Files := String → Option String

def Files.read (files : Files) (path : String) : Except Error String :=
  match files path with
  | some content => .ok content
  | none => .error .unreadable

/-- A value that is given to a name on its own. -/
structure Assignment where
  name : String
  value : Datum
deriving Repr

namespace Assignment

/-- The value that the text behind an equals sign denotes. A blank text stands for itself, and so does
one that is no YAML. -/
def valueOfText (text : String) : Datum :=
  if isBlankText text then .text text else (Datum.ofYaml? text).getD (.text text)

/-- Reads an assignment; its first equals sign counts, and blanks around the name do not. -/
def ofText (text : String) : Except Error Assignment :=
  match text.toList.dropWhile (· != '=') with
  | [] => .error (.configuration (.notAssignment text))
  | _ :: value =>
    let name := trimBlanks (text.toList.takeWhile (· != '='))
    if name.isEmpty then .error (.configuration (.missingName text))
    else .ok ⟨String.ofList name, valueOfText (String.ofList value)⟩

end Assignment

namespace Parameters

def pathVariable : String := "DYNEXPR_PARAMS"

/-- The path of the parameter file: the one asked for, or else that of the environment. -/
def path (asked environment : Option String) : Option String := asked <|> environment

/-- Reads parameters from a YAML text. It must be a mapping; null and a blank text are an empty one. -/
def ofYaml (text : String) : Except Error Fields :=
  if isBlankText text then .ok []
  else
    match Datum.ofYaml? text with
    | none => .error .document
    | some (.object fields) => .ok fields
    | some .null => .ok []
    | some other => .error (.configuration (.notMapping other))

/-- Puts assignments over parameters, one after the other. -/
def assign (fields : Fields) (assignments : List Assignment) : Fields :=
  assignments.foldl (fun fields a => fields.insert a.name a.value) fields

/-- The parameters of a file, or none at all without a file. -/
def ofFile (files : Files) : Option String → Except Error Fields
  | none => .ok []
  | some path => do ofYaml (← files.read path)

/-- The parameters of a file with assignments over them. -/
def load (files : Files) (path : Option String) (assignments : List Assignment) :
    Except Error Fields := do
  let fields ← ofFile files path
  return assign fields assignments

end Parameters

end Criterion
