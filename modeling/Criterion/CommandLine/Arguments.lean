import Criterion.Parameters

/-!
# Command-line arguments

There are three commands: `eval` and `check` take parameters, and `tokens` does not. An option is
written `--name value`, `--name=value`, `-n value`, `-nvalue` or `-n=value`. A value on its own does
not begin with a dash, unless it is a dash and nothing else. Only `--set` may be repeated. No command
takes an argument that is no option.

Arguments are looked at from left to right, and the first of them that is wrong, or asks for help or
for the version, decides.
-/

namespace Criterion

inductive Command where
  | eval (condition : String) (parameters : Option String) (overrides : List Assignment)
  | tokens (condition : String)
  | check (rules : String) (parameters : Option String) (overrides : List Assignment)
deriving Repr

inductive Request where
  | run (command : Command)
  | help
  | version
  | misuse
deriving Repr

namespace CommandLine

/-- The options that take a value. -/
inductive Key where
  | condition | parameters | override | rules
deriving DecidableEq, Repr

namespace Key

/-- The name of an option behind two dashes. -/
def long : Key → String
  | condition => "expr"
  | parameters => "params"
  | override => "set"
  | rules => "rules"

/-- The letter of an option behind one dash. -/
def short : Key → Char
  | condition => 'e'
  | parameters => 'p'
  | override => 's'
  | rules => 'r'

end Key

inductive Verb where
  | eval | tokens | check
deriving DecidableEq, Repr

namespace Verb

def ofName? : String → Option Verb
  | "eval" => some eval
  | "tokens" => some tokens
  | "check" => some check
  | _ => none

def keys : Verb → List Key
  | eval => [.condition, .parameters, .override]
  | tokens => [.condition]
  | check => [.rules, .parameters, .override]

end Verb

/-- The values that options have so far, the overrides last one first. -/
structure Values where
  condition : Option String := none
  parameters : Option String := none
  rules : Option String := none
  overrides : List Assignment := []

namespace Values

/-- A place that is filled once. -/
def fill? (place : Option String) (value : String) : Option (Option String) :=
  if place.isSome then none else some (some value)

/-- Gives an option a value; none if it has one already, or if the value is wrong. -/
def set? (values : Values) (key : Key) (value : String) : Option Values :=
  match key with
  | .condition => do return { values with condition := ← fill? values.condition value }
  | .parameters => do return { values with parameters := ← fill? values.parameters value }
  | .rules => do return { values with rules := ← fill? values.rules value }
  | .override =>
    match Assignment.ofText value with
    | .ok a => some { values with overrides := a :: values.overrides }
    | .error _ => none

/-- The command with these values, if none is missing that it needs. -/
def command? (values : Values) : Verb → Option Command
  -- the last override stands in front, so they are turned round
  | .eval => values.condition.map (.eval · values.parameters values.overrides.reverse)
  | .tokens => values.condition.map .tokens
  | .check => values.rules.map (.check · values.parameters values.overrides.reverse)

end Values

inductive Argument where
  | long (name : String) (value : Option String)
  | short (letter : Char) (more : List Char)
  /-- Two dashes alone: no option follows. -/
  | endOfOptions
  | plain (text : String)
deriving DecidableEq, Repr

/-- The text in front of the first equals sign, and the one behind it if there is one. -/
def splitEquals (cs : List Char) : String × Option String :=
  (String.ofList (cs.takeWhile (· != '=')),
    match cs.dropWhile (· != '=') with
    | [] => none
    | _ :: value => some (String.ofList value))

/-- Tells what an argument is. A dash alone is no option. -/
def Argument.ofText (text : String) : Argument :=
  match text.toList with
  | ['-', '-'] => endOfOptions
  | '-' :: '-' :: name => let (name, value) := splitEquals name; long name value
  | '-' :: letter :: more => short letter more
  | _ => plain text

/-- The value that is attached to a letter, without an equals sign in front. -/
def attached? : List Char → Option String
  | [] => none
  | '=' :: value => some (String.ofList value)
  | value => some (String.ofList value)

/-- The option that an argument names among those of a command, and the value attached to it. -/
def Argument.key? (verb : Verb) : Argument → Option (Key × Option String)
  | long name value => (verb.keys.find? (·.long == name)).map (·, value)
  | short letter more => (verb.keys.find? (·.short == letter)).map (·, attached? more)
  | _ => none

def Argument.asksHelp : Argument → Bool
  | long "help" none | short 'h' _ => true
  | _ => false

def Argument.asksVersion : Argument → Bool
  | long "version" none | short 'V' _ => true
  | _ => false

/-- What the values ask for when no more arguments come. -/
def finish (verb : Verb) (values : Values) : Request :=
  match values.command? verb with
  | some command => .run command
  | none => .misuse

/-- Reads the arguments behind the name of a command; `waiting` is the option whose value comes next. -/
def readOptions (verb : Verb) : (waiting : Option Key) → Values → List String → Request
  | none, values, [] => finish verb values
  | some _, _, [] => .misuse
  | some key, values, arg :: args =>
    match Argument.ofText arg with
    -- what looks like an option is no value
    | .plain value =>
      match values.set? key value with
      | some values => readOptions verb none values args
      | none => .misuse
    | _ => .misuse
  | none, values, arg :: args =>
    let argument := Argument.ofText arg
    if argument.asksHelp then .help
    else if argument = .endOfOptions then
      -- an argument that is no option could follow, but no command takes one
      if args.isEmpty then finish verb values else .misuse
    else
      match argument.key? verb with
      | some (key, some value) =>
        match values.set? key value with
        | some values => readOptions verb none values args
        | none => .misuse
      | some (key, none) => readOptions verb (some key) values args
      | none => .misuse

/-- Reads the arguments behind `help`, which may name one command. -/
def readHelp : List String → Request
  | [] => .help
  | [name] => if (Verb.ofName? name).isSome || name == "help" then .help else .misuse
  | _ => .misuse

def readArguments : List String → Request
  | [] => .misuse
  | arg :: args =>
    match Verb.ofName? arg with
    | some verb => readOptions verb none {} args
    | none =>
      let argument := Argument.ofText arg
      -- `help` and the version can be asked for only where no command is named
      if arg = "help" then readHelp args
      else if argument.asksHelp then .help
      else if argument.asksVersion then .version
      else .misuse

end CommandLine

end Criterion
