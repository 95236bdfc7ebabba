import Criterion.CommandLine.Arguments
import Criterion.Dotenv
import Criterion.Rules.Compiled
import Criterion.Rules.Document

/-!
# Answering a call

What a command prints, and how it ends. Nothing is printed by a command that fails; the first step of
it that fails is told. The parameters come first, then the condition or the rules.

Before anything else the environment file is read, if there is one. Where that cannot be done the
call is aborted, whatever its arguments are.
-/

namespace Criterion.CommandLine

def versionLine : String := "dynexpr 0.1.0"

/-- How a call ends: with lines that are printed, with a failure, with help, as a misuse, or before it
has begun. -/
inductive Response where
  | printed (lines : List String)
  | failed (reason : String)
  | help
  | misuse
  | aborted
deriving DecidableEq, Repr

namespace Response

def code : Response → Nat
  | printed _ | help => 0
  | failed _ => 1
  | misuse => 2
  | aborted => 101

def output : Response → String
  | printed lines => String.join (lines.map (· ++ "\n"))
  | _ => ""

/-- The reason of a failure. -/
def reason? : Response → Option String
  | failed reason => some reason
  | _ => none

end Response

def truthText (b : Bool) : String := if b then "true" else "false"

/-- What is told where parameters cannot be loaded. -/
def parametersFailure (path : Option String) : String :=
  "Failed to load parameters from " ++ path.getD "<none>"

def conditionFailure (condition : String) : String := "Failed to parse condition: " ++ condition

def rulesFailure (path : String) : String := "Failed to load rules from " ++ path

/-- What is told of a rule file without rules. -/
def noRulesFailure (path : String) : String := "Rule file " ++ path ++ " contains no rules"

/-- A result, or what is told where there is none. -/
def orElseTell {α : Type} (result : Except Error α) (reason : String) : Except String α :=
  match result with
  | .ok a => .ok a
  | .error _ => .error reason

/-- Loads the parameters of a command. -/
def loadParameters (files : Files) (environment asked : Option String) (overrides : List Assignment) :
    Except String Fields :=
  let path := Parameters.path asked environment
  orElseTell (Parameters.load files path overrides) (parametersFailure path)

def evalCondition (fields : Fields) (condition : String) : Except String (List String) :=
  match Condition.parse condition with
  | .ok c => .ok [truthText (c.holds (some (.object fields)))]
  | .error _ => .error (conditionFailure condition)

/-- Loads the rule set of a file and compiles its rules, of which there must be one. -/
def loadRules (files : Files) (path : String) : Except String CompiledSet := do
  let set ← orElseTell (files.read path >>= RuleSet.ofYaml) (rulesFailure path)
  -- a file without rules is a failure of its own, though it could be compiled
  if set.rules.isEmpty then throw (noRulesFailure path)
  match set.compile with
  | .ok compiled => return compiled
  | .error e => throw (e.message?.getD "")

/-- The line that tells whether a rule holds. -/
def outcomeLine (outcome : Outcome) : String := outcome.name ++ ": " ++ truthText outcome.matched

/-- The lines that a command prints, or why it fails. -/
def perform (files : Files) (environment : Option String) : Command → Except String (List String)
  | .eval condition asked overrides => do
    -- the parameters come first, so their failure is told even of a malformed condition
    let fields ← loadParameters files environment asked overrides
    evalCondition fields condition
  | .tokens condition => .ok ((tokenize condition).map Token.text)
  | .check rules asked overrides => do
    let fields ← loadParameters files environment asked overrides
    let compiled ← loadRules files rules
    return (compiled.evaluate (.object fields)).map outcomeLine

/-- Answers a call with these arguments; `environment` is the parameter file that the environment
names. -/
def respond (files : Files) (environment : Option String) (args : List String) : Response :=
  match readArguments args with
  | .help => .help
  | .version => .printed [versionLine]
  | .misuse => .misuse
  | .run command =>
    match perform files environment command with
    | .ok lines => .printed lines
    | .error reason => .failed reason

def environmentFile : String := ".env"

/-- The environment of a call: the one that it inherits, and what the environment file adds; none where
the call is to be aborted. -/
def environment? (files : Files) (inherited : Dotenv.Environment) : Option Dotenv.Environment :=
  Dotenv.load? inherited ((files environmentFile).getD "")

/-- Answers a call with these arguments in the environment that it inherits. -/
def answer (files : Files) (inherited : Dotenv.Environment) (args : List String) : Response :=
  match environment? files inherited with
  -- the arguments are not looked at
  | none => .aborted
  | some environment => respond files (environment Parameters.pathVariable) args

/-- The files that a call may read besides the environment file. -/
def paths (environment : Option String) (args : List String) : List String :=
  match readArguments args with
  | .run (.eval _ asked _) => (Parameters.path asked environment).toList
  | .run (.check rules asked _) => (Parameters.path asked environment).toList ++ [rules]
  | _ => []

end Criterion.CommandLine
