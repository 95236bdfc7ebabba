import Criterion.Datum.Shortest

/-!
# Data

The values that parameters have: null, truth values, numbers, texts, lists, and objects that give
values to names. A number is an integer or a finite binary64 number. The fields of an object are
kept in the order of their names, each name once.
-/

namespace Criterion

/-- A number as data writes it. -/
inductive Number where
  | integer (value : Int)
  | float (value : Binary64)
deriving DecidableEq, Repr

/-- The text of a number: the digits of an integer, the shortest decimal of a float. -/
def Number.toText : Number → String
  | .integer n => toString n
  | .float x => x.toText

/-- A value of a parameter. -/
inductive Datum where
  | null
  | bool (value : Bool)
  | number (value : Number)
  | text (value : String)
  | list (items : List Datum)
  | object (fields : List (String × Datum))
deriving Repr

/-- Named values in the order of their names. -/
abbrev Fields := List (String × Datum)

namespace Fields

/-- Gives a value to a name, in place of the value it may have had. -/
def insert (name : String) (value : Datum) : Fields → Fields
  | [] => [(name, value)]
  | (other, old) :: rest =>
    if name < other then (name, value) :: (other, old) :: rest
    else if name = other then (name, value) :: rest
    else (other, old) :: insert name value rest

def lookup (name : String) : Fields → Option Datum
  | [] => none
  | (other, value) :: rest => if name = other then some value else lookup name rest

theorem lookup_insert_self (name : String) (value : Datum) (fields : Fields) :
    (fields.insert name value).lookup name = some value := by
  induction fields with
  | nil => simp [insert, lookup]
  | cons field rest ih =>
    obtain ⟨other, old⟩ := field
    unfold insert
    split
    · simp [lookup]
    · split
      · simp [lookup]
      · next hne => rw [lookup, if_neg hne, ih]

theorem lookup_insert_of_ne {name other : String} (h : other ≠ name) (value : Datum)
    (fields : Fields) : (fields.insert name value).lookup other = fields.lookup other := by
  induction fields with
  | nil => simp [insert, lookup, h]
  | cons field rest ih =>
    obtain ⟨next, old⟩ := field
    unfold insert
    split
    · rw [lookup, if_neg h]
    · split
      · next heq =>
        subst heq
        rw [lookup, lookup, if_neg h, if_neg h]
      · rw [lookup, lookup, ih]

/-- The fields that a list of assignments makes, each later one over the earlier ones. -/
def ofList (assignments : List (String × Datum)) : Fields :=
  assignments.foldl (fun fields a => insert a.1 a.2 fields) []

end Fields

/-- The value of a name; only objects give values to names. -/
def Datum.lookup (name : String) : Datum → Option Datum
  | .object fields => Fields.lookup name fields
  | _ => none

end Criterion
