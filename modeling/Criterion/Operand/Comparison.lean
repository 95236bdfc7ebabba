import Criterion.Operator
import Criterion.Operand.Basic

/-!
# Comparing operands

Equality knows null and the blank mark. An ordering is decided by what stands on its left: a text is
compared with the text of the other side, a decimal with the number that the other side can be read
as. Where that cannot be done, none of the four orderings holds. The logical operators accept truth
values alone.
-/

namespace Criterion

/-- The order of two texts, by their characters' code points. -/
def orderTexts (s t : String) : Ordering := compareOfLessAndEq s t

namespace Operand

/-- The equality that `==` tests. -/
def equals : Operand → Operand → Bool
  -- on the left null equals null and the mark alone, and no text however blank
  | null, blank => true
  | null, other => other == null
  | other, blank => other.isBlank
  | blank, other => other.isBlank
  | a, b => a.same b

def order? (left right : Operand) : Option Ordering :=
  match right with
  -- nothing is ordered with null, whatever stands on its left
  | null => none
  | _ =>
    match left with
    | text s => some (orderTexts s right.toText)
    | decimal d => right.toDecimal?.map d.order
    | _ => none

/-- Joins two truth values; with anything else the result is false. -/
def joinTruth (join : Bool → Bool → Bool) (left right : Operand) : Bool :=
  match left, right with
  | bool a, bool b => join a b
  | _, _ => false

end Operand

/-- What an operator says of two operands. -/
def Operator.apply (op : Operator) (left right : Operand) : Bool :=
  match op with
  | eq => left.equals right
  | ne => !left.equals right
  | gt => (left.order? right).any Ordering.isGT
  | ge => (left.order? right).any Ordering.isGE
  | lt => (left.order? right).any Ordering.isLT
  | le => (left.order? right).any Ordering.isLE
  | and => Operand.joinTruth (· && ·) left right
  | or => Operand.joinTruth (· || ·) left right

end Criterion
