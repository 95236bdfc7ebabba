/-!
# Powers of two and ten

Scaling by a power whose exponent may be negative is done on the other side of a comparison or of a
quotient. A negative exponent therefore scales by one here.
-/

namespace Criterion

/-- The power of ten; one for a negative exponent. -/
def tenTo (exponent : Int) : Nat := Nat.pow 10 exponent.toNat

/-- The power of two; one for a negative exponent. -/
def twoTo (exponent : Int) : Nat := Nat.pow 2 exponent.toNat

end Criterion
