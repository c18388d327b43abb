import MarkupOutline.Rounding

/-!
# Numbers of double precision

A number of double precision is a whole number of at most 53 bits times a power of two that is not
below the least one. A quotient becomes the nearest of these numbers; of two that are equally near
it becomes the one that is even.
-/

namespace MarkupOutline

/-- The number `significand * 2 ^ exponent`. -/
structure Binary64 where
  significand : Nat
  exponent : Int
deriving DecidableEq, Repr

namespace Binary64

/-- The least exponent. -/
def leastExponent : Int := -1074

/-- Whether a quotient is below `2 ^ k`. -/
def isBelowPower (n d : Nat) (k : Int) : Bool :=
  n <<< (-k).toNat < d <<< k.toNat

/-- The exponent with which a quotient fills 53 bits, unless that is below the least one. -/
def exponentOf (n d : Nat) : Int :=
  -- the quotient lies between the power before and the power behind `2 ^ k`
  let k : Int := n.log2 - d.log2
  max leastExponent (if isBelowPower n d k then k - 53 else k - 52)

/-- The number nearest to a quotient. -/
def ofRatio (n d : Nat) : Binary64 :=
  let e := exponentOf n d
  ⟨roundHalfEven (n <<< (-e).toNat) (d <<< e.toNat), e⟩

/-- The whole number that a number is, if it is one. -/
def toNat? (b : Binary64) : Option Nat :=
  let one := 1 <<< (-b.exponent).toNat
  if b.significand % one = 0 then some ((b.significand / one) <<< b.exponent.toNat) else none

end Binary64

end MarkupOutline
