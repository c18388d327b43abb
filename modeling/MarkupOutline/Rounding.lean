/-!
# Rounding quotients

`roundHalfEven` rounds a quotient to the nearest whole number; a quotient halfway between two goes
to the even one.
-/

namespace MarkupOutline

/-- A quotient rounded to the nearest whole number, a half to the even one. -/
def roundHalfEven (n d : Nat) : Nat :=
  let q := n / d
  let r := 2 * (n % d)
  if r < d ∨ r = d ∧ q % 2 = 0 then q else q + 1

/-- The rounded quotient is at most half the divisor away from the exact one. -/
theorem roundHalfEven_near (n : Nat) {d : Nat} (hd : 0 < d) :
    2 * n ≤ 2 * (d * roundHalfEven n d) + d ∧ 2 * (d * roundHalfEven n d) ≤ 2 * n + d := by
  have split := Nat.div_add_mod n d
  have small := Nat.mod_lt n hd
  unfold roundHalfEven
  dsimp only
  split
  · omega
  · rw [Nat.mul_add]
    omega

end MarkupOutline
