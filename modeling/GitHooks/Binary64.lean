/-
**Binary floating point numbers of 64 bits.**

A number is held as its bits: sign, eleven bits of exponent, 52 bits of fraction.  Magnitudes are
reckoned in units of the smallest subnormal number, in which every finite number is a whole one,
so that a quotient of natural numbers is rounded to the nearest number, ties to even, by one
division.

Main definitions:

* `Binary64` — a number by its bits;
* `Binary64.roundRatio` — the magnitude nearest to a quotient;
* `Binary64.ofDecimal` — the magnitude nearest to digits and a power of ten;
* `Binary64.units` — a finite magnitude in units of the smallest one;
* `Binary64.scaleByTens` — a magnitude multiplied or divided by powers of ten, one rounding for
  each step.
-/

import GitHooks.Width

set_option relaxedAutoImplicit false
set_option autoImplicit false

namespace GitHooks

/-- A binary floating point number of 64 bits. -/
structure Binary64 where
  bits : Nat
deriving DecidableEq, Repr, Inhabited

namespace Binary64

/-! ### Particular numbers -/

/-- The magnitude that no finite one reaches. -/
def infinity : Binary64 := ⟨2047 * twoTo 52⟩

/-- A value that is no number. -/
def notANumber : Binary64 := ⟨4095 * twoTo 51⟩

/-- Whether a value is no number. -/
def isNaN (x : Binary64) : Bool := x.bits % twoTo 63 > infinity.bits

/-- A magnitude with a sign; what is no number has none. -/
def withSign (negative : Bool) (x : Binary64) : Binary64 :=
  if negative && !x.isNaN then ⟨twoTo 63 + x.bits⟩ else x

/-! ### Rounding -/

/-- A finite magnitude in units of the smallest subnormal number. -/
def units (x : Binary64) : Nat :=
  if x.bits < twoTo 52 then x.bits
  else (twoTo 52 + x.bits % twoTo 52) * twoTo (x.bits / twoTo 52 - 1)

/-- The quotient rounded to the nearest whole number, ties to even. -/
def divEven (numerator denominator : Nat) : Nat :=
  let quotient := numerator / denominator
  let rest := 2 * (numerator % denominator)
  if rest > denominator ∨ (rest = denominator ∧ quotient % 2 = 1) then quotient + 1 else quotient

/-- The magnitude nearest to a quotient; infinity from half a step beyond the largest finite one. -/
def roundRatio (numerator denominator : Nat) : Binary64 :=
  let scaled := numerator * twoTo 1074
  let exponent := (scaled / denominator).log2 - 52
  let fraction := divEven scaled (denominator * twoTo exponent)
  ⟨min (exponent * twoTo 52 + fraction) infinity.bits⟩

/-- The magnitude nearest to a natural number. -/
def ofNat (n : Nat) : Binary64 := roundRatio n 1

/-- The magnitude nearest to `digits` times a power of ten.  Powers far outside the range are
decided by the number of digits. -/
def ofDecimal (digits : Nat) (exponent : Int) : Binary64 :=
  let magnitude : Int := (Nat.toDigits 10 digits).length + exponent
  if digits = 0 then ⟨0⟩
  else if magnitude > 400 then infinity
  else if magnitude < -400 then ⟨0⟩
  else if 0 ≤ exponent then ofNat (digits * tenTo exponent.toNat)
  else roundRatio digits (tenTo exponent.natAbs)

/-! ### Arithmetic on magnitudes -/

/-- The product of two finite magnitudes. -/
def times (x y : Binary64) : Binary64 := roundRatio (x.units * y.units) (twoTo 1074 * twoTo 1074)

/-- The quotient of two finite magnitudes, the second of which is not zero. -/
def quotient (x y : Binary64) : Binary64 := roundRatio x.units y.units

/-- The largest power of ten that is used as a factor. -/
def maxTens : Nat := 308

/-- The power of ten as a number. -/
def tens (power : Nat) : Binary64 := ofNat (tenTo power)

/-- A magnitude divided by a power of ten, the largest factor first. -/
def overTens (x : Binary64) (power : Nat) : Binary64 :=
  if power ≤ maxTens then x.quotient (tens power)
  else if x.bits = 0 then x
  else overTens (x.quotient (tens maxTens)) (power - maxTens)
termination_by power
decreasing_by simp only [maxTens] at *; omega

/-- A magnitude multiplied by a power of ten, where the result is finite. -/
def timesTens? (x : Binary64) (power : Nat) : Option Binary64 :=
  if power ≤ maxTens then
    let product := x.times (tens power)
    if product = infinity then none else some product
  else if x.bits = 0 then some x
  else none

/-- A magnitude multiplied or divided by a power of ten. -/
def scaleByTens (x : Binary64) : Int → Option Binary64
  | Int.ofNat power => timesTens? x power
  | Int.negSucc power => some (overTens x (power + 1))

end Binary64

end GitHooks
