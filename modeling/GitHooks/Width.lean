/-
**Powers and widths.**

Numbers of a fixed width have bounds that are powers of two; decimal notation has powers of ten.

Main definitions:

* `twoTo`, `tenTo` — powers of two and of ten;
* `fitsSigned` — whether a number fits a width with a sign.
-/

set_option relaxedAutoImplicit false
set_option autoImplicit false

namespace GitHooks

/-- A power of two. -/
def twoTo (n : Nat) : Nat := Nat.pow 2 n

/-- A power of ten. -/
def tenTo (n : Nat) : Nat := Nat.pow 10 n

/-- Whether a number fits so many bits, one of which is the sign. -/
def fitsSigned (bits : Nat) (n : Int) : Bool :=
  -Int.ofNat (twoTo (bits - 1)) ≤ n && n < Int.ofNat (twoTo (bits - 1))

end GitHooks
