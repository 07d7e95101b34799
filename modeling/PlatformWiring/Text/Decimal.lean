/-!
# Decimal text of a binary number

A binary number is written with the fewest significant digits that read back to it, and
among these with the digits nearest to it. The text is positional and always has a decimal
point.
-/

namespace PlatformWiring.Text

/-- The number `digits * 10 ^ exponent`. -/
structure Decimal where
  digits : Nat
  exponent : Int
  deriving DecidableEq, Inhabited, Repr

namespace Decimal

/-- The number as a binary one. -/
def toFloat (d : Decimal) : Float :=
  Float.ofScientific d.digits (decide (d.exponent < 0)) d.exponent.natAbs

/-- The exact value of a finite positive number, as a numerator and a denominator. -/
def ratio (x : Float) : Nat × Nat :=
  let bits := x.toBits.toNat
  let fraction := bits % Nat.pow 2 52
  let scale := bits / Nat.pow 2 52 % Nat.pow 2 11
  let (m, e) := if scale = 0 then (fraction, 1) else (fraction + Nat.pow 2 52, scale)
  if 1075 ≤ e then (m * Nat.pow 2 (e - 1075), 1) else (m, Nat.pow 2 (1075 - e))

/-- The ratio in units of `10 ^ exponent`. -/
def scaled (r : Nat × Nat) (exponent : Int) : Nat × Nat :=
  let power := Nat.pow 10 exponent.natAbs
  if exponent < 0 then (r.1 * power, r.2) else (r.1, r.2 * power)

/-- The exponent of the leading digit, found by counting digits and correcting by one. -/
def leading (r : Nat × Nat) : Int :=
  let size (n : Nat) : Int := (Nat.toDigits 10 n).length
  let guess := size r.1 - size r.2
  let (n, d) := scaled r guess
  if n < d then guess - 1 else guess

/-- The neighbours of the ratio on the grid of `10 ^ exponent`, the nearer one first. -/
def neighbours (r : Nat × Nat) (exponent : Int) : List Decimal :=
  let (n, d) := scaled r exponent
  let below := n / d
  if n % d * 2 ≤ d then [⟨below, exponent⟩, ⟨below + 1, exponent⟩]
  else [⟨below + 1, exponent⟩, ⟨below, exponent⟩]

/-- The shortest number that reads back to a finite positive `x`. The search begins above the
leading digit, since rounding up may carry there. -/
def shortest (x : Float) : Decimal :=
  let r := ratio x
  let top := leading r
  let grids := (List.range 18).map fun (n : Nat) => top + 1 - (n : Int)
  let hits := grids.filterMap fun e => (neighbours r e).find? fun d => d.toFloat == x
  hits.head?.getD ⟨0, 0⟩

/-- The positional text, with a decimal point. -/
def write (d : Decimal) : String :=
  let digits := Nat.toDigits 10 d.digits
  if 0 ≤ d.exponent then
    String.ofList (digits ++ List.replicate d.exponent.natAbs '0' ++ ['.', '0'])
  else
    let places := d.exponent.natAbs
    let padded := List.replicate (places + 1 - digits.length) '0' ++ digits
    let whole := padded.length - places
    String.ofList (padded.take whole ++ '.' :: padded.drop whole)

end Decimal

/-- The decimal text of a finite number. -/
def writeFloat (x : Float) : String :=
  let sign := if x.toBits.toNat / Nat.pow 2 63 = 1 then "-" else ""
  if x == 0.0 then sign ++ "0.0" else sign ++ (Decimal.shortest x.abs).write

end PlatformWiring.Text
