/-!
# Base 64

Bytes written with sixty-four digits: four digits stand for three bytes. In a group that stands
for fewer bytes, equals signs take the place of the digits at its end; such a group need not be
the last one. Bits that stand for nothing may have any value.
-/

namespace PlatformWiring.Text.Base64

/-- The digits, in the order of their values. -/
def digits : List Char :=
  "ABCDEFGHIJKLMNOPQRSTUVWXYZabcdefghijklmnopqrstuvwxyz0123456789+/".toList

/-- The number that digits stand for. -/
def number? (ds : List Char) : Option Nat :=
  ds.foldlM (fun n d => (digits.findIdx? (· == d)).map (64 * n + ·)) 0

/-- The last `n` bytes of a number. -/
def lastBytes : (n : Nat) → Nat → List UInt8
  | 0, _ => []
  | n + 1, value => lastBytes n (value / 256) ++ [value.toUInt8]

/-- The `n` bytes that digits stand for, without the bits behind them. -/
def bytes? (n : Nat) (ds : List Char) : Option (List UInt8) :=
  (number? ds).map fun value => lastBytes n (value / Nat.pow 2 (6 * ds.length - 8 * n))

/-- The bytes that a group of four characters stands for. -/
def group? (a b c d : Char) : Option (List UInt8) :=
  if d ≠ '=' then bytes? 3 [a, b, c, d]
  else if c ≠ '=' then bytes? 2 [a, b, c]
  else bytes? 1 [a, b]

/-- The bytes that a text stands for. -/
def decode : List Char → Option (List UInt8)
  | [] => some []
  | a :: b :: c :: d :: rest =>
    match group? a b c d, decode rest with
    | some first, some others => some (first ++ others)
    | _, _ => none
  | _ => none

end PlatformWiring.Text.Base64
