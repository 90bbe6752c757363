import ArchDoc.Json.Basic

/-!
# The value of a JSON number

A spelling without fraction and exponent stands for an integer if it fits into 64 bits, signed
when it has a minus; `-0` does not, because an integer has no negative zero. Any other spelling
stands for a double, and is refused if the double is infinite.

Main definitions:

* `roundToDouble`: a natural number to 53 significant bits, a half going to the even neighbour.
* `Numeral.tooLarge`: whether the double of a spelling is infinite.
* `Numeral.toJson?`: the value of a spelling.
-/

namespace ArchDoc

/-! ## Digits -/

/-- The value of a decimal digit. -/
def digitValue (c : Char) : Nat :=
  c.toNat - '0'.toNat

/-- The number that decimal digits spell. -/
def digitsValue (ds : List Char) : Nat :=
  ds.foldl (fun n d => 10 * n + digitValue d) 0

/-! ## Doubles -/

/-- A natural number to 53 significant bits, a half going to the even neighbour. -/
def roundToDouble (n : Nat) : Nat :=
  let drop := n.log2 - 52
  if drop = 0 then n
  else
    let kept := n >>> drop
    let rest := n - kept <<< drop
    let half := 1 <<< (drop - 1)
    if half < rest || (rest == half && kept % 2 == 1) then (kept + 1) <<< drop
    else kept <<< drop

/-- The least number whose double is infinite: it lies half way between the greatest double and
the double that would follow it. -/
def infiniteFrom : Nat :=
  1 <<< 1024 - 1 <<< 970

/-- A power of ten. -/
def powerOfTen (n : Nat) : Nat :=
  Nat.pow 10 n

/-- Reads digits into a significand of 64 bits, up to the first one that no longer fits; gives
the significand and the digits left. -/
def significand : Nat → List Char → Nat × List Char
  | n, [] => (n, [])
  | n, d :: ds =>
    let next := 10 * n + digitValue d
    if next < UInt64.size then significand next ds else (n, d :: ds)

namespace Numeral

/-- The exponent that is written. -/
def writtenExponent (n : Numeral) : Int :=
  match n.exponent with
  | none => 0
  | some (negative, ds) => if negative then -(digitsValue ds) else digitsValue ds

/-- Whether the double that a spelling stands for is infinite. The double is the product of the
significand and a power of ten, each rounded, and the product rounded again; digits that do not
fit into the significand only scale it. -/
def tooLarge (n : Numeral) : Bool :=
  let (whole, unread) := significand 0 n.whole
  let (digits, unreadFraction) := significand whole n.fraction
  let scale : Int :=
    n.writtenExponent + unread.length - (n.fraction.length - unreadFraction.length : Nat)
  digits != 0 && 0 ≤ scale &&
    (308 < scale ||
      infiniteFrom ≤ roundToDouble digits * roundToDouble (powerOfTen scale.toNat))

/-- Whether a spelling has neither fraction nor exponent. -/
def isWhole (n : Numeral) : Bool :=
  n.fraction.isEmpty && n.exponent.isNone

/-- The integer that a spelling stands for, if it fits into 64 bits. -/
def integer? (n : Numeral) : Option Int :=
  let m := digitsValue n.whole
  if !n.isWhole then none
  else if n.negative then
    if 0 < m && Int64.minValue.toInt ≤ -m then some (-m) else none
  else if m < UInt64.size then some m
  else none

/-- The value of a spelling; none if it is too large for a double. -/
def toJson? (n : Numeral) : Option Json :=
  match n.integer? with
  | some i => some (.int i)
  | none => if n.tooLarge then none else some (.real n)

end Numeral

end ArchDoc
