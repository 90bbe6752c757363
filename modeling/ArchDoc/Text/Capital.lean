/-!
# Capital letters

The characters with the derived property `Uppercase`, and the full lower case of each. Both come
from one table of runs: a run is an arithmetic progression of capitals whose lower case lies at
one constant distance. The single capital whose lower case takes two characters, the dotted
capital I (U+0130), stands beside the table.

Main definitions:

* `capitalRuns`: the table, in the order of code points.
* `isCapital`: the property `Uppercase`.
* `lowercase`: the full lower case of a capital; any other character is its own.
-/

namespace ArchDoc.Text

/-- Capitals `first`, `first + step`, …, `count` of them, with the lower case of each at the
distance `shift`; a capital without lower case has the distance 0. -/
structure CapitalRun where
  first : Nat
  count : Nat
  step : Nat
  shift : Int

/-- Whether the code point `n` belongs to the run. -/
def CapitalRun.covers (r : CapitalRun) (n : Nat) : Bool :=
  r.first ≤ n && n < r.first + r.count * r.step && (n - r.first) % r.step == 0

/-- The capitals of Unicode, except the dotted capital I. -/
def capitalRuns : List CapitalRun :=
  [
    ⟨0x0041, 26, 1, 32⟩, ⟨0x00c0, 23, 1, 32⟩, ⟨0x00d8, 7, 1, 32⟩, ⟨0x0100, 24, 2, 1⟩,
    ⟨0x0132, 3, 2, 1⟩, ⟨0x0139, 8, 2, 1⟩, ⟨0x014a, 23, 2, 1⟩, ⟨0x0178, 1, 1, -121⟩,
    ⟨0x0179, 3, 2, 1⟩, ⟨0x0181, 1, 1, 210⟩, ⟨0x0182, 2, 2, 1⟩, ⟨0x0186, 1, 1, 206⟩,
    ⟨0x0187, 1, 1, 1⟩, ⟨0x0189, 2, 1, 205⟩, ⟨0x018b, 1, 1, 1⟩, ⟨0x018e, 1, 1, 79⟩,
    ⟨0x018f, 1, 1, 202⟩, ⟨0x0190, 1, 1, 203⟩, ⟨0x0191, 1, 1, 1⟩, ⟨0x0193, 1, 1, 205⟩,
    ⟨0x0194, 1, 1, 207⟩, ⟨0x0196, 1, 1, 211⟩, ⟨0x0197, 1, 1, 209⟩, ⟨0x0198, 1, 1, 1⟩,
    ⟨0x019c, 1, 1, 211⟩, ⟨0x019d, 1, 1, 213⟩, ⟨0x019f, 1, 1, 214⟩, ⟨0x01a0, 3, 2, 1⟩,
    ⟨0x01a6, 1, 1, 218⟩, ⟨0x01a7, 1, 1, 1⟩, ⟨0x01a9, 1, 1, 218⟩, ⟨0x01ac, 1, 1, 1⟩,
    ⟨0x01ae, 1, 1, 218⟩, ⟨0x01af, 1, 1, 1⟩, ⟨0x01b1, 2, 1, 217⟩, ⟨0x01b3, 2, 2, 1⟩,
    ⟨0x01b7, 1, 1, 219⟩, ⟨0x01b8, 1, 1, 1⟩, ⟨0x01bc, 1, 1, 1⟩, ⟨0x01c4, 1, 1, 2⟩,
    ⟨0x01c7, 1, 1, 2⟩, ⟨0x01ca, 1, 1, 2⟩, ⟨0x01cd, 8, 2, 1⟩, ⟨0x01de, 9, 2, 1⟩, ⟨0x01f1, 1, 1, 2⟩,
    ⟨0x01f4, 1, 1, 1⟩, ⟨0x01f6, 1, 1, -97⟩, ⟨0x01f7, 1, 1, -56⟩, ⟨0x01f8, 20, 2, 1⟩,
    ⟨0x0220, 1, 1, -130⟩, ⟨0x0222, 9, 2, 1⟩, ⟨0x023a, 1, 1, 10795⟩, ⟨0x023b, 1, 1, 1⟩,
    ⟨0x023d, 1, 1, -163⟩, ⟨0x023e, 1, 1, 10792⟩, ⟨0x0241, 1, 1, 1⟩, ⟨0x0243, 1, 1, -195⟩,
    ⟨0x0244, 1, 1, 69⟩, ⟨0x0245, 1, 1, 71⟩, ⟨0x0246, 5, 2, 1⟩, ⟨0x0370, 2, 2, 1⟩,
    ⟨0x0376, 1, 1, 1⟩, ⟨0x037f, 1, 1, 116⟩, ⟨0x0386, 1, 1, 38⟩, ⟨0x0388, 3, 1, 37⟩,
    ⟨0x038c, 1, 1, 64⟩, ⟨0x038e, 2, 1, 63⟩, ⟨0x0391, 17, 1, 32⟩, ⟨0x03a3, 9, 1, 32⟩,
    ⟨0x03cf, 1, 1, 8⟩, ⟨0x03d2, 3, 1, 0⟩, ⟨0x03d8, 12, 2, 1⟩, ⟨0x03f4, 1, 1, -60⟩,
    ⟨0x03f7, 1, 1, 1⟩, ⟨0x03f9, 1, 1, -7⟩, ⟨0x03fa, 1, 1, 1⟩, ⟨0x03fd, 3, 1, -130⟩,
    ⟨0x0400, 16, 1, 80⟩, ⟨0x0410, 32, 1, 32⟩, ⟨0x0460, 17, 2, 1⟩, ⟨0x048a, 27, 2, 1⟩,
    ⟨0x04c0, 1, 1, 15⟩, ⟨0x04c1, 7, 2, 1⟩, ⟨0x04d0, 48, 2, 1⟩, ⟨0x0531, 38, 1, 48⟩,
    ⟨0x10a0, 38, 1, 7264⟩, ⟨0x10c7, 1, 1, 7264⟩, ⟨0x10cd, 1, 1, 7264⟩, ⟨0x13a0, 80, 1, 38864⟩,
    ⟨0x13f0, 6, 1, 8⟩, ⟨0x1c89, 1, 1, 1⟩, ⟨0x1c90, 43, 1, -3008⟩, ⟨0x1cbd, 3, 1, -3008⟩,
    ⟨0x1e00, 75, 2, 1⟩, ⟨0x1e9e, 1, 1, -7615⟩, ⟨0x1ea0, 48, 2, 1⟩, ⟨0x1f08, 8, 1, -8⟩,
    ⟨0x1f18, 6, 1, -8⟩, ⟨0x1f28, 8, 1, -8⟩, ⟨0x1f38, 8, 1, -8⟩, ⟨0x1f48, 6, 1, -8⟩,
    ⟨0x1f59, 4, 2, -8⟩, ⟨0x1f68, 8, 1, -8⟩, ⟨0x1fb8, 2, 1, -8⟩, ⟨0x1fba, 2, 1, -74⟩,
    ⟨0x1fc8, 4, 1, -86⟩, ⟨0x1fd8, 2, 1, -8⟩, ⟨0x1fda, 2, 1, -100⟩, ⟨0x1fe8, 2, 1, -8⟩,
    ⟨0x1fea, 2, 1, -112⟩, ⟨0x1fec, 1, 1, -7⟩, ⟨0x1ff8, 2, 1, -128⟩, ⟨0x1ffa, 2, 1, -126⟩,
    ⟨0x2102, 1, 1, 0⟩, ⟨0x2107, 1, 1, 0⟩, ⟨0x210b, 3, 1, 0⟩, ⟨0x2110, 3, 1, 0⟩, ⟨0x2115, 1, 1, 0⟩,
    ⟨0x2119, 5, 1, 0⟩, ⟨0x2124, 1, 1, 0⟩, ⟨0x2126, 1, 1, -7517⟩, ⟨0x2128, 1, 1, 0⟩,
    ⟨0x212a, 1, 1, -8383⟩, ⟨0x212b, 1, 1, -8262⟩, ⟨0x212c, 2, 1, 0⟩, ⟨0x2130, 2, 1, 0⟩,
    ⟨0x2132, 1, 1, 28⟩, ⟨0x2133, 1, 1, 0⟩, ⟨0x213e, 2, 1, 0⟩, ⟨0x2145, 1, 1, 0⟩,
    ⟨0x2160, 16, 1, 16⟩, ⟨0x2183, 1, 1, 1⟩, ⟨0x24b6, 26, 1, 26⟩, ⟨0x2c00, 48, 1, 48⟩,
    ⟨0x2c60, 1, 1, 1⟩, ⟨0x2c62, 1, 1, -10743⟩, ⟨0x2c63, 1, 1, -3814⟩, ⟨0x2c64, 1, 1, -10727⟩,
    ⟨0x2c67, 3, 2, 1⟩, ⟨0x2c6d, 1, 1, -10780⟩, ⟨0x2c6e, 1, 1, -10749⟩, ⟨0x2c6f, 1, 1, -10783⟩,
    ⟨0x2c70, 1, 1, -10782⟩, ⟨0x2c72, 1, 1, 1⟩, ⟨0x2c75, 1, 1, 1⟩, ⟨0x2c7e, 2, 1, -10815⟩,
    ⟨0x2c80, 50, 2, 1⟩, ⟨0x2ceb, 2, 2, 1⟩, ⟨0x2cf2, 1, 1, 1⟩, ⟨0xa640, 23, 2, 1⟩,
    ⟨0xa680, 14, 2, 1⟩, ⟨0xa722, 7, 2, 1⟩, ⟨0xa732, 31, 2, 1⟩, ⟨0xa779, 2, 2, 1⟩,
    ⟨0xa77d, 1, 1, -35332⟩, ⟨0xa77e, 5, 2, 1⟩, ⟨0xa78b, 1, 1, 1⟩, ⟨0xa78d, 1, 1, -42280⟩,
    ⟨0xa790, 2, 2, 1⟩, ⟨0xa796, 10, 2, 1⟩, ⟨0xa7aa, 1, 1, -42308⟩, ⟨0xa7ab, 1, 1, -42319⟩,
    ⟨0xa7ac, 1, 1, -42315⟩, ⟨0xa7ad, 1, 1, -42305⟩, ⟨0xa7ae, 1, 1, -42308⟩,
    ⟨0xa7b0, 1, 1, -42258⟩, ⟨0xa7b1, 1, 1, -42282⟩, ⟨0xa7b2, 1, 1, -42261⟩, ⟨0xa7b3, 1, 1, 928⟩,
    ⟨0xa7b4, 8, 2, 1⟩, ⟨0xa7c4, 1, 1, -48⟩, ⟨0xa7c5, 1, 1, -42307⟩, ⟨0xa7c6, 1, 1, -35384⟩,
    ⟨0xa7c7, 2, 2, 1⟩, ⟨0xa7cb, 1, 1, -42343⟩, ⟨0xa7cc, 8, 2, 1⟩, ⟨0xa7dc, 1, 1, -42561⟩,
    ⟨0xa7f5, 1, 1, 1⟩, ⟨0xff21, 26, 1, 32⟩, ⟨0x10400, 40, 1, 40⟩, ⟨0x104b0, 36, 1, 40⟩,
    ⟨0x10570, 11, 1, 39⟩, ⟨0x1057c, 15, 1, 39⟩, ⟨0x1058c, 7, 1, 39⟩, ⟨0x10594, 2, 1, 39⟩,
    ⟨0x10c80, 51, 1, 64⟩, ⟨0x10d50, 22, 1, 32⟩, ⟨0x118a0, 32, 1, 32⟩, ⟨0x16e40, 32, 1, 32⟩,
    ⟨0x16ea0, 25, 1, 27⟩, ⟨0x1d400, 26, 1, 0⟩, ⟨0x1d434, 26, 1, 0⟩, ⟨0x1d468, 26, 1, 0⟩,
    ⟨0x1d49c, 2, 2, 0⟩, ⟨0x1d49f, 1, 1, 0⟩, ⟨0x1d4a2, 1, 1, 0⟩, ⟨0x1d4a5, 2, 1, 0⟩,
    ⟨0x1d4a9, 4, 1, 0⟩, ⟨0x1d4ae, 8, 1, 0⟩, ⟨0x1d4d0, 26, 1, 0⟩, ⟨0x1d504, 2, 1, 0⟩,
    ⟨0x1d507, 4, 1, 0⟩, ⟨0x1d50d, 8, 1, 0⟩, ⟨0x1d516, 7, 1, 0⟩, ⟨0x1d538, 2, 1, 0⟩,
    ⟨0x1d53b, 4, 1, 0⟩, ⟨0x1d540, 5, 1, 0⟩, ⟨0x1d546, 1, 1, 0⟩, ⟨0x1d54a, 7, 1, 0⟩,
    ⟨0x1d56c, 26, 1, 0⟩, ⟨0x1d5a0, 26, 1, 0⟩, ⟨0x1d5d4, 26, 1, 0⟩, ⟨0x1d608, 26, 1, 0⟩,
    ⟨0x1d63c, 26, 1, 0⟩, ⟨0x1d670, 26, 1, 0⟩, ⟨0x1d6a8, 25, 1, 0⟩, ⟨0x1d6e2, 25, 1, 0⟩,
    ⟨0x1d71c, 25, 1, 0⟩, ⟨0x1d756, 25, 1, 0⟩, ⟨0x1d790, 25, 1, 0⟩, ⟨0x1d7ca, 1, 1, 0⟩,
    ⟨0x1e900, 34, 1, 34⟩, ⟨0x1f130, 26, 1, 0⟩, ⟨0x1f150, 26, 1, 0⟩, ⟨0x1f170, 26, 1, 0⟩
  ]

/-- The dotted capital I, whose lower case is a dotted small i in two characters. -/
def dottedCapitalI : Char := '\u0130'

/-- Whether a character has the derived property `Uppercase`. -/
def isCapital (c : Char) : Bool :=
  c == dottedCapitalI || capitalRuns.any (·.covers c.toNat)

/-- The full lower case of a capital, and any other character alone. -/
def lowercase (c : Char) : List Char :=
  if c == dottedCapitalI then ['i', '\u0307']
  else
    match capitalRuns.find? (·.covers c.toNat) with
    | some r => [Char.ofNat (c.toNat + r.shift).toNat]
    | none => [c]

end ArchDoc.Text
