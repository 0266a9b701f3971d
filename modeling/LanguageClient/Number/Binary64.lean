/-!
# Binary floating point numbers of 64 bits

A number that is no integer is held as the bits of its binary floating point form: one sign bit,
eleven bits of exponent, fifty-two of fraction.  All arithmetic here is exact, on ratios of natural
numbers, and every result is rounded once.

* `Binary64.ofRatio?` rounds a ratio to the nearest number, a tie to the one with even significand.
* `Binary64.ofDecimal?` reads `significand · 10 ^ exponent`: the significand is rounded first, then
  multiplied or divided by the rounded power of ten.
* `Binary64.shortest` finds the fewest decimal digits that read back as the number, and among those
  the nearest to it; `Binary64.text` lays them out.
-/

namespace LanguageClient

/-- A finite binary floating point number, by its bits. -/
structure Binary64 where
  bits : UInt64
  deriving DecidableEq, Repr

namespace Binary64

/-- Whether the sign bit is set; it is for a negative zero, too. -/
def isNegative (x : Binary64) : Bool :=
  x.bits.toNat ≥ Nat.pow 2 63

def exponentField (x : Binary64) : Nat :=
  x.bits.toNat / Nat.pow 2 52 % 2048

def fraction (x : Binary64) : Nat :=
  x.bits.toNat % Nat.pow 2 52

/-- The significand `m` of the magnitude `m · 2 ^ q`. -/
def significand (x : Binary64) : Nat :=
  if x.exponentField = 0 then x.fraction else x.fraction + Nat.pow 2 52

/-- The exponent `q` of the magnitude `m · 2 ^ q`. -/
def exponent (x : Binary64) : Int :=
  if x.exponentField = 0 then -1074 else x.exponentField - 1075

/-- The ratio `a · 2 ^ q` as numerator and denominator. -/
def scaled (a : Nat) (q : Int) : Nat × Nat :=
  if 0 ≤ q then (a * Nat.pow 2 q.toNat, 1) else (a, Nat.pow 2 (-q).toNat)

def magnitude (x : Binary64) : Nat × Nat :=
  scaled x.significand x.exponent

/-- The number with a given sign, significand and exponent, if the exponent is in range. -/
def ofParts? (negative : Bool) (m : Nat) (q : Int) : Option Binary64 :=
  let sign := if negative then Nat.pow 2 63 else 0
  if m < Nat.pow 2 52 then some ⟨UInt64.ofNat (sign + m)⟩
  else
    let field := (q + 1075).toNat
    if 2047 ≤ field then none
    else some ⟨UInt64.ofNat (sign + field * Nat.pow 2 52 + (m - Nat.pow 2 52))⟩

/-- The quotient of `num` by `den · 2 ^ q`, and what stays of it, as numerator and divisor. -/
def quotientAt (num den : Nat) (q : Int) : Nat × Nat × Nat :=
  let (a, b) := if 0 ≤ q then (num, den * Nat.pow 2 q.toNat) else (num * Nat.pow 2 (-q).toNat, den)
  (a / b, a % b, b)

/-- The number nearest to `num / den`, or nothing when that is out of range. -/
def ofRatio? (negative : Bool) (num den : Nat) : Option Binary64 :=
  if num = 0 then ofParts? negative 0 0
  else
    let q₀ : Int := max ((num.log2 : Int) - den.log2 - 52) (-1074)
    -- the quotient of the logarithms is off by at most one
    let q := if (quotientAt num den q₀).1 < Nat.pow 2 52 ∧ -1074 < q₀ then q₀ - 1 else q₀
    let (m, rest, divisor) := quotientAt num den q
    let up := divisor < 2 * rest ∨ (divisor = 2 * rest ∧ m % 2 = 1)
    let m := if up then m + 1 else m
    if m = Nat.pow 2 53 then ofParts? negative (Nat.pow 2 52) (q + 1) else ofParts? negative m q

/-- The number nearest to a power of ten. -/
def powerOfTen? (k : Nat) : Option Binary64 :=
  ofRatio? false (Nat.pow 10 k) 1

/-- The product with a power of ten of at most `10 ^ 308`, or nothing when it is out of range. -/
def timesPowerOfTen? (x : Binary64) (k : Nat) : Option Binary64 := do
  let p ← powerOfTen? k
  let (a, b) := x.magnitude
  let (c, d) := p.magnitude
  ofRatio? x.isNegative (a * c) (b * d)

/-- The quotient by a power of ten of at most `10 ^ 308`. -/
def overPowerOfTen? (x : Binary64) (k : Nat) : Option Binary64 := do
  let p ← powerOfTen? k
  let (a, b) := x.magnitude
  let (c, d) := p.magnitude
  ofRatio? x.isNegative (a * d) (b * c)

/-- Scales by `10 ^ exponent`, in steps of at most `10 ^ 308`.  Four steps bring every number that
    starts below `2 ^ 64` to zero. -/
def scaleByTen? (x : Binary64) (exponent : Int) : Nat → Option Binary64
  | 0 => some x
  | steps + 1 =>
    if exponent.natAbs ≤ 308 then
      if 0 ≤ exponent then x.timesPowerOfTen? exponent.natAbs
      else x.overPowerOfTen? exponent.natAbs
    else if x.significand = 0 then some x
    else if 0 ≤ exponent then none
    else (x.overPowerOfTen? 308).bind fun y => y.scaleByTen? (exponent + 308) steps

/-- The number read from `significand · 10 ^ exponent`, or nothing when it is out of range. -/
def ofDecimal? (negative : Bool) (significand : Nat) (exponent : Int) : Option Binary64 := do
  let x ← ofRatio? negative significand 1
  x.scaleByTen? exponent 4

/-! ## Decimal text -/

/-- Whether `a / b` lies in the interval of reals that round to the number: half a gap on each
    side, a quarter below a power of two, the ends included when the significand is even. -/
def readsBackFrom (x : Binary64) (a b : Nat) : Bool :=
  let m := x.significand
  let q := x.exponent
  let lowerGap := if m = Nat.pow 2 52 ∧ -1074 < q then 1 else 2
  -- everything in quarters of the last place
  let (ln, ld) := scaled (4 * m - lowerGap) (q - 2)
  let (un, ud) := scaled (4 * m + 2) (q - 2)
  if m % 2 = 0 then ln * b ≤ a * ld && a * ud ≤ un * b
  else ln * b < a * ld && a * ud < un * b

/-- A decimal `digits · 10 ^ exponent`. -/
structure Decimal where
  digits : Nat
  exponent : Int
  deriving DecidableEq, Repr

def Decimal.ratio (d : Decimal) : Nat × Nat :=
  if 0 ≤ d.exponent then (d.digits * Nat.pow 10 d.exponent.toNat, 1)
  else (d.digits, Nat.pow 10 (-d.exponent).toNat)

def digitCount (n : Nat) : Nat :=
  (Nat.toDigits 10 n).length

/-- The neighbours of the magnitude on the grid of multiples of `10 ^ k` that read back, the
    nearer one first and on a tie the even one. -/
def candidate? (x : Binary64) (k : Int) : Option Decimal :=
  let (a, b) := x.magnitude
  let (num, den) := if 0 ≤ k then (a, b * Nat.pow 10 k.toNat) else (a * Nat.pow 10 (-k).toNat, b)
  let below : Decimal := ⟨num / den, k⟩
  let above : Decimal := ⟨num / den + 1, k⟩
  let fits (d : Decimal) := x.readsBackFrom d.ratio.1 d.ratio.2
  let rest := 2 * (num % den)
  let belowFirst := rest < den ∨ (rest = den ∧ num / den % 2 = 0)
  let (first, second) := if belowFirst then (below, above) else (above, below)
  if fits first then some first else if fits second then some second else none

/-- The decimal exponent of the leading digit of a positive magnitude: the greatest `e` with
    `10 ^ e ≤ a / b`. -/
def leadingExponent (a b : Nat) : Int :=
  if b ≤ a then (digitCount (a / b) : Int) - 1
  else
    -- the least `k` with `b ≤ a · 10 ^ k` is one of the two lengths' differences
    let k := digitCount b - digitCount a
    if b ≤ a * Nat.pow 10 k then -(k : Int) else -(k + 1 : Int)

/-- Tries grids from coarse to fine; seventeen digits always read back. -/
def searchGrids (x : Binary64) (lead : Int) (digits : Nat) : Nat → Decimal
  | 0 => ⟨0, 0⟩
  | tries + 1 =>
    match x.candidate? (lead - digits + 1) with
    | some d => d
    | none => x.searchGrids lead (digits + 1) tries

/-- Strikes zeros off the end of a decimal's digits. -/
def Decimal.stripped (d : Decimal) : Nat → Decimal
  | 0 => d
  | n + 1 =>
    if d.digits ≠ 0 ∧ d.digits % 10 = 0 then Decimal.stripped ⟨d.digits / 10, d.exponent + 1⟩ n
    else d

/-- The fewest digits that read back as the magnitude, nearest to it. -/
def shortest (x : Binary64) : Decimal :=
  if x.significand = 0 then ⟨0, 0⟩
  else
    let (a, b) := x.magnitude
    (x.searchGrids (leadingExponent a b) 1 17).stripped 20

/-- Where positional notation ends: decimals with the point within sixteen places to the right of
    the first digit or five places to its left are positional, others have an exponent. -/
def layout (d : Decimal) : String :=
  let digits := Nat.toDigits 10 d.digits
  let n : Int := digits.length
  let point := n + d.exponent
  let zeros (k : Int) := List.replicate k.toNat '0'
  if 0 ≤ d.exponent ∧ point ≤ 16 then
    String.ofList (digits ++ zeros d.exponent ++ ['.', '0'])
  else if 0 < point ∧ point ≤ 16 then
    String.ofList (digits.take point.toNat ++ '.' :: digits.drop point.toNat)
  else if -5 < point ∧ point ≤ 0 then
    String.ofList ('0' :: '.' :: zeros (-point) ++ digits)
  else
    let mantissa := match digits with
      | [] => []
      | [c] => [c]
      | c :: rest => c :: '.' :: rest
    String.ofList mantissa ++ "e" ++ toString (point - 1)

def text (x : Binary64) : String :=
  let body := if x.significand = 0 then "0.0" else layout x.shortest
  if x.isNegative then "-" ++ body else body

end Binary64

end LanguageClient
