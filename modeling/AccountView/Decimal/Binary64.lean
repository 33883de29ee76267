namespace AccountView

/-! Finite numbers of the binary format with 53 significant bits, computed exactly: each operation
takes the true result as a fraction and rounds it once, to the nearest number and a half to the even
one. -/

/-- The number `significand * 2 ^ exponent`, with fewer than 54 bits in the significand and no
exponent below -1074. The significand has all 53 bits unless the exponent is the least. -/
structure Magnitude where
  significand : Nat
  exponent : Int
  deriving DecidableEq, Inhabited

namespace Magnitude

def precision : Nat := 53

def minExponent : Int := -1074

def maxExponent : Int := 971

def significandBound : Nat := Nat.pow 2 precision

def leastFull : Nat := Nat.pow 2 (precision - 1)

def zero : Magnitude := ⟨0, minExponent⟩

/-- The quotient to the nearest whole number, a half to the even one. -/
def roundDiv (n d : Nat) : Nat :=
  let q := n / d
  let r := n % d
  if 2 * r < d then q else if d < 2 * r then q + 1 else if q % 2 = 0 then q else q + 1

def twoPow (e : Int) : Nat × Nat := (Nat.pow 2 e.toNat, Nat.pow 2 (-e).toNat)

/-- The nearest number to `n / d`, or nothing if that lies past the largest. -/
def ofRatio? (n d : Nat) : Option Magnitude :=
  if n = 0 then
    some zero
  else
    let guess := max minExponent ((n.log2 : Int) - d.log2 - precision)
    let scaled (e : Int) : Nat × Nat := (n * (twoPow e).2, d * (twoPow e).1)
    let e := if (scaled guess).1 / (scaled guess).2 < significandBound then guess else guess + 1
    let s := roundDiv (scaled e).1 (scaled e).2
    let rounded : Magnitude := if s = significandBound then ⟨leastFull, e + 1⟩ else ⟨s, e⟩
    if rounded.exponent ≤ maxExponent then some rounded else none

def ofNat? (n : Nat) : Option Magnitude := ofRatio? n 1

def mul? (a b : Magnitude) : Option Magnitude :=
  let (up, down) := twoPow (a.exponent + b.exponent)
  ofRatio? (a.significand * b.significand * up) down

def div? (a b : Magnitude) : Option Magnitude :=
  let (up, down) := twoPow (a.exponent - b.exponent)
  ofRatio? (a.significand * up) (b.significand * down)

def maxPowerOfTen : Nat := 308

def tenPow? (k : Nat) : Option Magnitude := ofRatio? (Nat.pow 10 k) 1

/-- The value of `digits * 10 ^ exponent` as it is computed from the nearest number to `digits`: by
one product with a power of ten, by one quotient, or by two quotients when the power is past the
largest. Nothing if the value is past the largest number. -/
def ofDecimal? (digits : Nat) (exponent : Int) : Option Magnitude := do
  let f ← ofNat? digits
  let power := exponent.natAbs
  if power ≤ maxPowerOfTen then
    let p ← tenPow? power
    if 0 ≤ exponent then f.mul? p else f.div? p
  else if f.significand = 0 then
    some zero
  else if 0 ≤ exponent then
    none
  else if power ≤ 2 * maxPowerOfTen then
    let f ← f.div? (← tenPow? maxPowerOfTen)
    f.div? (← tenPow? (power - maxPowerOfTen))
  else
    some zero

end Magnitude

structure Binary64 where
  negative : Bool
  magnitude : Magnitude
  deriving DecidableEq, Inhabited

end AccountView
