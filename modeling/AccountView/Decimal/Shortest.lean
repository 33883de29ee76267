import AccountView.Decimal.Binary64

namespace AccountView

/-! The shortest decimal that names a binary number: of all decimals that round to it those with the
fewest digits, and of these the nearest to it. -/

structure ShortDecimal where
  digits : Nat
  exponent : Int
  deriving DecidableEq, Inhabited

namespace Magnitude

/-! The interval of reals that round to a magnitude, in quarters of a unit in its last place. -/

def quarters (m : Magnitude) : Nat := 4 * m.significand

/-- Below the least full significand the neighbours lie half as far away. -/
def lowerQuarters (m : Magnitude) : Nat :=
  if m.significand = leastFull ∧ minExponent < m.exponent then
    4 * m.significand - 1
  else
    4 * m.significand - 2

def upperQuarters (m : Magnitude) : Nat := 4 * m.significand + 2

/-- A half rounds to the even significand, which owns both ends of its interval. -/
def ownsEnds (m : Magnitude) : Bool := m.significand % 2 == 0

def decimalExponent (m : Magnitude) : Int :=
  let (up, down) := twoPow m.exponent
  let whole := m.significand * up / down
  if 0 < whole then
    (Nat.toDigits 10 whole).length - 1
  else
    let inverse := (down + m.significand * up - 1) / (m.significand * up)
    Int.negOfNat (Nat.toDigits 10 (inverse - 1)).length

/-- Scales that bring `d * 10 ^ k` and a count of quarters to one common unit. -/
def scales (m : Magnitude) (k : Int) : Nat × Nat :=
  let (up, down) := twoPow (m.exponent - 2)
  (Nat.pow 10 k.toNat * down, Nat.pow 10 (-k).toNat * up)

/-- Whether `d * 10 ^ k` rounds to the magnitude. -/
def Rounds (m : Magnitude) (k : Int) (d : Nat) : Prop :=
  let (a, b) := m.scales k
  if m.ownsEnds then
    m.lowerQuarters * b ≤ d * a ∧ d * a ≤ m.upperQuarters * b
  else
    m.lowerQuarters * b < d * a ∧ d * a < m.upperQuarters * b

instance (m : Magnitude) (k : Int) (d : Nat) : Decidable (m.Rounds k d) := by
  unfold Rounds
  infer_instance

/-- The multiple of `10 ^ k` that rounds to the magnitude, if one of its two neighbours does. If
both do it is the nearer one, and the even one of two as near. -/
def onGrid? (m : Magnitude) (k : Int) : Option Nat :=
  let (a, b) := m.scales k
  let below := m.quarters * b / a
  let gapBelow := m.quarters * b - below * a
  let gapAbove := (below + 1) * a - m.quarters * b
  if m.Rounds k below then
    if m.Rounds k (below + 1) ∧
        (gapAbove < gapBelow ∨ gapAbove = gapBelow ∧ below % 2 = 1) then
      some (below + 1)
    else
      some below
  else if m.Rounds k (below + 1) then
    some (below + 1)
  else
    none

/-- The first hit on grids of one digit, two digits and so on. Seventeen digits always suffice. -/
def shortest (m : Magnitude) : ShortDecimal :=
  let grids := (List.range 17).map fun (n : Nat) => m.decimalExponent - n
  (grids.findSome? fun k => (m.onGrid? k).map fun d => ⟨d, k⟩).getD ⟨0, 0⟩

end Magnitude

/-- How a decimal is laid out as text. -/
structure DecimalLayout where
  /-- The powers of ten of a first digit that are written without an exponent. -/
  minPositional : Int
  maxPositional : Int

namespace DecimalLayout

/-- Digits without zeros at the end, and the power of ten of the first digit. -/
def normalize (d : ShortDecimal) : List Char × Int :=
  let digits := Nat.toDigits 10 d.digits
  ((digits.reverse.dropWhile (· == '0')).reverse, digits.length - 1 + d.exponent)

def zeros (n : Nat) : List Char := List.replicate n '0'

/-- The text of a decimal above zero. A whole number keeps one zero after its point, and an exponent
always has its sign. -/
def magnitudeText (layout : DecimalLayout) (d : ShortDecimal) : List Char :=
  let (digits, first) := normalize d
  if layout.minPositional ≤ first ∧ first ≤ layout.maxPositional then
    if first < 0 then
      ['0', '.'] ++ zeros (-first - 1).toNat ++ digits
    else
      let whole := first.toNat + 1
      if digits.length ≤ whole then
        digits ++ zeros (whole - digits.length) ++ ['.', '0']
      else
        digits.take whole ++ '.' :: digits.drop whole
  else
    let fraction := if digits.length ≤ 1 then [] else '.' :: digits.drop 1
    digits.take 1 ++ fraction ++ ['e', if first < 0 then '-' else '+'] ++
      Nat.toDigits 10 first.natAbs

def text (layout : DecimalLayout) (x : Binary64) : String :=
  let sign := if x.negative then ['-'] else []
  let body :=
    if x.magnitude.significand = 0 then
      ['0', '.', '0']
    else
      layout.magnitudeText x.magnitude.shortest
  String.ofList (sign ++ body)

end DecimalLayout

end AccountView
