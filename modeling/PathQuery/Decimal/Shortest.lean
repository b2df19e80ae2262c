/-!
# Shortest decimals

A double is written with the fewest digits that read back as the same double, and of the decimals
with that many digits with the nearest. The search is exact: the double is a fraction, so are the two
ends of the interval of reals that round to it, and each candidate is compared with them by
cross-multiplication of natural numbers.
-/

namespace PathQuery.Decimal

/-- The decimal `significand · 10 ^ exponent`. -/
structure Scientific where
  significand : Nat
  exponent : Int
  deriving DecidableEq, Repr

/-- A finite positive double as `mantissa · 2 ^ exponent`. `atBoundary` says that the next double below
is half as far away as the next one above. -/
structure Binary where
  mantissa : Nat
  exponent : Int
  atBoundary : Bool

/-- Reads a double from its bits, without the sign. -/
def Binary.ofBits (bits : UInt64) : Binary :=
  let fraction : Nat := bits.toNat % Nat.pow 2 52
  let biased : Nat := bits.toNat / Nat.pow 2 52 % Nat.pow 2 11
  if biased = 0 then ⟨fraction, -1074, false⟩
  else ⟨Nat.pow 2 52 + fraction, (biased : Int) - 1075, fraction = 0 ∧ 1 < biased⟩

/-- A fraction of natural numbers. -/
structure Ratio where
  num : Nat
  den : Nat

/-- `n · 10 ^ k` as a fraction. -/
def Ratio.ofScientific (n : Nat) (k : Int) : Ratio :=
  if 0 ≤ k then ⟨n * Nat.pow 10 k.toNat, 1⟩ else ⟨n, Nat.pow 10 (-k).toNat⟩

/-- `n · 2 ^ k` as a fraction. -/
def Ratio.ofBinary (n : Nat) (k : Int) : Ratio :=
  if 0 ≤ k then ⟨n * Nat.pow 2 k.toNat, 1⟩ else ⟨n, Nat.pow 2 (-k).toNat⟩

def Ratio.le (a b : Ratio) : Bool :=
  a.num * b.den ≤ b.num * a.den

def Ratio.lt (a b : Ratio) : Bool :=
  a.num * b.den < b.num * a.den

/-- The greatest `n` with `n · 10 ^ k ≤ a`. -/
def Ratio.onGrid (a : Ratio) (k : Int) : Nat :=
  if 0 ≤ k then a.num / (a.den * Nat.pow 10 k.toNat) else a.num * Nat.pow 10 (-k).toNat / a.den

/-- The exponent of the leading decimal digit: the greatest `p` with `10 ^ p ≤ a`. The estimate by
binary logarithms is off by one at most. -/
def Ratio.leading (a : Ratio) : Int :=
  let guess := ((a.num.log2 : Int) - a.den.log2) * 30103 / 100000
  if Ratio.le (.ofScientific 1 (guess + 1)) a then guess + 1
  else if Ratio.le (.ofScientific 1 guess) a then guess
  else guess - 1

/-- What is taken when two shortest decimals are equally near. -/
inductive Tie
  | up
  | toEven
  deriving DecidableEq, Repr

/-- The reals that round to a double. The ends belong to it when the mantissa is even. -/
structure Neighbourhood where
  value : Ratio
  low : Ratio
  high : Ratio
  closed : Bool

def Binary.neighbourhood (b : Binary) : Neighbourhood where
  value := .ofBinary (4 * b.mantissa) (b.exponent - 2)
  low := .ofBinary (4 * b.mantissa - if b.atBoundary then 1 else 2) (b.exponent - 2)
  high := .ofBinary (4 * b.mantissa + 2) (b.exponent - 2)
  closed := b.mantissa % 2 = 0

def Neighbourhood.contains (d : Neighbourhood) (a : Ratio) : Bool :=
  if d.closed then d.low.le a && a.le d.high else d.low.lt a && a.lt d.high

/-- Of two decimals next to each other, around the value, the upper one is taken if it is the nearer. -/
def Neighbourhood.preferUpper (d : Neighbourhood) (tie : Tie) (n : Nat) (k : Int) : Bool :=
  let middle := Ratio.ofScientific (10 * n + 5) (k - 1)
  if middle.lt d.value then true
  else if d.value.lt middle then false
  else match tie with
    | .up => true
    | .toEven => n % 2 = 1

/-- The decimal with `places` digits that stands for the value, if there is one. -/
def Neighbourhood.withDigits? (d : Neighbourhood) (tie : Tie) (places : Nat) : Option Scientific :=
  let k := d.value.leading - (places : Int) + 1
  let n := d.value.onGrid k
  let below := d.contains (.ofScientific n k)
  let above := d.contains (.ofScientific (n + 1) k)
  if above && (!below || d.preferUpper tie n k) then some ⟨n + 1, k⟩
  else if below then some ⟨n, k⟩
  else none

/-- Moves zeros at the end of the significand into the exponent. -/
def Scientific.normalize (s : Scientific) : Scientific :=
  if h : s.significand = 0 ∨ s.significand % 10 ≠ 0 then s
  else normalize ⟨s.significand / 10, s.exponent + 1⟩
termination_by s.significand
decreasing_by omega

/-- The shortest decimal of a finite positive double. Seventeen digits always suffice. -/
def shortest (tie : Tie) (x : Float) : Scientific :=
  let d := (Binary.ofBits x.toBits).neighbourhood
  ((List.range' 1 17).findSome? (d.withDigits? tie)).elim ⟨0, 0⟩ Scientific.normalize

end PathQuery.Decimal
