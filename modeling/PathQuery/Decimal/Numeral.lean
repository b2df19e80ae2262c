/-!
# Numerals

Reading a decimal numeral: an optional minus sign, digits without a leading zero, an optional fraction
and an optional power of ten. An integral numeral that fits 64 bits is an integer. Any other one is a
double, found by one scaling: the leading digits, as many as 64 bits hold, are converted and then
multiplied or divided by a power of ten, each step rounded once.
-/

namespace PathQuery.Decimal

/-- A numeral split into its parts, the digits as numbers. -/
structure Numeral where
  negative : Bool
  whole : List Nat
  fraction : List Nat
  power : Option (Bool × List Nat)

def digit? (c : Char) : Option Nat :=
  if c.isDigit then some (c.toNat - '0'.toNat) else none

/-- The digits at the start of a text, and what follows them. -/
def takeDigits : List Char → List Nat × List Char
  | [] => ([], [])
  | c :: rest =>
    match digit? c with
    | none => ([], c :: rest)
    | some d => let (ds, after) := takeDigits rest; (d :: ds, after)

/-- A fraction: a point and at least one digit, or nothing. -/
def takeFraction? : List Char → Option (List Nat × List Char)
  | '.' :: rest =>
    match takeDigits rest with
    | ([], _) => none
    | (ds, after) => some (ds, after)
  | rest => some ([], rest)

/-- A power of ten, to the end of the text: a mark, an optional sign and at least one digit. -/
def takePower? : List Char → Option (Option (Bool × List Nat))
  | [] => some none
  | mark :: rest =>
    if mark = 'e' ∨ mark = 'E' then
      let (negative, rest) := match rest with
        | '-' :: rest => (true, rest)
        | '+' :: rest => (false, rest)
        | rest => (false, rest)
      match takeDigits rest with
      | ([], _) => none
      | (ds, []) => some (some (negative, ds))
      | (_, _ :: _) => none
    else none

def Numeral.ofChars? (text : List Char) : Option Numeral :=
  let (negative, text) := match text with
    | '-' :: rest => (true, rest)
    | text => (false, text)
  match takeDigits text with
  | ([], _) => none
  | (0 :: _ :: _, _) => none
  | (whole, rest) =>
    match takeFraction? rest with
    | none => none
    | some (fraction, rest) => (takePower? rest).map fun power => ⟨negative, whole, fraction, power⟩

/-- The number that digits spell. -/
def ofDigits (digits : List Nat) : Nat :=
  digits.foldl (fun n d => 10 * n + d) 0

/-- The greatest number of 64 bits. -/
def maxWord : Nat := UInt64.size - 1

/-- Leading digits as far as 64 bits hold them, with the count of digits that were left out. -/
def leadingWhole (n : Nat) : List Nat → Nat × Nat
  | [] => (n, 0)
  | d :: ds =>
    if 10 * n + d ≤ maxWord then leadingWhole (10 * n + d) ds else (n, (d :: ds).length)

/-- Further digits behind the point as far as 64 bits hold them, with their count. -/
def leadingFraction (n : Nat) : List Nat → Nat × Nat
  | [] => (n, 0)
  | d :: ds =>
    if 10 * n + d ≤ maxWord then
      let (m, count) := leadingFraction (10 * n + d) ds
      (m, count + 1)
    else (n, 0)

/-- The double nearest to `10 ^ k`, for `k` up to 308. -/
def tenTo (k : Nat) : Float :=
  Float.ofScientific 1 false k

/-- Division by `10 ^ k`, in steps of at most 308 powers. -/
def scaleDown (x : Float) (k : Nat) : Float :=
  if k ≤ 308 then x / tenTo k
  else if x == 0 then x
  else scaleDown (x / tenTo 308) (k - 308)
termination_by k

/-- `n · 10 ^ k`, or nothing beyond the range of doubles. -/
def scaled? (n : Nat) (k : Int) : Option Float :=
  let x := n.toUInt64.toFloat
  if k < 0 then some (scaleDown x (-k).toNat)
  else if k ≤ 308 then
    let y := x * tenTo k.toNat
    if y.isInf then none else some y
  else if x == 0 then some x
  else none

/-- Powers of ten from this one on are beyond every double, whatever the digits. -/
def maxPower : Nat := Nat.pow 2 31 - 1

def Numeral.toFloat? (n : Numeral) : Option Float :=
  let (lead, skipped) := leadingWhole 0 n.whole
  let (lead, places) := leadingFraction lead n.fraction
  let shift : Int := (skipped : Int) - places
  let size := match n.power with
    | none => scaled? lead shift
    | some (negative, digits) =>
      let power := ofDigits digits
      if maxPower < power then if lead ≠ 0 ∧ ¬negative then none else some 0
      else scaled? lead (if negative then shift - power else shift + power)
  size.map fun x => if n.negative then -x else x

/-- An integer that fits 64 bits, without a sign or with one; minus zero is none of them. -/
def Numeral.toInt? (n : Numeral) : Option Int :=
  let size := ofDigits n.whole
  if n.fraction ≠ [] ∨ n.power.isSome then none
  else if n.negative then if 0 < size ∧ size ≤ Nat.pow 2 63 then some (-(size : Int)) else none
  else if size ≤ maxWord then some size
  else none

end PathQuery.Decimal
