import PathQuery.Decimal.Shortest
/-!
# Layouts of numbers

How the digits of a double are set: with a decimal point in place, or with a power of ten. A `Layout`
has the decisions that one output format makes.
-/

namespace PathQuery.Decimal

/-- `least ≤ e < bound` are the exponents of the leading digit that are written without a power of
ten; no bounds mean all of them. `pointZero` says that an integral number keeps a `.0`. -/
structure Layout where
  plain : Option (Int × Int)
  pointZero : Bool
  tie : Tie

def digitsOf (s : Scientific) : List Char :=
  Nat.toDigits 10 s.significand

/-- The exponent of the leading digit. -/
def Scientific.leading (s : Scientific) : Int :=
  s.exponent + (digitsOf s).length - 1

/-- Digits with the point in place. -/
def positional (pointZero : Bool) (s : Scientific) : List Char :=
  let digits := digitsOf s
  let whole := s.leading + 1
  if whole ≤ 0 then '0' :: '.' :: (List.replicate (-whole).toNat '0' ++ digits)
  else if digits.length ≤ whole then
    digits ++ List.replicate (whole.toNat - digits.length) '0' ++
      (if pointZero then ['.', '0'] else [])
  else digits.take whole.toNat ++ '.' :: digits.drop whole.toNat

/-- One digit, the others behind a point, and the power of ten with its sign. -/
def scientific (s : Scientific) : List Char :=
  let e := s.leading
  let sign := if e < 0 then '-' else '+'
  let power := 'e' :: sign :: Nat.toDigits 10 e.natAbs
  match digitsOf s with
  | [] => power
  | [d] => d :: power
  | d :: rest => d :: '.' :: (rest ++ power)

/-- The text of a finite double in a layout. -/
def Layout.render (layout : Layout) (x : Float) : String :=
  let sign := if x.toBits.toNat / Nat.pow 2 63 = 1 then ['-'] else []
  let size := x.toBits.toNat % Nat.pow 2 63
  let body :=
    if size = 0 then if layout.pointZero then ['0', '.', '0'] else ['0']
    else
      let s := shortest layout.tie x
      match layout.plain with
      | none => positional layout.pointZero s
      | some (least, bound) =>
        if least ≤ s.leading ∧ s.leading < bound then positional layout.pointZero s
        else scientific s
  String.ofList (sign ++ body)

end PathQuery.Decimal
