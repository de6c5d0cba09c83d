import MetaInline.Number.Double

namespace MetaInline

structure Decimal where
  coefficient : Nat
  exponent : Int
deriving DecidableEq

namespace Decimal

def digitValue (c : Char) : Nat :=
  c.toNat - '0'.toNat

def ofDigits (cs : List Char) : Nat :=
  cs.foldl (fun n c => 10 * n + digitValue c) 0

def digits (n : Nat) : List Char :=
  Nat.toDigits 10 n

/-- Numbers of at least `10 ^ 400` and below `10 ^ (-400)` are beyond the range of doubles. -/
def rangeBound : Int := 400

def toDouble (negative : Bool) (d : Decimal) : Double :=
  let size : Int := (digits d.coefficient).length
  if d.coefficient = 0 ∨ d.exponent + size < -rangeBound then .zero negative
  else if rangeBound < d.exponent + size then .infinity negative
  else .nearest negative (d.coefficient * Nat.pow 10 d.exponent.toNat)
    (Nat.pow 10 (-d.exponent).toNat)

def ofParts (whole fraction : List Char) (exponent : Int) : Decimal :=
  ⟨ofDigits (whole ++ fraction), exponent - fraction.length⟩

end Decimal
end MetaInline
