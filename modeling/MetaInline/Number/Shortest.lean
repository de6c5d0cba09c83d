import MetaInline.Number.Decimal

namespace MetaInline.Double

/-- A finite positive double as `value / unit` between its two rounding limits `low / unit` and
`high / unit`; the limits themselves round to it iff its significand is even. -/
structure Bracket where
  low : Nat
  value : Nat
  high : Nat
  unit : Nat
  closed : Bool

def bracket (x : Double) : Bracket :=
  let m := x.significand
  let scale := Nat.pow 2 x.power.toNat
  let below := if x.fraction.val = 0 ∧ 1 < x.exponent.val then 1 else 2
  ⟨(4 * m - below) * scale, 4 * m * scale, (4 * m + 2) * scale, 4 * Nat.pow 2 (-x.power).toNat,
    m % 2 = 0⟩

namespace Bracket

def admits (b : Bracket) (num den : Nat) : Bool :=
  if b.closed then b.low * den ≤ num * b.unit && num * b.unit ≤ b.high * den
  else b.low * den < num * b.unit && num * b.unit < b.high * den

def decimalSize (b : Bracket) : Int :=
  let guess : Int := ((b.value.log2 : Int) - b.unit.log2 - 1) * 30103 / 100000
  let covers (k : Int) : Bool := b.value * Nat.pow 10 (-k).toNat < b.unit * Nat.pow 10 k.toNat
  ([guess - 1, guess, guess + 1, guess + 2].find? covers).getD (guess + 3)

/-- The decimal with exponent `e` that rounds to the number and is nearest to it, if there is one.
Of two equally near it is the greater one if `tiesUp`, else the one with even coefficient. -/
def onGrid? (b : Bracket) (tiesUp : Bool) (e : Int) : Option Decimal :=
  let up := Nat.pow 10 e.toNat
  let down := Nat.pow 10 (-e).toNat
  let c := b.value * down / (b.unit * up)
  let lower := b.admits (c * up) down
  let upper := b.admits ((c + 1) * up) down
  if lower ∧ upper then
    let twice := 2 * (b.value * down)
    let middle := (2 * c + 1) * (b.unit * up)
    if twice < middle ∨ (twice = middle ∧ !tiesUp ∧ c % 2 = 0) then some ⟨c, e⟩
    else some ⟨c + 1, e⟩
  else if lower then some ⟨c, e⟩
  else if upper then some ⟨c + 1, e⟩
  else none

end Bracket

/-- The first grid is that of the power of ten above the number, which may round to it. Seventeen
digits always suffice. -/
def shortest (x : Double) (tiesUp : Bool) : Decimal :=
  let b := x.bracket
  let size := b.decimalSize
  ((List.range 18).findSome? fun (n : Nat) => b.onGrid? tiesUp (size - n)).getD
    ⟨x.significand, x.power⟩

end MetaInline.Double
