/-!
Binary floating point numbers of 64 bits, as sign, exponent and fraction. A finite number is
`± significand · 2 ^ power`. Numbers of one sign are ordered by `magnitude`, which counts the
representable numbers below, so that rounding is rounding to a natural number.
-/

namespace MetaInline

structure Double where
  negative : Bool
  exponent : Fin 2048
  fraction : Fin (Nat.pow 2 52)
deriving DecidableEq

namespace Double

def magnitude (x : Double) : Nat :=
  x.exponent.val * Nat.pow 2 52 + x.fraction.val

def infiniteMagnitude : Nat := 2047 * Nat.pow 2 52

/-- The number with `n` representable magnitudes below its own, infinite from `infiniteMagnitude`
on. -/
def ofMagnitude (negative : Bool) (n : Nat) : Double :=
  let n := min n infiniteMagnitude
  ⟨negative, ⟨n / Nat.pow 2 52, (Nat.div_lt_iff_lt_mul (by decide)).2 <|
    Nat.lt_of_le_of_lt (Nat.min_le_right _ infiniteMagnitude) (by decide)⟩,
    ⟨n % Nat.pow 2 52, Nat.mod_lt _ (by decide)⟩⟩

theorem magnitude_ofMagnitude (s : Bool) {n : Nat} (h : n ≤ infiniteMagnitude) :
    (ofMagnitude s n).magnitude = n := by
  simp only [magnitude, ofMagnitude, Nat.min_eq_left h]
  exact Nat.div_add_mod' n _

def bits (x : Double) : Nat :=
  (if x.negative then Nat.pow 2 63 else 0) + x.magnitude

def isNaN (x : Double) : Bool :=
  x.exponent.val == 2047 && x.fraction.val != 0

def isInfinite (x : Double) : Bool :=
  x.exponent.val == 2047 && x.fraction.val == 0

def isFinite (x : Double) : Bool :=
  x.exponent.val != 2047

def isZero (x : Double) : Bool :=
  x.magnitude == 0

def nan : Double := ⟨false, ⟨2047, by decide⟩, ⟨Nat.pow 2 51, by decide⟩⟩

def infinity (negative : Bool) : Double := ⟨negative, ⟨2047, by decide⟩, ⟨0, by decide⟩⟩

def zero (negative : Bool) : Double := ⟨negative, ⟨0, by decide⟩, ⟨0, by decide⟩⟩

instance : Neg Double := ⟨fun x => { x with negative := !x.negative }⟩

def significand (x : Double) : Nat :=
  if x.exponent.val = 0 then x.fraction.val else Nat.pow 2 52 + x.fraction.val

def power (x : Double) : Int :=
  max x.exponent.val 1 - 1075

def roundDiv (num den : Nat) : Nat :=
  let q := num / den
  let r := num % den
  if 2 * r < den ∨ (2 * r = den ∧ q % 2 = 0) then q else q + 1

theorem roundDiv_near (num : Nat) {den : Nat} (h : 0 < den) :
    2 * (roundDiv num den * den) ≤ 2 * num + den ∧ 2 * num ≤ 2 * (roundDiv num den * den) + den := by
  have hr := Nat.mod_lt num h
  have hq := Nat.div_add_mod' num den
  unfold roundDiv
  dsimp only
  split
  · constructor <;> omega
  · rw [Nat.add_mul, Nat.one_mul]
    constructor <;> omega

theorem roundDiv_even {num den : Nat} (h : 2 * (num % den) = den) : roundDiv num den % 2 = 0 := by
  unfold roundDiv
  dsimp only
  split <;> omega

/-- The power of two in whose multiples `num / den` is rounded: the one that leaves 53 binary
digits, and never less than `2 ^ (-1074)`. Zero has no digits. -/
def roundingPower (num den : Nat) : Int :=
  if num = 0 then -1074 else
  let q : Int := num.log2 - den.log2 - 53
  let q := if num * Nat.pow 2 (-q).toNat < Nat.pow 2 53 * (den * Nat.pow 2 q.toNat) then q
    else q + 1
  max q (-1074)

def nearest (negative : Bool) (num den : Nat) : Double :=
  let q := roundingPower num den
  let m := roundDiv (num * Nat.pow 2 (-q).toNat) (den * Nat.pow 2 q.toNat)
  ofMagnitude negative ((q + 1074).toNat * Nat.pow 2 52 + m)

def ofNat (n : Nat) : Double :=
  nearest false n 1

end Double
end MetaInline
