import Mathlib
import MetaInline.Literal.Basic
import MetaInline.Literal.Numeric

namespace MetaInline

namespace Double

variable {x : Double}

lemma isNaN_ofMagnitude (negative : Bool) (n : ℕ) : (ofMagnitude negative n).isNaN = false := by
  rw [isNaN, Bool.and_eq_false_iff, beq_eq_false_iff_ne, bne_eq_false_iff_eq]
  have hle : min n infiniteMagnitude ≤ 2047 * 2 ^ 52 := Nat.min_le_right _ _
  have hexponent : (ofMagnitude negative n).exponent.val = min n infiniteMagnitude / 2 ^ 52 := rfl
  have hfraction : (ofMagnitude negative n).fraction.val = min n infiniteMagnitude % 2 ^ 52 := rfl
  rw [hexponent, hfraction]
  omega

lemma isNaN_nearest (negative : Bool) (num den : ℕ) : (nearest negative num den).isNaN = false :=
  isNaN_ofMagnitude negative _

end Double

lemma Decimal.isNaN_toDouble (negative : Bool) (d : Decimal) : (d.toDouble negative).isNaN = false := by
  unfold toDouble
  dsimp only
  split
  · rfl
  · split
    · rfl
    · exact Double.isNaN_nearest negative _ _

lemma Numeric.isNaN_number (raw : List Char) : (number raw).isNaN = false := by
  unfold number
  split
  · split
    · exact Double.isNaN_nearest false _ 1
    · split
      · exact Double.isNaN_nearest false _ 1
      · exact Decimal.isNaN_toDouble false _
  · exact Decimal.isNaN_toDouble false _

namespace Literal

def IsReadable : Literal → Prop
  | .number x => x.isNaN = false
  | .regexp r => r.hasValidFlags = true
  | _ => True

variable {v : Literal}

@[grind ←] lemma isReadable_null : null.IsReadable := trivial

@[grind ←] lemma isReadable_bool (b : Bool) : (bool b).IsReadable := trivial

@[grind ←] lemma isReadable_string (s : String) : (string s).IsReadable := trivial

@[grind ←] lemma isReadable_bigint (n : ℤ) : (bigint n).IsReadable := trivial

end Literal

end MetaInline
