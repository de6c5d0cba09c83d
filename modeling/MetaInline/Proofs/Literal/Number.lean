import Mathlib
import MetaInline.Proofs.Number.Shortest
import MetaInline.Proofs.Script.LiteralExpression

namespace MetaInline.Double

open Script Script.Grammar

variable {x : Double}

lemma grid_ten_pow_21 : grid (1091 * 2 ^ 52 + 5 ^ 21 * 2 ^ 4) = 10 ^ 21 := by
  rw [grid_eq ⟨by norm_num, by norm_num⟩]
  norm_num

def leastPositional : Double :=
  nearest false 1 (10 ^ 6)

lemma isNearest_leastPositional : IsNearest (1 / 10 ^ 6) leastPositional := by
  have hpos : 0 < 10 ^ 6 := by norm_num
  have h := isNearest_nearest 1 hpos (by decide)
  rw [Nat.cast_one, Nat.cast_pow, Nat.cast_ofNat] at h
  exact h

lemma isPositional_iff (x : Double) :
    x.isPositional = true ↔ leastPositional.toRat ≤ |x.toRat| ∧ |x.toRat| < 10 ^ 21 := by
  have hround : Rounds ((10 ^ 21 : ℕ) / (1 : ℕ)) (1091 * 2 ^ 52 + 5 ^ 21 * 2 ^ 4) := by
    have hself := Rounds.self (1091 * 2 ^ 52 + 5 ^ 21 * 2 ^ 4)
    rw [grid_ten_pow_21] at hself
    rwa [Nat.cast_one, div_one, Nat.cast_pow, Nat.cast_ofNat]
  have hupper : (nearest false (10 ^ 21) 1).magnitude = 1091 * 2 ^ 52 + 5 ^ 21 * 2 ^ 4 := by
    rw [nearest_eq one_pos hround]
    exact magnitude_ofMagnitude false (by decide)
  have hlower : leastPositional.toRat = grid leastPositional.magnitude := toRat_eq _
  rw [isPositional, Bool.and_eq_true, decide_eq_true_iff, decide_eq_true_iff, hlower, abs_toRat,
    ← grid_ten_pow_21, grid_strictMono.le_iff_le, grid_strictMono.lt_iff_lt, ← hupper]
  rfl

lemma denotes_numeral (negative : Bool) (l : Numeral) :
    Denotes negative l.text (.number (l.decimal.toDouble false))
      (.number (if negative then -(l.decimal.toDouble false) else l.decimal.toDouble false)) := by
  refine ⟨⟨_, lexesTo_numeral l, rfl⟩, fun _ => ?_, fun start stop => ?_⟩
  · obtain ⟨c, cs, hwhole, hc⟩ := l.exists_whole_eq_cons
    exact ⟨c, _, by rw [Numeral.text, hwhole, List.cons_append], hc⟩
  · cases negative <;> rfl

lemma exists_tree (negative : Bool) (l : Numeral) (ctx : Context) (markup : Bool) :
    ∃ t, wholeExpression? ctx markup (signed negative l.text) = some t ∧ t.literal? =
      some (.number (if negative then -(l.decimal.toDouble false) else l.decimal.toDouble false)) := by
  have h := denotes_numeral negative l
  exact ⟨_, (wholeExpression?_signed ctx markup h).1, h.literal?_eq _ _⟩

lemma source_of_isZero (h : x.isZero = true) : x.source = ['0'] :=
  if_pos h

lemma source_of_not_isZero (h : x.isZero = false) : x.source = signed x.negative
    (if x.isPositional then positionalForm (x.shortest true) else exponentForm (x.shortest true)) := by
  rw [source, if_neg (Bool.eq_false_iff.mp h)]
  rfl

lemma exists_numeral_of_not_isZero (hx : x.isFinite = true) (hzero : x.isZero = false) :
    ∃ l : Numeral, x.source = signed x.negative l.text ∧ l.Spells (x.shortest true) ∧
      (l.exponent = none ↔ x.isPositional = true) := by
  have hne := (toDouble_of_isNearest hx hzero (isShortest_shortest hx hzero).isNearest).1
  rw [source_of_not_isZero hzero]
  cases x.isPositional with
  | true =>
    obtain ⟨l, htext, hspells, hexponent⟩ := exists_spells_positionalForm hne
    exact ⟨l, by rw [htext, if_pos rfl], hspells, by simp [hexponent]⟩
  | false =>
    obtain ⟨l, htext, hspells, hexponent⟩ := exists_spells_exponentForm hne
    exact ⟨l, by rw [htext]; rfl, hspells, by simp [hexponent]⟩

def zeroNumeral : Numeral :=
  ⟨['0'], [], none, by simp, isDigits_nil, Or.inl rfl⟩

lemma exists_denotes_source (hx : x.isFinite = true) :
    ∃ l : Numeral, x.source = signed (x.negative && !x.isZero) l.text ∧
      Denotes (x.negative && !x.isZero) l.text (.number (l.decimal.toDouble false))
        (.number (if x.isZero then zero false else x)) := by
  cases hzero : x.isZero with
  | true =>
    refine ⟨zeroNumeral, ?_, ?_⟩
    · rw [Bool.not_true, Bool.and_false]
      exact source_of_isZero hzero
    · rw [Bool.not_true, Bool.and_false]
      exact denotes_numeral false zeroNumeral
  | false =>
    obtain ⟨l, hsource, hspells, -⟩ := exists_numeral_of_not_isZero hx hzero
    have hnearest : IsNearest (withSign x.negative l.value) x :=
      hspells.value_eq ▸ (isShortest_shortest hx hzero).isNearest
    rw [← l.toRat_decimal] at hnearest
    have hdenotes := denotes_numeral x.negative l
    rw [(toDouble_of_isNearest hx hzero hnearest).2] at hdenotes
    refine ⟨l, ?_, ?_⟩
    · rwa [Bool.not_false, Bool.and_true]
    · rwa [Bool.not_false, Bool.and_true]

/-- The text of a finite double is a decimal literal, with a sign if the double is negative and not zero.
What it denotes is rounded to the double, and the double is what is read from it. Zero of either sign is
written as zero. Any other double is written with the digits of the shortest decimal, without exponent from
the double nearest to `10 ^ (-6)` up to `10 ^ 21`. -/
theorem exists_numeral_source (hx : x.isFinite = true) :
    IsNearest (1 / 10 ^ 6) leastPositional ∧
    ∃ l : Numeral, x.source = signed (x.negative && !x.isZero) l.text ∧
      IsNearest (withSign (x.negative && !x.isZero) l.value) x ∧
      (∀ ctx markup, ∃ t, wholeExpression? ctx markup x.source = some t ∧
        t.literal? = some (.number (if x.isZero then zero false else x))) ∧
      (x.isZero = true → l.text = ['0']) ∧
      (x.isZero = false → (l.exponent = none ↔ leastPositional.toRat ≤ |x.toRat| ∧ |x.toRat| < 10 ^ 21) ∧
        ∃ d, IsShortest x d ∧ l.Spells d) := by
  refine ⟨isNearest_leastPositional, ?_⟩
  cases hzero : x.isZero with
  | true =>
    have htext : x.source = signed false zeroNumeral.text := source_of_isZero hzero
    refine ⟨zeroNumeral, by simpa using htext, ?_, fun ctx markup => ?_, fun _ => rfl,
      fun h => absurd h.symm Bool.false_ne_true⟩
    · have hvalue : zeroNumeral.value = 0 := by
        simp [zeroNumeral, Numeral.value, Decimal.ofDigits, Decimal.digitValue]
      simpa [hvalue] using isNearest_zero hx hzero
    · rw [htext]
      exact exists_tree false zeroNumeral ctx markup
  | false =>
    obtain ⟨l, htext, hspells, hexponent⟩ := exists_numeral_of_not_isZero hx hzero
    have hshortest := isShortest_shortest hx hzero
    have hnearest : IsNearest (withSign x.negative l.value) x := hspells.value_eq ▸ hshortest.isNearest
    refine ⟨l, by simpa using htext, by simpa using hnearest, fun ctx markup => ?_,
      fun h => absurd h Bool.false_ne_true,
      fun _ => ⟨hexponent.trans (isPositional_iff x), _, hshortest, hspells⟩⟩
    rw [htext]
    obtain ⟨t, ht, hliteral⟩ := exists_tree x.negative l ctx markup
    rw [← l.toRat_decimal] at hnearest
    exact ⟨t, ht, by rw [hliteral, (toDouble_of_isNearest hx hzero hnearest).2]; rfl⟩

theorem exists_numeral_source_subnormal :
    (⟨true, 0, 1⟩ : Double).isFinite = true ∧ ∃ l : Numeral, "-5e-324".toList = signed true l.text ∧
      IsNearest (-l.value) ⟨true, 0, 1⟩ ∧ l.exponent ≠ none := by
  have hfinite : (⟨true, 0, 1⟩ : Double).isFinite = true := by decide
  have hzero : (⟨true, 0, 1⟩ : Double).isZero = false := by decide
  have hsource : (⟨true, 0, 1⟩ : Double).source = "-5e-324".toList := by decide +kernel
  have hnotation : (⟨true, 0, 1⟩ : Double).isPositional = false := by decide
  obtain ⟨-, l, htext, hnearest, -, -, hdigits⟩ := exists_numeral_source hfinite
  have hexponent := (hdigits hzero).1
  rw [← isPositional_iff, hnotation] at hexponent
  have hsigned : (true && !(⟨true, 0, 1⟩ : Double).isZero) = true := by rw [hzero]; rfl
  rw [hsource, hsigned] at htext
  rw [hsigned] at hnearest
  exact ⟨hfinite, l, htext, hnearest, fun hnone => absurd (hexponent.mp hnone) (by decide)⟩

theorem exponent_source_zero :
    (zero false).isFinite = true ∧
      ¬ (leastPositional.toRat ≤ |(zero false).toRat| ∧ |(zero false).toRat| < 10 ^ 21) ∧
      ∀ negative (l : Numeral), (zero false).source = signed negative l.text → l.exponent = none := by
  refine ⟨by decide, ?_, fun negative l htext => ?_⟩
  · rw [← isPositional_iff]
    decide
  · have htext' : l.text = ['0'] := by
      have hzero : (zero false).isZero = true := by decide
      rw [source_of_isZero hzero] at htext
      cases negative with
      | false => exact htext.symm
      | true => exact absurd (List.cons.inj htext).1 (by decide)
    cases hexponent : l.exponent with
    | none => rfl
    | some e =>
      have hmem : 'e' ∈ l.text := by simp [Numeral.text, hexponent, Numeral.exponentText]
      rw [htext'] at hmem
      exact absurd hmem (by decide)

end MetaInline.Double
