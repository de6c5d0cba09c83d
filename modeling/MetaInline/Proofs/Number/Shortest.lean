import Mathlib
import MetaInline.Number.Shortest
import MetaInline.Proofs.Number.Nearest

/-! The shortest decimal of a double. One grid of decimals after the other is searched, each ten times
finer than the one before, so the first decimal found has the fewest digits of those that are rounded to
the double. Two grid points are next to the double, and of all that are rounded to it one of these is
nearest. -/

namespace MetaInline

def Approximates (v q r : ℚ) : Prop :=
  |v - q| ≤ |v - r| ∧ (|v - r| = |v - q| → r ≤ q)

section Approximates

variable {v p q r : ℚ}

lemma Approximates.trans (hpq : Approximates v p q) (hqr : Approximates v q r) : Approximates v p r := by
  refine ⟨hpq.1.trans hqr.1, fun heq => ?_⟩
  have hq : |v - q| = |v - p| := le_antisymm (hqr.1.trans heq.le) hpq.1
  exact (hqr.2 (heq.trans hq.symm)).trans (hpq.2 hq)

lemma approximates_of_le (hrq : r ≤ q) (hqv : q ≤ v) : Approximates v q r := by
  rw [Approximates, abs_of_nonneg (sub_nonneg.mpr hqv), abs_of_nonneg (sub_nonneg.mpr (hrq.trans hqv))]
  exact ⟨sub_le_sub_left hrq v, fun _ => hrq⟩

lemma approximates_of_ge (hvq : v ≤ q) (hqr : q ≤ r) : Approximates v q r := by
  rw [Approximates, abs_of_nonpos (sub_nonpos.mpr hvq), abs_of_nonpos (sub_nonpos.mpr (hvq.trans hqr))]
  constructor
  · linarith
  · intro heq
    linarith

lemma approximates_of_lt_middle (hqv : q ≤ v) (hvr : v ≤ r) (h : 2 * v < q + r) : Approximates v q r := by
  rw [Approximates, abs_of_nonneg (sub_nonneg.mpr hqv), abs_of_nonpos (sub_nonpos.mpr hvr)]
  constructor
  · linarith
  · intro heq
    linarith

lemma approximates_of_middle_le (hrv : r ≤ v) (hvq : v ≤ q) (h : r + q ≤ 2 * v) : Approximates v q r := by
  rw [Approximates, abs_of_nonneg (sub_nonneg.mpr hrv), abs_of_nonpos (sub_nonpos.mpr hvq)]
  constructor
  · linarith
  · intro _
    linarith

end Approximates

namespace Double

lemma rounds_succ_iff {q : ℚ} {n : ℕ} : Rounds q (n + 1) ↔
    if Even (n + 1) then limit n ≤ q ∧ q ≤ limit (n + 1) else limit n < q ∧ q < limit (n + 1) := by
  constructor
  · intro h
    have hlower := h.lower n rfl
    split_ifs with heven
    · exact ⟨hlower, h.upper⟩
    · refine ⟨lt_of_le_of_ne hlower fun heq => ?_, lt_of_le_of_ne h.upper fun heq => ?_⟩
      · exact heven (h.even (Or.inr ⟨n, rfl, heq.symm⟩))
      · exact heven (h.even (Or.inl heq))
  · intro h
    split_ifs at h with heven
    · exact ⟨fun m hm => (Nat.succ_injective hm) ▸ h.1, h.2, fun _ => heven⟩
    · refine ⟨fun m hm => (Nat.succ_injective hm) ▸ h.1.le, h.2.le, ?_⟩
      rintro (heq | ⟨m, hm, heq⟩)
      · exact absurd heq h.2.ne
      · obtain rfl := Nat.succ_injective hm
        exact absurd heq h.1.ne'

lemma grid_lt_mul_limit_sub (n : ℕ) : grid (n + 1) < 10 ^ 16 * (limit (n + 1) - limit n) := by
  obtain ⟨p, k, hn, hk, hp, -⟩ := exists_digits53 (n + 1)
  obtain ⟨hlower, hupper⟩ := limits_eq hk hp hn.symm
  have hunit : (0 : ℚ) < 2 ^ (p - 1074 : ℤ) := by positivity
  have hk' : (k : ℚ) < 2 ^ 53 := by exact_mod_cast hk
  rw [hlower, hupper, ← sub_mul, hn, grid_eq ⟨hk.le, hp⟩, ← mul_assoc]
  refine mul_lt_mul_of_pos_right ?_ hunit
  split_ifs with h
  · rw [h.1]
    norm_num
  · linarith

namespace Bracket

structure IsAt (b : Bracket) (n : ℕ) : Prop where
  unit_pos : 0 < b.unit
  low : (b.low / b.unit : ℚ) = limit n
  value : (b.value / b.unit : ℚ) = grid (n + 1)
  high : (b.high / b.unit : ℚ) = limit (n + 1)
  closed : b.closed = true ↔ Even (n + 1)

lemma isAt_bracket {x : Double} {n : ℕ} (hn : x.magnitude = n + 1) : x.bracket.IsAt n := by
  have hfraction : x.fraction.val < 2 ^ 52 := x.fraction.isLt
  have hdigits := digits53_significand x
  have hmagnitude := magnitude_eq x
  have hpower : ((max x.exponent.val 1 - 1 : ℕ) - 1074 : ℤ) = x.power := by
    unfold power
    omega
  have hlt : x.significand < 2 ^ 53 := by
    simp only [significand, Nat.pow_eq]
    split_ifs <;> omega
  have hfirst : x.fraction.val = 0 ∧ 1 < x.exponent.val ↔
      x.significand = 2 ^ 52 ∧ max x.exponent.val 1 - 1 ≠ 0 := by
    simp only [significand, Nat.pow_eq]
    split_ifs <;> omega
  have hpos : 0 < x.significand := by
    simp only [significand, Nat.pow_eq] at hmagnitude ⊢
    split_ifs at hmagnitude ⊢ <;> omega
  have hquotient (a : ℕ) : ((a * Nat.pow 2 x.power.toNat : ℕ) : ℚ) / x.bracket.unit =
      a / 4 * 2 ^ x.power := by
    have hpow := zpow_mul_toNat two_pos x.power
    simp only [bracket, Nat.pow_eq]
    push_cast at hpow ⊢
    rw [← hpow]
    field_simp
  obtain ⟨hlow, hhigh⟩ := limits_eq hlt hdigits.2 (hmagnitude.symm.trans hn)
  rw [hpower] at hlow hhigh
  refine ⟨?_, ?_, ?_, ?_, ?_⟩
  · exact Nat.mul_pos (by norm_num) (Nat.pow_pos two_pos)
  · rw [hlow]
    refine (hquotient _).trans (congrArg (· * _) ?_)
    split_ifs with h h' h'
    · rw [Nat.cast_sub (by omega)]
      push_cast
      ring
    · exact absurd (hfirst.mp h) h'
    · exact absurd (hfirst.mpr h') h
    · rw [Nat.cast_sub (by omega)]
      push_cast
      ring
  · rw [← hn, grid_magnitude]
    refine (hquotient _).trans (congrArg (· * _) ?_)
    push_cast
    ring
  · rw [hhigh]
    refine (hquotient _).trans (congrArg (· * _) ?_)
    push_cast
    ring
  · rw [← hn, ← even_significand_iff, Nat.even_iff]
    exact decide_eq_true_iff

variable {b : Bracket} {n : ℕ}

lemma admits_iff (h : b.IsAt n) {num den : ℕ} (hden : 0 < den) :
    b.admits num den = true ↔ Rounds (num / den) (n + 1) := by
  have hunit : (0 : ℚ) < b.unit := by exact_mod_cast h.unit_pos
  have hden' : (0 : ℚ) < den := by exact_mod_cast hden
  have hle (i : ℕ) : (i / b.unit : ℚ) ≤ num / den ↔ i * den ≤ num * b.unit := by
    rw [div_le_div_iff₀ hunit hden']
    exact_mod_cast Iff.rfl
  have hge (i : ℕ) : (num / den : ℚ) ≤ i / b.unit ↔ num * b.unit ≤ i * den := by
    rw [div_le_div_iff₀ hden' hunit]
    exact_mod_cast Iff.rfl
  rw [rounds_succ_iff, ← h.low, ← h.high, ← not_le, ← not_le, hle, hge, hle, hge, admits]
  by_cases hclosed : b.closed = true
  · rw [if_pos hclosed, if_pos (h.closed.mp hclosed)]
    simp
  · rw [if_neg hclosed, if_neg fun heven => hclosed (h.closed.mpr heven)]
    simp

lemma admits_decimal_iff (h : b.IsAt n) (e : ℤ) (c : ℕ) :
    b.admits (c * Nat.pow 10 e.toNat) (Nat.pow 10 (-e).toNat) = true ↔
      Rounds (Decimal.toRat ⟨c, e⟩) (n + 1) := by
  rw [Decimal.toRat_eq_div]
  exact admits_iff h (Nat.pow_pos (by norm_num))

def floor (b : Bracket) (e : ℤ) : ℕ :=
  b.value * 10 ^ (-e).toNat / (b.unit * 10 ^ e.toNat)

lemma floor_le (h : b.IsAt n) (e : ℤ) : Decimal.toRat ⟨b.floor e, e⟩ ≤ grid (n + 1) ∧
    grid (n + 1) < Decimal.toRat ⟨b.floor e + 1, e⟩ := by
  have hlt := div_lt_mul_zpow_iff (b := 10) (by norm_num) e b.value h.unit_pos
  have hpos : 0 < b.unit * 10 ^ e.toNat := Nat.mul_pos h.unit_pos (by positivity)
  rw [← h.value]
  constructor
  · refine not_lt.mp fun h' => ?_
    exact absurd ((hlt _).mp h') (not_lt.mpr (Nat.div_mul_le_self _ _))
  · exact (hlt _).mpr (Nat.lt_mul_of_div_lt (Nat.lt_succ_self _) hpos)

lemma two_mul_lt_iff (h : b.IsAt n) (e : ℤ) (c : ℕ) :
    2 * (b.value * 10 ^ (-e).toNat) < (2 * c + 1) * (b.unit * 10 ^ e.toNat) ↔
      2 * grid (n + 1) < Decimal.toRat ⟨c, e⟩ + Decimal.toRat ⟨c + 1, e⟩ := by
  have hlt := div_lt_mul_zpow_iff (b := 10) (by norm_num) e (2 * b.value) h.unit_pos (2 * c + 1)
  rw [← Nat.mul_assoc, ← hlt, ← h.value]
  have hsum : Decimal.toRat ⟨c, e⟩ + Decimal.toRat ⟨c + 1, e⟩ =
      (2 * c + 1 : ℕ) * ((10 : ℕ) : ℚ) ^ e := by
    simp only [Decimal.toRat]
    push_cast
    ring
  rw [hsum, Nat.cast_mul, mul_div_assoc]
  rfl

lemma onGrid?_cases (h : b.IsAt n) (e : ℤ) :
    let below := Decimal.toRat ⟨b.floor e, e⟩
    let above := Decimal.toRat ⟨b.floor e + 1, e⟩
    (b.onGrid? true e = some ⟨b.floor e, e⟩ ∧ Rounds below (n + 1) ∧
      (Rounds above (n + 1) → 2 * grid (n + 1) < below + above)) ∨
    (b.onGrid? true e = some ⟨b.floor e + 1, e⟩ ∧ Rounds above (n + 1) ∧
      (Rounds below (n + 1) → below + above ≤ 2 * grid (n + 1))) ∨
    (b.onGrid? true e = none ∧ ¬ Rounds below (n + 1) ∧ ¬ Rounds above (n + 1)) := by
  intro below above
  have hbelow : b.admits (b.floor e * 10 ^ e.toNat) (10 ^ (-e).toNat) = true ↔ Rounds below (n + 1) :=
    admits_decimal_iff h e _
  have habove : b.admits ((b.floor e + 1) * 10 ^ e.toNat) (10 ^ (-e).toNat) = true ↔ Rounds above (n + 1) :=
    admits_decimal_iff h e _
  have hnear := two_mul_lt_iff h e (b.floor e)
  rw [← hbelow, ← habove, ← not_lt, ← hnear]
  unfold onGrid?
  simp only [Nat.pow_eq]
  rw [← floor]
  cases b.admits (b.floor e * 10 ^ e.toNat) (10 ^ (-e).toNat) <;>
    cases b.admits ((b.floor e + 1) * 10 ^ e.toNat) (10 ^ (-e).toNat) <;>
    by_cases hmiddle : 2 * (b.value * 10 ^ (-e).toNat) < (2 * b.floor e + 1) * (b.unit * 10 ^ e.toNat) <;>
    simp [hmiddle]

theorem onGrid?_spec (h : b.IsAt n) (e : ℤ) :
    (∀ d, b.onGrid? true e = some d → d.exponent = e ∧ Rounds d.toRat (n + 1) ∧
      ∀ c, Rounds (Decimal.toRat ⟨c, e⟩) (n + 1) →
        Approximates (grid (n + 1)) d.toRat (Decimal.toRat ⟨c, e⟩)) ∧
    (b.onGrid? true e = none → ∀ c, ¬ Rounds (Decimal.toRat ⟨c, e⟩) (n + 1)) := by
  obtain ⟨hbelow, habove⟩ := floor_le h e
  have hself := Rounds.self (n + 1)
  -- a point that is rounded to the number brings the one next to the number with it
  have hside (c : ℕ) : (Decimal.toRat ⟨c, e⟩ ≤ Decimal.toRat ⟨b.floor e, e⟩ ∧
        (Rounds (Decimal.toRat ⟨c, e⟩) (n + 1) → Rounds (Decimal.toRat ⟨b.floor e, e⟩) (n + 1))) ∨
      (Decimal.toRat ⟨b.floor e + 1, e⟩ ≤ Decimal.toRat ⟨c, e⟩ ∧
        (Rounds (Decimal.toRat ⟨c, e⟩) (n + 1) → Rounds (Decimal.toRat ⟨b.floor e + 1, e⟩) (n + 1))) := by
    rcases Nat.lt_or_ge (b.floor e) c with hc | hc
    · have hmono := Decimal.toRat_mono hc e
      exact Or.inr ⟨hmono, fun hround => hself.of_between hround habove.le hmono⟩
    · have hmono := Decimal.toRat_mono hc e
      exact Or.inl ⟨hmono, fun hround => hround.of_between hself hmono hbelow⟩
  rcases onGrid?_cases h e with
    ⟨hfound, hround, hother⟩ | ⟨hfound, hround, hother⟩ | ⟨hfound, hnot, hnot'⟩
  · rw [hfound]
    refine ⟨?_, nofun⟩
    rintro _ ⟨⟩
    refine ⟨rfl, hround, fun c hc => ?_⟩
    rcases hside c with ⟨hle, -⟩ | ⟨hle, hnext⟩
    · exact approximates_of_le hle hbelow
    · exact (approximates_of_lt_middle hbelow habove.le (hother (hnext hc))).trans
        (approximates_of_ge habove.le hle)
  · rw [hfound]
    refine ⟨?_, nofun⟩
    rintro _ ⟨⟩
    refine ⟨rfl, hround, fun c hc => ?_⟩
    rcases hside c with ⟨hle, hnext⟩ | ⟨hle, -⟩
    · exact (approximates_of_middle_le hbelow habove.le (hother (hnext hc))).trans
        (approximates_of_le hle hbelow)
    · exact approximates_of_ge habove.le hle
  · rw [hfound]
    refine ⟨nofun, fun _ c hc => ?_⟩
    rcases hside c with ⟨-, hnext⟩ | ⟨-, hnext⟩
    · exact hnot (hnext hc)
    · exact hnot' (hnext hc)

lemma find_covers (covers : ℤ → Bool) {k : ℤ} (hlower : covers (k - 2) = false)
    (hupper : covers (k + 3) = true) :
    let s := ([k - 1, k, k + 1, k + 2].find? covers).getD (k + 3)
    covers s = true ∧ covers (s - 1) = false := by
  have hk₁ : k - 1 - 1 = k - 2 := by ring
  have hk₂ : k + 1 - 1 = k := by ring
  have hk₃ : k + 2 - 1 = k + 1 := by ring
  have hk₄ : k + 3 - 1 = k + 2 := by ring
  simp only [List.find?]
  cases h₁ : covers (k - 1) with
  | true => exact ⟨h₁, (congrArg covers hk₁).trans hlower⟩
  | false =>
    cases h₂ : covers k with
    | true => exact ⟨h₂, h₁⟩
    | false =>
      cases h₃ : covers (k + 1) with
      | true => exact ⟨h₃, (congrArg covers hk₂).trans h₂⟩
      | false =>
        cases h₄ : covers (k + 2) with
        | true => exact ⟨h₄, (congrArg covers hk₃).trans h₃⟩
        | false => exact ⟨hupper, (congrArg covers hk₄).trans h₄⟩

lemma decimalSize_spec (h : b.IsAt n) (hn : n + 1 < infiniteMagnitude) :
    (10 : ℚ) ^ (b.decimalSize - 1) ≤ grid (n + 1) ∧ grid (n + 1) < 10 ^ b.decimalSize := by
  have hcovers (k : ℤ) : decide (b.value * 10 ^ (-k).toNat < b.unit * 10 ^ k.toNat) = true ↔
      grid (n + 1) < 10 ^ k := by
    have hlt := div_lt_mul_zpow_iff (b := 10) (by norm_num) k b.value h.unit_pos 1
    rw [Nat.cast_one, one_mul, one_mul, h.value] at hlt
    rw [decide_eq_true_iff]
    exact hlt.symm
  have hvalue : b.value ≠ 0 := by
    intro h0
    have hgrid : grid 0 < grid (n + 1) := grid_strictMono n.succ_pos
    rw [← h.value, h0, Nat.cast_zero, zero_div, grid_zero] at hgrid
    exact lt_irrefl _ hgrid
  obtain ⟨hlow, hhigh⟩ := zpow_log2_lt hvalue h.unit_pos.ne'
  rw [h.value] at hlow hhigh
  set t : ℤ := (b.value.log2 : ℤ) - b.unit.log2
  have hmin : -1076 < t := by
    have hround := ((Rounds.self (n + 1)).pos n.succ_pos).trans_lt hhigh
    have := (zpow_lt_zpow_iff_right₀ one_lt_two).mp hround
    omega
  have hmax : t < 1025 := by
    have hlt : (2 : ℚ) ^ (t - 1) < 2 ^ (1024 : ℤ) := hlow.trans ((Rounds.self (n + 1)).lt hn)
    have := (zpow_lt_zpow_iff_right₀ one_lt_two).mp hlt
    omega
  set k : ℤ := (t - 1) * 30103 / 100000 with hk
  have hsize : b.decimalSize = ([k - 1, k, k + 1, k + 2].find? fun i =>
      decide (b.value * 10 ^ (-i).toNat < b.unit * 10 ^ i.toNat)).getD (k + 3) := rfl
  have hfalse : decide (b.value * 10 ^ (-(k - 2)).toNat < b.unit * 10 ^ (k - 2).toNat) = false := by
    rw [Bool.eq_false_iff, ne_eq, hcovers, not_lt]
    exact (ten_zpow_le_two_zpow (by omega) (by omega)).trans hlow.le
  have htrue : decide (b.value * 10 ^ (-(k + 3)).toNat < b.unit * 10 ^ (k + 3).toNat) = true := by
    rw [hcovers]
    exact hhigh.trans_le (two_zpow_le_ten_zpow (by omega) (by omega))
  obtain ⟨hcovered, huncovered⟩ := find_covers (fun i =>
      decide (b.value * 10 ^ (-i).toNat < b.unit * 10 ^ i.toNat)) hfalse htrue
  rw [← hsize] at hcovered huncovered
  exact ⟨not_lt.mp fun hlt => Bool.eq_false_iff.mp huncovered ((hcovers _).mpr hlt), (hcovers _).mp hcovered⟩

lemma exists_rounds_of_le {e : ℤ} (h : 10 ^ 16 * (10 : ℚ) ^ e ≤ grid (n + 1)) :
    ∃ c, Rounds (Decimal.toRat ⟨c, e⟩) (n + 1) := by
  have hunit : (0 : ℚ) < 10 ^ e := by positivity
  have hlimits := grid_lt_limit n
  have hlimits' := grid_lt_limit (n + 1)
  set c := ⌊grid (n + 1) / 10 ^ e⌋₊
  have hfloor : Decimal.toRat ⟨c, e⟩ ≤ grid (n + 1) :=
    (le_div_iff₀ hunit).mp (Nat.floor_le (div_nonneg (grid_nonneg _) hunit.le))
  have hceil : grid (n + 1) < Decimal.toRat ⟨c + 1, e⟩ := by
    have := (div_lt_iff₀ hunit).mp (Nat.lt_floor_add_one (grid (n + 1) / 10 ^ e))
    rw [Decimal.toRat]
    push_cast
    exact this
  have hnext : Decimal.toRat ⟨c + 1, e⟩ = Decimal.toRat ⟨c, e⟩ + 10 ^ e := by
    simp only [Decimal.toRat]
    push_cast
    ring
  rcases lt_or_ge (limit n) (Decimal.toRat ⟨c, e⟩) with hlt | hle
  · refine ⟨c, rounds_succ_iff.mpr ?_⟩
    split_ifs
    · exact ⟨hlt.le, hfloor.trans hlimits'.1.le⟩
    · exact ⟨hlt, hfloor.trans_lt hlimits'.1⟩
  · have hlt : Decimal.toRat ⟨c + 1, e⟩ < limit (n + 1) := by
      have := grid_lt_mul_limit_sub n
      linarith
    refine ⟨c + 1, rounds_succ_iff.mpr ?_⟩
    split_ifs
    · exact ⟨hlimits.2.le.trans hceil.le, hlt.le⟩
    · exact ⟨hlimits.2.trans hceil, hlt⟩

end Bracket

lemma zpow_neg_lt_zpow_neg {a b x y i j : ℕ} (hx : 0 < x) (hy : 0 < y) (h : a * y ^ j < b * x ^ i) :
    (a : ℚ) * x ^ (-i : ℤ) < b * y ^ (-j : ℤ) := by
  have h' : (a : ℚ) * y ^ j < b * x ^ i := by exact_mod_cast h
  have hx' : (0 : ℚ) < x := by exact_mod_cast hx
  have hy' : (0 : ℚ) < y := by exact_mod_cast hy
  rw [zpow_neg, zpow_neg, zpow_natCast, zpow_natCast, ← div_eq_mul_inv, ← div_eq_mul_inv,
    div_lt_div_iff₀ (by positivity) (by positivity)]
  exact h'

/-- No power of ten is a few units of the last place, but for one that is a little more than two. -/
lemma zpow_cases (e : ℤ) : (10 : ℚ) ^ e < 21 / 1000 * 2 ^ (-1074 : ℤ) ∨
    2 * 2 ^ (-1074 : ℤ) < (10 : ℚ) ^ e ∨
    (10 * (10 : ℚ) ^ e < 21 / 10 * 2 ^ (-1074 : ℤ) ∧ 2 * 2 ^ (-1074 : ℤ) < 10 * (10 : ℚ) ^ e) := by
  have h324 : 324 = 162 * 2 := rfl
  have h1074 : 1074 = 179 * 6 := rfl
  have hlower := zpow_neg_lt_zpow_neg (a := 1) (b := 5) (x := 2) (y := 10) (i := 1074) (j := 324)
    (by norm_num) (by norm_num) (by rw [h324, h1074, pow_mul, pow_mul]; norm_num)
  have hupper := zpow_neg_lt_zpow_neg (a := 100) (b := 21) (x := 10) (y := 2) (i := 324) (j := 1074)
    (by norm_num) (by norm_num) (by rw [h324, h1074, pow_mul, pow_mul]; norm_num)
  have hmono {i j : ℤ} (hij : i ≤ j) : (10 : ℚ) ^ i ≤ 10 ^ j := zpow_le_zpow_right₀ (by norm_num) hij
  have hten (i : ℤ) : (10 : ℚ) ^ (i + 1) = 10 * 10 ^ i := by rw [zpow_add_one₀ (by norm_num), mul_comm]
  simp only [Nat.cast_ofNat, Nat.cast_one, one_mul] at hlower hupper
  generalize (2 : ℚ) ^ (-1074 : ℤ) = u at *
  rcases lt_trichotomy e (-324) with he | he | he
  · have hle := hmono (i := e + 1) (j := -324) (by omega)
    rw [hten] at hle
    generalize (10 : ℚ) ^ (-324 : ℤ) = w at *
    exact Or.inl (by linarith)
  · rw [he]
    generalize (10 : ℚ) ^ (-324 : ℤ) = w at *
    exact Or.inr (Or.inr ⟨by linarith, by linarith⟩)
  · have hle := hmono (i := -324 + 1) (j := e) (by omega)
    rw [hten] at hle
    generalize (10 : ℚ) ^ (-324 : ℤ) = w at *
    exact Or.inr (Or.inl (by linarith))

lemma nineteen_mul_le {n : ℕ} {e : ℤ} (hround : Rounds (10 * 10 ^ e) (n + 1)) :
    19 * (10 : ℚ) ^ e ≤ 2 * grid (n + 1) := by
  by_contra hlt
  rw [not_le] at hlt
  obtain ⟨p, k, hn, hk, hp, -⟩ := exists_digits53 (n + 1)
  have hunit : (0 : ℚ) < 2 ^ (p - 1074 : ℤ) := by positivity
  have hlimit := hround.upper
  rw [hn, limit_eq hk hp] at hlimit
  rw [hn, grid_eq ⟨hk.le, hp⟩] at hlt
  have hk9 : k < 10 := by
    have hmul : (k : ℚ) * 2 ^ (p - 1074 : ℤ) < (10 : ℕ) * 2 ^ (p - 1074 : ℤ) := by
      push_cast
      linarith
    exact_mod_cast lt_of_mul_lt_mul_right hmul hunit.le
  obtain rfl : p = 0 := by omega
  have hcases := zpow_cases e
  rw [Nat.cast_zero, zero_sub] at hlt hlimit hunit
  generalize (2 : ℚ) ^ (-1074 : ℤ) = u at *
  generalize (10 : ℚ) ^ e = w at *
  have hmul {i j : ℕ} (hij : i ≤ j) : (i : ℚ) * u ≤ j * u :=
    mul_le_mul_of_nonneg_right (by exact_mod_cast hij) hunit.le
  have hone := hmul (i := 1) (j := k) (by omega)
  have hnine := hmul (i := k) (j := 9) (by omega)
  push_cast at hone hnine
  rcases hcases with hcase | hcase | hcase
  · linarith
  · linarith
  · rcases Nat.lt_or_ge k 2 with hk2 | hk2
    · have := hmul (i := k) (j := 1) (by omega)
      push_cast at this
      linarith
    · have := hmul hk2
      push_cast at this
      linarith

lemma findSome?_range {α : Type*} (f : ℕ → Option α) (m : ℕ) : (∀ i < m, f i = none) ∨
    ∃ n a, n < m ∧ f n = some a ∧ (∀ i < n, f i = none) ∧ (List.range m).findSome? f = some a := by
  induction m with
  | zero => exact Or.inl nofun
  | succ m ih =>
    rw [List.range_succ, List.findSome?_append]
    rcases ih with hnone | ⟨n, a, hn, ha, hbefore, hfind⟩
    · have hfind : (List.range m).findSome? f = none :=
        List.findSome?_eq_none_iff.mpr fun i hi => hnone i (List.mem_range.mp hi)
      rw [hfind]
      cases ha : f m with
      | none =>
        refine Or.inl fun i hi => ?_
        rcases Nat.lt_succ_iff_lt_or_eq.mp hi with hi | rfl
        · exact hnone i hi
        · exact ha
      | some a => exact Or.inr ⟨m, a, m.lt_succ_self, ha, hnone, by simp [ha]⟩
    · exact Or.inr ⟨n, a, hn.trans m.lt_succ_self, ha, hbefore, by rw [hfind]; rfl⟩

/-- A decimal of the grid with `k` digits below the power of ten next to the number: the first grid that has
one that is rounded to the number, and the nearest one there. -/
structure Found (n : ℕ) (size : ℤ) (k : ℕ) (d : Decimal) : Prop where
  lower : (10 : ℚ) ^ (size - 1) ≤ grid (n + 1)
  upper : grid (n + 1) < 10 ^ size
  exponent : d.exponent = size - k
  rounds : Rounds d.toRat (n + 1)
  near : ∀ c, Rounds (Decimal.toRat ⟨c, size - k⟩) (n + 1) →
    Approximates (grid (n + 1)) d.toRat (Decimal.toRat ⟨c, size - k⟩)
  before : ∀ i < k, ∀ c, ¬ Rounds (Decimal.toRat ⟨c, size - i⟩) (n + 1)

lemma exists_found {x : Double} (hx : x.isFinite = true) {n : ℕ} (hn : x.magnitude = n + 1) :
    ∃ size k, Found n size k (x.shortest true) := by
  have hb := Bracket.isAt_bracket hn
  have hfinite : n + 1 < infiniteMagnitude := hn ▸ (isFinite_iff x).mp hx
  obtain ⟨hlower, hupper⟩ := Bracket.decimalSize_spec hb hfinite
  set size := x.bracket.decimalSize with hsize
  have hspec (i : ℕ) := Bracket.onGrid?_spec hb (size - i)
  rcases findSome?_range (fun i : ℕ => x.bracket.onGrid? true (size - i)) 18 with
    hnone | ⟨k, d, -, hd, hbefore, hfind⟩
  · have hlast : 10 ^ 16 * (10 : ℚ) ^ (size - (17 : ℕ)) ≤ grid (n + 1) := by
      refine le_trans (le_of_eq ?_) hlower
      rw [← zpow_natCast, ← zpow_add₀ (by norm_num)]
      congr 1
      push_cast
      ring
    obtain ⟨c, hc⟩ := Bracket.exists_rounds_of_le hlast
    exact absurd hc ((hspec 17).2 (hnone 17 (by norm_num)) c)
  · have hshortest : x.shortest true = d := by
      rw [shortest, ← hsize, hfind, Option.getD_some]
    obtain ⟨hexponent, hround, hnear⟩ := (hspec k).1 d hd
    rw [hshortest]
    exact ⟨size, k, hlower, hupper, hexponent, hround, hnear, fun i hi => (hspec i).2 (hbefore i hi)⟩

lemma Rounds.coefficient_ne_zero {c : Decimal} {n : ℕ} (h : Rounds c.toRat n) (hn : 0 < n) :
    c.coefficient ≠ 0 := by
  intro h0
  have hpos := h.pos hn
  rw [Decimal.toRat, h0, Nat.cast_zero, zero_mul] at hpos
  exact absurd hpos (not_le.mpr (by positivity))

namespace Found

variable {n k : ℕ} {size : ℤ} {c d : Decimal}

lemma not_rounds_zpow (h : Found n size k d) {i : ℕ} (hi : i < k) : ¬ Rounds (10 ^ (size - i)) (n + 1) := by
  have hnot := h.before i hi (10 ^ 0)
  rwa [Decimal.toRat_ten_pow, Nat.cast_zero, add_zero] at hnot

lemma place_cases (h : Found n size k d) (hc : Rounds c.toRat (n + 1)) :
    (c.toRat < 10 ^ (size - 1) ∧ Rounds (10 ^ (size - 1)) (n + 1)) ∨
      c.exponent = size - (Decimal.digits c.coefficient).length ∨
      ((10 : ℚ) ^ size ≤ c.toRat ∧ Rounds (10 ^ size) (n + 1)) := by
  obtain ⟨hlower, hupper⟩ := Decimal.zpow_le_toRat (hc.coefficient_ne_zero n.succ_pos)
  have hself := Rounds.self (n + 1)
  rcases lt_trichotomy (c.exponent + (Decimal.digits c.coefficient).length) size with hlt | heq | hlt
  · have hbelow : c.toRat < 10 ^ (size - 1) :=
      hupper.trans_le (zpow_le_zpow_right₀ (by norm_num) (by omega))
    exact Or.inl ⟨hbelow, hc.of_between hself hbelow.le h.lower⟩
  · exact Or.inr (Or.inl (by omega))
  · have habove : (10 : ℚ) ^ size ≤ c.toRat :=
      (zpow_le_zpow_right₀ (by norm_num) (by omega)).trans hlower
    exact Or.inr (Or.inr ⟨habove, hself.of_between hc h.upper.le habove⟩)

lemma le_length (h : Found n size k d) (hc : Rounds c.toRat (n + 1)) :
    k ≤ (Decimal.digits c.coefficient).length := by
  have hpos := Decimal.length_digits_pos c.coefficient
  refine not_lt.mp fun hlt => ?_
  rcases h.place_cases hc with ⟨-, hround⟩ | hexponent | ⟨-, hround⟩
  · exact h.not_rounds_zpow (i := 1) (by omega) hround
  · exact h.before _ hlt c.coefficient (hexponent ▸ hc)
  · exact h.not_rounds_zpow (i := 0) (by omega) (by simpa using hround)

lemma approximates_zpow (h : Found n size k d) (hk : 0 < k) (hround : Rounds (10 ^ (size - 1)) (n + 1)) :
    Approximates (grid (n + 1)) d.toRat (10 ^ (size - 1)) := by
  have hpoint : Decimal.toRat ⟨10 ^ (k - 1), size - k⟩ = 10 ^ (size - 1) := by
    rw [Decimal.toRat_ten_pow]
    congr 1
    omega
  rw [← hpoint] at hround ⊢
  exact h.near _ hround

lemma zpow_le_toRat (h : Found n size k d) (hk : 0 < k) : (10 : ℚ) ^ (size - 1) ≤ d.toRat := by
  refine not_lt.mp fun hlt => ?_
  have hround := h.rounds.of_between (Rounds.self (n + 1)) hlt.le h.lower
  have hnear := (h.approximates_zpow hk hround).1
  rw [abs_of_nonneg (sub_nonneg.mpr (hlt.le.trans h.lower)), abs_of_nonneg (sub_nonneg.mpr h.lower)] at hnear
  linarith

lemma toRat_lt_zpow (h : Found n size k d) (hk : 0 < k) : d.toRat < 10 ^ size := by
  refine not_le.mp fun hle => h.not_rounds_zpow hk ?_
  rw [Nat.cast_zero, sub_zero]
  exact (Rounds.self (n + 1)).of_between h.rounds h.upper.le hle

lemma length_eq (h : Found n size k d) (hk : 0 < k) : (Decimal.digits d.coefficient).length = k := by
  have hten : (1 : ℚ) < 10 := by norm_num
  obtain ⟨hlower, hupper⟩ := Decimal.zpow_le_toRat (h.rounds.coefficient_ne_zero n.succ_pos)
  rw [h.exponent] at hlower hupper
  have hlt := (zpow_lt_zpow_iff_right₀ hten).mp (hlower.trans_lt (h.toRat_lt_zpow hk))
  have hlt' := (zpow_lt_zpow_iff_right₀ hten).mp ((h.zpow_le_toRat hk).trans_lt hupper)
  omega

lemma eq_zpow (h : Found n size 0 d) : d = ⟨10 ^ 0, size⟩ := by
  have hne := h.rounds.coefficient_ne_zero n.succ_pos
  have hexponent : d.exponent = size := by simpa using h.exponent
  have hpoint : Decimal.toRat ⟨10 ^ 0, size⟩ = 10 ^ size := by
    rw [Decimal.toRat_ten_pow, Nat.cast_zero, add_zero]
  have hle : d.coefficient ≤ 1 := by
    refine not_lt.mp fun hlt => ?_
    have hpos : (0 : ℚ) < 10 ^ size := by positivity
    have htwo : 2 * (10 : ℚ) ^ size ≤ d.toRat := by
      rw [Decimal.toRat, hexponent]
      have : (2 : ℚ) ≤ d.coefficient := by exact_mod_cast hlt
      gcongr
    have hround : Rounds (10 ^ size) (n + 1) :=
      (Rounds.self (n + 1)).of_between h.rounds h.upper.le (by linarith)
    have hnear := h.near (10 ^ 0)
    rw [Nat.cast_zero, sub_zero, hpoint] at hnear
    have hdist := (hnear hround).1
    have hupper := h.upper
    rw [abs_of_nonpos (by linarith), abs_of_nonpos (by linarith)] at hdist
    linarith
  obtain ⟨coefficient, e⟩ := d
  simp only at hexponent hle hne
  rw [hexponent, Nat.pow_zero, Nat.le_antisymm hle (Nat.one_le_iff_ne_zero.mpr hne)]

lemma length_eq_one (h : Found n size 0 d) : (Decimal.digits d.coefficient).length = 1 := by
  rw [h.eq_zpow]
  exact Nat.le_antisymm ((Decimal.length_digits_le_iff one_pos).mpr (by norm_num))
    (Decimal.length_digits_pos _)

lemma toRat_le_nine_mul (hlt : c.toRat < 10 ^ size) (hc : c.coefficient ≠ 0)
    (hlength : (Decimal.digits c.coefficient).length = 1) : c.toRat ≤ 9 * 10 ^ (size - 1) := by
  have hten : (1 : ℚ) < 10 := by norm_num
  have hdigit : c.coefficient < 10 ^ 1 := (Decimal.length_digits_le_iff one_pos).mp hlength.le
  have hexponent := (zpow_lt_zpow_iff_right₀ hten).mp ((Decimal.zpow_le_toRat hc).1.trans_lt hlt)
  rw [hlength] at hexponent
  have hnine : (c.coefficient : ℚ) ≤ 9 := by exact_mod_cast Nat.lt_succ_iff.mp hdigit
  have hpow : (10 : ℚ) ^ c.exponent ≤ 10 ^ (size - 1) := zpow_le_zpow_right₀ hten.le (by omega)
  exact mul_le_mul hnine hpow (by positivity) (by norm_num)

lemma approximates (h : Found n size k d) (hc : Rounds c.toRat (n + 1))
    (hlength : (Decimal.digits c.coefficient).length = (Decimal.digits d.coefficient).length) :
    Approximates (grid (n + 1)) d.toRat c.toRat := by
  rcases Nat.eq_zero_or_pos k with rfl | hk
  · have hvalue : d.toRat = 10 ^ size := by rw [h.eq_zpow, Decimal.toRat_ten_pow, Nat.cast_zero, add_zero]
    rcases le_or_gt ((10 : ℚ) ^ size) c.toRat with hle | hlt
    · rw [hvalue]
      exact approximates_of_ge h.upper.le hle
    · have hsplit : (10 : ℚ) ^ size = 10 * 10 ^ (size - 1) := by
        rw [← zpow_one_add₀ (by norm_num), add_sub_cancel]
      have hround := h.rounds
      have hupper := h.upper
      rw [hvalue, hsplit] at hround
      have hmiddle := nineteen_mul_le hround
      have hnine := toRat_le_nine_mul hlt (hc.coefficient_ne_zero n.succ_pos) (hlength.trans h.length_eq_one)
      have hpos : (0 : ℚ) < 10 ^ (size - 1) := by positivity
      rw [hvalue]
      exact approximates_of_middle_le (by linarith) hupper.le (by linarith)
  · rcases h.place_cases hc with ⟨hbelow, hround⟩ | hexponent | ⟨-, hround⟩
    · exact (h.approximates_zpow hk hround).trans (approximates_of_le hbelow.le h.lower)
    · rw [hlength, h.length_eq hk] at hexponent
      have hpoint : c = ⟨c.coefficient, size - k⟩ := by rw [← hexponent]
      rw [hpoint] at hc ⊢
      exact h.near _ hc
    · exact absurd (by simpa using hround) (h.not_rounds_zpow hk)

lemma length_le (h : Found n size k d) (hc : Rounds c.toRat (n + 1)) :
    (Decimal.digits d.coefficient).length ≤ (Decimal.digits c.coefficient).length := by
  rcases Nat.eq_zero_or_pos k with rfl | hk
  · rw [h.length_eq_one]
    exact Decimal.length_digits_pos _
  · rw [h.length_eq hk]
    exact h.le_length hc

end Found

/-- Without its sign the double is what `d` is rounded to, as are only decimals with at least as many digits
and, of those with as many, none that is nearer to the double or equally near and greater. -/
structure IsShortest (x : Double) (d : Decimal) : Prop where
  isNearest : IsNearest (withSign x.negative d.toRat) x
  length_le : ∀ c : Decimal, IsNearest (withSign x.negative c.toRat) x →
    (Decimal.digits d.coefficient).length ≤ (Decimal.digits c.coefficient).length
  approximates : ∀ c : Decimal, IsNearest (withSign x.negative c.toRat) x →
    (Decimal.digits c.coefficient).length = (Decimal.digits d.coefficient).length →
      Approximates |x.toRat| d.toRat c.toRat

theorem isShortest_shortest {x : Double} (hx : x.isFinite = true) (hzero : x.isZero = false) :
    IsShortest x (x.shortest true) := by
  obtain ⟨n, hn⟩ := Nat.exists_eq_succ_of_ne_zero (magnitude_pos hzero).ne'
  obtain ⟨size, k, h⟩ := exists_found hx hn
  have hiff (c : Decimal) : IsNearest (withSign x.negative c.toRat) x ↔ Rounds c.toRat (n + 1) := by
    rw [isNearest_withSign_iff hx hzero, hn]
  refine ⟨(hiff _).mpr h.rounds, fun c hc => h.length_le ((hiff c).mp hc), fun c hc hlength => ?_⟩
  rw [abs_toRat, hn]
  exact h.approximates ((hiff c).mp hc) hlength

theorem toDouble_of_isNearest {x : Double} {d : Decimal} (hx : x.isFinite = true) (hzero : x.isZero = false)
    (h : IsNearest (withSign x.negative d.toRat) x) :
    d.coefficient ≠ 0 ∧ (if x.negative then -d.toDouble false else d.toDouble false) = x := by
  have hround := (isNearest_withSign_iff hx hzero).mp h
  have hpos := magnitude_pos hzero
  have hne := hround.coefficient_ne_zero hpos
  have hself := ofMagnitude_magnitude hx
  rw [toDouble_eq hne hround hpos ((isFinite_iff x).mp hx)]
  cases hsign : x.negative with
  | false => exact ⟨hne, by rwa [hsign] at hself⟩
  | true => exact ⟨hne, by rwa [hsign] at hself⟩

end Double
end MetaInline
