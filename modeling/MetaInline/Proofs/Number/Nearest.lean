import Mathlib
import MetaInline.Proofs.Number.Rounding

namespace MetaInline

def withSign (negative : Bool) (q : ℚ) : ℚ :=
  if negative then -q else q

@[simp] lemma withSign_false (q : ℚ) : withSign false q = q := rfl

@[simp] lemma withSign_true (q : ℚ) : withSign true q = -q := rfl

@[simp] lemma abs_withSign (negative : Bool) (q : ℚ) : |withSign negative q| = |q| := by
  cases negative <;> simp

namespace Double

def toRat (x : Double) : ℚ :=
  withSign x.negative (x.significand * 2 ^ x.power)

/-- No finite double is nearer to `q` than `x` is, and if another one is equally near, the significand of
`x` is even. From half way between the last double and the next power of two on, numbers are infinite. -/
structure IsNearest (q : ℚ) (x : Double) : Prop where
  isFinite : x.isFinite = true
  inRange : |q| < 2 ^ 1024 - 2 ^ 970
  le : ∀ y : Double, y.isFinite = true → |q - x.toRat| ≤ |q - y.toRat|
  even : ∀ y : Double, y.isFinite = true → |q - y.toRat| = |q - x.toRat| → y.toRat ≠ x.toRat →
    Even x.significand

variable {x : Double}

lemma magnitude_eq (x : Double) :
    x.magnitude = (max x.exponent.val 1 - 1) * 2 ^ 52 + x.significand := by
  unfold magnitude significand
  simp only [Nat.pow_eq]
  split_ifs <;> omega

lemma digits53_significand (x : Double) : Digits53 (max x.exponent.val 1 - 1) x.significand := by
  have hfraction : x.fraction.val < 2 ^ 52 := x.fraction.isLt
  unfold Digits53 significand
  simp only [Nat.pow_eq]
  split_ifs <;> omega

lemma grid_magnitude (x : Double) : grid x.magnitude = x.significand * 2 ^ x.power := by
  rw [magnitude_eq, grid_eq (digits53_significand x)]
  congr 2
  unfold power
  omega

lemma toRat_eq (x : Double) : x.toRat = withSign x.negative (grid x.magnitude) := by
  rw [grid_magnitude, toRat]

lemma abs_toRat (x : Double) : |x.toRat| = grid x.magnitude := by
  rw [toRat_eq, abs_withSign, abs_of_nonneg (grid_nonneg _)]

lemma even_significand_iff (x : Double) : Even x.significand ↔ Even x.magnitude := by
  rw [magnitude_eq, Nat.even_iff, Nat.even_iff]
  omega

lemma isFinite_iff (x : Double) : x.isFinite = true ↔ x.magnitude < infiniteMagnitude := by
  have hfraction : x.fraction.val < 2 ^ 52 := x.fraction.isLt
  have hexponent := x.exponent.isLt
  simp only [isFinite, magnitude, infiniteMagnitude, Nat.pow_eq, bne_iff_ne, ne_eq]
  omega

lemma isZero_iff (x : Double) : x.isZero = true ↔ x.magnitude = 0 := by
  simp [isZero]

lemma magnitude_pos (h : x.isZero = false) : 0 < x.magnitude := by
  refine Nat.pos_of_ne_zero fun h0 => ?_
  rw [(isZero_iff x).mpr h0] at h
  cases h

lemma ofMagnitude_magnitude (h : x.isFinite = true) : ofMagnitude x.negative x.magnitude = x := by
  have hlt := (isFinite_iff x).mp h
  have hfraction : x.fraction.val < 2 ^ 52 := x.fraction.isLt
  obtain ⟨s, e, f⟩ := x
  simp only [ofMagnitude, Nat.min_eq_left hlt.le]
  congr
  · simp only [magnitude, Nat.pow_eq]
    omega
  · simp only [magnitude, Nat.pow_eq]
    omega

lemma isFinite_ofMagnitude (negative : Bool) {n : ℕ} (h : n < infiniteMagnitude) :
    (ofMagnitude negative n).isFinite = true := by
  rw [isFinite_iff, magnitude_ofMagnitude negative h.le]
  exact h

lemma toRat_ofMagnitude (negative : Bool) {n : ℕ} (h : n < infiniteMagnitude) :
    (ofMagnitude negative n).toRat = withSign negative (grid n) := by
  rw [toRat_eq, magnitude_ofMagnitude negative h.le]
  rfl

lemma limit_last : limit (infiniteMagnitude - 1) = 2 ^ 1024 - 2 ^ 970 := by
  have hmagnitude : infiniteMagnitude - 1 = 2045 * 2 ^ 52 + (2 ^ 53 - 1) := by decide
  have hexp : ((2045 : ℕ) + 1 - 1074 : ℤ) = (970 + 2 : ℕ) := by norm_num
  have hsplit : (2 : ℚ) ^ 1024 = 2 ^ 970 * 2 ^ 54 := by rw [← pow_add]
  rw [hmagnitude, limit_two_pow, hexp, zpow_natCast, pow_add, hsplit]
  generalize (2 : ℚ) ^ 970 = u
  ring

lemma abs_sub_right_le_iff {a b : ℚ} (h : a < b) (q : ℚ) : |q - b| ≤ |q - a| ↔ (a + b) / 2 ≤ q := by
  rw [← sq_le_sq]
  constructor <;> intro hq <;> nlinarith

lemma abs_sub_left_le_iff {a b : ℚ} (h : a < b) (q : ℚ) : |q - a| ≤ |q - b| ↔ q ≤ (a + b) / 2 := by
  rw [← sq_le_sq]
  constructor <;> intro hq <;> nlinarith

lemma Rounds.near {q : ℚ} {n : ℕ} (h : Rounds q n) (m : ℕ) :
    |q - grid n| ≤ |q - grid m| ∧ (|q - grid m| = |q - grid n| → m ≠ n → Even n) := by
  rcases lt_trichotomy m n with hlt | rfl | hlt
  · obtain ⟨k, rfl⟩ : ∃ k, n = k + 1 := ⟨n - 1, by omega⟩
    have hle : (grid m + grid (k + 1)) / 2 ≤ limit k := by
      have := grid_strictMono.monotone (Nat.lt_succ_iff.mp hlt)
      unfold limit
      linarith
    have hlower := h.lower k rfl
    refine ⟨(abs_sub_right_le_iff (grid_strictMono hlt) q).mpr (hle.trans hlower), fun heq _ => ?_⟩
    have hupper := (abs_sub_left_le_iff (grid_strictMono hlt) q).mp heq.le
    exact h.even (Or.inr ⟨k, rfl, le_antisymm (hupper.trans hle) hlower⟩)
  · exact ⟨le_rfl, fun _ hne => absurd rfl hne⟩
  · have hle : limit n ≤ (grid n + grid m) / 2 := by
      have := grid_strictMono.monotone (Nat.succ_le_iff.mpr hlt)
      unfold limit
      linarith
    refine ⟨(abs_sub_left_le_iff (grid_strictMono hlt) q).mpr (h.upper.trans hle), fun heq _ => ?_⟩
    have hlower := (abs_sub_right_le_iff (grid_strictMono hlt) q).mp heq.le
    exact h.even (Or.inl (le_antisymm h.upper (hle.trans hlower)))

lemma Rounds.inRange {q : ℚ} {n : ℕ} (h : Rounds q n) (hn : n < infiniteMagnitude) :
    q < 2 ^ 1024 - 2 ^ 970 := by
  have hle : limit n ≤ limit (infiniteMagnitude - 1) := limit_strictMono.monotone (by omega)
  rw [← limit_last]
  refine lt_of_le_of_ne (h.upper.trans hle) fun heq => ?_
  have hlimit : limit n = limit (infiniteMagnitude - 1) := le_antisymm hle (heq ▸ h.upper)
  have hodd : ¬ Even (infiniteMagnitude - 1) := by decide
  exact hodd (limit_strictMono.injective hlimit ▸ h.even (Or.inl (heq.trans hlimit.symm)))

lemma isNearest_of_rounds (hx : x.isFinite = true) (hsign : x.negative = false) {q : ℚ} (hq : 0 ≤ q)
    (h : Rounds q x.magnitude) : IsNearest q x := by
  have hxq : x.toRat = grid x.magnitude := by rw [toRat_eq, hsign, withSign_false]
  -- a number of the other sign is at least as far away as zero is
  have hother (y : Double) : y.negative = true → |q - y.toRat| = |q - grid 0| + grid y.magnitude := by
    intro hy
    have hgrid := grid_nonneg y.magnitude
    rw [toRat_eq, hy, withSign_true, grid_zero, sub_zero, sub_neg_eq_add, abs_of_nonneg hq,
      abs_of_nonneg (add_nonneg hq hgrid)]
  refine ⟨hx, ?_, fun y _ => ?_, fun y _ heq hne => ?_⟩
  · rw [abs_of_nonneg hq]
    exact h.inRange ((isFinite_iff x).mp hx)
  · cases hy : y.negative with
    | false =>
      rw [hxq, toRat_eq y, hy, withSign_false]
      exact (h.near _).1
    | true =>
      rw [hxq, hother y hy]
      exact (h.near 0).1.trans (le_add_of_nonneg_right (grid_nonneg _))
  · rw [even_significand_iff]
    cases hy : y.negative with
    | false =>
      rw [hxq, toRat_eq y, hy, withSign_false] at heq hne
      exact (h.near _).2 heq fun hm => hne (congrArg grid hm)
    | true =>
      rw [hxq, hother y hy] at heq
      have hnear := (h.near 0).1
      have hgrid := grid_nonneg y.magnitude
      have hzero : grid y.magnitude = grid 0 := by
        rw [grid_zero]
        linarith
      have hmagnitude := grid_strictMono.injective hzero
      rw [hzero, grid_zero, add_zero, ← grid_zero] at heq
      refine (h.near 0).2 heq fun hm => hne ?_
      rw [hxq, toRat_eq, hy, hmagnitude, ← hm, grid_zero, withSign_true, neg_zero]

lemma rounds_of_isNearest (hsign : x.negative = false) {q : ℚ} (hpos : 0 < x.magnitude)
    (h : IsNearest q x) : Rounds q x.magnitude := by
  have hfinite := (isFinite_iff x).mp h.isFinite
  have hxq : x.toRat = grid x.magnitude := by rw [toRat_eq, hsign, withSign_false]
  have hnear {m : ℕ} (hm : m < infiniteMagnitude) : |q - grid x.magnitude| ≤ |q - grid m| := by
    have hle := h.le _ (isFinite_ofMagnitude false hm)
    rwa [hxq, toRat_ofMagnitude false hm] at hle
  have heven {m : ℕ} (hm : m < infiniteMagnitude) (hne : m ≠ x.magnitude)
      (hle : |q - grid m| ≤ |q - grid x.magnitude|) : Even x.magnitude := by
    rw [← even_significand_iff]
    refine h.even _ (isFinite_ofMagnitude false hm) ?_ ?_
    · rw [hxq, toRat_ofMagnitude false hm]
      exact le_antisymm hle (hnear hm)
    · rw [hxq, toRat_ofMagnitude false hm]
      exact fun heq => hne (grid_strictMono.injective heq)
  have hlast {n : ℕ} (hn : x.magnitude = n) (hn' : ¬ n + 1 < infiniteMagnitude) : q < limit n := by
    obtain rfl : n = infiniteMagnitude - 1 := by omega
    rw [limit_last]
    exact (le_abs_self q).trans_lt h.inRange
  have hbelow (m : ℕ) : grid m < grid (m + 1) := grid_strictMono m.lt_succ_self
  refine ⟨fun m hm => ?_, ?_, ?_⟩
  · rw [hm] at hnear hfinite
    exact (abs_sub_right_le_iff (hbelow m) q).mp (hnear (by omega))
  · by_cases hn : x.magnitude + 1 < infiniteMagnitude
    · exact (abs_sub_left_le_iff (hbelow _) q).mp (hnear hn)
    · exact (hlast rfl hn).le
  · rintro (hq | ⟨m, hm, hq⟩)
    · by_cases hn : x.magnitude + 1 < infiniteMagnitude
      · exact heven hn (by omega) ((abs_sub_right_le_iff (hbelow _) q).mpr hq.ge)
      · exact absurd hq (hlast rfl hn).ne
    · refine heven (m := m) (by omega) (by omega) ?_
      rw [hm]
      exact (abs_sub_left_le_iff (hbelow m) q).mpr hq.le

lemma IsNearest.neg {q : ℚ} (h : IsNearest q x) : IsNearest (-q) (-x) := by
  have hfinite (y : Double) : (-y).isFinite = y.isFinite := rfl
  have hsignificand (y : Double) : (-y).significand = y.significand := rfl
  have hrat (y : Double) : (-y).toRat = -y.toRat := by
    obtain ⟨s, e, f⟩ := y
    cases s with
    | false => rfl
    | true => exact (neg_neg _).symm
  have hinv (y : Double) : - -y = y := by
    obtain ⟨s, e, f⟩ := y
    cases s <;> rfl
  have hdist (y : Double) : |-q - y.toRat| = |q - (-y).toRat| := by
    rw [hrat, ← abs_neg]
    congr 1
    ring
  refine ⟨h.isFinite, by rw [abs_neg]; exact h.inRange, fun y hy => ?_, fun y hy heq hne => ?_⟩
  · rw [hdist, hdist, hinv]
    exact h.le (-y) hy
  · rw [hdist, hdist, hinv] at heq
    refine h.even (-y) hy heq fun h' => hne ?_
    rw [hrat, ← h', hrat, neg_neg]

lemma IsNearest.withSign {q : ℚ} (h : IsNearest q x) (negative : Bool) :
    IsNearest (withSign negative q) ⟨x.negative ^^ negative, x.exponent, x.fraction⟩ := by
  cases negative with
  | false => rwa [Bool.xor_false]
  | true =>
    rw [Bool.xor_true]
    exact h.neg

theorem isNearest_withSign_iff (hx : x.isFinite = true) (hzero : x.isZero = false) {q : ℚ} :
    IsNearest (withSign x.negative q) x ↔ Rounds q x.magnitude := by
  have hpos := magnitude_pos hzero
  obtain ⟨s, e, f⟩ := x
  have hinv : withSign s (withSign s q) = q := by cases s <;> simp
  constructor
  · intro h
    have h' := h.withSign s
    rw [hinv] at h'
    exact rounds_of_isNearest (x := ⟨s ^^ s, e, f⟩) (Bool.xor_self s) hpos h'
  · intro h
    have h' := (isNearest_of_rounds (x := ⟨false, e, f⟩) hx rfl ?_ h).withSign s
    · rwa [Bool.false_xor] at h'
    · exact (zpow_nonneg zero_le_two _).trans (h.pos hpos)

lemma magnitude_of_isFinite_ofMagnitude {negative : Bool} {n : ℕ}
    (h : (ofMagnitude negative n).isFinite = true) :
    (ofMagnitude negative n).magnitude = n := by
  rcases le_total n infiniteMagnitude with hle | hle
  · exact magnitude_ofMagnitude negative hle
  · have hclamp : ofMagnitude negative n = ofMagnitude negative infiniteMagnitude := by
      simp only [ofMagnitude, Nat.min_eq_right hle, Nat.min_self]
    rw [hclamp, isFinite_iff, magnitude_ofMagnitude negative le_rfl] at h
    exact absurd h (lt_irrefl _)

theorem isNearest_nearest (num : ℕ) {den : ℕ} (hden : 0 < den)
    (h : (nearest false num den).isFinite = true) : IsNearest (num / den) (nearest false num den) := by
  obtain ⟨n, hn, hround⟩ := exists_rounds_nearest false num hden
  rw [hn] at h ⊢
  rw [← magnitude_of_isFinite_ofMagnitude h] at hround
  exact isNearest_of_rounds h rfl (by positivity) hround

lemma isNearest_zero (hx : x.isFinite = true) (hzero : x.isZero = true) : IsNearest 0 x := by
  have hmagnitude := (isZero_iff x).mp hzero
  have hrat : x.toRat = 0 := by
    rw [toRat_eq, hmagnitude, grid_zero]
    cases x.negative <;> simp
  refine ⟨hx, ?_, fun y _ => ?_, fun y _ heq hne => ?_⟩
  · rw [abs_zero, sub_pos]
    exact pow_lt_pow_right₀ one_lt_two (by norm_num)
  · rw [hrat, sub_zero, abs_zero]
    exact abs_nonneg _
  · rw [even_significand_iff, hmagnitude]
    exact Nat.even_iff.mpr rfl

end Double
end MetaInline
