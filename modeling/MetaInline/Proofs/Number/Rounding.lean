import Mathlib
import MetaInline.Proofs.Number.Notation

/-! Rounding to doubles. The finite doubles of one sign are a grid that is finer towards zero. What lies
between the two limits of a grid point, half way to its neighbours, is rounded to it, and a limit itself
if the grid point is even. -/

namespace MetaInline

section Powers

variable {b : ℕ} (hb : 0 < b) (e : ℤ)

include hb in
lemma zpow_mul_toNat : (b : ℚ) ^ e * b ^ (-e).toNat = b ^ e.toNat := by
  have hne : (b : ℚ) ≠ 0 := by exact_mod_cast hb.ne'
  rcases le_total 0 e with he | he
  · obtain ⟨n, rfl⟩ := Int.eq_ofNat_of_zero_le he
    simp
  · obtain ⟨n, hn⟩ := Int.eq_ofNat_of_zero_le (neg_nonneg.mpr he)
    obtain rfl : e = -n := by omega
    simp [hne]

variable (num : ℕ) {den : ℕ} (hden : 0 < den)

include hb hden

lemma div_eq_mul_zpow : (num : ℚ) / den =
    ((num * b ^ (-e).toNat : ℕ) : ℚ) / (den * b ^ e.toNat : ℕ) * b ^ e := by
  have hpow := zpow_mul_toNat hb e
  have hne : (b : ℚ) ≠ 0 := by exact_mod_cast hb.ne'
  have hd : (den : ℚ) ≠ 0 := by exact_mod_cast hden.ne'
  push_cast
  rw [← hpow]
  field_simp

lemma div_lt_mul_zpow_iff (c : ℕ) : (num : ℚ) / den < c * (b : ℚ) ^ e ↔
    num * b ^ (-e).toNat < c * (den * b ^ e.toNat) := by
  have hpos : 0 < den * b ^ e.toNat := by positivity
  have hunit : 0 < (b : ℚ) ^ e := by positivity
  rw [div_eq_mul_zpow hb e num hden, mul_lt_mul_iff_left₀ hunit, div_lt_iff₀ (by exact_mod_cast hpos)]
  exact_mod_cast Iff.rfl

end Powers

lemma zpow_le_zpow_of_mul_le {a b : ℚ} (ha : 1 ≤ a) (hb : 0 < b) {m n : ℕ} (hm : m ≠ 0) {i j : ℤ}
    (hij : i * m ≤ n * j) (h : (a ^ n) ^ j ≤ (b ^ m) ^ j) : a ^ i ≤ b ^ j := by
  refine (pow_le_pow_iff_left₀ (by positivity) (by positivity) hm).mp ?_
  calc (a ^ i) ^ m = a ^ (i * m) := by rw [zpow_mul, zpow_natCast]
    _ ≤ a ^ (n * j) := zpow_le_zpow_right₀ ha hij
    _ = (a ^ n) ^ j := by rw [zpow_mul, zpow_natCast]
    _ ≤ (b ^ m) ^ j := h
    _ = (b ^ j) ^ m := by rw [← zpow_natCast, ← zpow_natCast, ← zpow_mul, ← zpow_mul, mul_comm]

lemma zpow_le_zpow_left_of_nonpos {a b : ℚ} (ha : 0 < a) (hab : a ≤ b) {j : ℤ} (hj : j ≤ 0) :
    b ^ j ≤ a ^ j := by
  obtain ⟨k, rfl⟩ : ∃ k : ℕ, j = -k := ⟨(-j).toNat, by omega⟩
  rw [zpow_neg, zpow_neg, zpow_natCast, zpow_natCast]
  gcongr

lemma ten_zpow_le_two_zpow {i j : ℤ} (h : 10 * i ≤ 3 * j) (h' : 93 * i ≤ 28 * j) :
    (10 : ℚ) ^ i ≤ 2 ^ j := by
  rcases le_total 0 j with hj | hj
  · refine zpow_le_zpow_of_mul_le (m := 10) (n := 3) (by norm_num) two_pos (by norm_num)
      (by push_cast; omega) ?_
    exact zpow_le_zpow_left₀ hj (by norm_num) (by norm_num)
  · refine zpow_le_zpow_of_mul_le (m := 93) (n := 28) (by norm_num) two_pos (by norm_num)
      (by push_cast; omega) ?_
    exact zpow_le_zpow_left_of_nonpos (by norm_num) (by norm_num) hj

lemma two_zpow_le_ten_zpow {i j : ℤ} (h : 3 * j ≤ 10 * i) (h' : 28 * j ≤ 93 * i) :
    (2 : ℚ) ^ j ≤ 10 ^ i := by
  rcases le_total 0 i with hi | hi
  · refine zpow_le_zpow_of_mul_le (m := 28) (n := 93) (by norm_num) (by norm_num) (by norm_num)
      (by push_cast; omega) ?_
    exact zpow_le_zpow_left₀ hi (by norm_num) (by norm_num)
  · refine zpow_le_zpow_of_mul_le (m := 3) (n := 10) (by norm_num) (by norm_num) (by norm_num)
      (by push_cast; omega) ?_
    exact zpow_le_zpow_left_of_nonpos (by norm_num) (by norm_num) hi

namespace Double

def scale (n : ℕ) : ℕ :=
  n / 2 ^ 52 - 1

/-- The number that has `n` representable ones of its sign below it. -/
def grid (n : ℕ) : ℚ :=
  (n - scale n * 2 ^ 52 : ℕ) * 2 ^ (scale n - 1074 : ℤ)

def Digits53 (p k : ℕ) : Prop :=
  k ≤ 2 ^ 53 ∧ (p = 0 ∨ 2 ^ 52 ≤ k)

lemma grid_eq {p k : ℕ} (h : Digits53 p k) : grid (p * 2 ^ 52 + k) = k * 2 ^ (p - 1074 : ℤ) := by
  obtain ⟨hk, hp⟩ := h
  rcases hk.lt_or_eq with hk | rfl
  · have hscale : scale (p * 2 ^ 52 + k) = p := by
      unfold scale
      omega
    rw [grid, hscale, Nat.add_sub_cancel_left]
  · have hscale : scale (p * 2 ^ 52 + 2 ^ 53) = p + 1 := by
      unfold scale
      omega
    have hrest : p * 2 ^ 52 + 2 ^ 53 - (p + 1) * 2 ^ 52 = 2 ^ 52 := by omega
    have hexp : ((p + 1 : ℕ) - 1074 : ℤ) = (p - 1074 : ℤ) + 1 := by
      push_cast
      ring
    rw [grid, hscale, hrest, hexp, zpow_add₀ two_ne_zero]
    push_cast
    ring

lemma exists_digits53 (n : ℕ) :
    ∃ p k, n = p * 2 ^ 52 + k ∧ k < 2 ^ 53 ∧ (p = 0 ∨ 2 ^ 52 ≤ k) ∧ p = scale n := by
  refine ⟨scale n, n - scale n * 2 ^ 52, ?_, ?_, ?_, rfl⟩ <;> unfold scale <;> omega

lemma grid_succ (n : ℕ) : grid (n + 1) = grid n + 2 ^ (scale n - 1074 : ℤ) := by
  obtain ⟨p, k, rfl, hk, hp, hscale⟩ := exists_digits53 n
  rw [← hscale, add_assoc, grid_eq ⟨hk, by omega⟩, grid_eq ⟨hk.le, hp⟩]
  push_cast
  ring

lemma grid_strictMono : StrictMono grid :=
  strictMono_nat_of_lt_succ fun n => by
    rw [grid_succ]
    exact lt_add_of_pos_right _ (by positivity)

@[simp] lemma grid_zero : grid 0 = 0 := by
  simp [grid, scale]

lemma grid_nonneg (n : ℕ) : 0 ≤ grid n := by
  rw [← grid_zero]
  exact grid_strictMono.monotone (Nat.zero_le n)

def limit (n : ℕ) : ℚ :=
  (grid n + grid (n + 1)) / 2

lemma grid_lt_limit (n : ℕ) : grid n < limit n ∧ limit n < grid (n + 1) := by
  have h := grid_strictMono (Nat.lt_succ_self n)
  unfold limit
  constructor <;> linarith

lemma limit_strictMono : StrictMono limit :=
  strictMono_nat_of_lt_succ fun n => (grid_lt_limit n).2.trans (grid_lt_limit (n + 1)).1

structure Rounds (q : ℚ) (n : ℕ) : Prop where
  lower : ∀ m, n = m + 1 → limit m ≤ q
  upper : q ≤ limit n
  even : q = limit n ∨ (∃ m, n = m + 1 ∧ q = limit m) → Even n

lemma Rounds.unique {q : ℚ} {m n : ℕ} (hm : Rounds q m) (hn : Rounds q n) : m = n := by
  have hle : ∀ {m n : ℕ}, Rounds q m → Rounds q n → ¬ m < n := by
    intro m n hm hn hlt
    obtain ⟨k, rfl⟩ := Nat.exists_eq_add_of_lt hlt
    have hlower := hn.lower (m + k) rfl
    have hmono := limit_strictMono.monotone (Nat.le_add_right m k)
    have hq : q = limit m := le_antisymm hm.upper (hmono.trans hlower)
    have hk : limit m = limit (m + k) := le_antisymm hmono (hlower.trans hm.upper)
    obtain rfl : k = 0 := by
      have := limit_strictMono.injective hk
      omega
    have heven := hm.even (Or.inl hq)
    have heven' := hn.even (Or.inr ⟨m, rfl, hq⟩)
    rw [Nat.even_iff] at heven heven'
    omega
  exact le_antisymm (not_lt.mp (hle hn hm)) (not_lt.mp (hle hm hn))

lemma Rounds.of_between {q r s : ℚ} {n : ℕ} (hq : Rounds q n) (hs : Rounds s n) (hqr : q ≤ r)
    (hrs : r ≤ s) : Rounds r n := by
  refine ⟨fun m hm => (hq.lower m hm).trans hqr, hrs.trans hs.upper, ?_⟩
  rintro (h | ⟨m, hm, h⟩)
  · exact hs.even (Or.inl (le_antisymm hs.upper (h ▸ hrs)))
  · exact hq.even (Or.inr ⟨m, hm, le_antisymm (h ▸ hqr) (hq.lower m hm)⟩)

lemma Rounds.self (n : ℕ) : Rounds (grid n) n := by
  have hlt := grid_lt_limit n
  refine ⟨?_, hlt.1.le, ?_⟩
  · rintro m rfl
    exact (grid_lt_limit m).2.le
  · rintro (h | ⟨m, rfl, h⟩)
    · exact absurd h hlt.1.ne
    · exact absurd h (grid_lt_limit m).2.ne'

lemma limit_eq {p k : ℕ} (hk : k < 2 ^ 53) (hp : p = 0 ∨ 2 ^ 52 ≤ k) :
    limit (p * 2 ^ 52 + k) = (k + 1 / 2) * 2 ^ (p - 1074 : ℤ) := by
  rw [limit, add_assoc, grid_eq ⟨hk.le, hp⟩, grid_eq ⟨hk, by omega⟩]
  push_cast
  ring

lemma limit_two_pow (p : ℕ) :
    limit (p * 2 ^ 52 + (2 ^ 53 - 1)) = (2 ^ 52 - 1 / 4) * 2 ^ (p + 1 - 1074 : ℤ) := by
  rw [limit_eq (by omega) (by omega), Nat.cast_sub (by norm_num), add_sub_right_comm (p : ℤ),
    zpow_add_one₀ two_ne_zero]
  push_cast
  ring

lemma limits_eq {p k n : ℕ} (hk : k < 2 ^ 53) (hp : p = 0 ∨ 2 ^ 52 ≤ k) (hn : p * 2 ^ 52 + k = n + 1) :
    limit n = (k - if k = 2 ^ 52 ∧ p ≠ 0 then 1 / 4 else 1 / 2) * 2 ^ (p - 1074 : ℤ) ∧
      limit (n + 1) = (k + 1 / 2) * 2 ^ (p - 1074 : ℤ) := by
  refine ⟨?_, hn ▸ limit_eq hk hp⟩
  split_ifs with h
  · obtain ⟨rfl, hne⟩ := h
    obtain ⟨p, rfl⟩ := Nat.exists_eq_succ_of_ne_zero hne
    obtain rfl : n = p * 2 ^ 52 + (2 ^ 53 - 1) := by omega
    rw [limit_two_pow]
    push_cast
    ring
  · obtain ⟨k, rfl⟩ : ∃ j, k = j + 1 := ⟨k - 1, by omega⟩
    obtain rfl : n = p * 2 ^ 52 + k := by omega
    rw [limit_eq (by omega) (by omega)]
    push_cast
    ring

lemma roundDiv_spec (num : ℕ) {den : ℕ} (hden : 0 < den) :
    (roundDiv num den - 1 / 2 : ℚ) ≤ num / den ∧ (num / den : ℚ) ≤ roundDiv num den + 1 / 2 ∧
      ((num / den : ℚ) = roundDiv num den - 1 / 2 ∨ (num / den : ℚ) = roundDiv num den + 1 / 2 →
        Even (roundDiv num den)) := by
  have hpos : (0 : ℚ) < den := by exact_mod_cast hden
  obtain ⟨hlower, hupper⟩ := roundDiv_near num hden
  set m := roundDiv num den with hm
  refine ⟨?_, ?_, fun h => ?_⟩
  · rw [le_div_iff₀ hpos]
    have : (2 * (m * den) : ℚ) ≤ 2 * num + den := by exact_mod_cast hlower
    linarith
  · rw [div_le_iff₀ hpos]
    have : (2 * num : ℚ) ≤ 2 * (m * den) + den := by exact_mod_cast hupper
    linarith
  · -- half way between two whole numbers the remainder is half of the divisor
    obtain ⟨c, hc⟩ : ∃ c : ℕ, 2 * num = 2 * (c * den) + den := by
      rcases h with h | h
      · rw [div_eq_iff hpos.ne'] at h
        have hm0 : m ≠ 0 := by
          intro h0
          rw [h0, Nat.cast_zero] at h
          have : (0 : ℚ) ≤ num := Nat.cast_nonneg num
          linarith
        obtain ⟨c, hc⟩ := Nat.exists_eq_succ_of_ne_zero hm0
        refine ⟨c, ?_⟩
        rw [hc] at h
        push_cast at h
        have : (2 * num : ℚ) = 2 * (c * den) + den := by linarith
        exact_mod_cast this
      · rw [div_eq_iff hpos.ne'] at h
        refine ⟨m, ?_⟩
        have : (2 * num : ℚ) = 2 * (m * den) + den := by linarith
        exact_mod_cast this
    have hrem : num % den = num - c * den := by
      have hdiv : num / den = c := Nat.div_eq_of_lt_le (by omega) (by rw [Nat.add_mul]; omega)
      have := Nat.div_add_mod' num den
      rw [hdiv] at this
      omega
    exact Nat.even_iff.mpr (roundDiv_even (by omega))

lemma rounds_roundDiv (num p : ℕ) {den : ℕ} (hden : 0 < den) (hlt : (num / den : ℚ) < 2 ^ 53)
    (hp : p = 0 ∨ (2 ^ 52 : ℚ) ≤ num / den) :
    Rounds (num / den * 2 ^ (p - 1074 : ℤ)) (p * 2 ^ 52 + roundDiv num den) := by
  obtain ⟨hlower, hupper, heven⟩ := roundDiv_spec num hden
  set m := roundDiv num den
  set a : ℚ := num / den
  have hunit : (0 : ℚ) < 2 ^ (p - 1074 : ℤ) := by positivity
  have hm : m ≤ 2 ^ 53 := by
    have : (m : ℚ) < (2 ^ 53 + 1 : ℕ) := by push_cast; linarith
    exact Nat.lt_succ_iff.mp (by exact_mod_cast this)
  have hp' : p = 0 ∨ 2 ^ 52 ≤ m := hp.imp_right fun h => by
    have : ((2 ^ 52 : ℕ) : ℚ) < (m + 1 : ℕ) := by push_cast; linarith
    exact Nat.lt_succ_iff.mp (by exact_mod_cast this)
  have hsum (h : Even m) : Even (p * 2 ^ 52 + m) := by
    rw [Nat.even_iff] at h ⊢
    omega
  rcases hm.lt_or_eq with hm | hm
  · refine ⟨fun n hn => ?_, ?_, fun h => hsum ?_⟩
    · rw [(limits_eq hm hp' hn).1, mul_le_mul_iff_left₀ hunit]
      split_ifs with h
      · have := hp.resolve_left h.2
        rw [h.1]
        push_cast
        linarith
      · exact hlower
    · rw [limit_eq hm hp', mul_le_mul_iff_left₀ hunit]
      exact hupper
    · rcases h with h | ⟨n, hn, h⟩
      · rw [limit_eq hm hp', mul_left_inj' hunit.ne'] at h
        exact heven (Or.inr h)
      · rw [(limits_eq hm hp' hn).1, mul_left_inj' hunit.ne'] at h
        split_ifs at h with hk
        · exact hk.1 ▸ by decide
        · exact heven (Or.inl h)
  · have hgrid : grid (p * 2 ^ 52 + m) = 2 ^ 53 * 2 ^ (p - 1074 : ℤ) := by
      rw [grid_eq ⟨hm.le, hp'⟩, hm]
      push_cast
      ring
    refine ⟨fun n hn => ?_, ?_, fun _ => hsum (hm ▸ by decide)⟩
    · obtain rfl : n = p * 2 ^ 52 + (2 ^ 53 - 1) := by omega
      rw [limit_eq (by omega) (by omega), mul_le_mul_iff_left₀ hunit]
      rw [hm] at hlower
      push_cast at hlower ⊢
      linarith
    · refine le_trans ?_ (grid_lt_limit _).1.le
      rw [hgrid, mul_le_mul_iff_left₀ hunit]
      exact hlt.le

lemma zpow_log2_lt {num den : ℕ} (hnum : num ≠ 0) (hden : den ≠ 0) :
    (2 : ℚ) ^ ((num.log2 : ℤ) - den.log2 - 1) < num / den ∧
      (num / den : ℚ) < 2 ^ ((num.log2 : ℤ) - den.log2 + 1) := by
  have hpos : (0 : ℚ) < den := by exact_mod_cast Nat.pos_of_ne_zero hden
  have hnum₁ : (2 : ℚ) ^ num.log2 ≤ num := by exact_mod_cast Nat.log2_self_le hnum
  have hnum₂ : (num : ℚ) < 2 ^ (num.log2 + 1) := by exact_mod_cast Nat.lt_log2_self
  have hden₁ : (2 : ℚ) ^ den.log2 ≤ den := by exact_mod_cast Nat.log2_self_le hden
  have hden₂ : (den : ℚ) < 2 ^ (den.log2 + 1) := by exact_mod_cast Nat.lt_log2_self
  constructor
  · rw [lt_div_iff₀ hpos]
    calc (2 : ℚ) ^ ((num.log2 : ℤ) - den.log2 - 1) * den
        < 2 ^ ((num.log2 : ℤ) - den.log2 - 1) * 2 ^ (den.log2 + 1) := by gcongr
      _ = 2 ^ num.log2 := by
        rw [← zpow_natCast, ← zpow_natCast, ← zpow_add₀ two_ne_zero]
        congr 1
        push_cast
        ring
      _ ≤ num := hnum₁
  · rw [div_lt_iff₀ hpos]
    calc (num : ℚ) < 2 ^ (num.log2 + 1) := hnum₂
      _ = 2 ^ ((num.log2 : ℤ) - den.log2 + 1) * 2 ^ den.log2 := by
        rw [← zpow_natCast, ← zpow_natCast, ← zpow_add₀ two_ne_zero]
        congr 1
        push_cast
        ring
      _ ≤ 2 ^ ((num.log2 : ℤ) - den.log2 + 1) * den := by gcongr

lemma fittingPower_spec {num den : ℕ} (hnum : num ≠ 0) (hden : 0 < den) {e q : ℤ}
    (he : e = num.log2 - den.log2 - 53)
    (hq : q = if num * 2 ^ (-e).toNat < 2 ^ 53 * (den * 2 ^ e.toNat) then e else e + 1) :
    (num / den : ℚ) < 2 ^ 53 * 2 ^ q ∧ (2 ^ 52 : ℚ) * 2 ^ q ≤ num / den := by
  obtain ⟨hlower, hupper⟩ := zpow_log2_lt hnum hden.ne'
  have hfits := div_lt_mul_zpow_iff two_pos e num hden (2 ^ 53)
  rw [Nat.cast_pow, Nat.cast_ofNat] at hfits
  have hpow (i : ℤ) (n : ℕ) : (2 : ℚ) ^ (i + n) = 2 ^ n * 2 ^ i := by
    rw [zpow_add₀ two_ne_zero, zpow_natCast, mul_comm]
  have hindex₁ : (num.log2 : ℤ) - den.log2 - 1 = e + (52 : ℕ) := by omega
  have hindex₂ : (num.log2 : ℤ) - den.log2 + 1 = e + 1 + (53 : ℕ) := by omega
  rw [hindex₁, hpow] at hlower
  rw [hindex₂, hpow] at hupper
  split_ifs at hq with h
  · subst hq
    exact ⟨hfits.mpr h, hlower.le⟩
  · subst hq
    refine ⟨hupper, ?_⟩
    calc (2 ^ 52 * 2 ^ (e + 1) : ℚ) = 2 ^ 53 * 2 ^ e := by
          rw [zpow_add_one₀ two_ne_zero]
          ring
      _ ≤ (num : ℚ) / den := not_lt.mp fun hlt => h (hfits.mp hlt)

lemma roundingPower_spec (num : ℕ) {den : ℕ} (hden : 0 < den) :
    -1074 ≤ roundingPower num den ∧ (num / den : ℚ) < 2 ^ 53 * 2 ^ roundingPower num den ∧
      (roundingPower num den = -1074 ∨ (2 ^ 52 : ℚ) * 2 ^ roundingPower num den ≤ num / den) := by
  by_cases hnum : num = 0
  · subst hnum
    refine ⟨le_rfl, ?_, Or.inl rfl⟩
    rw [Nat.cast_zero, zero_div]
    positivity
  · obtain ⟨q, hq, hlt, hle⟩ : ∃ q, roundingPower num den = max q (-1074) ∧
        (num / den : ℚ) < 2 ^ 53 * 2 ^ q ∧ (2 ^ 52 : ℚ) * 2 ^ q ≤ num / den :=
      ⟨_, if_neg hnum, fittingPower_spec hnum hden rfl rfl⟩
    rw [hq]
    refine ⟨le_max_right _ _, hlt.trans_le ?_, ?_⟩
    · gcongr
      · norm_num
      · exact le_max_left _ _
    · rcases le_total q (-1074) with h | h
      · exact Or.inl (max_eq_right h)
      · exact Or.inr (by rwa [max_eq_left h])

theorem exists_rounds_nearest (negative : Bool) (num : ℕ) {den : ℕ} (hden : 0 < den) :
    ∃ n, nearest negative num den = ofMagnitude negative n ∧ Rounds (num / den) n := by
  obtain ⟨hlast, hlt, hle⟩ := roundingPower_spec num hden
  refine ⟨_, rfl, ?_⟩
  set e := roundingPower num den
  have hunit : (0 : ℚ) < 2 ^ e := by positivity
  have hplace : ((e + 1074).toNat : ℤ) - 1074 = e := by omega
  have hscaled : 0 < den * 2 ^ e.toNat := by positivity
  have hquotient := div_eq_mul_zpow two_pos e num hden
  push_cast at hquotient
  have hround := rounds_roundDiv (num * 2 ^ (-e).toNat) (e + 1074).toNat hscaled
  rw [hplace] at hround
  push_cast at hround
  rw [hquotient] at hlt hle ⊢
  refine hround ((mul_lt_mul_iff_left₀ hunit).mp hlt) (hle.imp (fun h => ?_) fun h => ?_)
  · omega
  · exact (mul_le_mul_iff_left₀ hunit).mp h

lemma nearest_eq {num den n : ℕ} (hden : 0 < den) (h : Rounds (num / den) n) (negative : Bool) :
    nearest negative num den = ofMagnitude negative n := by
  obtain ⟨m, hm, hround⟩ := exists_rounds_nearest negative num hden
  rw [hm, hround.unique h]

end Double

namespace Decimal

variable (d : Decimal)

lemma toRat_eq_div : d.toRat =
    ((d.coefficient * 10 ^ d.exponent.toNat : ℕ) : ℚ) / (10 ^ (-d.exponent).toNat : ℕ) := by
  have hpow := zpow_mul_toNat (b := 10) (by norm_num) d.exponent
  push_cast at hpow ⊢
  rw [← hpow, toRat]
  field_simp

lemma toRat_mono {c c' : ℕ} (h : c ≤ c') (e : ℤ) : toRat ⟨c, e⟩ ≤ toRat ⟨c', e⟩ := by
  unfold toRat
  gcongr

lemma toRat_ten_pow (j : ℕ) (e : ℤ) : toRat ⟨10 ^ j, e⟩ = 10 ^ (e + j) := by
  rw [toRat, zpow_add₀ (by norm_num), zpow_natCast, mul_comm]
  push_cast
  rfl

variable {d}

lemma zpow_le_toRat (h : d.coefficient ≠ 0) :
    (10 : ℚ) ^ (d.exponent + (digits d.coefficient).length - 1) ≤ d.toRat ∧
      d.toRat < 10 ^ (d.exponent + (digits d.coefficient).length) := by
  have hten : (10 : ℚ) ≠ 0 := by norm_num
  obtain ⟨k, hk⟩ : ∃ k, (digits d.coefficient).length = k + 1 :=
    Nat.exists_eq_succ_of_ne_zero (length_digits_pos _).ne'
  have hlower : 10 ^ k ≤ d.coefficient := by
    rcases Nat.eq_zero_or_pos k with rfl | hpos
    · exact Nat.one_le_iff_ne_zero.mpr h
    · exact not_lt.mp fun hlt => absurd ((length_digits_le_iff hpos).mpr hlt) (by omega)
  have hupper : d.coefficient < 10 ^ (k + 1) := (length_digits_le_iff k.succ_pos).mp hk.le
  have hpow (n : ℕ) : (10 : ℚ) ^ (d.exponent + n) = (10 ^ n : ℕ) * 10 ^ d.exponent := by
    rw [zpow_add₀ hten, zpow_natCast, mul_comm]
    push_cast
    rfl
  have hindex : d.exponent + (k + 1 : ℕ) - 1 = d.exponent + k := by
    push_cast
    ring
  rw [hk, hindex, hpow, hpow, toRat]
  exact ⟨by gcongr, by gcongr⟩

end Decimal

namespace Double

lemma grid_infiniteMagnitude : grid infiniteMagnitude = 2 ^ 1024 := by
  have hmagnitude : infiniteMagnitude = 2046 * 2 ^ 52 + 2 ^ 52 := rfl
  have hexp : ((2046 : ℕ) - 1074 : ℤ) = (972 : ℕ) := by norm_num
  rw [hmagnitude, grid_eq ⟨by norm_num, by norm_num⟩, hexp, zpow_natCast, Nat.cast_pow, Nat.cast_ofNat,
    ← pow_add]

lemma limit_zero : limit 0 = 2 ^ (-1075 : ℤ) := by
  have h := limit_eq (p := 0) (k := 0) (by norm_num) (Or.inl rfl)
  have hexp : ((0 : ℕ) - 1074 : ℤ) = -1075 + 1 := by norm_num
  rw [Nat.zero_mul, Nat.add_zero, hexp, zpow_add_one₀ two_ne_zero] at h
  rw [h, Nat.cast_zero]
  ring

lemma Rounds.pos {q : ℚ} {n : ℕ} (h : Rounds q n) (hn : 0 < n) : 2 ^ (-1075 : ℤ) ≤ q := by
  obtain ⟨m, rfl⟩ := Nat.exists_eq_succ_of_ne_zero hn.ne'
  rw [← limit_zero]
  exact (limit_strictMono.monotone m.zero_le).trans (h.lower m rfl)

lemma Rounds.lt {q : ℚ} {n : ℕ} (h : Rounds q n) (hn : n < infiniteMagnitude) : q < 2 ^ 1024 := by
  rw [← grid_infiniteMagnitude]
  calc q ≤ limit n := h.upper
    _ < grid (n + 1) := (grid_lt_limit n).2
    _ ≤ grid infiniteMagnitude := grid_strictMono.monotone hn

theorem toDouble_eq {d : Decimal} (hd : d.coefficient ≠ 0) {n : ℕ} (h : Rounds d.toRat n) (hpos : 0 < n)
    (hfinite : n < infiniteMagnitude) (negative : Bool) : d.toDouble negative = ofMagnitude negative n := by
  obtain ⟨hlower, hupper⟩ := Decimal.zpow_le_toRat hd
  have hmin : ¬ d.exponent + (Decimal.digits d.coefficient).length < -Decimal.rangeBound := by
    intro hlt
    change _ < -(400 : ℤ) at hlt
    have hlt' : (10 : ℚ) ^ (d.exponent + (Decimal.digits d.coefficient).length) ≤ 2 ^ (-1075 : ℤ) :=
      ten_zpow_le_two_zpow (by omega) (by omega)
    exact absurd (h.pos hpos) (not_le.mpr (hupper.trans_le hlt'))
  have hmax : ¬ Decimal.rangeBound < d.exponent + (Decimal.digits d.coefficient).length := by
    intro hlt
    change (400 : ℤ) < _ at hlt
    have hlt' : (2 : ℚ) ^ (1024 : ℤ) ≤ 10 ^ (d.exponent + (Decimal.digits d.coefficient).length - 1) :=
      two_zpow_le_ten_zpow (by omega) (by omega)
    exact absurd (h.lt hfinite) (not_lt.mpr (hlt'.trans hlower))
  rw [Decimal.toDouble, if_neg (not_or.mpr ⟨hd, hmin⟩), if_neg hmax]
  refine nearest_eq (pow_pos (by norm_num) _) ?_ negative
  rw [Decimal.toRat_eq_div] at h
  exact_mod_cast h

end Double
end MetaInline
