import Mathlib
import MetaInline.Literal.Numeric

namespace MetaInline

lemma span_append_of_forall {α : Type*} {p : α → Bool} {xs ys : List α} (hxs : ∀ x ∈ xs, p x = true)
    (hys : ∀ y ∈ ys.head?, p y = false) : (xs ++ ys).span p = (xs, ys) := by
  rw [List.span_eq_takeWhile_dropWhile]
  have hnone : ys.takeWhile p = [] ∧ ys.dropWhile p = ys := by
    cases ys with
    | nil => exact ⟨rfl, rfl⟩
    | cons y ys => simp [hys y rfl]
  rw [List.takeWhile_append_of_pos hxs, List.dropWhile_append_of_pos hxs, hnone.1, hnone.2,
    List.append_nil]

def IsDigits (cs : List Char) : Prop :=
  ∀ c ∈ cs, c.isDigit = true

@[simp] lemma isDigits_nil : IsDigits [] := nofun

@[simp] lemma isDigits_cons {c : Char} {cs : List Char} :
    IsDigits (c :: cs) ↔ c.isDigit = true ∧ IsDigits cs :=
  List.forall_mem_cons

@[simp] lemma isDigits_append {cs ds : List Char} :
    IsDigits (cs ++ ds) ↔ IsDigits cs ∧ IsDigits ds :=
  List.forall_mem_append

@[simp] lemma isDigits_zeros (n : ℕ) : IsDigits (List.replicate n '0') := by
  intro c hc
  rw [List.eq_of_mem_replicate hc]
  rfl

lemma toNat_of_isDigit {c : Char} (h : c.isDigit = true) : 48 ≤ c.toNat ∧ c.toNat ≤ 57 := by
  simp only [Char.isDigit, Bool.and_eq_true, decide_eq_true_eq, ge_iff_le, UInt32.le_iff_toNat_le] at h
  exact h

lemma ne_of_isDigit {c d : Char} (h : c.isDigit = true) (hd : d.isDigit = false) : c ≠ d := by
  rintro rfl
  rw [h] at hd
  cases hd

namespace Decimal

lemma ofDigits_eq (cs : List Char) : ofDigits cs = Nat.ofDigitChars 10 cs 0 :=
  Nat.ofDigitChars_eq_foldl.symm

lemma ofDigits_append (cs ds : List Char) :
    ofDigits (cs ++ ds) = 10 ^ ds.length * ofDigits cs + ofDigits ds := by
  simp only [ofDigits_eq, Nat.ofDigitChars_append]
  exact Nat.ofDigitChars_eq_ofDigitChars_zero

@[simp] lemma ofDigits_zeros (n : ℕ) : ofDigits (List.replicate n '0') = 0 := by
  rw [ofDigits_eq, Nat.ofDigitChars_replicate_zero, Nat.mul_zero]

@[simp] lemma ofDigits_digits (n : ℕ) : ofDigits (digits n) = n := by
  rw [ofDigits_eq, digits, Nat.ofDigitChars_ten_toDigits]

lemma isDigits_digits (n : ℕ) : IsDigits (digits n) :=
  fun _ hc => Nat.isDigit_of_mem_toDigits (by decide) le_rfl hc

lemma length_digits_pos (n : ℕ) : 0 < (digits n).length :=
  Nat.length_toDigits_pos

lemma length_digits_le_iff {n k : ℕ} (hk : 0 < k) : (digits n).length ≤ k ↔ n < 10 ^ k :=
  Nat.length_toDigits_le_iff (by decide) hk

lemma exists_digits_eq_cons {n : ℕ} (hn : n ≠ 0) : ∃ c cs, digits n = c :: cs ∧ c ≠ '0' := by
  induction n using Nat.strong_induction_on with
  | h n ih =>
    rcases lt_or_ge n 10 with h | h
    · refine ⟨n.digitChar, [], Nat.toDigits_of_lt_base h, fun hzero => hn ?_⟩
      exact Nat.digitChar_eq_zero.mp hzero
    · obtain ⟨c, cs, hdigits, hc⟩ := ih (n / 10) (by omega) (by omega)
      refine ⟨c, cs ++ [(n % 10).digitChar], ?_, hc⟩
      rw [digits, Nat.toDigits_of_base_le (by decide) h, ← digits, hdigits]
      rfl

lemma digits_eq (n : ℕ) : digits n = ['0'] ∨ ∃ c cs, digits n = c :: cs ∧ c ≠ '0' := by
  by_cases hn : n = 0
  · exact Or.inl (by rw [hn]; rfl)
  · exact Or.inr (exists_digits_eq_cons hn)

end Decimal

namespace Numeric

lemma digitValue?_of_isDigit {c : Char} (h : c.isDigit = true) :
    digitValue? 10 c = some (Decimal.digitValue c) := by
  have hc := toNat_of_isDigit h
  have hrange : '0' ≤ c ∧ c ≤ '9' := by
    simpa [Char.le_def, UInt32.le_iff_toNat_le] using hc
  have hzero : '0'.toNat = 48 := rfl
  have hlt : Decimal.digitValue c < 10 := by
    rw [Decimal.digitValue, hzero]
    omega
  rw [digitValue?]
  simp only [hrange, and_self, if_true]
  exact if_pos hlt

lemma isDigit_ten (c : Char) : isDigit 10 c = c.isDigit := by
  rw [Bool.eq_iff_iff]
  constructor
  · intro h
    have hrange : '0' ≤ c ∧ c ≤ '9' := by
      by_contra hrange
      rw [isDigit, digitValue?] at h
      simp only [hrange, if_false] at h
      split_ifs at h <;> first | omega | cases h
    simpa [Char.isDigit, Char.le_def] using hrange
  · intro h
    rw [isDigit, digitValue?_of_isDigit h]
    rfl

lemma ofDigits?_eq {cs : List Char} (h : IsDigits cs) (hne : cs ≠ []) :
    ofDigits? 10 cs = some (Decimal.ofDigits cs) := by
  have hfold (n : ℕ) : cs.foldlM (fun n c => (digitValue? 10 c).map (10 * n + ·)) n =
      some (cs.foldl (fun n c => 10 * n + Decimal.digitValue c) n) := by
    clear hne
    induction cs generalizing n with
    | nil => rfl
    | cons c cs ih =>
      obtain ⟨hc, hcs⟩ := isDigits_cons.mp h
      rw [List.foldlM_cons, digitValue?_of_isDigit hc, List.foldl_cons]
      exact ih hcs _
  rw [ofDigits?, if_neg hne]
  exact hfold 0

lemma withoutSeparators_eq {cs : List Char} (h : '_' ∉ cs) : withoutSeparators cs = cs := by
  refine List.filter_eq_self.mpr fun c hc => ?_
  have hne : c ≠ '_' := fun heq => h (heq ▸ hc)
  simpa using hne

lemma underscore_notMem {cs : List Char} (h : IsDigits cs) : '_' ∉ cs :=
  fun hmem => absurd (h _ hmem) (by decide)

end Numeric
end MetaInline
