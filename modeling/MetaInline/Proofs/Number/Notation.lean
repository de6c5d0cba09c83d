import Mathlib
import MetaInline.Literal.Basic
import MetaInline.Proofs.Number.Digits

namespace MetaInline

structure Numeral where
  whole : List Char
  fraction : List Char
  exponent : Option ℤ
  isDigits_whole : IsDigits whole
  isDigits_fraction : IsDigits fraction
  whole_eq : whole = ['0'] ∨ ∃ c cs, whole = c :: cs ∧ c ≠ '0'

namespace Decimal

def toRat (d : Decimal) : ℚ :=
  d.coefficient * 10 ^ d.exponent

end Decimal

namespace Numeral

def sign (e : ℤ) : Text :=
  if e < 0 then ['-'] else []

def exponentText : Option ℤ → Text
  | none => []
  | some e => 'e' :: (sign e ++ Decimal.digits e.natAbs)

def fractionText (ds : List Char) : Text :=
  if ds = [] then [] else '.' :: ds

def text (l : Numeral) : Text :=
  l.whole ++ (fractionText l.fraction ++ exponentText l.exponent)

def value (l : Numeral) : ℚ :=
  (Decimal.ofDigits l.whole + Decimal.ofDigits l.fraction / 10 ^ l.fraction.length) *
    10 ^ l.exponent.getD 0

def decimal (l : Numeral) : Decimal :=
  .ofParts l.whole l.fraction (l.exponent.getD 0)

lemma toRat_decimal (l : Numeral) : l.decimal.toRat = l.value := by
  have hten : (10 : ℚ) ≠ 0 := by norm_num
  rw [Decimal.toRat, decimal, Decimal.ofParts, Decimal.ofDigits_append, zpow_sub₀ hten, zpow_natCast,
    value]
  push_cast
  field_simp

lemma exists_whole_eq_cons (l : Numeral) : ∃ c cs, l.whole = c :: cs ∧ c.isDigit = true := by
  rcases l.whole_eq with h | ⟨c, cs, h, -⟩
  · exact ⟨'0', [], h, rfl⟩
  · exact ⟨c, cs, h, l.isDigits_whole c (by simp [h])⟩

lemma exponent_exponentText (e : Option ℤ) :
    Numeric.exponent ((exponentText e).drop 1) = e.getD 0 := by
  cases e with
  | none => rfl
  | some e =>
    change Numeric.exponent (sign e ++ Decimal.digits e.natAbs) = e
    unfold sign
    split_ifs with he
    · change -(Decimal.ofDigits (Decimal.digits e.natAbs) : ℤ) = e
      rw [Decimal.ofDigits_digits]
      omega
    · obtain ⟨c, cs, hcs⟩ := List.exists_cons_of_length_pos (Decimal.length_digits_pos e.natAbs)
      have hc : c.isDigit = true := Decimal.isDigits_digits e.natAbs c (by simp [hcs])
      have hunsigned : Numeric.exponent (c :: cs) = Decimal.ofDigits (c :: cs) := by
        unfold Numeric.exponent
        split
        · next heq =>
          cases heq
          cases hc
        · next heq =>
          cases heq
          cases hc
        · rfl
      rw [List.nil_append, hcs, hunsigned, ← hcs, Decimal.ofDigits_digits]
      omega

lemma not_isDigit_of_mem_head?_exponentText {e : Option ℤ} {c : Char}
    (h : c ∈ (exponentText e).head?) : Numeric.isDigit 10 c = false := by
  cases e with
  | none => cases h
  | some e =>
    cases h
    rfl

lemma span_isDigit {ds rest : List Char} (h : IsDigits ds)
    (hrest : ∀ c ∈ rest.head?, Numeric.isDigit 10 c = false) :
    (ds ++ rest).span (Numeric.isDigit 10) = (ds, rest) :=
  span_append_of_forall (fun c hc => by rw [Numeric.isDigit_ten]; exact h c hc) hrest

lemma decimal_text (l : Numeral) : Numeric.decimal l.text = l.decimal := by
  have hexponent := exponent_exponentText l.exponent
  rw [text, fractionText, Numeric.decimal]
  by_cases hf : l.fraction = []
  · have hspan := span_isDigit l.isDigits_whole fun c hc =>
      not_isDigit_of_mem_head?_exponentText (e := l.exponent) hc
    rw [if_pos hf, List.nil_append, hspan]
    simp only
    split
    · next cs heq =>
      have hhead : '.' ∈ (exponentText l.exponent).head? := by rw [heq]; rfl
      cases he : l.exponent with
      | none => simp [he, exponentText] at heq
      | some e => simp [he, exponentText] at heq
    · rw [hexponent, decimal, hf]
  · have hpoint : ∀ c ∈ ('.' :: (l.fraction ++ exponentText l.exponent)).head?,
        Numeric.isDigit 10 c = false := by
      intro c hc
      cases hc
      rfl
    have hspan := span_isDigit l.isDigits_whole hpoint
    have hfraction := span_isDigit l.isDigits_fraction fun c hc =>
      not_isDigit_of_mem_head?_exponentText (e := l.exponent) hc
    rw [if_neg hf, List.cons_append, hspan]
    simp only [hfraction, hexponent, decimal]

lemma of_mem_text {l : Numeral} {c : Char} (h : c ∈ l.text) :
    c.isDigit = true ∨ c = '.' ∨ c = 'e' ∨ c = '-' := by
  rw [text, List.mem_append, List.mem_append] at h
  rcases h with h | h | h
  · exact Or.inl (l.isDigits_whole c h)
  · unfold fractionText at h
    split_ifs at h
    · cases h
    · rcases List.mem_cons.mp h with rfl | h
      · exact Or.inr (Or.inl rfl)
      · exact Or.inl (l.isDigits_fraction c h)
  · cases he : l.exponent with
    | none => simp [he, exponentText] at h
    | some e =>
      simp only [he, exponentText, sign, List.mem_cons, List.mem_append] at h
      rcases h with rfl | h | h
      · exact Or.inr (Or.inr (Or.inl rfl))
      · split_ifs at h
        · exact Or.inr (Or.inr (Or.inr (List.mem_singleton.mp h)))
        · cases h
      · exact Or.inl (Decimal.isDigits_digits _ c h)

lemma text_eq_zero_cons {l : Numeral} {c : Char} {cs : Text} (h : l.text = '0' :: c :: cs) :
    c = '.' ∨ c = 'e' := by
  rcases l.whole_eq with hw | ⟨d, ds, hw, hd⟩
  · rw [text, hw, List.singleton_append, List.cons.injEq] at h
    have hrest := h.2
    unfold fractionText at hrest
    split_ifs at hrest
    · cases he : l.exponent with
      | none => simp [he, exponentText] at hrest
      | some e =>
        simp only [he, exponentText, List.nil_append, List.cons.injEq] at hrest
        exact Or.inr hrest.1.symm
    · rw [List.cons_append, List.cons.injEq] at hrest
      exact Or.inl hrest.1.symm
  · rw [text, hw, List.cons_append, List.cons.injEq] at h
    exact absurd h.1 hd

theorem number_text (l : Numeral) : Numeric.number l.text = l.decimal.toDouble false := by
  have hseparator : '_' ∉ l.text := fun h => absurd (of_mem_text h) (by decide)
  rw [Numeric.number, Numeric.withoutSeparators_eq hseparator]
  split
  · next c cs heq =>
    have hoctal : ¬ (c :: cs).all (Numeric.isDigit 8) = true := by
      rcases text_eq_zero_cons heq with rfl | rfl
      · exact fun hall => absurd (List.all_eq_true.mp hall '.' (by simp)) (by decide)
      · exact fun hall => absurd (List.all_eq_true.mp hall 'e' (by simp)) (by decide)
    have hradix : Numeric.radixOf? c = none := by
      rcases text_eq_zero_cons heq with rfl | rfl <;> rfl
    rw [hradix]
    simp only
    rw [if_neg hoctal, ← heq, decimal_text]
  · rw [decimal_text]

end Numeral

structure Numeral.Spells (l : Numeral) (d : Decimal) : Prop where
  value_eq : l.value = d.toRat
  digits_eq : ∃ m n, l.whole ++ l.fraction =
      List.replicate m '0' ++ (Decimal.digits d.coefficient ++ List.replicate n '0') ∧
    (n ≠ 0 → l.fraction = []) ∧ (l.exponent ≠ none → m = 0 ∧ n = 0)
  length_whole : l.exponent ≠ none → l.whole.length = 1

namespace Double

variable {d : Decimal}

theorem exists_spells_exponentForm (h : d.coefficient ≠ 0) :
    ∃ l : Numeral, l.text = exponentForm d ∧ l.Spells d ∧ l.exponent ≠ none := by
  obtain ⟨c, cs, hdigits, hc⟩ := Decimal.exists_digits_eq_cons h
  have hall := Decimal.isDigits_digits d.coefficient
  rw [hdigits, isDigits_cons] at hall
  refine ⟨⟨[c], cs, some (d.exponent + cs.length), by simpa using hall.1, hall.2,
    Or.inr ⟨c, [], rfl, hc⟩⟩, ?_,
    ⟨?_, ⟨0, 0, by simp [hdigits], absurd rfl, fun _ => ⟨rfl, rfl⟩⟩, fun _ => rfl⟩, Option.some_ne_none _⟩
  · simp [Numeral.text, Numeral.fractionText, Numeral.exponentText, Numeral.sign, exponentForm, hdigits]
  · have hcoefficient : (d.coefficient : ℚ) =
        Decimal.ofDigits [c] * 10 ^ cs.length + Decimal.ofDigits cs := by
      have hsplit := Decimal.ofDigits_append [c] cs
      rw [List.singleton_append, ← hdigits, Decimal.ofDigits_digits] at hsplit
      rw [hsplit]
      push_cast
      ring
    have hten : (10 : ℚ) ≠ 0 := by norm_num
    simp only [Numeral.value, Decimal.toRat, Option.getD_some, hcoefficient, zpow_add₀ hten,
      zpow_natCast]
    field_simp

lemma exists_spells_whole (h : d.coefficient ≠ 0) (he : 0 ≤ d.exponent) :
    ∃ l : Numeral, l.text = Decimal.digits d.coefficient ++ List.replicate d.exponent.toNat '0' ∧
      l.Spells d ∧ l.exponent = none := by
  obtain ⟨c, cs, hdigits, hc⟩ := Decimal.exists_digits_eq_cons h
  have hall := Decimal.isDigits_digits d.coefficient
  set zeros := List.replicate d.exponent.toNat '0' with hzeros
  have hwhole : IsDigits (Decimal.digits d.coefficient ++ zeros) :=
    isDigits_append.mpr ⟨hall, isDigits_zeros _⟩
  let l : Numeral := ⟨Decimal.digits d.coefficient ++ zeros, [], none, hwhole, isDigits_nil,
    Or.inr ⟨c, cs ++ zeros, by rw [hdigits, List.cons_append], hc⟩⟩
  refine ⟨l, by simp [l, Numeral.text, Numeral.fractionText, Numeral.exponentText],
    ⟨?_, ⟨0, d.exponent.toNat, by simp [l, hzeros], fun _ => rfl, absurd rfl⟩, absurd rfl⟩, rfl⟩
  have hpower : (10 : ℚ) ^ d.exponent = 10 ^ d.exponent.toNat := by
    conv_lhs => rw [← Int.toNat_of_nonneg he, zpow_natCast]
  simp only [l, hzeros, Numeral.value, Decimal.toRat, Decimal.ofDigits_append, Decimal.ofDigits_digits,
    Decimal.ofDigits_zeros, List.length_replicate, hpower]
  simp [Decimal.ofDigits, mul_comm]

lemma exists_spells_split (h : d.coefficient ≠ 0) {k : ℕ} (he : d.exponent = -k) (hk : 0 < k)
    (hlt : k < (Decimal.digits d.coefficient).length) :
    ∃ l : Numeral, l.text = (Decimal.digits d.coefficient).take ((Decimal.digits d.coefficient).length - k) ++
        '.' :: (Decimal.digits d.coefficient).drop ((Decimal.digits d.coefficient).length - k) ∧
      l.Spells d ∧ l.exponent = none := by
  obtain ⟨c, cs, hdigits, hc⟩ := Decimal.exists_digits_eq_cons h
  have hall := Decimal.isDigits_digits d.coefficient
  have hvalue := Decimal.ofDigits_digits d.coefficient
  set ds := Decimal.digits d.coefficient with hds
  have hsplit : ds.take (ds.length - k) ++ ds.drop (ds.length - k) = ds := List.take_append_drop ..
  have hlength : (ds.drop (ds.length - k)).length = k := by
    rw [List.length_drop]
    omega
  obtain ⟨hwhole, hfraction⟩ := isDigits_append.mp (hsplit.symm ▸ hall)
  obtain ⟨n, hn⟩ : ∃ n, ds.length - k = n + 1 := ⟨ds.length - k - 1, by omega⟩
  let l : Numeral := ⟨ds.take (ds.length - k), ds.drop (ds.length - k), none, hwhole, hfraction,
    Or.inr ⟨c, cs.take n, by rw [hn, hdigits, List.take_succ_cons], hc⟩⟩
  have hne : ds.drop (ds.length - k) ≠ [] := by
    rw [← List.length_pos_iff_ne_nil, hlength]
    exact hk
  refine ⟨l, by simp [l, Numeral.text, Numeral.fractionText, Numeral.exponentText, hne],
    ⟨?_, ⟨0, 0, by simp [l, hsplit, ← hds], absurd rfl, absurd rfl⟩, absurd rfl⟩, rfl⟩
  rw [← Numeral.toRat_decimal]
  simp [l, Numeral.decimal, Decimal.ofParts, Decimal.toRat, hsplit, hvalue, hlength, he,
    -List.take_append_drop]

lemma exists_spells_fraction (h : d.coefficient ≠ 0) {k : ℕ} (he : d.exponent = -k)
    (hle : (Decimal.digits d.coefficient).length ≤ k) :
    ∃ l : Numeral, l.text = '0' :: '.' ::
        (List.replicate (k - (Decimal.digits d.coefficient).length) '0' ++ Decimal.digits d.coefficient) ∧
      l.Spells d ∧ l.exponent = none := by
  obtain ⟨c, cs, hdigits, -⟩ := Decimal.exists_digits_eq_cons h
  have hall := Decimal.isDigits_digits d.coefficient
  have hvalue := Decimal.ofDigits_digits d.coefficient
  set ds := Decimal.digits d.coefficient with hds
  let zeros := List.replicate (k - ds.length) '0'
  let l : Numeral := ⟨['0'], zeros ++ ds, none, by simp, by simp [zeros, hall], Or.inl rfl⟩
  have hne : zeros ++ ds ≠ [] := by simp [hdigits]
  have hlength : (zeros ++ ds).length = k := by
    rw [List.length_append, List.length_replicate]
    omega
  have hdigitsValue : Decimal.ofDigits (['0'] ++ (zeros ++ ds)) = d.coefficient := by
    rw [Decimal.ofDigits_append, Decimal.ofDigits_append, Decimal.ofDigits_zeros, hvalue]
    simp [Decimal.ofDigits, Decimal.digitValue]
  refine ⟨l, by simp [l, zeros, Numeral.text, Numeral.fractionText, Numeral.exponentText, hne],
    ⟨?_, ⟨k - ds.length + 1, 0, by simp [l, zeros, ← hds, List.replicate_succ], absurd rfl, absurd rfl⟩,
      absurd rfl⟩, rfl⟩
  rw [← Numeral.toRat_decimal]
  simp only [l, Numeral.decimal, Decimal.ofParts, Decimal.toRat, hdigitsValue, hlength, he]
  simp

theorem exists_spells_positionalForm (h : d.coefficient ≠ 0) :
    ∃ l : Numeral, l.text = positionalForm d ∧ l.Spells d ∧ l.exponent = none := by
  unfold positionalForm
  simp only
  split_ifs with he hplaces
  · exact exists_spells_whole h he
  · exact exists_spells_split h (by omega) (by omega) hplaces
  · exact exists_spells_fraction h (by omega) (by omega)

end Double
end MetaInline
