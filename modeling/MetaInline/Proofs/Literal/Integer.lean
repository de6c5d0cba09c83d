import Mathlib
import MetaInline.Proofs.Script.LiteralToken

namespace MetaInline

namespace Numeric

def IsDigitOf (c : Char) (d : ℕ) : Prop :=
  c = d.digitChar ∨ c = d.digitChar.toUpper

inductive Row (radix : ℕ) : Text → ℕ → Prop
  | digit {c : Char} {d : ℕ} : d < radix → IsDigitOf c d → Row radix [c] d
  | snoc {u : Text} {n : ℕ} {c : Char} {d : ℕ} : Row radix u n → d < radix → IsDigitOf c d →
      Row radix (u ++ [c]) (radix * n + d)
  | separated {u : Text} {n : ℕ} {c : Char} {d : ℕ} : Row radix u n → d < radix → IsDigitOf c d →
      Row radix (u ++ ['_', c]) (radix * n + d)

def prefixes : List (Char × ℕ) :=
  [('x', 16), ('X', 16), ('o', 8), ('O', 8), ('b', 2), ('B', 2)]

inductive Spells : Text → ℕ → Prop
  | zero : Spells ['0', 'n'] 0
  | decimal {u : Text} {n : ℕ} : Row 10 u n → u.head? ≠ some '0' → Spells (u ++ ['n']) n
  | prefixed {c : Char} {radix : ℕ} {u : Text} {n : ℕ} : (c, radix) ∈ prefixes → Row radix u n →
      Spells ('0' :: c :: (u ++ ['n'])) n

variable {radix n d : ℕ} {c : Char} {u rest : Text}

lemma radixOf?_of_mem (h : (c, radix) ∈ prefixes) : radixOf? c = some radix ∧ radix ≤ 16 := by
  have hall : ∀ p ∈ prefixes, radixOf? p.1 = some p.2 ∧ p.2 ≤ 16 := by decide
  exact hall _ h

lemma notDigit_of_mem (h : (c, radix) ∈ prefixes) : (isDigit 10 c || c == '_') = false := by
  have hall : ∀ p ∈ prefixes, (isDigit 10 p.1 || p.1 == '_') = false := by decide
  exact hall _ h

lemma digitValue?_of_le (h : digitValue? 16 c = some d) (hd : d < radix) : digitValue? radix c = some d := by
  rw [digitValue?] at *
  split_ifs at * <;> simp_all <;> omega

lemma digitValue?_of_isDigitOf (h : IsDigitOf c d) (hd : d < radix) (hr : radix ≤ 16) :
    digitValue? radix c = some d := by
  have hall : ∀ d < 16, digitValue? 16 d.digitChar = some d ∧
      digitValue? 16 d.digitChar.toUpper = some d := by
    decide
  obtain ⟨hlower, hupper⟩ := hall d (hd.trans_le hr)
  rcases h with rfl | rfl
  · exact digitValue?_of_le hlower hd
  · exact digitValue?_of_le hupper hd

lemma IsDigitOf.ne_underscore (h : IsDigitOf c d) (hd : d < radix) (hr : radix ≤ 16) : c ≠ '_' := by
  rintro rfl
  have hvalue := digitValue?_of_isDigitOf h hd hr
  simp [digitValue?] at hvalue

lemma withoutSeparators_snoc (u : Text) (hc : c ≠ '_') :
    withoutSeparators (u ++ [c]) = withoutSeparators u ++ [c] ∧
      withoutSeparators (u ++ ['_', c]) = withoutSeparators u ++ [c] := by
  simp [withoutSeparators, hc]

namespace Row

lemma exists_cons (h : Row radix u n) : ∃ c cs d, u = c :: cs ∧ d < radix ∧ IsDigitOf c d := by
  induction h with
  | digit hd hc => exact ⟨_, [], _, rfl, hd, hc⟩
  | snoc _ _ _ ih =>
    obtain ⟨c, cs, d, rfl, hd, hc⟩ := ih
    exact ⟨c, _, d, rfl, hd, hc⟩
  | separated _ _ _ ih =>
    obtain ⟨c, cs, d, rfl, hd, hc⟩ := ih
    exact ⟨c, _, d, rfl, hd, hc⟩

lemma exists_concat (h : Row radix u n) : ∃ v c d, u = v ++ [c] ∧ d < radix ∧ IsDigitOf c d := by
  cases h with
  | digit hd hc => exact ⟨[], _, _, rfl, hd, hc⟩
  | snoc _ hd hc => exact ⟨_, _, _, rfl, hd, hc⟩
  | @separated u _ c d _ hd hc => exact ⟨u ++ ['_'], c, d, by simp, hd, hc⟩

variable (hr : radix ≤ 16)
include hr

lemma isDigit_or (h : Row radix u n) : ∀ c ∈ u, (isDigit radix c || c == '_') = true := by
  have hdigit {c : Char} {d : ℕ} (hd : d < radix) (hc : IsDigitOf c d) :
      (isDigit radix c || c == '_') = true := by
    rw [isDigit, digitValue?_of_isDigitOf hc hd hr]
    rfl
  induction h with
  | digit hd hc => simpa using hdigit hd hc
  | snoc _ hd hc ih => exact List.forall_mem_append.mpr ⟨ih, by simpa using hdigit hd hc⟩
  | separated _ hd hc ih => exact List.forall_mem_append.mpr ⟨ih, by simpa using hdigit hd hc⟩

lemma getLast?_ne (h : Row radix u n) : u.getLast? ≠ some '_' := by
  obtain ⟨v, c, d, rfl, hd, hc⟩ := h.exists_concat
  rw [List.getLast?_concat]
  exact fun heq => hc.ne_underscore hd hr (Option.some.inj heq)

lemma not_infix (h : Row radix u n) : ¬ ['_', '_'] <:+: u := by
  have hsnoc {v : Text} {c : Char} (hv : ¬ ['_', '_'] <:+: v) (hlast : c = '_' → v.getLast? ≠ some '_') :
      ¬ ['_', '_'] <:+: v ++ [c] := by
    rw [List.infix_concat_iff, not_or]
    refine ⟨?_, hv⟩
    rintro ⟨t, ht⟩
    obtain ⟨rfl, hc⟩ := List.append_inj' (show (t ++ ['_']) ++ ['_'] = v ++ [c] by simpa using ht) rfl
    exact hlast (List.cons_eq_cons.mp hc).1.symm List.getLast?_concat
  induction h with
  | @digit c d hd hc => exact hsnoc (v := []) (by simp) fun heq => absurd heq (hc.ne_underscore hd hr)
  | snoc _ hd hc ih => exact hsnoc ih fun heq => absurd heq (hc.ne_underscore hd hr)
  | @separated v _ c _ hrow hd hc ih =>
    have hmark : ¬ ['_', '_'] <:+: v ++ ['_'] := hsnoc ih fun _ => hrow.getLast?_ne hr
    have hall := hsnoc hmark fun heq => absurd heq (hc.ne_underscore hd hr)
    rwa [List.append_assoc] at hall

lemma separated_eq (h : Row radix u n) : Script.separated u = true := by
  have hlast := h.getLast?_ne hr
  have hmentions : Text.mentions ['_', '_'] u = false :=
    Bool.eq_false_iff.mpr (mt Text.mentions_iff.mp (h.not_infix hr))
  obtain ⟨c, cs, d, rfl, hd, hc⟩ := h.exists_cons
  have hne := hc.ne_underscore hd hr
  simp [Script.separated, hne, hlast, hmentions]

lemma ofDigits?_eq (h : Row radix u n) : ofDigits? radix (withoutSeparators u) = some n := by
  have hfold : (withoutSeparators u).foldlM (fun n c => (digitValue? radix c).map (radix * n + ·)) 0 =
      some n := by
    induction h with
    | @digit c d hd hc =>
      have hone := (withoutSeparators_snoc [] (hc.ne_underscore hd hr)).1
      rw [List.nil_append] at hone
      rw [hone]
      simp [withoutSeparators, digitValue?_of_isDigitOf hc hd hr]
    | snoc _ hd hc ih =>
      rw [(withoutSeparators_snoc _ (hc.ne_underscore hd hr)).1, List.foldlM_append, ih]
      simp [digitValue?_of_isDigitOf hc hd hr]
    | separated _ hd hc ih =>
      rw [(withoutSeparators_snoc _ (hc.ne_underscore hd hr)).2, List.foldlM_append, ih]
      simp [digitValue?_of_isDigitOf hc hd hr]
  obtain ⟨c, cs, d, rfl, hd, hc⟩ := h.exists_cons
  have hne := hc.ne_underscore hd hr
  rw [ofDigits?, if_neg (by simp [withoutSeparators, hne]), hfold]

end Row

lemma integer?_of_spells (h : Spells u n) : integer? u = some n := by
  cases h with
  | zero => rfl
  | @decimal u n hrow hzero =>
    have hvalue := hrow.ofDigits?_eq (by decide)
    obtain ⟨c, cs, d, rfl, hd, hc⟩ := hrow.exists_cons
    have hne := hc.ne_underscore hd (by decide)
    have hzero : c ≠ '0' := fun heq => hzero (by rw [heq]; rfl)
    have hcons : withoutSeparators (c :: cs) = c :: withoutSeparators cs := by
      simp [withoutSeparators, hne]
    rw [hcons] at hvalue
    rw [integer?, List.getLast?_concat, List.dropLast_concat, hcons, guard, if_pos rfl]
    simpa [hzero] using hvalue
  | @prefixed c radix u n hmem hrow =>
    obtain ⟨hradix, hr⟩ := radixOf?_of_mem hmem
    have hvalue := hrow.ofDigits?_eq hr
    have hne : c ≠ '_' := by
      rintro rfl
      cases hradix
    have hcons : withoutSeparators ('0' :: c :: u) = '0' :: c :: withoutSeparators u := by
      simp [withoutSeparators, hne]
    have hsplit : '0' :: c :: (u ++ ['n']) = ('0' :: c :: u) ++ ['n'] := rfl
    rw [integer?, hsplit, List.getLast?_concat, List.dropLast_concat, hcons, guard, if_pos rfl]
    simpa [hradix] using hvalue

end Numeric

namespace Script

open Numeric
open Text (size)

variable {radix n start : ℕ} {raw u rest : Text} {markup newline : Bool}

lemma digitRun_row (h : Row radix u n) (hr : radix ≤ 16) (rest : Text) :
    digitRun radix (u ++ 'n' :: rest) = (u, 'n' :: rest) := by
  refine span_append_of_forall (h.isDigit_or hr) fun c hc => ?_
  obtain rfl := Option.some.inj hc
  have hvalue : digitValue? radix 'n' = none := by
    simp [digitValue?]
    omega
  rw [Numeric.isDigit, hvalue]
  rfl

lemma readNumber_of_spells (h : Spells raw n) : readNumber (raw ++ rest) = some (raw, rest) := by
  cases h with
  | zero => rfl
  | @decimal u n hrow hzero =>
    have hrun := digitRun_row hrow (by decide) rest
    have hseparated := hrow.separated_eq (by decide)
    obtain ⟨c, cs, d, rfl, -⟩ := hrow.exists_cons
    have hzero : c ≠ '0' := fun heq => hzero (by rw [heq]; rfl)
    rw [List.append_assoc, List.singleton_append, readNumber, hrun]
    simp [guard, hseparated, hzero]
  | @prefixed c radix u n hmem hrow =>
    obtain ⟨hradix, hr⟩ := radixOf?_of_mem hmem
    have hzero : ∀ x ∈ ['0'], (Numeric.isDigit 10 x || x == '_') = true := by
      intro x hx
      rw [List.mem_singleton.mp hx]
      rfl
    have hfirst : digitRun 10 ('0' :: c :: (u ++ 'n' :: rest)) = (['0'], c :: (u ++ 'n' :: rest)) := by
      refine span_append_of_forall hzero fun x hx => ?_
      obtain rfl := Option.some.inj hx
      exact notDigit_of_mem hmem
    have hrun := digitRun_row hrow hr rest
    have hseparated := hrow.separated_eq hr
    rw [List.cons_append, List.cons_append, List.append_assoc, List.singleton_append, readNumber, hfirst]
    simp [guard, hradix, hrun, hseparated]

lemma exists_digit_of_spells (h : Spells raw n) : ∃ c cs, raw = c :: cs ∧ c.isDigit = true := by
  cases h with
  | zero => exact ⟨_, _, rfl, rfl⟩
  | decimal hrow =>
    obtain ⟨c, cs, d, rfl, hd, hc⟩ := hrow.exists_cons
    refine ⟨c, _, rfl, ?_⟩
    rw [← isDigit_ten, Numeric.isDigit, digitValue?_of_isDigitOf hc hd (by decide)]
    rfl
  | prefixed => exact ⟨_, _, rfl, rfl⟩

lemma first_of_spells (h : Spells raw n) (hend : endsNumber rest = true) :
    Lexeme.first markup newline start (raw ++ rest) =
      ⟨.bigint n, start, raw ++ rest, start + size raw, rest, newline⟩ := by
  have htoken : numberToken raw = .bigint n := by
    have hvalue := integer?_of_spells h
    have hlast : raw.getLast? = some 'n' := by
      by_contra hlast
      simp [integer?, guard, hlast] at hvalue
    rw [numberToken, if_pos hlast, hvalue]
  rw [← htoken]
  exact first_of_readNumber (exists_digit_of_spells h) (readNumber_of_spells h) hend

end Script
end MetaInline
