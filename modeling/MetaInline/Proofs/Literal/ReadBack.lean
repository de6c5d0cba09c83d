import Mathlib
import MetaInline.Analysis.Basic
import MetaInline.Proofs.Script.LiteralExpression

namespace MetaInline.Literal

open Script Script.Grammar
open Text (size)

def tree (start : ℕ) : Literal → Tree
  | .bigint n => signedTree (n < 0) start (start + size (bigintSource n)) (.bigint n.natAbs)
  | v => .literal ⟨start, start + size v.text⟩ v

lemma literal?_bigint (n : ℤ) (start stop : ℕ) :
    (signedTree (n < 0) start stop (.bigint n.natAbs)).literal? = some (.bigint n) := by
  by_cases hn : n < 0
  · have habs : -(n.natAbs : ℤ) = n := by omega
    rw [signedTree, if_pos (decide_eq_true hn)]
    exact congrArg (fun n => some (bigint n)) habs
  · have habs : (n.natAbs : ℤ) = n := by omega
    rw [signedTree, if_neg (by simpa using hn)]
    exact congrArg (fun n => some (bigint n)) habs

lemma literal?_tree (start : ℕ) (v : Literal) : (v.tree start).literal? = some v := by
  cases v with
  | bigint n => exact literal?_bigint n _ _
  | _ => rfl

lemma bigintSource_eq (n : ℤ) :
    bigintSource n = signed (n < 0) (Decimal.digits n.natAbs ++ ['n']) := by
  by_cases hn : n < 0 <;> simp [bigintSource, signed, hn]

lemma denotes_bigint (n : ℤ) :
    Denotes (n < 0) (Decimal.digits n.natAbs ++ ['n']) (.bigint n.natAbs) (.bigint n) := by
  refine ⟨⟨_, lexesTo_bigint n.natAbs, rfl⟩, fun _ => ?_, literal?_bigint n⟩
  obtain ⟨c, cs, hdigits⟩ := List.exists_cons_of_length_pos (Decimal.length_digits_pos n.natAbs)
  have hc : c.isDigit = true := Decimal.isDigits_digits n.natAbs c (by rw [hdigits]; exact List.mem_cons_self)
  exact ⟨c, cs ++ ['n'], by rw [hdigits, List.cons_append], hc⟩

lemma denotes_of_lexesTo {text : Text} {tok : Token} {v : Literal} (h : LexesTo (Follows v) text tok)
    (hv : literalOf? tok = some v) : Denotes false text v v :=
  ⟨⟨tok, h, hv⟩, nofun, fun _ _ => rfl⟩

lemma wholeExpression?_of_lexesTo (ctx : Context) (markup : Bool) {text : Text} {tok : Token}
    {v : Literal} (h : LexesTo (Follows v) text tok) (hv : literalOf? tok = some v) :
    wholeExpression? ctx markup text = some (.literal ⟨0, size text⟩ v) ∧
      wholeExpression? ctx markup ('(' :: (text ++ [')'])) =
        some (.parens ⟨0, size text + 2⟩ (.literal ⟨1, size text + 1⟩ v)) := by
  have hread := wholeExpression?_signed ctx markup (denotes_of_lexesTo h hv)
  simpa only [signed, signedTree, Bool.false_eq_true, if_false] using hread

lemma replacement_eq (v : Literal) (isObject : Bool) :
    Evaluation.replacement v isObject = v.text ∨
      Evaluation.replacement v isObject = '(' :: (v.text ++ [')']) := by
  rw [Evaluation.replacement]
  split
  · exact Or.inr rfl
  · exact Or.inl rfl

/-- What is put in for null, a truth value, a string or an integer is the text of the literal, maybe in
parentheses; both are whole expressions of the same value. A string is a single token without line
breaks, and an integer is a sign, if it is negative, and the digits of its size. -/
theorem wholeExpression?_text (ctx : Context) (markup : Bool) {v : Literal}
    (hnumber : ∀ x, v ≠ .number x) (hregexp : ∀ r, v ≠ .regexp r) :
    (∀ isObject, Evaluation.replacement v isObject = v.text ∨
        Evaluation.replacement v isObject = '(' :: (v.text ++ [')'])) ∧
      wholeExpression? ctx markup v.text = some (v.tree 0) ∧
      wholeExpression? ctx markup ('(' :: (v.text ++ [')'])) =
        some (.parens ⟨0, size v.text + 2⟩ (v.tree 1)) ∧
      (v.tree 0).literal? = some v ∧
      (Tree.parens ⟨0, size v.text + 2⟩ (v.tree 1)).literal? = some v ∧
      (∀ s, v = .string s → '\n' ∉ v.text ∧ '\r' ∉ v.text ∧
        ∀ newline start, Lexeme.first markup newline start v.text =
          ⟨.string s, start, v.text, start + size v.text, [], newline⟩) ∧
      ∀ n, v = .bigint n → ∃ raw, v.text = signed (n < 0) raw ∧
        Numeric.integer? raw = some n.natAbs := by
  have hread : wholeExpression? ctx markup v.text = some (v.tree 0) ∧
      wholeExpression? ctx markup ('(' :: (v.text ++ [')'])) =
        some (.parens ⟨0, size v.text + 2⟩ (v.tree 1)) := by
    have hplain {tok : Token} (hlex : LexesTo (Follows v) v.text tok) (hv : literalOf? tok = some v)
        (htree : ∀ start, v.tree start = .literal ⟨start, start + size v.text⟩ v) :
        wholeExpression? ctx markup v.text = some (v.tree 0) ∧
          wholeExpression? ctx markup ('(' :: (v.text ++ [')'])) =
            some (.parens ⟨0, size v.text + 2⟩ (v.tree 1)) := by
      rw [htree, htree, Nat.zero_add, Nat.add_comm 1]
      exact wholeExpression?_of_lexesTo ctx markup hlex hv
    cases v with
    | null => exact hplain (lexesTo_word rfl nofun) rfl fun _ => rfl
    | bool b =>
      cases b with
      | false => exact hplain (lexesTo_word rfl nofun) rfl fun _ => rfl
      | true => exact hplain (lexesTo_word rfl nofun) rfl fun _ => rfl
    | number x => exact absurd rfl (hnumber x)
    | string s =>
      have hlex := lexesTo_string s.toList
      rw [String.ofList_toList] at hlex
      exact hplain hlex rfl fun _ => rfl
    | bigint n =>
      have hsigned := wholeExpression?_signed ctx markup (denotes_bigint n)
      rw [tree, tree, text, Nat.zero_add, Nat.add_comm 1, bigintSource_eq]
      exact hsigned
    | regexp r => exact absurd rfl (hregexp r)
  refine ⟨replacement_eq v, hread.1, hread.2, literal?_tree 0 v, literal?_tree 1 v, ?_, ?_⟩
  · rintro s rfl
    refine ⟨not_mem_data (by decide), not_mem_data (by decide), fun newline start => ?_⟩
    have hlex := lexesTo_string s.toList markup newline start [] trivial
    rwa [List.append_nil, String.ofList_toList] at hlex
  · rintro n rfl
    exact ⟨_, bigintSource_eq n, integer?_digits n.natAbs⟩

theorem wholeExpression?_text_escaped :
    let ctx : Context := ⟨true, true, true, true, false, false, true, true, false⟩
    wholeExpression? ctx false "\"\\u0001\\\"\"".toList =
        some (.literal ⟨0, 10⟩ (.string "\x01\"")) ∧
      wholeExpression? ctx false "(-5n)".toList =
        some (.parens ⟨0, 5⟩ (.minus ⟨1, 4⟩ (.literal ⟨2, 4⟩ (.bigint 5)))) := by
  intro ctx
  have hstring := (wholeExpression?_text ctx false (v := .string "\x01\"") nofun nofun).2.1
  have hbigint := (wholeExpression?_text ctx false (v := .bigint (-5)) nofun nofun).2.2.1
  have htext : text (.string "\x01\"") = "\"\\u0001\\\"\"".toList := by decide
  have htext' : text (.bigint (-5)) = "-5n".toList := by decide
  have htree : tree 0 (.string "\x01\"") =
      .literal ⟨0, 0 + size (text (.string "\x01\""))⟩ (.string "\x01\"") := rfl
  rw [htree, htext] at hstring
  rw [htext'] at hbigint
  exact ⟨hstring, hbigint⟩

end MetaInline.Literal
