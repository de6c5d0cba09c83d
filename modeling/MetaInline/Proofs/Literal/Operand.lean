import Mathlib
import MetaInline.Proofs.Literal.Number
import MetaInline.Proofs.Literal.ReadBack
import MetaInline.Proofs.Script.RegExpToken
import MetaInline.Proofs.Script.Statement

namespace MetaInline

open Script Script.Grammar
open RegExp (Mode)
open Text (size)

namespace Literal

/-- The literal that the text of a literal is read as: zero has no sign, and the body of a regular expression
is escaped. -/
def readBack : Literal → Literal
  | .number x => .number (if x.isZero then .zero false else x)
  | .regexp r => .regexp ⟨String.ofList (RegExp.escape r.pattern.toList), r.flags⟩
  | v => v

def IsClosed : Literal → Prop
  | .regexp r => r.pattern.toList.head? ≠ some '*' ∧ (Mode.start.after r.pattern.toList).inClass = false
  | _ => True

/-- Wherever an operand is read, and whatever the grammar allows there, the text before `rest` is read as one
operand that has the value of the literal. -/
def IsOperand (v : Literal) (text rest : Text) : Prop :=
  ∀ n ctx pending markup newline lastStop start, ∃ t,
    base (rules (n + 6)) ctx (cursorWith pending markup newline lastStop start (text ++ rest)) =
        some (t, cursorWith pending markup false (start + size text) (start + size text) rest) ∧
      t.span = ⟨start, start + size text⟩ ∧ t.literal? = some v

variable {v w : Literal} {rest : Text}

lemma exists_denotes (hv : v.isValid = true) (hregexp : ∀ r, v ≠ .regexp r) :
    ∃ negative body w, v.text = signed negative body ∧ Denotes negative body w v.readBack ∧
      ∀ rest, Follows v rest → Follows w rest := by
  cases v with
  | null => exact ⟨false, _, .null, rfl, denotes_of_lexesTo (lexesTo_word rfl nofun) rfl, fun _ => id⟩
  | bool b =>
    cases b with
    | false =>
      exact ⟨false, _, .bool false, rfl, denotes_of_lexesTo (lexesTo_word rfl nofun) rfl, fun _ => id⟩
    | true =>
      exact ⟨false, _, .bool true, rfl, denotes_of_lexesTo (lexesTo_word rfl nofun) rfl, fun _ => id⟩
  | number x =>
    obtain ⟨l, hsource, hdenotes⟩ := Double.exists_denotes_source hv
    exact ⟨_, _, _, hsource, hdenotes, fun _ => id⟩
  | string s =>
    have hlex := lexesTo_string s.toList
    rw [String.ofList_toList] at hlex
    exact ⟨false, _, .string s, rfl, denotes_of_lexesTo hlex rfl, fun _ => id⟩
  | bigint n => exact ⟨_, _, _, bigintSource_eq n, denotes_bigint n, fun _ => id⟩
  | regexp r => exact absurd rfl (hregexp r)

lemma isOperand_parens {negative : Bool} {body : Text} (h : Denotes negative body v w) (rest : Text) :
    IsOperand w ('(' :: (signed negative body ++ [')'])) rest := by
  intro n ctx pending markup newline lastStop start
  obtain ⟨-, -, hbase⟩ := base_parens ctx pending markup newline lastStop start n rest h
  have hsize : start + size ('(' :: (signed negative body ++ [')'])) =
      start + (size (signed negative body) + 2) := by
    have hlparen : '('.utf8Size = 1 := rfl
    have hrparen : ')'.utf8Size = 1 := rfl
    simp only [Text.size_cons, Text.size_append, Text.size_nil, hlparen, hrparen]
    omega
  rw [hsize, List.cons_append, List.append_assoc]
  exact ⟨.parens _ _, hbase, rfl, h.literal?_eq _ _⟩

lemma isOperand_of_lexesTo {text : Text} {tok : Token} (hlex : LexesTo (Follows v) text tok)
    (hv : literalOf? tok = some v) (hrest : Follows v rest) : IsOperand v text rest :=
  fun _ ctx pending markup newline lastStop start =>
    ⟨_, base_of_lexesTo ctx pending markup newline lastStop start _ hlex hv hrest, rfl, rfl⟩

lemma base_slash (g : Rules) (ctx : Context) {c : Cursor} (hc : c.lexeme.IsSlash) :
    base g ctx c = primary g ctx c := by
  obtain ⟨⟨token, start, here, stop, rest, newline⟩, lastStop, markup, pending⟩ := c
  rcases hc with h | h
  · cases h
    rfl
  · cases h
    rfl

lemma isOperand_regexp {r : RegExp} (hr : r.hasValidFlags = true) (hclosed : IsClosed (.regexp r))
    (hrest : Follows (.regexp r) rest) : IsOperand (readBack (.regexp r)) r.source rest := by
  intro n ctx pending markup newline lastStop start
  set c := cursorWith pending markup newline lastStop start (r.source ++ rest) with hc
  obtain ⟨hslash, hstart, hhere, -⟩ :
      c.lexeme.IsSlash ∧ c.lexeme.start = start ∧ c.lexeme.here = r.source ++ rest ∧ _ :=
    first_source hclosed.1 rest
  have hread := regexp_eq_of_closed hr hrest hclosed.2 hhere
  have hprimary := primary_slash (rules (n + 6)) ctx hslash (congrArg Lexeme.token hread)
  rw [hread, hstart] at hprimary
  exact ⟨.literal _ _, (base_slash _ ctx hslash).trans hprimary, rfl, rfl⟩

lemma isOperand_replacement (hv : v.isValid = true) (hclosed : v.IsClosed) (isObject : Bool)
    (hrest : Evaluation.replacement v isObject = v.text → Follows v rest) :
    IsOperand v.readBack (Evaluation.replacement v isObject) rest := by
  by_cases hregexp : ∃ r, v = .regexp r
  · obtain ⟨r, rfl⟩ := hregexp
    have hbare : Evaluation.replacement (.regexp r) isObject = r.source := by
      cases isObject <;> rfl
    rw [hbare]
    exact isOperand_regexp hv hclosed (hrest hbare)
  · obtain ⟨negative, body, w, htext, hdenotes, hfollows⟩ :=
      exists_denotes hv fun r h => hregexp ⟨r, h⟩
    rw [Evaluation.replacement] at hrest ⊢
    split at hrest
    · next hneeds =>
      rw [if_pos hneeds, htext]
      exact isOperand_parens hdenotes rest
    · next hneeds =>
      rw [if_neg hneeds]
      cases negative with
      | false =>
        obtain ⟨tok, hlex, hw⟩ := hdenotes.exists_token
        have hliteral := hdenotes.literal?_eq 0 0
        obtain rfl : w = v.readBack := Option.some.inj hliteral
        rw [htext]
        exact isOperand_of_lexesTo hlex hw (hfollows rest (hrest rfl))
      | true =>
        have hdash : v.text.head? = some '-' := by rw [htext]; rfl
        simp [Evaluation.needsParens, hdash] at hneeds

lemma partsStatements_replacement (hv : v.isValid = true) (isObject : Bool)
    (hparen : (Evaluation.replacement v isObject).head? ≠ some '(')
    (hslash : (Evaluation.replacement v isObject).head? ≠ some '/') (hrest : Follows v rest)
    (pending : List ℕ) (markup : Bool) (lastStop start : ℕ) :
    PartsStatements (cursorWith pending markup true lastStop start
      (Evaluation.replacement v isObject ++ rest)) := by
  have hneeds : Evaluation.needsParens v v.text isObject = false := by
    by_contra hneeds
    exact hparen (by rw [Evaluation.replacement, if_pos (eq_true_of_ne_false hneeds)]; rfl)
  have hbare : Evaluation.replacement v isObject = v.text := by
    rw [Evaluation.replacement, if_neg (Bool.eq_false_iff.mp hneeds)]
  rw [hbare] at hslash ⊢
  obtain ⟨negative, body, w, htext, hdenotes, hfollows⟩ :=
    exists_denotes hv (by rintro r rfl; exact hslash rfl)
  cases negative with
  | true =>
    have hdash : v.text.head? = some '-' := by rw [htext]; rfl
    simp [Evaluation.needsParens, hdash] at hneeds
  | false =>
    obtain ⟨tok, hlex, hw⟩ := hdenotes.exists_token
    have hlexeme := (lexeme_literal pending markup true lastStop start hlex (hfollows rest hrest)).1
    rw [htext]
    exact partsStatements_of_literalOf? ((congrArg (literalOf? ·.token) hlexeme).trans hw)
      (congrArg Lexeme.newline hlexeme)

end Literal
end MetaInline
