import Mathlib
import MetaInline.Proofs.Script.Grammar.Element
import MetaInline.Proofs.Script.Grammar.Module
import MetaInline.Script.Program

namespace MetaInline.Script

open Parse
open Std.Internal.Do
open Source (text)

set_option mvcgen.warning false

namespace Grammar

section Reading

variable [Source] {g : Rules} {c₀ : Cursor} (ctx : Context)

lemma reads_construct (hg : g.Sound) (goal : Goal) (c : Cursor) :
    Reads (construct g goal ctx) c fun t d => t.Between c.lexeme.start (goal.stop d) := by
  cases goal with
  | expression => exact reads_expression ctx hg
  | assignment typed => exact reads_assignment ctx hg typed
  | binary level => exact reads_binary ctx hg level
  | unary => exact reads_unary ctx hg
  | callable => exact reads_callExpression ctx hg
  | member => exact reads_memberExpression ctx hg
  | statement isNested => exact reads_statement ctx hg isNested
  | pattern => exact reads_pattern ctx hg
  | type => exact reads_type ctx hg
  | typeOperand => exact reads_typeOperand ctx hg
  | element => exact reads_element ctx hg

lemma sound_rules (n : ℕ) : (rules n).Sound := by
  induction n with
  | zero => exact ⟨fun goal ctx c => reads_iff.mpr fun _ _ _ h => nomatch h⟩
  | succ n ih => exact ⟨fun goal ctx c => reads_construct ctx ih goal c⟩

lemma reads_program (hg : g.Sound) :
    Reads (program g ctx) c₀ fun t _ => t.Nested text := by
  have hzero := Text.isBoundary_zero text
  refine reads_of fun _ _ _ _ => ?_
  vcgen [program] with finish -ring -linarith

end Reading

variable {dialect : Dialect} {allowReturn isModule : Bool} {cs : Text} {t : Tree}

lemma from_skipInterpreter (cs : Text) :
    Text.From cs (skipInterpreter cs).1 (skipInterpreter cs).2 := by
  unfold skipInterpreter
  split
  · next cs =>
    refine ⟨'#' :: '!' :: (cs.span (!isLineBreak ·)).1, ?_, ?_⟩
    · simp
    · simp [show '#'.utf8Size = 1 from rfl, show '!'.utf8Size = 1 from rfl, ← Nat.add_assoc]
  · exact .self cs

lemma nested_parseAs (h : parseAs dialect allowReturn isModule cs = some t) : t.Nested cs := by
  let _ : Source := ⟨cs⟩
  unfold parseAs at h
  obtain ⟨⟨t', c⟩, hp, h⟩ := Option.bind_eq_some_iff.mp h
  obtain ⟨_, -, h⟩ := Option.bind_eq_some_iff.mp h
  obtain rfl : t' = t := Option.some.inj h
  have hfirst : (Lexeme.first (!isModule) true (skipInterpreter cs).1 (skipInterpreter cs).2).Sound cs ∧
      _ := Lexeme.sound_first (from_skipInterpreter cs)
  exact (reads_iff.mp (reads_program _ (sound_rules _)) ⟨hfirst.1, Text.isBoundary_zero cs, Nat.zero_le _⟩
    _ _ hp).2.2.2

end Grammar

theorem nested_of_parse {dialect : Dialect} {allowReturn : Bool} {cs : Text} {t : Tree}
    (h : parse dialect allowReturn cs = some t) : t.Nested cs := by
  unfold parse at h
  split at h
  · exact Grammar.nested_parseAs h
  · exact Grammar.nested_parseAs h
  · simp only at h
    split at h
    · exact Grammar.nested_parseAs h
    · split at h
      · cases h
      · exact Grammar.nested_parseAs h

end MetaInline.Script
