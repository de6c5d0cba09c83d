import Mathlib
import MetaInline.Proofs.Script.Grammar.Type
import MetaInline.Script.Grammar.Function

namespace MetaInline.Script.Grammar

open Parse
open Std.Internal.Do
open Source (text)

set_option mvcgen.warning false

variable [Source] {g : Rules} {c₀ : Cursor} (ctx : Context)

@[spec] lemma reads_block (hg : g.Sound) : ReadsTree (block g ctx) c₀ := by
  vcgen [block] with finish -ring -linarith

@[spec] lemma reads_functionBody (hg : g.Sound) (declares : Bool) :
    ReadsTrees (functionBody g ctx declares) c₀ := by
  vcgen [functionBody] with finish -ring -linarith

@[spec] lemma reads_callable (hg : g.Sound) (isAsync isGenerator declares : Bool) :
    ReadsSome (callable g ctx isAsync isGenerator declares) c₀ := by
  vcgen [callable] with finish -ring -linarith

@[spec] lemma reads_isAtAsyncFunction : Reads isAtAsyncFunction c₀ fun _ c => c = c₀ := by
  vcgen [isAtAsyncFunction] with finish -ring -linarith

@[spec] lemma reads_functionExpression (hg : g.Sound) :
    ReadsFrom c₀.lexeme.start (functionExpression g ctx) c₀ := by
  vcgen [functionExpression] with finish -ring -linarith

@[spec] lemma reads_functionDeclaration (hg : g.Sound) (named : Bool) :
    ReadsTree (functionDeclaration g ctx named) c₀ := by
  vcgen [functionDeclaration] with finish -ring -linarith

@[spec] lemma reads_accessorBody (hg : g.Sound) (writes declares : Bool) :
    ReadsSome (accessorBody g ctx writes declares) c₀ := by
  vcgen [accessorBody] with finish -ring -linarith

@[spec] lemma reads_memberModifiers : Reads (memberModifiers g ctx) c₀ fun _ _ => True := by
  vcgen [memberModifiers, reads_iterate_true] with finish -ring -linarith

@[spec] lemma reads_methodOrField (hg : g.Sound) {s : ℕ} {ds : List Tree} (h : Begun s ds c₀)
    (modifiers : List Keyword) (isAsync : Bool) :
    ReadsFrom s (methodOrField g ctx s ds modifiers isAsync) c₀ := by
  vcgen [methodOrField] with finish -ring -linarith

@[spec] lemma reads_classMember (hg : g.Sound) : ReadsTree (classMember g ctx) c₀ := by
  vcgen [classMember] with finish -ring -linarith

@[spec] lemma reads_classBody (hg : g.Sound) : ReadsTree (classBody g ctx) c₀ := by
  vcgen [classBody] with finish -ring -linarith

@[spec] lemma reads_heritage (hg : g.Sound) : ReadsTrees (heritage g ctx) c₀ := by
  vcgen [heritage] with finish -ring -linarith

@[spec] lemma reads_classAfter (hg : g.Sound) {s : ℕ} {ds : List Tree} (h : Begun s ds c₀)
    (named : Bool) : ReadsFrom s (classAfter g ctx s ds named) c₀ := by
  vcgen [classAfter] with finish -ring -linarith

@[spec] lemma reads_classExpression (hg : g.Sound) :
    ReadsFrom c₀.lexeme.start (classExpression g ctx) c₀ := by
  refine reads_of fun _ _ _ _ => ?_
  vcgen [classExpression] with finish -ring -linarith

end MetaInline.Script.Grammar
