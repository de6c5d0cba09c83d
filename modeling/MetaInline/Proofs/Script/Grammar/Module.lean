import Mathlib
import MetaInline.Proofs.Script.Grammar.Statement
import MetaInline.Script.Grammar.Module

namespace MetaInline.Script.Grammar

open Parse
open Std.Internal.Do
open Source (text)

set_option mvcgen.warning false

variable [Source] {g : Rules} {c₀ : Cursor} (ctx : Context)

@[spec] lemma reads_moduleName : ReadsTree moduleName c₀ := by
  vcgen [moduleName] with finish -ring -linarith

@[spec] lemma reads_exportedName : ReadsTree exportedName c₀ := by
  vcgen [exportedName] with finish -ring -linarith

@[spec] lemma reads_importAttributes : ReadsTrees (importAttributes g) c₀ := by
  refine reads_of fun _ _ _ _ => ?_
  vcgen [importAttributes] with finish -ring -linarith

@[spec] lemma reads_fromClause : ReadsSome (fromClause g) c₀ := by
  vcgen [fromClause] with finish -ring -linarith

@[spec] lemma reads_isTypeMark : Reads (isTypeMark ctx) c₀ fun _ c => c = c₀ := by
  vcgen [isTypeMark] with finish -ring -linarith

@[spec] lemma reads_importSpecifier : ReadsTree (importSpecifier ctx) c₀ := by
  vcgen [importSpecifier] with finish -ring -linarith

@[spec] lemma reads_importNames : ReadsSome (importNames g ctx) c₀ := by
  refine reads_of fun _ _ _ _ => ?_
  vcgen [importNames] with finish -ring -linarith

@[spec] lemma reads_importMark : Reads (importMark ctx) c₀ fun _ _ => True := by
  vcgen [importMark] with finish -ring -linarith

@[spec] lemma reads_importEquals {s : ℕ} {x : Tree} (h : Begun s [x] c₀) :
    ReadsFrom s (importEquals g ctx s x) c₀ := by
  vcgen [importEquals] with finish -ring -linarith

@[spec] lemma reads_importAlias : ReadsTree (importAlias g ctx) c₀ := by
  refine reads_of fun _ _ _ _ => ?_
  vcgen [importAlias] with finish -ring -linarith

@[spec] lemma reads_importDeclaration : ReadsTree (importDeclaration g ctx) c₀ := by
  refine reads_of fun _ _ _ _ => ?_
  vcgen [importDeclaration] with finish -ring -linarith

@[spec] lemma reads_classDeclaration (hg : g.Sound) {s : ℕ} {ds : List Tree} (h : Begun s ds c₀)
    (named : Bool) :
    ReadsFrom s (classDeclaration g ctx s ds named) c₀ := by
  refine reads_of fun _ _ _ _ => ?_
  vcgen [classDeclaration] with finish -ring -linarith

@[spec] lemma reads_typeDeclaration (hg : g.Sound) : ReadsTree (typeDeclaration g ctx) c₀ := by
  vcgen [typeDeclaration] with finish -ring -linarith

@[spec] lemma reads_plainDeclaration (hg : g.Sound) : ReadsTree (plainDeclaration g ctx) c₀ := by
  vcgen [plainDeclaration] with finish -ring -linarith

@[spec] lemma reads_declaration (hg : g.Sound) : ReadsTree (declaration g ctx) c₀ := by
  refine reads_of fun _ _ _ _ => ?_
  vcgen [declaration] with finish -ring -linarith

@[spec] lemma reads_exportSpecifier :
    Reads (exportSpecifier ctx) c₀ fun x c =>
      x.1.Between c₀.lexeme.start c.lastStop := by
  vcgen [exportSpecifier] with finish -ring -linarith

@[spec] lemma reads_exportDefault (hg : g.Sound) : ReadsTree (exportDefault g ctx) c₀ := by
  refine reads_of fun _ _ _ _ => ?_
  vcgen [exportDefault] with finish -ring -linarith

@[spec] lemma reads_startsPlainClass : Reads (startsPlainClass ctx) c₀ fun _ c => c = c₀ := by
  vcgen [startsPlainClass] with finish -ring -linarith

@[spec] lemma reads_exportAfter (hg : g.Sound) {s : ℕ} {ds : List Tree} (h : Begun s ds c₀) :
    ReadsFrom s (exportAfter g ctx s ds) c₀ := by
  vcgen [exportAfter]
  all_goals grind -ring -linarith

@[spec] lemma reads_labeled (hg : g.Sound) : ReadsTree (labeled g ctx) c₀ := by
  vcgen [labeled] with finish -ring -linarith

@[spec] lemma reads_wordStatement (hg : g.Sound) (isNested : Bool) :
    ReadsTree (wordStatement g ctx isNested) c₀ := by
  refine reads_of fun _ _ _ _ => ?_
  vcgen [wordStatement] with finish -ring -linarith

@[spec] lemma reads_statement (hg : g.Sound) (isNested : Bool) :
    ReadsTree (statement g ctx isNested) c₀ := by
  refine reads_of fun _ _ _ _ => ?_
  vcgen [statement] with finish -ring -linarith

end MetaInline.Script.Grammar
