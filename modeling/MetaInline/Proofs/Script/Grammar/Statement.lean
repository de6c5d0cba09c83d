import Mathlib
import MetaInline.Proofs.Script.Grammar.Expression
import MetaInline.Script.Grammar.Statement

namespace MetaInline.Script.Grammar

open Parse
open Std.Internal.Do
open Source (text)

set_option mvcgen.warning false

variable [Source] {g : Rules} {c₀ : Cursor} (ctx : Context)

@[spec] lemma reads_declarator (hg : g.Sound) (constant inHead : Bool) :
    ReadsTree (declarator g ctx constant inHead) c₀ := by
  vcgen [declarator] with finish -ring -linarith

@[spec] lemma reads_declarators (hg : g.Sound) {s : ℕ} (h : Begun s [] c₀) (word : String)
    (inHead : Bool) :
    ReadsFrom s (declarators g ctx s word inHead) c₀ := by
  vcgen [declarators] with finish -ring -linarith

@[spec] lemma reads_variableWord? (inHead : Bool) :
    Reads (variableWord? ctx inHead) c₀ fun _ c => c = c₀ := by
  vcgen [variableWord?] with finish -ring -linarith

@[spec] lemma reads_variableStatement (hg : g.Sound) (word : String) (size : ℕ) :
    ReadsTree (variableStatement g ctx word size) c₀ := by
  vcgen [variableStatement] with finish -ring -linarith [nested_node_extend]

@[spec] lemma reads_condition (hg : g.Sound) : ReadsTree (condition g ctx) c₀ := by
  vcgen [condition] with finish -ring -linarith

@[spec] lemma reads_nested (hg : g.Sound) : ReadsTree (nested g ctx) c₀ := by
  vcgen [nested] with finish -ring -linarith

@[spec] lemma reads_ifStatement (hg : g.Sound) : ReadsTree (ifStatement g ctx) c₀ := by
  vcgen [ifStatement] with finish -ring -linarith

@[spec] lemma reads_doStatement (hg : g.Sound) : ReadsTree (doStatement g ctx) c₀ := by
  vcgen [doStatement] with finish -ring -linarith

@[spec] lemma reads_whileStatement (hg : g.Sound) (kind : Kind) :
    ReadsTree (whileStatement g ctx kind) c₀ := by
  vcgen [whileStatement] with finish -ring -linarith

@[spec] lemma reads_overRest (hg : g.Sound) {s : ℕ} {left : Tree} (h : Begun s [left] c₀)
    (awaits : Bool) :
    ReadsFrom s (overRest g ctx s left awaits) c₀ := by
  vcgen [overRest] with finish -ring -linarith

@[spec] lemma reads_steppedRest (hg : g.Sound) {s : ℕ} {first : List Tree} (h : Begun s first c₀) :
    ReadsFrom s (steppedRest g ctx s first) c₀ := by
  vcgen [steppedRest] with finish -ring -linarith

@[spec] lemma reads_isAtOver : Reads isAtOver c₀ fun _ c => c = c₀ := by
  vcgen [isAtOver] with finish -ring -linarith

@[spec] lemma reads_forStatement (hg : g.Sound) : ReadsTree (forStatement g ctx) c₀ := by
  refine reads_of fun _ _ _ _ => ?_
  vcgen [forStatement] with finish -ring -linarith

@[spec] lemma reads_jumpStatement (word : String) : ReadsTree (jumpStatement ctx word) c₀ := by
  vcgen [jumpStatement] with finish -ring -linarith

@[spec] lemma reads_returnStatement (hg : g.Sound) : ReadsTree (returnStatement g ctx) c₀ := by
  vcgen [returnStatement] with finish -ring -linarith

@[spec] lemma reads_throwStatement (hg : g.Sound) : ReadsTree (throwStatement g ctx) c₀ := by
  vcgen [throwStatement] with finish -ring -linarith

@[spec] lemma reads_switchCase (hg : g.Sound) : ReadsTree (switchCase g ctx) c₀ := by
  vcgen [switchCase] with finish -ring -linarith

@[spec] lemma reads_switchStatement (hg : g.Sound) : ReadsTree (switchStatement g ctx) c₀ := by
  vcgen [switchStatement] with finish -ring -linarith

@[spec] lemma reads_catchClause (hg : g.Sound) : ReadsTree (catchClause g ctx) c₀ := by
  vcgen [catchClause] with finish -ring -linarith

@[spec] lemma reads_tryStatement (hg : g.Sound) : ReadsTree (tryStatement g ctx) c₀ := by
  vcgen [tryStatement] with finish -ring -linarith

@[spec] lemma reads_expressionStatement (hg : g.Sound) :
    ReadsTree (expressionStatement g ctx) c₀ := by
  vcgen [expressionStatement] with finish -ring -linarith

@[spec] lemma reads_typeAlias (hg : g.Sound) : ReadsTree (typeAlias g ctx) c₀ := by
  vcgen [typeAlias] with finish -ring -linarith

@[spec] lemma reads_interface (hg : g.Sound) : ReadsTree (interface g ctx) c₀ := by
  vcgen [interface] with finish -ring -linarith

@[spec] lemma reads_enumMember (hg : g.Sound) : ReadsTree (enumMember g ctx) c₀ := by
  vcgen [enumMember] with finish -ring -linarith

@[spec] lemma reads_enumDeclaration (hg : g.Sound) : ReadsTree (enumDeclaration g ctx) c₀ := by
  vcgen [enumDeclaration] with finish -ring -linarith

@[spec] lemma reads_namespaceDeclaration (hg : g.Sound) :
    ReadsTree (namespaceDeclaration g ctx) c₀ := by
  vcgen [namespaceDeclaration] with finish -ring -linarith

@[spec] lemma reads_startsTypeDeclaration :
    Reads (startsTypeDeclaration ctx) c₀ fun _ c => c = c₀ := by
  vcgen [startsTypeDeclaration] with finish -ring -linarith

end MetaInline.Script.Grammar
