import Mathlib
import MetaInline.Proofs.Script.Grammar.Parameter
import MetaInline.Script.Grammar.Type

namespace MetaInline.Script.Grammar

open Parse
open Std.Internal.Do
open Source (text)

set_option mvcgen.warning false

variable [Source] {g : Rules} {c₀ : Cursor} (ctx : Context)

@[spec] lemma reads_startsFunctionType :
    Reads (startsFunctionType g ctx) c₀ fun _ c => c = c₀ := by
  vcgen [startsFunctionType, startsParameters] with finish -ring -linarith

@[spec] lemma reads_functionType (hg : g.Sound) : ReadsTree (functionType g ctx) c₀ := by
  vcgen [functionType] with finish -ring -linarith

@[spec] lemma reads_qualifiedName {first : Parse Tree} (h : ∀ c, ReadsTree first c) :
    ReadsSome (qualifiedName g first) c₀ := by
  vcgen [qualifiedName, h] with finish -ring -linarith

@[spec] lemma reads_typeReference (hg : g.Sound) : ReadsTree (typeReference g ctx) c₀ := by
  vcgen [typeReference] with finish -ring -linarith

@[spec] lemma reads_importType (hg : g.Sound) : ReadsTree (importType g ctx) c₀ := by
  vcgen [importType] with finish -ring -linarith

@[spec] lemma reads_typeQuery (hg : g.Sound) : ReadsTree (typeQuery g ctx) c₀ := by
  vcgen [typeQuery] with finish -ring -linarith

@[spec] lemma reads_startsIndexSignature :
    Reads (startsIndexSignature ctx) c₀ fun _ c => c = c₀ := by
  vcgen [startsIndexSignature] with finish -ring -linarith

@[spec] lemma reads_indexSignature (hg : g.Sound) : ReadsTree (indexSignature g ctx) c₀ := by
  vcgen [indexSignature] with finish -ring -linarith

@[spec] lemma reads_memberEnd : Reads memberEnd c₀ fun _ _ => True := by
  vcgen [memberEnd] with finish -ring -linarith

@[spec] lemma reads_signature (hg : g.Sound) : ReadsSome (signature g ctx) c₀ := by
  vcgen [signature] with finish -ring -linarith

@[spec] lemma reads_typeMember (hg : g.Sound) : ReadsTree (typeMember g ctx) c₀ := by
  vcgen [typeMember] with finish -ring -linarith

@[spec] lemma reads_typeMembers (hg : g.Sound) : ReadsSome (typeMembers g ctx) c₀ := by
  refine reads_of fun _ _ _ _ => ?_
  vcgen [typeMembers] with finish -ring -linarith

@[spec] lemma reads_startsMappedType : Reads startsMappedType c₀ fun _ c => c = c₀ := by
  vcgen [startsMappedType] with finish -ring -linarith

@[spec] lemma reads_mappedType (hg : g.Sound) : ReadsTree (mappedType g ctx) c₀ := by
  vcgen [mappedType] with finish -ring -linarith

@[spec] lemma reads_tupleElement (hg : g.Sound) : ReadsTree (tupleElement g ctx) c₀ := by
  vcgen [tupleElement] with finish -ring -linarith

@[spec] lemma reads_tupleType (hg : g.Sound) : ReadsTree (tupleType g ctx) c₀ := by
  vcgen [tupleType] with finish -ring -linarith

@[spec] lemma reads_templateType (hg : g.Sound) : ReadsTree (templateType g ctx) c₀ := by
  vcgen [templateType, reads_many_passing, -reads_many] with finish -ring -linarith [Lexeme.Sound.templateRest]

@[spec] lemma reads_simpleType (hg : g.Sound) : ReadsTree (simpleType g ctx) c₀ := by
  vcgen [simpleType] with finish -ring -linarith

@[spec] lemma reads_suffixedType (hg : g.Sound) : ReadsTree (suffixedType g ctx) c₀ := by
  have hloop := reads_iterate_tree c₀.lexeme.start
  refine reads_of fun _ _ _ _ => ?_
  vcgen [suffixedType, hloop] with finish -ring -linarith

@[spec] lemma reads_inferredBound (hg : g.Sound) : ReadsTree (inferredBound g ctx) c₀ := by
  vcgen [inferredBound] with finish -ring -linarith

@[spec] lemma reads_typeOperand (hg : g.Sound) : ReadsTree (typeOperand g ctx) c₀ := by
  have hbound (c : Cursor) :=
    reads_attempt (show ReadsTree (inferredBound g ctx) c from reads_inferredBound ctx hg)
  refine reads_of fun _ _ _ _ => ?_
  vcgen [typeOperand, hbound]
  all_goals grind -ring -linarith [cases Option]

@[spec] lemma reads_joinedTypes {item : Parse Tree} (h : ∀ c, ReadsTree item c) (op : Punct) :
    ReadsTree (joinedTypes g op item) c₀ := by
  vcgen [joinedTypes, h] with finish -ring -linarith

@[spec] lemma reads_type (hg : g.Sound) : ReadsTree (type g ctx) c₀ := by
  vcgen [type] with finish -ring -linarith

end MetaInline.Script.Grammar
