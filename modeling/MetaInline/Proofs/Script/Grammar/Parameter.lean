import Mathlib
import MetaInline.Proofs.Script.Reading
import MetaInline.Script.Grammar.Parameter

namespace MetaInline.Script.Grammar

open Parse
open Std.Internal.Do
open Source (text)

set_option mvcgen.warning false

variable [Source] {g : Rules} {c₀ : Cursor} (ctx : Context)

@[spec] lemma reads_patternElement (hg : g.Sound) : ReadsTree (patternElement g ctx) c₀ := by
  vcgen [patternElement] with finish -ring -linarith

@[spec] lemma reads_restElement {target : Parse Tree} (h : ∀ c, ReadsTree target c) :
    ReadsTree (restElement target) c₀ := by
  vcgen [restElement, h] with finish -ring -linarith

@[spec] lemma reads_restList {item rest : Parse Tree}
    (hitem : ∀ c, Reads item c fun t d => t.Between c.lexeme.start (itemStop d))
    (hrest : ∀ c, ReadsTree rest c) (n : ℕ) (close : Punct) :
    ReadsTrees (restList n close item rest) c₀ := by
  have hloop : ∀ step : List Tree × Bool → Parse (Option (List Tree × Bool)),
      (∀ x c, Gathered c₀ ([·]) x.1 c → Reads (step x) c fun o d => o.elim
        (Chained c₀.lexeme.start d.lastStop (x.1.reverse.flatMap ([·])))
        fun y => Gathered c₀ ([·]) y.1 d) →
      Reads (iterate step n ([], true)) c₀ fun x c =>
        Chained c₀.lexeme.start c.lastStop x.1.reverse :=
    fun step hstep => reads_imp (reads_iterate hstep n ⟨le_rfl, trivial⟩) (by simp)
  refine reads_of fun _ _ _ _ => ?_
  vcgen [restList, hloop, hitem, hrest] with finish -ring -linarith [Gathered.cons]

@[spec] lemma reads_hole : Reads hole c₀ fun t c =>
    c = c₀ ∧ t = .node .hole ⟨c.lexeme.start, c.lexeme.start⟩ [] := by
  vcgen [hole] with finish -ring -linarith

@[spec] lemma reads_arrayPattern (hg : g.Sound) : ReadsTree (arrayPattern g ctx) c₀ := by
  vcgen [arrayPattern] with finish -ring -linarith

@[spec] lemma reads_propertyPattern (hg : g.Sound) : ReadsTree (propertyPattern g ctx) c₀ := by
  vcgen [propertyPattern] with finish -ring -linarith

@[spec] lemma reads_objectPattern (hg : g.Sound) : ReadsTree (objectPattern g ctx) c₀ := by
  vcgen [objectPattern] with finish -ring -linarith

@[spec] lemma reads_pattern (hg : g.Sound) : ReadsTree (pattern g ctx) c₀ := by
  vcgen [pattern] with finish -ring -linarith

@[spec] lemma reads_annotation (hg : g.Sound) : ReadsTrees ( annotation g ctx) c₀ := by
  vcgen [ annotation] with finish -ring -linarith

@[spec] lemma reads_returnType (hg : g.Sound) : ReadsTree (returnType g ctx) c₀ := by
  vcgen [returnType] with finish -ring -linarith

@[spec] lemma reads_returnAnnotation (hg : g.Sound) :
    ReadsTrees ( returnAnnotation g ctx) c₀ := by
  vcgen [ returnAnnotation] with finish -ring -linarith

@[spec] lemma reads_typeParameter (hg : g.Sound) : ReadsTree (typeParameter g ctx) c₀ := by
  vcgen [typeParameter] with finish -ring -linarith

@[spec] lemma reads_typeParameters (hg : g.Sound) : ReadsTrees (typeParameters g ctx) c₀ := by
  vcgen [typeParameters] with finish -ring -linarith

@[spec] lemma reads_typeArguments (hg : g.Sound) : ReadsSome (typeArguments g ctx) c₀ := by
  vcgen [typeArguments] with finish -ring -linarith [Lexeme.Sound.split]

@[spec] lemma reads_typeArgumentsHere (hg : g.Sound) :
    ReadsTrees (typeArgumentsHere g ctx) c₀ := by
  vcgen [typeArgumentsHere] with finish -ring -linarith

@[spec] lemma reads_decorators (hg : g.Sound) : ReadsTrees (decorators g ctx) c₀ := by
  vcgen [decorators] with finish -ring -linarith

@[spec] lemma reads_parameterModifiers :
    Reads (parameterModifiers g ctx) c₀ fun _ _ => True := by
  vcgen [parameterModifiers, reads_iterate_true] with finish -ring -linarith

@[spec] lemma reads_parameter (hg : g.Sound) : ReadsTree (parameter g ctx) c₀ := by
  vcgen [parameter]
  all_goals grind -ring -linarith

@[spec] lemma reads_restParameter (hg : g.Sound) : ReadsTree (restParameter g ctx) c₀ := by
  vcgen [restParameter] with finish -ring -linarith

@[spec] lemma reads_parameters (hg : g.Sound) : ReadsSome (parameters g ctx) c₀ := by
  refine reads_of fun _ _ _ _ => ?_
  vcgen [parameters] with finish -ring -linarith

end MetaInline.Script.Grammar
