import Mathlib
import MetaInline.Proofs.Script.Grammar.Function
import MetaInline.Script.Grammar.Expression

namespace MetaInline.Script.Grammar

open Parse
open Std.Internal.Do
open Source (text)

set_option mvcgen.warning false

variable [Source] {g : Rules} {c₀ : Cursor} (ctx : Context)

@[spec] lemma reads_settle (t : Tree) : Reads (settle t) c₀ fun _ c =>
    c.lexeme = c₀.lexeme ∧ c.lastStop = c₀.lastStop := by
  vcgen [settle] with finish -ring -linarith

structure Pieces (c₀ : Cursor) (ts : List Tree) (c : Cursor) : Prop where
  start_le : c₀.lexeme.start ≤ c.lexeme.start
  chained : Chained c₀.lexeme.start c.lastStop ts.reverse
  first : ∀ t ∈ ts.reverse.head?, t.span.start = c₀.lexeme.start
  start_eq : ts = [] → c.lexeme.start = c₀.lexeme.start

lemma Pieces.cons {ts : List Tree} {t : Tree} {c d : Cursor} (h : Pieces c₀ ts c) (hc : c.Sound)
    (hstart : c.lexeme.start ≤ d.lexeme.start) (hstop : c.lastStop ≤ d.lastStop)
    (ht : t.Between c.lexeme.start d.lastStop) (hfirst : ts = [] → t.span.start = c.lexeme.start) :
    Pieces c₀ (t :: ts) d := by
  refine ⟨h.start_le.trans hstart, ?_, ?_, nofun⟩
  · rw [List.reverse_cons, chained_append, chained_singleton]
    refine ⟨h.chained.mono le_rfl hstop, ht.nested, ?_, ht.stop_le⟩
    refine le_trans ?_ ht.le_start
    rcases h.chained.reach_le c₀.lexeme.start with hr | hr
    · exact hr.trans_le h.start_le
    · exact hr.trans hc.stop_le
  · cases ts with
    | nil =>
      rintro t ⟨⟩
      exact (hfirst rfl).trans (h.start_eq rfl)
    | cons t' ts => simpa using h.first

lemma Pieces.cons_cons {ts : List Tree} {t t' : Tree} {c d e : Cursor} (h : Pieces c₀ ts c)
    (hc : c.Sound) (hd : d.Sound) (hstart : c.lexeme.start ≤ d.lexeme.start)
    (hstart' : d.lexeme.start ≤ e.lexeme.start) (hstop : c.lastStop ≤ d.lastStop)
    (hstop' : d.lastStop ≤ e.lastStop) (ht : t.Between c.lexeme.start d.lastStop)
    (ht' : t'.Between d.lexeme.start e.lastStop) (hfirst : t.span.start = c.lexeme.start) :
    Pieces c₀ (t' :: t :: ts) e :=
  (h.cons hc hstart hstop ht fun _ => hfirst).cons hd hstart' hstop' ht' nofun

lemma Pieces.le {ts : List Tree} {c : Cursor} (h : Pieces c₀ ts c) (hne : ts ≠ []) :
    c₀.lexeme.start ≤ c.lastStop :=
  h.chained.le (List.reverse_ne_nil_iff.mpr hne)

@[spec] lemma reads_templateParts (hg : g.Sound) (tagged : Bool) :
    Reads (templateParts g ctx tagged) c₀ fun ts c =>
      Chained c₀.lexeme.start c.lastStop ts ∧ c₀.lexeme.start ≤ c.lastStop ∧
        ∀ t ∈ ts.head?, t.span.start = c₀.lexeme.start := by
  have hloop (step : List Tree × Bool → Parse (Option (List Tree × Bool)))
      (hstep : ∀ x c, Pieces c₀ x.1 c ∧ (x.1 = [] → x.2 = true) → Reads (step x) c fun o d =>
        o.elim (Pieces c₀ x.1 d ∧ x.1 ≠ []) fun y => Pieces c₀ y.1 d ∧ (y.1 = [] → y.2 = true)) :
      Reads (iterate step g.limit ([], true)) c₀ fun x c =>
        Chained c₀.lexeme.start c.lastStop x.1.reverse ∧ c₀.lexeme.start ≤ c.lastStop ∧
          ∀ t ∈ x.1.reverse.head?, t.span.start = c₀.lexeme.start := by
    refine reads_imp (reads_iterate hstep g.limit ?_) fun x c h => ?_
    · exact ⟨⟨le_rfl, trivial, nofun, fun _ => rfl⟩, fun _ => rfl⟩
    · exact ⟨h.1.chained, h.1.le h.2, h.1.first⟩
  refine reads_of fun _ _ _ _ => ?_
  vcgen [templateParts, hloop] with finish -ring -linarith [Pieces, Pieces.cons, Pieces.cons_cons,
    Lexeme.Sound.templateRest]

@[spec] lemma reads_template (hg : g.Sound) :
    ReadsFrom c₀.lexeme.start (template g ctx) c₀ := by
  vcgen [template] with finish -ring -linarith

@[spec] lemma reads_spreadOr (hg : g.Sound) : ReadsTree (spreadOr g ctx) c₀ := by
  vcgen [spreadOr] with finish -ring -linarith

@[spec] lemma reads_array (hg : g.Sound) : ReadsFrom c₀.lexeme.start (array g ctx) c₀ := by
  vcgen [array] with finish -ring -linarith

@[spec] lemma reads_noteDefault (place : ℕ) : Reads (noteDefault place) c₀ fun _ c =>
    c.lexeme = c₀.lexeme ∧ c.lastStop = c₀.lastStop := by
  vcgen [noteDefault] with finish -ring -linarith

@[spec] lemma reads_shorthandProperty (hg : g.Sound) {s : ℕ} {key : Tree}
    (h : Begun s [key] c₀) : ReadsFrom s (shorthandProperty g ctx s key) c₀ := by
  vcgen [shorthandProperty] with finish -ring -linarith

@[spec] lemma reads_objectMember (hg : g.Sound) : ReadsTree (objectMember g ctx) c₀ := by
  vcgen [objectMember] with finish -ring -linarith

@[spec] lemma reads_object (hg : g.Sound) : ReadsFrom c₀.lexeme.start (object g ctx) c₀ := by
  vcgen [object] with finish -ring -linarith

@[spec] lemma reads_leaf {f : Span → Tree}
    (hf : ∀ s : Span, s.IsIn text → (f s).Nested text ∧ (f s).span = s) :
    ReadsFrom c₀.lexeme.start (leaf f) c₀ := by
  vcgen [leaf] with finish -ring -linarith

@[spec] lemma reads_primary (hg : g.Sound) :
    ReadsFrom c₀.lexeme.start (primary g ctx) c₀ := by
  refine reads_of fun _ _ _ _ => ?_
  vcgen [primary] with finish -ring -linarith [Lexeme.Sound.regexp]

@[spec] lemma reads_arguments (hg : g.Sound) : Reads (arguments g ctx) c₀ fun ts c =>
    Chained c₀.lexeme.start c.lastStop ts ∧ c₀.lexeme.start < c.lastStop ∧
      ¬ Text.IsAfterNewline text c.lastStop := by
  have hitem (c : Cursor) : Reads (spreadOr g ctx.inside) c fun t d =>
      t.Between c.lexeme.start (itemStop d) := by
    vcgen with finish -ring -linarith
  have hlist (c : Cursor) : Reads (commaList g.limit .rparen (spreadOr g ctx.inside)) c fun ts d =>
      Chained c.lexeme.start d.lastStop ts ∧ ¬ Text.IsAfterNewline text d.lastStop :=
    reads_and (reads_commaList hitem g.limit .rparen)
      (reads_commaList_inLine (fun c => reads_imp (hitem c) fun _ _ _ => trivial) g.limit .rparen)
  refine reads_of fun _ _ _ _ => ?_
  vcgen [arguments, hlist, -reads_commaList] with finish -ring -linarith

@[spec] lemma reads_importArguments (hg : g.Sound) {s : ℕ} (h : Begun s [] c₀) :
    ReadsFrom s (importArguments g ctx s) c₀ := by
  vcgen [importArguments] with finish -ring -linarith

@[spec] lemma reads_importExpression (hg : g.Sound) :
    ReadsFrom c₀.lexeme.start (importExpression g ctx) c₀ := by
  refine reads_of fun _ _ _ _ => ?_
  vcgen [importExpression, reads_expectWord_keyword, reads_accept_token, -reads_expectWord,
    -reads_accept] with finish -ring -linarith [nested_importMeta, Cursor.Sound.isImportMeta]

@[spec] lemma reads_expressionTypes (hg : g.Sound) :
    ReadsSome (expressionTypes g ctx) c₀ := by
  vcgen [expressionTypes] with finish -ring -linarith

variable {s : ℕ} {t : Tree}

@[spec] lemma reads_dotted (h : Begun s [t] c₀) (ht : t.span.start = s) (optional : Bool) :
    ReadsFrom s (dotted s t optional) c₀ := by
  vcgen [dotted] with finish -ring -linarith

@[spec] lemma reads_indexed (hg : g.Sound) (h : Begun s [t] c₀) (ht : t.span.start = s)
    (optional : Bool) : ReadsFrom s (indexed g ctx s t optional) c₀ := by
  vcgen [indexed] with finish -ring -linarith

@[spec] lemma reads_tagged (hg : g.Sound) {types : List Tree} (h : Begun s (t :: types) c₀) :
    ReadsFrom s (tagged g ctx s t types) c₀ := by
  vcgen [tagged] with finish -ring -linarith

@[spec] lemma reads_called (hg : g.Sound) {types : List Tree} (h : Begun s (t :: types) c₀)
    (ht : t.span.start = s) (optional : Bool) :
    ReadsFrom s (called g ctx s t types optional) c₀ := by
  vcgen [called] with finish -ring -linarith

@[spec] lemma reads_optionalLink (hg : g.Sound) (h : Begun s [t] c₀) (ht : t.span.start = s) :
    ReadsFrom s (optionalLink g ctx s t) c₀ := by
  refine reads_of fun _ _ _ _ => ?_
  vcgen [optionalLink] with finish -ring -linarith

@[spec] lemma reads_link (hg : g.Sound) (calls : Bool) {x : Link} (h : Begun s [x.1] c₀)
    (hx : x.1.span.start = s) : Reads (link g ctx calls s x) c₀ fun o c =>
      ∀ y ∈ o, y.1.StandsAt s c := by
  have htypes (c : Cursor) :=
    reads_attempt (show ReadsSome (expressionTypes g ctx) c from reads_expressionTypes ctx hg)
  obtain ⟨t, optional⟩ := x
  refine reads_of fun _ _ _ _ => ?_
  vcgen [link, htypes]
  all_goals grind -ring -linarith

@[spec] lemma reads_base (hg : g.Sound) : ReadsFrom c₀.lexeme.start (base g ctx) c₀ := by
  vcgen [base] with finish -ring -linarith

lemma reads_links (hg : g.Sound) (calls : Bool) (h : Begun s [t] c₀) (ht : t.span.start = s) :
    Reads (iterate (link g ctx calls s) g.limit (t, false)) c₀ fun x c => x.1.StandsAt s c := by
  refine reads_iterate (I := fun x c => Begun s [x.1] c ∧ x.1.span.start = s)
    (fun x c hx => ?_) g.limit ⟨h, ht⟩
  refine reads_iff.mpr fun hc o d heq => ?_
  obtain ⟨hd, hstart, hstop, ho⟩ := reads_iff.mp (reads_link ctx hg calls hx.1 hx.2) hc o d heq
  refine ⟨hd, hstart, hstop, ?_⟩
  cases o <;> grind -ring -linarith

@[spec] lemma reads_memberExpression (hg : g.Sound) : ReadsTree (memberExpression g ctx) c₀ := by
  vcgen [memberExpression, reads_links] with finish -ring -linarith

@[spec] lemma reads_callExpression (hg : g.Sound) : ReadsTree (callExpression g ctx) c₀ := by
  vcgen [callExpression, reads_links] with finish -ring -linarith [Tree.Nested.isIn]

@[spec] lemma reads_castType (hg : g.Sound) : ReadsTree (castType g ctx) c₀ := by
  vcgen [castType] with finish -ring -linarith

@[spec] lemma reads_unary (hg : g.Sound) : ReadsTree (unary g ctx) c₀ := by
  vcgen [unary] with finish -ring -linarith

lemma reads_operation (hg : g.Sound) (level : ℕ) (h : Begun s [t] c₀) :
    Reads (operation g ctx level s t) c₀ fun o c => ∀ t' ∈ o, t'.Between s c.lastStop := by
  vcgen [operation] with finish -ring -linarith [Lexeme.Sound.joined]

@[spec] lemma reads_binary (hg : g.Sound) (level : ℕ) : ReadsTree (binary g ctx level) c₀ := by
  have hloop := reads_iterate_tree c₀.lexeme.start
  refine reads_of fun _ _ _ _ => ?_
  vcgen [binary, hloop, reads_operation] with finish -ring -linarith

@[spec] lemma reads_arrowOutlook : Reads (arrowOutlook ctx) c₀ fun _ c => c = c₀ :=
  reads_lookAhead _

@[spec] lemma reads_arrowBody (hg : g.Sound) (isAsync typed : Bool) :
    ReadsTree (arrowBody g ctx isAsync typed) c₀ := by
  vcgen [arrowBody] with finish -ring -linarith

@[spec] lemma reads_arrow : Reads arrow c₀ fun _ c => Passed c₀ c := by
  refine reads_of fun _ _ _ _ => ?_
  vcgen [arrow] with finish -ring -linarith

@[spec] lemma reads_arrowFunction (hg : g.Sound) (typed : Bool) :
    ReadsTree (arrowFunction g ctx typed) c₀ := by
  vcgen [arrowFunction] with finish -ring -linarith

@[spec] lemma reads_arrowFunction? (hg : g.Sound) (typed : Bool) :
    Reads (arrowFunction? g ctx typed) c₀ fun o c =>
      o.elim True (·.Between c₀.lexeme.start c.lastStop) := by
  have harrow (c : Cursor) :=
    reads_attempt (show ReadsTree (arrowFunction g ctx typed) c from reads_arrowFunction ctx hg typed)
  refine reads_of fun _ _ _ _ => ?_
  vcgen [arrowFunction?, harrow]
  all_goals grind -ring -linarith [cases Option]

@[spec] lemma reads_asyncArrowFunction? (hg : g.Sound) (typed : Bool) :
    Reads (asyncArrowFunction? g ctx typed) c₀ fun o c =>
      o.elim True (·.Between c₀.lexeme.start c.lastStop) := by
  vcgen [asyncArrowFunction?] with finish -ring -linarith

@[spec] lemma reads_yieldExpression (hg : g.Sound) : ReadsTree (yieldExpression g ctx) c₀ := by
  vcgen [yieldExpression]
  all_goals grind -ring -linarith

@[spec] lemma reads_assignmentRest (hg : g.Sound) (typed : Bool) (h : Begun s [t] c₀) :
    Reads (assignmentRest g ctx typed s t) c₀ fun t c => t.Between s c.lastStop := by
  unfold assignmentRest
  split
  · vcgen
    all_goals grind -ring -linarith [Lexeme.Sound.joined]
  · vcgen with finish -ring -linarith [Lexeme.Sound.joined]

@[spec] lemma reads_assignment (hg : g.Sound) (typed : Bool) :
    ReadsTree (assignment g ctx typed) c₀ := by
  refine reads_of fun _ _ _ _ => ?_
  vcgen [assignment] with finish -ring -linarith

@[spec] lemma reads_expression (hg : g.Sound) : ReadsTree (expression g ctx) c₀ := by
  vcgen [expression] with finish -ring -linarith

end MetaInline.Script.Grammar
