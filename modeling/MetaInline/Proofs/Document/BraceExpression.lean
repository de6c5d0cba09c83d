import Mathlib
import MetaInline.Document.Astro
import MetaInline.Document.Region
import MetaInline.Proofs.Analysis.Evaluation
import MetaInline.Proofs.Script.Statement

namespace MetaInline

namespace Script

variable {α β : Type} {c d e : Cursor} {u blanks : Text} {t : Tree}

namespace Parse

lemma exists_of_bind {p : Parse α} {f : α → Parse β} {b : β} (h : (p >>= f) c = some (b, e)) :
    ∃ a d, p c = some (a, d) ∧ f a d = some (b, e) := by
  obtain ⟨⟨a, d⟩, hp, hf⟩ := Option.bind_eq_some_iff.mp h
  exact ⟨a, d, hp, hf⟩

lemma suffix_of_iterate {item : Parse (Option α)} {n : ℕ} {xs ys : List α}
    (h : iterate (fun xs => do return (← item).map (· :: xs)) n xs c = some (ys, e)) : xs <:+ ys := by
  induction n generalizing xs c with
  | zero => cases h
  | succ n ih =>
    simp only [iterate] at h
    split at h
    · cases h
    · cases h
      exact List.suffix_refl _
    · next zs d hstep =>
      obtain ⟨o, d', -, hmap⟩ := exists_of_bind hstep
      cases o with
      | none => cases hmap
      | some x =>
        cases hmap
        exact (List.suffix_cons x xs).trans (ih h)

lemma exists_of_many {item : Parse (Option α)} {n : ℕ} {xs : List α}
    (h : many n item c = some (xs, e)) :
    ∃ o d, item c = some (o, d) ∧ ∀ x ∈ o, ∃ ys, xs = x :: ys := by
  obtain ⟨ys, d', hloop, hreverse⟩ := exists_of_bind h
  cases hreverse
  cases n with
  | zero => cases hloop
  | succ n =>
    simp only [iterate] at hloop
    split at hloop
    · cases hloop
    · next d hstep =>
      obtain ⟨o, d', hitem, hmap⟩ := exists_of_bind hstep
      cases o with
      | none => exact ⟨none, d', hitem, by simp⟩
      | some x => cases hmap
    · next zs d hstep =>
      obtain ⟨o, d', hitem, hmap⟩ := exists_of_bind hstep
      cases o with
      | none => cases hmap
      | some x =>
        cases hmap
        obtain ⟨ws, rfl⟩ := suffix_of_iterate hloop
        exact ⟨some x, d, hitem, by simp⟩

end Parse

lemma token_first {markup newline : Bool} {start : ℕ} (h : IsBlanks blanks) :
    (Lexeme.first markup newline start (blanks ++ '{' :: u)).token = .punct .lbrace := by
  have hsolid : IsSolid '{' := by decide
  obtain ⟨newline', hfirst⟩ := first_blanks markup newline start h (isFront_of_isSolid hsolid u)
  rw [hfirst, first_of_isSolid hsolid]
  rfl

namespace Grammar

lemma statement_lbrace (g : Rules) (ctx : Context) (isNested : Bool)
    (h : c.lexeme.token = .punct .lbrace) : statement g ctx isNested c = block g ctx c := by
  obtain ⟨⟨token, start, here, stop, rest, newline⟩, lastStop, markup, pending⟩ := c
  obtain rfl : token = .punct .lbrace := h
  rfl

lemma exists_of_block {g : Rules} {ctx : Context} (h : block g ctx c = some (t, e)) :
    ∃ s xs, t = .node .block s xs := by
  obtain ⟨s, d, -, h⟩ := Parse.exists_of_bind h
  obtain ⟨-, d, -, h⟩ := Parse.exists_of_bind h
  obtain ⟨xs, d, -, h⟩ := Parse.exists_of_bind h
  cases h
  exact ⟨_, _, rfl⟩

lemma exists_block_of_program {n : ℕ} {ctx : Context} (hc : c.lexeme.token = .punct .lbrace)
    (h : program (rules (n + 1)) ctx c = some (t, e)) :
    ∃ s b xs ts, t = .node .program s (.node .block b xs :: ts) := by
  obtain ⟨ts, d, hmany, h⟩ := Parse.exists_of_bind h
  obtain ⟨d₁, d₂, -, h⟩ := Parse.exists_of_bind h
  obtain ⟨⟨⟩, d₃, -, h⟩ := Parse.exists_of_bind h
  cases h
  obtain ⟨o, d, hitem, hfirst⟩ := Parse.exists_of_many hmany
  have hdone : Parse.isAtDone c = some (false, c) := by
    rw [Parse.isAtDone_eq, hc]
    rfl
  obtain ⟨b, d', hb, hitem⟩ := Parse.exists_of_bind hitem
  rw [hdone] at hb
  cases hb
  obtain ⟨t, d', ht, hitem⟩ := Parse.exists_of_bind hitem
  cases hitem
  obtain ⟨s, xs, rfl⟩ := exists_of_block ((statement_lbrace (rules n) ctx false hc).symm.trans ht)
  obtain ⟨ys, rfl⟩ := hfirst _ rfl
  exact ⟨_, _, _, _, rfl⟩

lemma exists_block_of_parseAs {dialect : Dialect} {allowReturn isModule : Bool}
    (hblanks : ∀ c ∈ blanks, (isSpace c || isLineBreak c) = true)
    (h : parseAs dialect allowReturn isModule (blanks ++ '{' :: u) = some t) :
    ∃ s b xs ts, t = .node .program s (.node .block b xs :: ts) := by
  have hskip : skipInterpreter (blanks ++ '{' :: u) = (0, blanks ++ '{' :: u) := by
    rw [skipInterpreter]
    intro cs hcs
    cases blanks with
    | nil => cases hcs
    | cons c blanks =>
      obtain ⟨rfl, -⟩ := List.cons_eq_cons.mp hcs
      have hsign := hblanks '#' List.mem_cons_self
      revert hsign
      decide
  rw [parseAs, front, hskip] at h
  obtain ⟨⟨t', d⟩, hprogram, h⟩ := Option.bind_eq_some_iff.mp h
  obtain ⟨-, -, h⟩ := Option.bind_eq_some_iff.mp h
  cases h
  obtain ⟨n, hn⟩ : ∃ n, depth (blanks ++ '{' :: u) = n + 1 := ⟨_, rfl⟩
  rw [hn] at hprogram
  exact exists_block_of_program (token_first hblanks) hprogram

end Grammar

lemma exists_block_of_parse {dialect : Dialect} {allowReturn : Bool}
    (hblanks : ∀ c ∈ blanks, (isSpace c || isLineBreak c) = true)
    (h : parse dialect allowReturn (blanks ++ '{' :: u) = some t) :
    ∃ s b xs ts, t = .node .program s (.node .block b xs :: ts) := by
  unfold parse at h
  split at h
  · exact Grammar.exists_block_of_parseAs hblanks h
  · exact Grammar.exists_block_of_parseAs hblanks h
  · simp only at h
    split at h
    · exact Grammar.exists_block_of_parseAs hblanks h
    · split at h
      · cases h
      · exact Grammar.exists_block_of_parseAs hblanks h

def isExpression (dialect : Dialect) (u : Text) : Bool :=
  match parse dialect false ('(' :: (u ++ ['\n', ')'])) with
  | some (.node .program _ [.node .expressionStatement _ [.parens _ _]]) => true
  | _ => false

end Script

/-- An object with two properties is an expression, but as the code of a brace it cannot be read. -/
theorem exists_isExpression_unreadable :
    let table : BindingTable := ⟨[("a", .value (.literal .null))]⟩
    let options : AnalysisOptions := ⟨Astro.expression, false, false⟩
    let object := "\x7ba: import.meta.a, b: 1\x7d".toList
    let alone := Analysis.analyze table options object
    let enclosed := Analysis.analyze table options ('(' :: (object ++ ['\n', ')']))
    (Astro.scan ('{' :: (object ++ ['}']))).regions = [⟨⟨1, 25⟩, Astro.expression, false⟩] ∧
      Script.isExpression Astro.expression object = true ∧
      enclosed.edits = [⟨⟨5, 18⟩, "null"⟩] ∧ enclosed.hasErrors = false ∧
      alone.edits = [] ∧ alone.hasParseError = true := by
  refine ⟨?_, ?_, ?_, ?_, ?_, ?_⟩ <;> decide +kernel

namespace Site

open Script (Tree)

lemma collectAll_append (xs ts : List Tree) (found : Array Site) :
    collectAll (xs ++ ts) found = collectAll ts (collectAll xs found) := by
  induction xs generalizing found with
  | nil => rfl
  | cons x xs ih => exact ih (collect .value x found)

lemma ofTree_block (s b : Span) (xs ts : List Tree) :
    ofTree (.node .program s (.node .block b xs :: ts)) = ofTree (.node .program s (xs ++ ts)) := by
  rw [ofTree, ofTree, collect, collectAll, collect, collect, collectAll_append]

end Site

namespace Analysis

open Script (Tree isSpace isLineBreak)
open Script.Grammar (expression? startsPlainly)

lemma hasParseError_shift (n : ℕ) (a : Analysis) : (a.shift n).hasParseError = a.hasParseError := by
  simp [hasParseError, shift, Diagnostic.shift, Function.comp_def]

/-- The code of a pair of braces is analysed as a program. Where that program is an expression, it is
analysed as that expression. A brace at its beginning is that of a block: either there is a syntax error,
and nothing is replaced, or the sites are those of the statements in the block and after it. -/
theorem ofRegion_expression (document : Text) (table : BindingTable) (options : AnalysisOptions)
    (r : Region) :
    let source := r.text document
    let found (t : Tree) : Analysis :=
      if mentionsImportMeta source then ofSites table options.reportUnbound (Site.ofTree t) else empty
    (∀ t, r.dialect.loading = .module → expression? r.dialect r.allowReturn source = some t →
      startsPlainly r.dialect r.allowReturn source = true →
        ofRegion document table options r = (found t).shift r.span.start ∧
          (ofRegion document table options r).hasParseError = false) ∧
    ∀ blanks u, (∀ c ∈ blanks, (isSpace c || isLineBreak c) = true) → source = blanks ++ '{' :: u →
      (Script.parse r.dialect r.allowReturn source = none ∧
        ofRegion document table options r =
          (if mentionsImportMeta source then unreadable (Text.size source) else empty).shift
            r.span.start) ∨
      ∃ s b xs ts,
        Script.parse r.dialect r.allowReturn source = some (.node .program s (.node .block b xs :: ts)) ∧
          ofRegion document table options r = (found (.node .program s (xs ++ ts))).shift r.span.start ∧
          (ofRegion document table options r).hasParseError = false := by
  intro source found
  have hfound (t : Tree) : (found t).hasParseError = false := by
    simp only [found]
    split
    · exact hasParseError_ofSites ..
    · rfl
  have hparsed {t : Tree} (h : Script.parse r.dialect r.allowReturn source = some t) :
      ofRegion document table options r = (found t).shift r.span.start ∧
        (ofRegion document table options r).hasParseError = false := by
    have hregion : ofRegion document table options r = (found t).shift r.span.start := by
      rw [ofRegion, analyze, ofScript]
      simp only [Region.options]
      rw [h]
    exact ⟨hregion, by rw [hregion, hasParseError_shift, hfound]⟩
  constructor
  · intro t hmodule h hstart
    obtain ⟨s, b, hparse⟩ := Script.Grammar.parseAs_of_expression? h hstart
    have htree : found (.node .program s [.node .expressionStatement b [t]]) = found t := rfl
    rw [← htree]
    refine hparsed ?_
    rw [Script.parse, hmodule]
    exact hparse
  · intro blanks u hblanks hsource
    cases h : Script.parse r.dialect r.allowReturn source with
    | none =>
      refine Or.inl ⟨rfl, ?_⟩
      rw [ofRegion, analyze, ofScript]
      simp only [Region.options]
      rw [h]
    | some t =>
      obtain ⟨s, b, xs, ts, rfl⟩ := Script.exists_block_of_parse hblanks (hsource ▸ h)
      refine Or.inr ⟨s, b, xs, ts, rfl, ?_⟩
      have htree : found (.node .program s (.node .block b xs :: ts)) =
          found (.node .program s (xs ++ ts)) := by
        simp only [found, Site.ofTree_block]
      rw [← htree]
      exact hparsed h

theorem ofRegion_labelled :
    let table : BindingTable := ⟨[("a", .value (.literal .null))]⟩
    let options : AnalysisOptions := ⟨Script.Dialect.standard, true, false⟩
    let label := "\x7ba: import.meta.a\x7d".toList
    let product := "2 * import.meta.a".toList
    let ofBraces (code : Text) := ofRegion ('{' :: (code ++ ['}'])) table options
      ⟨⟨1, 1 + Text.size code⟩, Astro.expression, false⟩
    Script.isExpression Astro.expression label = true ∧
      (ofBraces label).edits = [⟨⟨5, 18⟩, "null"⟩] ∧ (ofBraces label).hasParseError = false ∧
      Script.isExpression Astro.expression product = true ∧
      (ofBraces product).edits = [⟨⟨5, 18⟩, "null"⟩] ∧ (ofBraces product).hasParseError = false := by
  intro table options label product ofBraces
  have hlabel := (ofRegion_expression ('{' :: (label ++ ['}'])) table options
    ⟨⟨1, 1 + Text.size label⟩, Astro.expression, false⟩).2 [] "a: import.meta.a\x7d".toList (by simp)
      (by decide +kernel)
  obtain ⟨t, ht⟩ := Option.isSome_iff_exists.mp (by decide +kernel :
    (expression? Astro.expression false
      (Region.text ⟨⟨1, 1 + Text.size product⟩, Astro.expression, false⟩
        ('{' :: (product ++ ['}'])))).isSome = true)
  have hproduct := ((ofRegion_expression ('{' :: (product ++ ['}'])) table options
    ⟨⟨1, 1 + Text.size product⟩, Astro.expression, false⟩).1 t rfl ht (by decide +kernel)).2
  refine ⟨by decide +kernel, by decide +kernel, ?_, by decide +kernel, by decide +kernel, hproduct⟩
  rcases hlabel with ⟨hnone, -⟩ | ⟨s, b, xs, ts, -, -, hread⟩
  · exact absurd hnone (by decide +kernel)
  · exact hread

end Analysis
end MetaInline
