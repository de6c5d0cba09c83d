import Mathlib
import MetaInline.Proofs.Script.LiteralExpression

namespace MetaInline.Script

variable {α : Type} {c d e : Cursor} {g : Rules} {ctx : Context} {t : Tree}

namespace Parse

lemma many_eq_singleton {item : Parse (Option α)} {n : ℕ} {a : α} (h : item c = some (some a, d))
    (hstop : item d = some (none, e)) : many (n + 2) item c = some ([a], e) := by
  have hfirst : (do return (← item).map (· :: ([] : List α)) : Parse (Option (List α))) c =
      some (some [a], d) := by
    rw [bind_eq h]
    rfl
  have hlast : (do return (← item).map (· :: [a]) : Parse (Option (List α))) d = some (none, e) := by
    rw [bind_eq hstop]
    rfl
  have hloop : iterate (fun xs => do return (← item).map (· :: xs)) (n + 2) [] c =
      some ([a], e) := by
    simp only [iterate, hfirst, hlast]
  rw [many, bind_eq hloop]
  rfl

end Parse

namespace Grammar

open Parse

def openingWords : List Keyword :=
  [.kwIf, .kwDo, .kwWhile, .kwWith, .kwFor, .kwContinue, .kwBreak, .kwReturn, .kwSwitch, .kwThrow,
    .kwTry, .kwDebugger, .kwFunction, .kwClass, .kwExport, .kwEnum, .kwConst, .kwType, .kwInterface,
    .kwNamespace, .kwModule, .kwGlobal, .kwAbstract, .kwDeclare, .kwVar, .kwLet, .kwUsing]

def isPlainStart (ctx : Context) (token : Token) (next : Lexeme) : Bool :=
  match token with
  | .done | .punct .lbrace | .punct .semicolon | .punct .atSign => false
  | .word _ k escaped =>
    !(isName ctx token && next.token == .punct .colon) &&
      match if escaped then none else k with
      | some .kwImport => next.token == .punct .dot || next.token == .punct .lparen
      | some .kwAsync => !(keywordOf next.token == some .kwFunction && !next.newline)
      | some .kwAwait => keywordOf next.token != some .kwUsing
      | some k => !openingWords.contains k
      | none => true
  | _ => true

lemma startsTypeDeclaration_eq (h : ∀ k ∈ openingWords, keywordOf c.lexeme.token ≠ some k) :
    startsTypeDeclaration ctx c = some (false, c) := by
  unfold startsTypeDeclaration
  cases ctx.typescript with
  | false => rfl
  | true =>
    simp only [Bool.not_true, Bool.false_eq_true, if_false]
    rw [bind_eq (peek_eq c), bind_eq (token_eq c)]
    generalize keywordOf c.lexeme.token = k at h
    cases k with
    | none => rfl
    | some k => cases k <;> first | rfl | exact absurd rfl (h _ (by decide))

lemma variableWord?_eq (h : ∀ k ∈ openingWords, keywordOf c.lexeme.token ≠ some k)
    (hawait : keywordOf c.lexeme.token = some .kwAwait →
      keywordOf (c.lexeme.next c.markup).token ≠ some .kwUsing) :
    variableWord? ctx false c = some (none, c) := by
  rw [variableWord?, bind_eq (peek_eq c), bind_eq (token_eq c)]
  generalize keywordOf c.lexeme.token = k at h hawait
  cases k with
  | none => rfl
  | some k =>
    cases k
    case kwAwait =>
      have hahead : lookAhead (do
          advance
          if (← newlineBefore) || !(← isAtWord .kwUsing) then return false
          let next ← peek
          return isName ctx next.token && !next.newline) c = some (false, c) := by
        have husing : isAtWord .kwUsing c.advanced = some (false, c.advanced) := by
          have hnot : (keywordOf c.advanced.lexeme.token == some .kwUsing) = false :=
            beq_eq_false_iff_ne.mpr (hawait rfl)
          rw [isAtWord_eq, hnot]
        refine lookAhead_eq (d := c.advanced) ?_
        rw [bind_eq (advance_eq c), bind_eq (newlineBefore_eq c.advanced), bind_eq husing,
          Bool.not_false, Bool.or_true]
        rfl
      dsimp only
      rw [bind_eq hahead]
      rfl
    all_goals first | rfl | exact absurd rfl (h _ (by decide))

lemma wordStatement_plain {x : String} {k : Option Keyword} {escaped : Bool}
    (hc : c.lexeme.token = .word x k escaped)
    (h : isPlainStart ctx c.lexeme.token (c.lexeme.next c.markup) = true) :
    wordStatement g ctx false c = expressionStatement g ctx c := by
  set next := c.lexeme.next c.markup with hnext
  rw [hc, isPlainStart, Bool.and_eq_true, Bool.not_eq_true'] at h
  obtain ⟨hlabel, hword⟩ := h
  have hkeyword : keywordOf c.lexeme.token = if escaped then none else k := by
    rw [hc]
    cases escaped <;> rfl
  rw [← hkeyword] at hword
  have hopening : ∀ k ∈ openingWords, keywordOf c.lexeme.token ≠ some k := by
    intro k hk heq
    rw [heq] at hword
    revert hk hword
    cases k <;> simp [openingWords]
  have hasync : isAtAsyncFunction c = some (false, c) := by
    change some (keywordOf c.lexeme.token == some .kwAsync && keywordOf next.token == some .kwFunction &&
      !next.newline, c) = some (false, c)
    cases hk : keywordOf c.lexeme.token == some .kwAsync with
    | false => rfl
    | true =>
      rw [eq_of_beq hk] at hword
      have hfunction : (keywordOf next.token == some .kwFunction && !next.newline) = false :=
        (Bool.not_eq_true' _).mp hword
      rw [Bool.true_and, hfunction]
  have hdeclares : startsTypeDeclaration ctx c = some (false, c) := startsTypeDeclaration_eq hopening
  have hvariable : variableWord? ctx false c = some (none, c) := by
    refine variableWord?_eq hopening fun heq => ?_
    rw [heq] at hword
    simpa using hword
  rw [wordStatement, bind_eq (token_eq c), bind_eq (peek_eq c), ← hnext, hc,
    if_neg (by simp [hlabel]), bind_eq hasync, if_neg Bool.false_ne_true, bind_eq hdeclares, if_neg Bool.false_ne_true, bind_eq hvariable]

lemma statement_plain (h : isPlainStart ctx c.lexeme.token (c.lexeme.next c.markup) = true) :
    statement g ctx false c = expressionStatement g ctx c := by
  rw [statement, bind_eq (position_eq c), bind_eq (token_eq c), bind_eq (peek_eq c)]
  cases htok : c.lexeme.token with
  | done => simp [htok, isPlainStart] at h
  | punct p =>
    rw [htok] at h
    cases p <;> first | rfl | cases h
  | word x k escaped =>
    have hword := wordStatement_plain (g := g) htok h
    rw [htok, isPlainStart, Bool.and_eq_true] at h
    obtain ⟨-, h⟩ := h
    dsimp only
    generalize (if escaped then none else k) = k' at h ⊢
    cases k' with
    | none => exact hword
    | some k' =>
      cases k'
      case kwImport =>
        simp only at h ⊢
        rw [if_pos h]
      all_goals first | exact hword | cases h
  | _ => rfl

/-- No expression before the cursor goes on there, so that a statement without semicolon is over, and
the statement that begins there is an expression. -/
structure PartsStatements (c : Cursor) : Prop where
  link (g : Rules) (ctx : Context) (calls : Bool) (s : ℕ) (x : Link) :
    link g ctx calls s x c = some (none, c)
  operation (g : Rules) (ctx : Context) (level s : ℕ) (t : Tree) :
    operation g ctx level s t c = some (none, c)
  assignmentRest (g : Rules) (ctx : Context) (typed : Bool) (s : ℕ) (t : Tree) :
    assignmentRest g ctx typed s t c = some (t, c)
  accept (p : Punct) : accept p c = some (false, c)
  semicolon : semicolon c = some ((), c)
  statement (g : Rules) (ctx : Context) : statement g ctx false c = expressionStatement g ctx c

lemma isPlainStart_of_literalOf? {token : Token} {v : Literal} (h : literalOf? token = some v)
    (next : Lexeme) : isPlainStart ctx token next = true := by
  unfold literalOf? at h
  split at h
  · rfl
  · rfl
  · rfl
  · rfl
  · rfl
  · rfl
  · cases h

lemma partsStatements_of_literalOf? {v : Literal} (h : literalOf? c.lexeme.token = some v)
    (hnewline : c.lexeme.newline = true) : PartsStatements c := by
  have hcloses : c.Closes := closes_of_literalOf? h
  have haccept (p : Punct) : accept p c = some (false, c) := by
    by_cases hp : p = .rparen
    · subst hp
      obtain ⟨⟨token, start, here, stop, rest, newline⟩, lastStop, markup, pending⟩ := c
      cases hcloses <;> first | rfl | cases h
    · exact accept_closes hcloses hp
  refine ⟨fun _ _ _ _ _ => link_closes hcloses, fun _ _ _ _ _ => operation_closes hcloses,
    fun _ _ _ _ _ => assignmentRest_closes hcloses, haccept, ?_,
    fun _ _ => statement_plain (isPlainStart_of_literalOf? h _)⟩
  have hbreak : newlineBefore c = some (true, c) := by
    rw [← hnewline]
    rfl
  rw [semicolon, bind_eq (haccept .semicolon), if_neg Bool.false_ne_true, bind_eq hbreak]
  rfl

def expression? (dialect : Dialect) (allowReturn : Bool) (cs : Text) : Option Tree := do
  let ctx := (dialect.context allowReturn true).inside
  let (t, c) ← (rules (depth cs - 1)).expression ctx (front true cs)
  guard (c.lexeme.token = .done ∧ c.pendingDefaults = [])
  return t

def startsPlainly (dialect : Dialect) (allowReturn : Bool) (cs : Text) : Bool :=
  let c := front true cs
  isPlainStart (dialect.context allowReturn true) c.lexeme.token (c.lexeme.next c.markup)

lemma expressionStatement_done (h : g.expression ctx.inside c = some (t, d))
    (hd : d.lexeme.token = .done) : expressionStatement g ctx c =
      some (.node .expressionStatement ⟨c.lexeme.start, d.lastStop⟩ [t], d) := by
  have hsemicolon : semicolon d = some ((), d) := by
    obtain ⟨⟨token, start, here, stop, rest, newline⟩, lastStop, markup, pending⟩ := d
    obtain rfl : token = .done := hd
    cases newline <;> rfl
  rw [expressionStatement, bind_eq (position_eq c), bind_eq h, bind_eq hsemicolon]
  rfl

lemma program_eq_singleton {n : ℕ} {x : Tree} (hlimit : g.limit = n + 2)
    (hc : c.lexeme.token ≠ .done) (h : g.statement ctx c = some (x, d)) (hd : d.lexeme.token = .done)
    (hpending : d.pendingDefaults = []) :
    program g ctx c = some (.node .program ⟨0, d.lastStop⟩ [x], d) := by
  have hsome : isAtDone c = some (false, c) := by
    rw [isAtDone_eq, beq_eq_false_iff_ne.mpr hc]
  have hnone : isAtDone d = some (true, d) := by
    rw [isAtDone_eq, hd]
    rfl
  have hget : (get : Parse Cursor) d = some (d, d) := rfl
  have hcheck : check d.pendingDefaults.isEmpty d = some ((), d) := by
    rw [hpending]
    rfl
  rw [program, hlimit, bind_eq (many_eq_singleton (a := x) (d := d) (e := d) ?_ ?_), bind_eq hget,
    bind_eq hcheck]
  · rfl
  · rw [bind_eq hsome, if_neg Bool.false_ne_true, bind_eq h]
    rfl
  · rw [bind_eq hnone]
    rfl

lemma parseAs_of_expression? {dialect : Dialect} {allowReturn : Bool} {cs : Text}
    (h : expression? dialect allowReturn cs = some t)
    (hstart : startsPlainly dialect allowReturn cs = true) :
    ∃ s b, parseAs dialect allowReturn true cs =
      some (.node .program s [.node .expressionStatement b [t]]) := by
  obtain ⟨⟨t', d⟩, hread, h⟩ := Option.bind_eq_some_iff.mp h
  obtain ⟨⟨⟩, hguard, h⟩ := Option.bind_eq_some_iff.mp h
  obtain ⟨hdone, hpending⟩ := (Option.guard_eq_some' _).mp hguard
  cases h
  set ctx := dialect.context allowReturn true
  set c := front true cs with hc
  obtain ⟨n, hn⟩ : ∃ n, depth cs = n + 2 := ⟨depth cs - 2, by rw [depth]; omega⟩
  rw [hn] at hread
  have hnot : c.lexeme.token ≠ .done := by
    intro heq
    simp [startsPlainly, isPlainStart, ← hc, heq] at hstart
  have hstatement : (rules (n + 2)).statement ctx c =
      some (.node .expressionStatement ⟨c.lexeme.start, d.lastStop⟩ [t], d) :=
    (statement_plain hstart).trans (expressionStatement_done hread hdone)
  have hprogram := program_eq_singleton rfl hnot hstatement hdone hpending
  refine ⟨⟨0, d.lastStop⟩, ⟨c.lexeme.start, d.lastStop⟩, ?_⟩
  rw [parseAs, hn, hprogram]
  simp [exportedNames, guard]

end Grammar
end MetaInline.Script
