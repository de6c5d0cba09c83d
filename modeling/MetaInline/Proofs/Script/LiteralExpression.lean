import Mathlib
import MetaInline.Proofs.Script.LiteralToken
import MetaInline.Script.Program

namespace MetaInline.Script

open Text (size)

variable {α β : Type} {c d : Cursor} {g : Rules} {ctx : Context} {v : Literal} {t : Tree}

def Cursor.advanced (c : Cursor) : Cursor :=
  { c with lexeme := c.lexeme.next c.markup, lastStop := c.lexeme.stop }

inductive Token.Closes : Token → Prop
  | done : Closes .done
  | rparen : Closes (.punct .rparen)
  | string (s : String) : Closes (.string s)
  | number (x : Double) : Closes (.number x)
  | bigint (n : ℤ) : Closes (.bigint n)
  | kwNull (name : String) : Closes (.word name (some .kwNull) false)
  | kwTrue (name : String) : Closes (.word name (some .kwTrue) false)
  | kwFalse (name : String) : Closes (.word name (some .kwFalse) false)

abbrev Cursor.Closes (c : Cursor) : Prop :=
  c.lexeme.token.Closes

namespace Parse

lemma bind_eq {p : Parse α} {f : α → Parse β} {a : α} (h : p c = some (a, d)) :
    (p >>= f) c = f a d := by
  change (p c).bind _ = _
  rw [h]
  rfl

lemma position_eq (c : Cursor) : position c = some (c.lexeme.start, c) := rfl

lemma token_eq (c : Cursor) : token c = some (c.lexeme.token, c) := rfl

lemma newlineBefore_eq (c : Cursor) : newlineBefore c = some (c.lexeme.newline, c) := rfl

lemma peek_eq (c : Cursor) : peek c = some (c.lexeme.next c.markup, c) := rfl

lemma advance_eq (c : Cursor) : advance c = some ((), c.advanced) := rfl

lemma isAt_eq (p : Punct) (c : Cursor) : isAt p c = some (c.lexeme.token == .punct p, c) := rfl

lemma isAtDone_eq (c : Cursor) : isAtDone c = some (c.lexeme.token == .done, c) := rfl

lemma isAtWord_eq (k : Keyword) (c : Cursor) :
    isAtWord k c = some (keywordOf c.lexeme.token == some k, c) := rfl

lemma lookAhead_eq {p : Parse α} {a : α} (h : p c = some (a, d)) : lookAhead p c = some (a, c) := by
  simp only [lookAhead, h, Option.map_some]

lemma iterate_eq {step : α → Parse (Option α)} {n : ℕ} {a : α} (hn : n ≠ 0)
    (h : step a c = some (none, d)) : iterate step n a c = some (a, d) := by
  obtain ⟨n, rfl⟩ := Nat.exists_eq_succ_of_ne_zero hn
  simp only [iterate, h]

lemma many_eq_nil {item : Parse (Option α)} {n : ℕ} (hn : n ≠ 0) (h : item c = some (none, d)) :
    many n item c = some ([], d) := by
  have hstep : (do return (← item).map (· :: ([] : List α)) : Parse (Option (List α))) c =
      some (none, d) := by
    rw [bind_eq h]
    rfl
  rw [many, bind_eq (iterate_eq hn hstep)]
  rfl

end Parse

namespace Grammar

open Parse

def literalOf? : Token → Option Literal
  | .string s => some (.string s)
  | .number x => some (.number x)
  | .bigint n => some (.bigint n)
  | .word _ (some .kwNull) false => some .null
  | .word _ (some .kwTrue) false => some (.bool true)
  | .word _ (some .kwFalse) false => some (.bool false)
  | _ => none

lemma closes_of_literalOf? {t : Token} (h : literalOf? t = some v) : t.Closes := by
  unfold literalOf? at h
  split at h
  · exact .string _
  · exact .number _
  · exact .bigint _
  · exact .kwNull _
  · exact .kwTrue _
  · exact .kwFalse _
  · cases h

lemma base_literal (h : literalOf? c.lexeme.token = some v) :
    base g ctx c = some (.literal ⟨c.lexeme.start, c.lexeme.stop⟩ v, c.advanced) := by
  obtain ⟨⟨token, start, here, stop, rest, newline⟩, lastStop, markup, pending⟩ := c
  simp only at h
  unfold literalOf? at h
  split at h <;> cases h <;> rfl

lemma link_closes {calls : Bool} {s : ℕ} {x : Link} (h : c.Closes) :
    link g ctx calls s x c = some (none, c) := by
  obtain ⟨⟨token, start, here, stop, rest, newline⟩, lastStop, markup, pending⟩ := c
  cases h <;> rfl

lemma callExpression_of_base (hg : g.limit ≠ 0) (h : base g ctx c = some (t, d)) (hd : d.Closes) :
    callExpression g ctx c = some (t, d) := by
  rw [callExpression, bind_eq (position_eq c), bind_eq h, bind_eq (iterate_eq hg (link_closes hd))]
  rfl

inductive Begins : Token → Prop
  | string (s : String) : Begins (.string s)
  | number (x : Double) : Begins (.number x)
  | bigint (n : ℤ) : Begins (.bigint n)
  | kwNull (name : String) : Begins (.word name (some .kwNull) false)
  | kwTrue (name : String) : Begins (.word name (some .kwTrue) false)
  | kwFalse (name : String) : Begins (.word name (some .kwFalse) false)
  | lparen : Begins (.punct .lparen)
  | minus : Begins (.punct .minus)

lemma begins_of_literalOf? {t : Token} (h : literalOf? t = some v) :
    Begins t ∧ t ≠ .punct .lparen ∧ t ≠ .punct .minus := by
  unfold literalOf? at h
  split at h
  · exact ⟨.string _, nofun, nofun⟩
  · exact ⟨.number _, nofun, nofun⟩
  · exact ⟨.bigint _, nofun, nofun⟩
  · exact ⟨.kwNull _, nofun, nofun⟩
  · exact ⟨.kwTrue _, nofun, nofun⟩
  · exact ⟨.kwFalse _, nofun, nofun⟩
  · cases h

lemma Begins.isUnaryOperator {t : Token} (h : Begins t) : isUnaryOperator t = false := by
  cases h <;> rfl

lemma isAtWord_of_begins {k : Keyword} (h : Begins c.lexeme.token)
    (hk : k ≠ .kwNull ∧ k ≠ .kwTrue ∧ k ≠ .kwFalse) : isAtWord k c = some (false, c) := by
  obtain ⟨hnull, htrue, hfalse⟩ := hk
  have hne : keywordOf c.lexeme.token ≠ some k := by
    generalize c.lexeme.token = tok at h
    cases h <;> simp_all [keywordOf, eq_comm]
  rw [isAtWord_eq, beq_eq_false_iff_ne.mpr hne]

lemma unary_of_callExpression (hc : Begins c.lexeme.token) (hminus : c.lexeme.token ≠ .punct .minus)
    (h : callExpression g ctx c = some (t, d)) (hd : d.Closes) : unary g ctx c = some (t, d) := by
  have hawait := isAtWord_of_begins (k := .kwAwait) hc (by decide)
  have hstep : (d.lexeme.token == .punct .plusPlus || d.lexeme.token == .punct .minusMinus) = false := by
    rw [Cursor.Closes] at hd
    generalize d.lexeme.token = tok at hd
    cases hd <;> rfl
  rw [unary, bind_eq (position_eq c), bind_eq (token_eq c), hc.isUnaryOperator,
    if_neg Bool.false_ne_true]
  generalize c.lexeme.token = tok at hc hminus
  cases hc
  case minus => exact absurd rfl hminus
  all_goals
    dsimp only
    rw [bind_eq hawait, Bool.and_false, if_neg Bool.false_ne_true, bind_eq h, bind_eq (token_eq d),
      bind_eq (newlineBefore_eq d), hstep, Bool.false_and, if_neg Bool.false_ne_true]
    rfl

lemma unary_literal (ctx : Context) (hg : g.limit ≠ 0) (h : literalOf? c.lexeme.token = some v)
    (hd : c.advanced.Closes) :
    unary g ctx c = some (.literal ⟨c.lexeme.start, c.lexeme.stop⟩ v, c.advanced) := by
  obtain ⟨hbegins, -, hminus⟩ := begins_of_literalOf? h
  exact unary_of_callExpression hbegins hminus (callExpression_of_base hg (base_literal h) hd) hd

lemma unary_minus (hc : c.lexeme.token = .punct .minus)
    (h : g.read .unary ctx c.advanced = some (t, d)) :
    unary g ctx c = some (.minus ⟨c.lexeme.start, d.lastStop⟩ t, d) := by
  rw [unary, bind_eq (position_eq c), bind_eq (token_eq c), hc, if_neg (by decide)]
  dsimp only
  rw [bind_eq (advance_eq c), bind_eq h]
  rfl

lemma base_lparen (hc : c.lexeme.token = .punct .lparen)
    (h : g.read .expression ctx.inside c.advanced = some (t, d)) (hd : d.lexeme.token = .punct .rparen) :
    base g ctx c = some (.parens ⟨c.lexeme.start, d.lexeme.stop⟩ t, d.advanced) := by
  have hprimary : base g ctx c = (do
      let s ← position
      advance
      let e ← g.expression ctx.inside
      expect .rparen
      return .parens (← spanFrom s) e : Parse Tree) c := by
    obtain ⟨⟨token, start, here, stop, rest, newline⟩, lastStop, markup, pending⟩ := c
    cases hc
    rfl
  have hexpect : expect .rparen d = some ((), d.advanced) := by
    obtain ⟨⟨token, start, here, stop, rest, newline⟩, lastStop, markup, pending⟩ := d
    cases hd
    rfl
  rw [hprimary, bind_eq (position_eq c), bind_eq (advance_eq c), Rules.expression, bind_eq h,
    bind_eq hexpect]
  rfl

lemma unary_parens (hg : g.limit ≠ 0) (hc : c.lexeme.token = .punct .lparen)
    (h : g.read .expression ctx.inside c.advanced = some (t, d)) (hd : d.lexeme.token = .punct .rparen)
    (hclose : d.advanced.Closes) :
    unary g ctx c = some (.parens ⟨c.lexeme.start, d.lexeme.stop⟩ t, d.advanced) := by
  have hcall := callExpression_of_base hg (base_lparen hc h hd) hclose
  exact unary_of_callExpression (by rw [hc]; exact .lparen) (by rw [hc]; nofun) hcall hclose

lemma operation_closes {level s : ℕ} (hc : c.Closes) :
    operation g ctx level s t c = some (none, c) := by
  obtain ⟨⟨token, start, here, stop, rest, newline⟩, lastStop, markup, pending⟩ := c
  cases hc <;> rfl

lemma binary_of_unary {level : ℕ} (hg : g.limit ≠ 0) (hc : Begins c.lexeme.token)
    (h : g.read .unary ctx c = some (t, d)) (hd : d.Closes) :
    binary g ctx level c = some (t, d) := by
  rw [binary, bind_eq (position_eq c), bind_eq (token_eq c)]
  generalize c.lexeme.token = tok at hc
  cases hc
  all_goals
    dsimp only
    rw [bind_eq h, iterate_eq hg (operation_closes hd)]

lemma assignmentRest_closes {typed : Bool} {s : ℕ} (hc : c.Closes) :
    assignmentRest g ctx typed s t c = some (t, c) := by
  obtain ⟨⟨token, start, here, stop, rest, newline⟩, lastStop, markup, pending⟩ := c
  unfold assignmentRest
  split <;> cases hc <;> rfl

lemma accept_closes {p : Punct} (hc : c.Closes) (hp : p ≠ .rparen) : accept p c = some (false, c) := by
  have hat : isAt p c = some (false, c) := by
    have hne : c.lexeme.token ≠ .punct p := by
      rw [Cursor.Closes] at hc
      generalize c.lexeme.token = tok at hc
      cases hc <;> simp_all [eq_comm]
    rw [isAt_eq, beq_eq_false_iff_ne.mpr hne]
  rw [accept, bind_eq hat]
  rfl

lemma parenthesisOutlook_eq (ctx : Context) (h : Begins c.advanced.lexeme.token) :
    ∃ d, parenthesisOutlook ctx c = some (.no, d) := by
  refine ⟨c.advanced, ?_⟩
  rw [parenthesisOutlook, bind_eq (advance_eq c), bind_eq (token_eq c.advanced)]
  generalize c.advanced.lexeme.token = tok at h
  cases h
  all_goals
    dsimp only
    rw [bind_eq (peek_eq c.advanced), if_neg (by cases ctx.typescript <;> nofun)]
    rfl

lemma arrowOutlook_eq (h : Begins c.lexeme.token)
    (hparen : c.lexeme.token = .punct .lparen → Begins c.advanced.lexeme.token) :
    arrowOutlook ctx c = some (.no, c) := by
  have hasync := isAtWord_of_begins (k := .kwAsync) h (by decide)
  rw [arrowOutlook]
  by_cases hc : c.lexeme.token = .punct .lparen
  · obtain ⟨d, hd⟩ := parenthesisOutlook_eq ctx (hparen hc)
    refine lookAhead_eq (d := d) ?_
    rw [bind_eq hasync]
    simp only [Bool.false_eq_true, if_false]
    rw [bind_eq (token_eq c), hc]
    exact hd
  · refine lookAhead_eq (d := c) ?_
    rw [bind_eq hasync]
    simp only [Bool.false_eq_true, if_false]
    rw [bind_eq (token_eq c)]
    generalize c.lexeme.token = tok at h hc
    cases h
    case lparen => exact absurd rfl hc
    all_goals rfl

lemma assignment_of_binary {typed : Bool} (h : Begins c.lexeme.token)
    (hparen : c.lexeme.token = .punct .lparen → Begins c.advanced.lexeme.token)
    (hbinary : g.read (.binary 0) ctx c = some (t, d)) (hd : d.Closes) :
    assignment g ctx typed c = some (t, d) := by
  have hyield := isAtWord_of_begins (k := .kwYield) h (by decide)
  have hasync := isAtWord_of_begins (k := .kwAsync) h (by decide)
  have harrow : arrowFunction? g ctx typed c = some (none, c) := by
    rw [arrowFunction?, bind_eq (arrowOutlook_eq h hparen)]
    rfl
  have hasyncArrow : asyncArrowFunction? g ctx typed c = some (none, c) := by
    have haccept : acceptWord .kwAsync c = some (false, c) := by
      rw [acceptWord, bind_eq hasync]
      rfl
    have hone : (lookAhead do
        if !(← acceptWord .kwAsync) then return false
        if (← newlineBefore) || !isName ctx (← token) then return false
        advance
        return (← isAt .arrow) && !(← newlineBefore)) c = some (false, c) := by
      refine lookAhead_eq (d := c) ?_
      rw [bind_eq haccept]
      rfl
    rw [asyncArrowFunction?, bind_eq hone]
    rfl
  rw [assignment, bind_eq (position_eq c), bind_eq hyield, Bool.and_false, if_neg Bool.false_ne_true,
    bind_eq harrow]
  dsimp only
  rw [bind_eq hasyncArrow]
  dsimp only
  rw [bind_eq hbinary, assignmentRest_closes hd]

lemma expression_of_assignment (hg : g.limit ≠ 0)
    (h : g.read (.assignment true) ctx c = some (t, d)) (hd : d.Closes) :
    expression g ctx c = some (t, d) := by
  have hmore : accept .comma d = some (false, d) := accept_closes hd nofun
  have hlist : commaSeparated g.limit (g.assignment ctx) c = some ([t], d) := by
    have hnext : (do if ← accept .comma then return some (← g.assignment ctx) else return none) d =
        some (none, d) := by
      rw [bind_eq hmore]
      rfl
    have hitem : g.assignment ctx c = some (t, d) := h
    rw [commaSeparated, bind_eq hitem, bind_eq (many_eq_nil hg hnext)]
    rfl
  rw [expression, bind_eq (position_eq c), bind_eq hlist]
  rfl

def cursorAt (markup newline : Bool) (lastStop start : ℕ) (u : Text) : Cursor :=
  ⟨Lexeme.first markup newline start u, lastStop, markup, []⟩

def cursorWith (pending : List ℕ) (markup newline : Bool) (lastStop start : ℕ) (u : Text) : Cursor :=
  ⟨Lexeme.first markup newline start u, lastStop, markup, pending⟩

def wholeExpression? (ctx : Context) (markup : Bool) (u : Text) : Option Tree := do
  let (t, c) ← (rules (depth u)).expression ctx (cursorAt markup true 0 0 u)
  guard (c.lexeme.token = .done ∧ c.pendingDefaults = [])
  return t

lemma wholeExpression?_of_read {markup : Bool} {u : Text} {stop : ℕ}
    (h : (rules (depth u)).read .expression ctx (cursorAt markup true 0 0 u) =
      some (t, cursorAt markup false stop stop [])) : wholeExpression? ctx markup u = some t := by
  have hdone : (Lexeme.first markup false stop []).token = .done := by rw [first_nil]
  rw [wholeExpression?, Rules.expression, h]
  simp [guard, hdone, cursorAt]

lemma expression_of_unary {n : ℕ} (hn : n ≠ 0) (h : Begins c.lexeme.token)
    (hparen : c.lexeme.token = .punct .lparen → Begins c.advanced.lexeme.token)
    (hunary : (rules n).read .unary ctx c = some (t, d)) (hd : d.Closes) :
    (rules (n + 3)).read .expression ctx c = some (t, d) := by
  obtain ⟨n, rfl⟩ := Nat.exists_eq_succ_of_ne_zero hn
  have hbinary : (rules (n + 2)).read (.binary 0) ctx c = some (t, d) :=
    binary_of_unary (g := rules (n + 1)) hn h hunary hd
  have hassignment : (rules (n + 3)).read (.assignment true) ctx c = some (t, d) :=
    assignment_of_binary h hparen hbinary hd
  exact expression_of_assignment (g := rules (n + 3)) (Nat.succ_ne_zero _) hassignment hd

variable {markup newline : Bool} {lastStop start : ℕ} {body rest : Text} {tok : Token} {pending : List ℕ}

lemma closes_cursorWith (h : Ends rest) :
    (cursorWith pending markup newline lastStop start rest).Closes := by
  rcases h with rfl | ⟨more, rfl⟩
  · rw [Cursor.Closes, cursorWith, first_nil]
    exact .done
  · rw [Cursor.Closes, cursorWith, first_rparen]
    exact .rparen

lemma closes_cursorAt (h : Ends rest) : (cursorAt markup newline lastStop start rest).Closes :=
  closes_cursorWith h

def signed (negative : Bool) (body : Text) : Text :=
  if negative then '-' :: body else body

def signedTree (negative : Bool) (start stop : ℕ) (v : Literal) : Tree :=
  if negative then .minus ⟨start, stop⟩ (.literal ⟨start + 1, stop⟩ v) else .literal ⟨start, stop⟩ v

structure Denotes (negative : Bool) (body : Text) (v w : Literal) : Prop where
  exists_token : ∃ tok, LexesTo (Follows v) body tok ∧ literalOf? tok = some v
  exists_digit : negative = true → ∃ c cs, body = c :: cs ∧ c.isDigit = true
  literal?_eq : ∀ start stop, (signedTree negative start stop v).literal? = some w

section Read

variable (ctx : Context) (pending : List ℕ) (markup newline : Bool) (lastStop start n : ℕ)

lemma lexeme_literal {P : Text → Prop} (hlex : LexesTo P body tok) (hrest : P rest) :
    let c := cursorWith pending markup newline lastStop start (body ++ rest)
    let stop := start + size body
    c.lexeme = ⟨tok, start, body ++ rest, stop, rest, newline⟩ ∧
      c.advanced = cursorWith pending markup false stop stop rest := by
  intro c stop
  have hlexeme : c.lexeme = ⟨tok, start, body ++ rest, stop, rest, newline⟩ :=
    hlex markup newline start rest hrest
  refine ⟨hlexeme, ?_⟩
  rw [Cursor.advanced, hlexeme]
  rfl

lemma base_of_lexesTo (g : Rules) (hlex : LexesTo (Follows v) body tok) (hv : literalOf? tok = some v)
    (hrest : Follows v rest) :
    base g ctx (cursorWith pending markup newline lastStop start (body ++ rest)) =
      some (.literal ⟨start, start + size body⟩ v,
        cursorWith pending markup false (start + size body) (start + size body) rest) := by
  obtain ⟨hlexeme, hadvanced⟩ := lexeme_literal pending markup newline lastStop start hlex hrest
  rw [base_literal (by rw [hlexeme, hv]), hadvanced, hlexeme]

lemma read_literal (hlex : LexesTo (Follows v) body tok) (hv : literalOf? tok = some v)
    (hrest : Ends rest) :
    let c := cursorWith pending markup newline lastStop start (body ++ rest)
    Begins c.lexeme.token ∧ c.lexeme.token ≠ .punct .lparen ∧
      (rules (n + 2)).read .unary ctx c = some (.literal ⟨start, start + size body⟩ v,
        cursorWith pending markup false (start + size body) (start + size body) rest) := by
  intro c
  obtain ⟨hlexeme, hadvanced⟩ :=
    lexeme_literal pending markup newline lastStop start hlex (hrest.follows v)
  have htoken : literalOf? c.lexeme.token = some v := by rw [hlexeme, hv]
  obtain ⟨hbegins, hparen, -⟩ := begins_of_literalOf? htoken
  have hunary := unary_literal ctx (g := rules (n + 1)) (Nat.succ_ne_zero n) htoken
    (hadvanced ▸ closes_cursorWith hrest)
  rw [hadvanced, hlexeme] at hunary
  exact ⟨hbegins, hparen, hunary⟩

variable {negative : Bool} {w : Literal}

lemma read_signed (h : Denotes negative body v w) (hrest : Ends rest) :
    let text := signed negative body
    let c := cursorWith pending markup newline lastStop start (text ++ rest)
    Begins c.lexeme.token ∧ c.lexeme.token ≠ .punct .lparen ∧
      (rules (n + 3)).read .unary ctx c = some (signedTree negative start (start + size text) v,
        cursorWith pending markup false (start + size text) (start + size text) rest) := by
  intro text c
  obtain ⟨tok, hlex, hv⟩ := h.exists_token
  cases negative with
  | false => exact read_literal ctx pending markup newline lastStop start (n + 1) hlex hv hrest
  | true =>
    obtain ⟨d, ds, hbody, hd⟩ := h.exists_digit rfl
    have hlexeme : c.lexeme = ⟨.punct .minus, start, '-' :: (body ++ rest), start + 1, body ++ rest,
        newline⟩ := by
      change Lexeme.first markup newline start ('-' :: (body ++ rest)) = _
      rw [hbody, List.cons_append, first_minus hd]
    have hadvanced : c.advanced =
        cursorWith pending markup false (start + 1) (start + 1) (body ++ rest) := by
      rw [Cursor.advanced, hlexeme]
      rfl
    have hminus : '-'.utf8Size = 1 := rfl
    have hstop : start + size text = start + 1 + size body := by
      simp only [text, signed, if_true, Text.size_cons, hminus]
      omega
    have hread := (read_literal ctx pending markup false (start + 1) (start + 1) n hlex hv hrest).2.2
    rw [← hadvanced, ← hstop] at hread
    have hunary := unary_minus (g := rules (n + 2)) (by rw [hlexeme]) hread
    rw [hlexeme] at hunary
    exact ⟨by rw [hlexeme]; exact .minus, by rw [hlexeme]; nofun, hunary⟩

lemma base_parens (rest : Text) (h : Denotes negative body v w) :
    let text := signed negative body
    let c := cursorWith pending markup newline lastStop start ('(' :: (text ++ ')' :: rest))
    c.lexeme.token = .punct .lparen ∧ Begins c.advanced.lexeme.token ∧
      base (rules (n + 6)) ctx c =
        some (.parens ⟨start, start + (size text + 2)⟩
          (signedTree negative (start + 1) (start + (size text + 1)) v),
          cursorWith pending markup false (start + (size text + 2)) (start + (size text + 2)) rest) := by
  intro text c
  have hlexeme : c.lexeme = ⟨.punct .lparen, start, '(' :: (text ++ ')' :: rest), start + 1,
      text ++ ')' :: rest, newline⟩ := by
    have hfirst : c.lexeme = Lexeme.first markup newline start ('(' :: (text ++ ')' :: rest)) := rfl
    rw [hfirst, first_lparen]
  have hadvanced : c.advanced =
      cursorWith pending markup false (start + 1) (start + 1) (text ++ ')' :: rest) := by
    rw [Cursor.advanced, hlexeme]
    rfl
  have hstop : start + 1 + size text = start + (size text + 1) := by omega
  obtain ⟨hbegins, hparen, hread⟩ :=
    read_signed ctx.inside pending markup false (start + 1) (start + 1) n h (ends_rparen rest)
  rw [hstop] at hread
  set inner := cursorWith pending markup false (start + (size text + 1)) (start + (size text + 1))
    (')' :: rest) with hinner
  have hclose : inner.lexeme = ⟨.punct .rparen, start + (size text + 1), ')' :: rest,
      start + (size text + 1) + 1, rest, false⟩ := by
    have hfirst : inner.lexeme = Lexeme.first markup false (start + (size text + 1)) (')' :: rest) := rfl
    rw [hfirst, first_rparen]
  have hexpression := expression_of_unary (Nat.succ_ne_zero _) hbegins (fun heq => absurd heq hparen)
    hread (closes_cursorWith (ends_rparen rest))
  rw [← hadvanced] at hexpression
  have hafter : inner.advanced = cursorWith pending markup false (start + (size text + 2))
      (start + (size text + 2)) rest := by
    rw [Cursor.advanced, hclose]
    rfl
  have hbase := base_lparen (g := rules (n + 6)) (by rw [hlexeme]) hexpression (by rw [hclose])
  rw [hlexeme, hclose, hafter] at hbase
  exact ⟨by rw [hlexeme], by rw [hadvanced]; exact hbegins, hbase⟩

lemma read_parens (h : Denotes negative body v w) (hrest : Ends rest) :
    let text := signed negative body
    let c := cursorWith pending markup newline lastStop start ('(' :: (text ++ ')' :: rest))
    c.lexeme.token = .punct .lparen ∧ Begins c.advanced.lexeme.token ∧
      (rules (n + 7)).read .unary ctx c =
        some (.parens ⟨start, start + (size text + 2)⟩
          (signedTree negative (start + 1) (start + (size text + 1)) v),
          cursorWith pending markup false (start + (size text + 2)) (start + (size text + 2)) rest) := by
  intro text c
  obtain ⟨hlparen, hbegins, hbase⟩ := base_parens ctx pending markup newline lastStop start n rest h
  have hclose : (cursorWith pending markup false (start + (size text + 2)) (start + (size text + 2))
      rest).Closes := closes_cursorWith hrest
  have hcall := callExpression_of_base (g := rules (n + 6)) (Nat.succ_ne_zero _) hbase hclose
  exact ⟨hlparen, hbegins,
    unary_of_callExpression (by rw [hlparen]; exact .lparen) (by rw [hlparen]; nofun) hcall hclose⟩

end Read

theorem wholeExpression?_signed (ctx : Context) (markup : Bool) (h : Denotes negative body v w) :
    let text := signed negative body
    wholeExpression? ctx markup text = some (signedTree negative 0 (size text) v) ∧
      wholeExpression? ctx markup ('(' :: (text ++ [')'])) =
        some (.parens ⟨0, size text + 2⟩ (signedTree negative 1 (size text + 1) v)) := by
  intro text
  constructor
  · obtain ⟨n, hn⟩ : ∃ n, depth text = n + 3 + 3 := ⟨depth text - 6, by rw [depth]; omega⟩
    obtain ⟨hbegins, hparen, hread⟩ := read_signed ctx [] markup true 0 0 n h ends_nil
    rw [List.append_nil] at hbegins hparen
    rw [List.append_nil, Nat.zero_add] at hread
    have hexpression := expression_of_unary (Nat.succ_ne_zero _) hbegins (fun heq => absurd heq hparen)
      hread (closes_cursorAt ends_nil)
    exact wholeExpression?_of_read (hn ▸ hexpression)
  · obtain ⟨n, hn⟩ : ∃ n, depth ('(' :: (text ++ [')'])) = n + 7 + 3 :=
      ⟨depth ('(' :: (text ++ [')'])) - 10, by rw [depth]; omega⟩
    obtain ⟨hlparen, hinside, hread⟩ := read_parens ctx [] markup true 0 0 n h ends_nil
    rw [Nat.zero_add, Nat.zero_add, Nat.zero_add] at hread
    have hexpression := expression_of_unary (Nat.succ_ne_zero _) (by rw [hlparen]; exact .lparen)
      (fun _ => hinside) hread (closes_cursorAt ends_nil)
    exact wholeExpression?_of_read (hn ▸ hexpression)

end Grammar
end MetaInline.Script
