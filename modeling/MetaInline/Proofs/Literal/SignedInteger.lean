import Mathlib
import MetaInline.Proofs.Literal.Integer
import MetaInline.Proofs.Script.LiteralExpression

namespace MetaInline.Script

open Numeric (Spells)
open Text (size)

inductive Tree.UnderSigns (v : Literal) : ℕ → Tree → Prop
  | literal (s : Span) : UnderSigns v 0 (.literal s v)
  | minus {k : ℕ} {t : Tree} (s : Span) : UnderSigns v k t → UnderSigns v (k + 1) (.minus s t)
  | parens {k : ℕ} {t : Tree} (s : Span) : UnderSigns v k t → UnderSigns v k (.parens s t)

lemma Tree.UnderSigns.literal?_eq {n : ℤ} {k : ℕ} {t : Tree} (h : t.UnderSigns (.bigint n) k) :
    t.literal? = some (.bigint ((-1) ^ k * n)) := by
  induction h with
  | literal s => rw [Tree.literal?, pow_zero, one_mul]
  | @minus k t s _ ih =>
    have hneg : -((-1) ^ k * n) = (-1) ^ (k + 1) * n := by ring
    rw [Tree.literal?, ih]
    exact congrArg (fun n => some (Literal.bigint n)) hneg
  | parens s _ ih => exact ih

/-- The text is `raw` under `k` signs, with parentheses anywhere around it and between them, and with blanks
after a sign and inside parentheses. Two signs that stand together are another operator. -/
inductive UnderSigns (raw : Text) : ℕ → Text → Prop
  | literal : UnderSigns raw 0 raw
  | minus {k : ℕ} {gap u : Text} : IsBlanks gap → (gap = [] → u.head? ≠ some '-') → UnderSigns raw k u →
      UnderSigns raw (k + 1) ('-' :: (gap ++ u))
  | parens {k : ℕ} {before u after : Text} : IsBlanks before → IsBlanks after → UnderSigns raw k u →
      UnderSigns raw k ('(' :: (before ++ (u ++ (after ++ [')']))))

def Stops (rest : Text) : Prop :=
  ∃ blanks more, rest = blanks ++ more ∧ IsBlanks blanks ∧ Ends more

variable {raw u gap rest : Text} {c : Char} {n k : ℕ}

lemma Ends.stops (h : Ends rest) : Stops rest :=
  ⟨[], rest, rfl, nofun, h⟩

def blankCodes : List ℕ :=
  [9, 10, 11, 12, 13, 0x20, 0x85, 0xa0, 0x1680, 0x2028, 0x2029, 0x202f, 0x205f, 0x3000, 0xfeff] ++
    List.range' 0x2000 12

lemma mem_blankCodes (h : (isSpace c || isLineBreak c) = true) : c.toNat ∈ blankCodes := by
  have hbreak {d : Char} (h : c = d) : c.toNat = d.toNat := congrArg Char.toNat h
  simp only [isSpace, isLineBreak, Bool.or_eq_true, beq_iff_eq, Bool.and_eq_true, decide_eq_true_eq] at h
  simp only [blankCodes, List.mem_append, List.mem_cons, List.not_mem_nil, or_false, List.mem_range'_1]
  rcases h with h | ((h | h) | h) | h
  · omega
  all_goals
    have hcode := hbreak h
    simp at hcode
    omega

lemma endsNumber_blank (h : (isSpace c || isLineBreak c) = true) (cs : Text) :
    endsNumber (c :: cs) = true ∧ c ≠ '-' ∧ c ≠ '=' := by
  have hall : ∀ n ∈ blankCodes, endsNumber [Char.ofNat n] = true ∧ Char.ofNat n ≠ '-' ∧
      Char.ofNat n ≠ '=' := by
    decide +kernel
  have hc := hall c.toNat (mem_blankCodes h)
  rwa [Char.ofNat_toNat] at hc

lemma endsNumber_of_stops (h : Stops rest) : endsNumber rest = true := by
  obtain ⟨blanks, more, rfl, hblanks, hmore⟩ := h
  cases blanks with
  | nil => exact endsNumber_of_separates hmore.separates
  | cons c blanks => exact (endsNumber_blank (hblanks c List.mem_cons_self) _).1

lemma isFront_of_ends (h : Ends rest) : IsFront rest := by
  rcases h with rfl | ⟨more, rfl⟩
  · exact isFront_nil
  · exact isFront_of_isSolid (by decide) more

namespace UnderSigns

lemma exists_cons (hs : Spells raw n) (h : UnderSigns raw k u) :
    ∃ c cs, u = c :: cs ∧ (c.isDigit = true ∨ c = '(' ∨ c = '-') := by
  cases h with
  | literal =>
    obtain ⟨c, cs, hraw, hc⟩ := exists_digit_of_spells hs
    exact ⟨c, cs, hraw, .inl hc⟩
  | minus => exact ⟨_, _, rfl, .inr (.inr rfl)⟩
  | parens => exact ⟨_, _, rfl, .inr (.inl rfl)⟩

lemma exists_after_sign (hs : Spells raw n) (hgap : IsBlanks gap) (hne : gap = [] → u.head? ≠ some '-')
    (h : UnderSigns raw k u) : ∃ c cs, gap ++ u = c :: cs ∧ c ≠ '-' ∧ c ≠ '=' := by
  cases gap with
  | nil =>
    obtain ⟨c, cs, rfl, hc⟩ := h.exists_cons hs
    refine ⟨c, cs, rfl, fun heq => hne rfl (by rw [heq]; rfl), ?_⟩
    rintro rfl
    rcases hc with hc | hc | hc <;> cases hc
  | cons c gap =>
    obtain ⟨-, hc⟩ := endsNumber_blank (hgap c List.mem_cons_self) []
    exact ⟨c, gap ++ u, rfl, hc⟩

lemma isFront (hs : Spells raw n) (h : UnderSigns raw k u) (rest : Text) : IsFront (u ++ rest) := by
  cases h with
  | literal =>
    obtain ⟨c, cs, rfl, hc⟩ := exists_digit_of_spells hs
    exact isFront_of_isSolid (isSolid_of_isDigit hc).1 _
  | minus hgap hne h =>
    obtain ⟨c, cs, hcons, hc, -⟩ := h.exists_after_sign hs hgap hne
    rw [hcons]
    exact isFront_minus hc _
  | parens => exact isFront_of_isSolid (by decide) _

end UnderSigns

namespace Grammar

variable {markup newline : Bool} {lastStop start : ℕ}

lemma cursorAt_blanks (markup newline : Bool) (lastStop start : ℕ) (hgap : IsBlanks gap) (hu : IsFront u) :
    ∃ newline', cursorAt markup newline lastStop start (gap ++ u) =
      cursorAt markup newline' lastStop (start + size gap) u := by
  obtain ⟨newline', hfirst⟩ := first_blanks markup newline start hgap hu
  exact ⟨newline', by rw [cursorAt, hfirst, cursorAt]⟩

lemma closes_of_stops (h : Stops rest) : (cursorAt markup newline lastStop start rest).Closes := by
  obtain ⟨blanks, more, rfl, hblanks, hmore⟩ := h
  obtain ⟨newline', heq⟩ := cursorAt_blanks markup newline lastStop start hblanks (isFront_of_ends hmore)
  rw [heq]
  exact closes_cursorAt hmore

def ReadsAs (n k m : ℕ) (u : Text) : Prop :=
  ∀ rest, Stops rest → ∀ ctx markup newline lastStop start,
    let c := cursorAt markup newline lastStop start (u ++ rest)
    Begins c.lexeme.token ∧ (c.lexeme.token = .punct .lparen → Begins c.advanced.lexeme.token) ∧
      ∃ t stop, t.UnderSigns (.bigint n) k ∧
        (rules m).read .unary ctx c = some (t, cursorAt markup false stop stop rest)

namespace ReadsAs

variable {m : ℕ}

lemma literal (hs : Spells raw n) (m : ℕ) : ReadsAs n 0 (m + 2) raw := by
  intro rest hrest ctx markup newline lastStop start c
  have hlexeme : c.lexeme = ⟨.bigint n, start, raw ++ rest, start + size raw, rest, newline⟩ :=
    first_of_spells hs (endsNumber_of_stops hrest)
  have htoken : literalOf? c.lexeme.token = some (.bigint n) := by rw [hlexeme]; rfl
  have hadvanced : c.advanced = cursorAt markup false (start + size raw) (start + size raw) rest := by
    rw [Cursor.advanced, hlexeme]
    rfl
  obtain ⟨hbegins, hparen, -⟩ := begins_of_literalOf? htoken
  have hunary := unary_literal ctx (g := rules (m + 1)) (Nat.succ_ne_zero m) htoken
    (hadvanced ▸ closes_of_stops hrest)
  rw [hadvanced] at hunary
  exact ⟨hbegins, fun heq => absurd heq hparen, _, _, .literal _, hunary⟩

lemma minus (h : ReadsAs n k m u) (hgap : IsBlanks gap) (hfront : ∀ rest, IsFront (u ++ rest))
    (hsign : ∃ c cs, gap ++ u = c :: cs ∧ c ≠ '-' ∧ c ≠ '=') :
    ReadsAs n (k + 1) (m + 1) ('-' :: (gap ++ u)) := by
  intro rest hrest ctx markup newline lastStop start c
  obtain ⟨d, ds, hcons, hminus, hequals⟩ := hsign
  have hlexeme : c.lexeme = ⟨.punct .minus, start, '-' :: (gap ++ u ++ rest), start + 1, gap ++ u ++ rest,
      newline⟩ := by
    change Lexeme.first markup newline start ('-' :: (gap ++ u ++ rest)) = _
    rw [hcons, List.cons_append, first_minus_of_ne hminus hequals]
  obtain ⟨newline', hblanks⟩ := cursorAt_blanks markup false (start + 1) (start + 1) hgap (hfront rest)
  have hadvanced : c.advanced = cursorAt markup newline' (start + 1) (start + 1 + size gap) (u ++ rest) := by
    rw [Cursor.advanced, hlexeme, ← hblanks, List.append_assoc]
    rfl
  obtain ⟨-, -, t, stop, ht, hread⟩ := h rest hrest ctx markup newline' (start + 1) (start + 1 + size gap)
  rw [← hadvanced] at hread
  have hunary := unary_minus (g := rules m) (by rw [hlexeme]) hread
  refine ⟨by rw [hlexeme]; exact .minus, fun hparen => ?_, _, stop, .minus _ ht, hunary⟩
  rw [hlexeme] at hparen
  cases hparen

lemma parens {before after : Text} (h : ReadsAs n k m u) (hm : m ≠ 0) (hbefore : IsBlanks before)
    (hafter : IsBlanks after) (hfront : ∀ rest, IsFront (u ++ rest)) :
    ReadsAs n k (m + 4) ('(' :: (before ++ (u ++ (after ++ [')'])))) := by
  intro rest hrest ctx markup newline lastStop start c
  set inner := after ++ ')' :: rest with hinner
  have htext : '(' :: (before ++ (u ++ (after ++ [')']))) ++ rest = '(' :: (before ++ (u ++ inner)) := by
    simp [hinner]
  have hlexeme : c.lexeme = ⟨.punct .lparen, start, '(' :: (before ++ (u ++ inner)), start + 1,
      before ++ (u ++ inner), newline⟩ := by
    have hfirst : c.lexeme = Lexeme.first markup newline start
        ('(' :: (before ++ (u ++ (after ++ [')']))) ++ rest) := rfl
    rw [hfirst, htext, first_lparen]
  obtain ⟨newline', hblanks⟩ := cursorAt_blanks markup false (start + 1) (start + 1) hbefore
    (hfront inner)
  have hadvanced : c.advanced =
      cursorAt markup newline' (start + 1) (start + 1 + size before) (u ++ inner) := by
    rw [Cursor.advanced, hlexeme, ← hblanks]
    rfl
  have hstops : Stops inner := ⟨after, ')' :: rest, rfl, hafter, ends_rparen rest⟩
  obtain ⟨hbegins, hparen, t, stop, ht, hread⟩ :=
    h inner hstops ctx.inside markup newline' (start + 1) (start + 1 + size before)
  have hexpression := expression_of_unary hm hbegins hparen hread (closes_of_stops hstops)
  -- The blanks before the parenthesis that closes belong to its place.
  obtain ⟨newline'', hend⟩ := cursorAt_blanks markup false stop stop hafter
    (isFront_of_ends (ends_rparen rest))
  rw [← hadvanced, hend] at hexpression
  set d := cursorAt markup newline'' stop (stop + size after) (')' :: rest) with hd
  have hclose : d.lexeme = ⟨.punct .rparen, stop + size after, ')' :: rest, stop + size after + 1, rest,
      newline''⟩ := by
    have hfirst : d.lexeme = Lexeme.first markup newline'' (stop + size after) (')' :: rest) := rfl
    rw [hfirst, first_rparen]
  have hnext : d.advanced =
      cursorAt markup false (stop + size after + 1) (stop + size after + 1) rest := by
    rw [Cursor.advanced, hclose]
    rfl
  have hunary := unary_parens (g := rules (m + 3)) (Nat.succ_ne_zero _) (by rw [hlexeme]) hexpression
    (by rw [hclose]) (hnext ▸ closes_of_stops hrest)
  rw [hnext] at hunary
  exact ⟨by rw [hlexeme]; exact .lparen, fun _ => hadvanced ▸ hbegins, _, _, .parens _ ht, hunary⟩

end ReadsAs

lemma readsAs_of_underSigns (hs : Spells raw n) (h : UnderSigns raw k u) {m : ℕ}
    (hm : 4 * u.length ≤ m) : ReadsAs n k m u := by
  induction h generalizing m with
  | literal =>
    obtain ⟨d, ds, hraw, -⟩ := exists_digit_of_spells hs
    obtain ⟨m, rfl⟩ : ∃ l, m = l + 2 := ⟨m - 2, by rw [hraw, List.length_cons] at hm; omega⟩
    exact .literal hs m
  | minus hgap hne h ih =>
    obtain ⟨m, rfl⟩ : ∃ l, m = l + 1 := ⟨m - 1, by rw [List.length_cons] at hm; omega⟩
    refine (ih ?_).minus hgap (h.isFront hs) (h.exists_after_sign hs hgap hne)
    rw [List.length_cons, List.length_append] at hm
    omega
  | parens hbefore hafter h ih =>
    obtain ⟨m, rfl⟩ : ∃ l, m = l + 4 := ⟨m - 4, by rw [List.length_cons] at hm; omega⟩
    simp only [List.length_cons, List.length_append] at hm
    refine (ih (by omega)).parens ?_ hbefore hafter (h.isFront hs)
    obtain ⟨d, ds, rfl, -⟩ := h.exists_cons hs
    rw [List.length_cons] at hm
    omega

/-- A literal of an integer has the value that it spells. Under `k` signs, with any parentheses around it and
between them, it is read as one expression, and has that value negated `k` times. -/
theorem wholeExpression?_underSigns (hs : Spells raw n) :
    Numeric.integer? raw = some n ∧
      (∀ k t, Tree.UnderSigns (.bigint n) k t → t.literal? = some (.bigint ((-1) ^ k * n))) ∧
      ∀ k u, UnderSigns raw k u → ∀ ctx markup, ∃ t, wholeExpression? ctx markup u = some t ∧
        t.UnderSigns (.bigint n) k ∧ t.literal? = some (.bigint ((-1) ^ k * n)) := by
  refine ⟨Numeric.integer?_of_spells hs, fun k t ht => ht.literal?_eq, fun k u h ctx markup => ?_⟩
  obtain ⟨m, hm⟩ : ∃ m, depth u = m + 3 := ⟨depth u - 3, by rw [depth]; omega⟩
  have hle : 4 * u.length ≤ m := by
    rw [depth] at hm
    omega
  obtain ⟨hbegins, hparen, t, stop, ht, hread⟩ :=
    readsAs_of_underSigns hs h hle [] ends_nil.stops ctx markup true 0 0
  rw [List.append_nil] at hbegins hparen hread
  have hm' : m ≠ 0 := by
    rw [depth] at hm
    omega
  have hexpression := expression_of_unary hm' hbegins hparen hread (closes_cursorAt ends_nil)
  exact ⟨t, wholeExpression?_of_read (hm ▸ hexpression), ht, ht.literal?_eq⟩

theorem wholeExpression?_underSigns_hex :
    let ctx : Context := ⟨true, true, true, true, false, false, true, true, false⟩
    let raw := "0xb_1n".toList
    let u := "-(- -0xb_1n )".toList
    Spells raw 177 ∧ UnderSigns raw 3 u ∧ Numeric.integer? raw = some 177 ∧
      ∃ t, wholeExpression? ctx false u = some t ∧ t.literal? = some (.bigint (-177)) := by
  intro ctx raw u
  have hfirst : Numeric.Row 16 ['b'] 11 := .digit (by norm_num) (.inl rfl)
  have hrow : Numeric.Row 16 (['b'] ++ ['_', '1']) (16 * 11 + 1) := hfirst.separated (by norm_num) (.inl rfl)
  have hprefix : ('x', 16) ∈ Numeric.prefixes := by decide
  have hs : Spells raw 177 := .prefixed hprefix hrow
  have hblank : IsBlanks [' '] := by
    intro c hc
    rw [List.mem_singleton.mp hc]
    decide
  have hsigns : UnderSigns raw 2 ('-' :: ([' '] ++ '-' :: ([] ++ raw))) :=
    .minus hblank nofun (.minus nofun (fun _ => by decide) .literal)
  have hparens :
      UnderSigns raw 2 ('(' :: ([] ++ ('-' :: ([' '] ++ '-' :: ([] ++ raw)) ++ ([' '] ++ [')'])))) :=
    .parens nofun hblank hsigns
  have hu : UnderSigns raw 3 ('-' :: ([] ++ _)) := .minus nofun (fun _ => by decide) hparens
  obtain ⟨hvalue, -, hread⟩ := wholeExpression?_underSigns hs
  obtain ⟨t, ht, -, hliteral⟩ := hread 3 u hu ctx false
  exact ⟨hs, hu, hvalue, t, ht, hliteral⟩

end Grammar
end MetaInline.Script
