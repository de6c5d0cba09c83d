import Mathlib
import MetaInline.Proofs.Literal.RegExpBody
import MetaInline.Proofs.Script.LiteralExpression

/-! The tokens of regular expressions. What is written for one is read as one token where an expression
begins, unless its body begins with a star, which makes a comment of it, or leaves a class open. -/

namespace MetaInline.Script

open RegExp (IsBody Mode)
open Text (size)

variable {markup newline : Bool} {start : ℕ} {c : Char} {cs rest : Text} {b b' : Bool}

def Lexeme.operand (l : Lexeme) : Lexeme :=
  match l.token with
  | .punct .slash | .punct .slashAssign => l.regexp
  | _ => l

def Lexeme.IsSlash (l : Lexeme) : Prop :=
  l.token = .punct .slash ∨ l.token = .punct .slashAssign

lemma Lexeme.IsSlash.operand_eq {l : Lexeme} (h : l.IsSlash) : l.operand = l.regexp := by
  unfold operand
  rcases h with h | h
  · rw [h]
  · rw [h]

lemma readBody_cons (acc : Text) (hc : c ≠ '\\') : readBody b acc (c :: cs) =
    if isLineBreak c then none
    else if c = '[' then readBody true (c :: acc) cs
    else if c = ']' then readBody false (c :: acc) cs
    else if c = '/' ∧ b = false then some (acc.reverse, cs)
    else readBody b (c :: acc) cs := by
  rw [readBody]
  exact fun _ _ h => absurd h hc

lemma readBody_of_isBody (h : IsBody b cs b') (acc rest : Text) :
    readBody b acc (cs ++ rest) = readBody b' (cs.reverse ++ acc) rest := by
  induction h generalizing acc with
  | nil b => rfl
  | @escape b b' c cs hc _ ih =>
    have hc : isLineBreak c = false := hc
    rw [List.cons_append, List.cons_append, readBody, hc, if_neg Bool.false_ne_true, ih]
    simp
  | opening _ ih =>
    rw [List.cons_append, readBody_cons _ (by decide), if_neg (by decide), if_pos rfl, ih]
    simp
  | closing _ ih =>
    rw [List.cons_append, readBody_cons _ (by decide), if_neg (by decide), if_neg (by decide),
      if_pos rfl, ih]
    simp
  | @plain b b' c cs hc hbreak hslash _ ih =>
    have hbreak : isLineBreak c = false := hbreak
    have hopen : ¬(c = '/' ∧ b = false) := fun h => by simp [hslash h.1] at h
    rw [List.cons_append, readBody_cons _ hc.1, hbreak, if_neg Bool.false_ne_true, if_neg hc.2.1,
      if_neg hc.2.2, if_neg hopen, ih]
    simp

lemma readBody_slash (acc rest : Text) : readBody false acc ('/' :: rest) = some (acc.reverse, rest) := by
  rw [readBody_cons _ (by decide)]
  rfl

lemma ne_of_readBody_slash {acc body tail : Text} (rest : Text)
    (h : readBody true acc ('/' :: rest) = some (body, tail)) : body ≠ acc.reverse := by
  -- In a class the slash is one more character of the body.
  rw [readBody_cons _ (by decide)] at h
  obtain ⟨mid, rfl, -⟩ := readBody_append h
  simp

lemma first_slash (hc : c ≠ '/' ∧ c ≠ '*') :
    let l := Lexeme.first markup newline start ('/' :: c :: cs)
    l.IsSlash ∧ l.start = start ∧ l.here = '/' :: c :: cs ∧ l.newline = newline := by
  have hskip : skipTrivia markup .plain newline start ('/' :: c :: cs) =
      some (newline, start, '/' :: c :: cs) := by
    unfold skipTrivia
    rw [if_neg (by decide), if_neg (by decide)]
    split <;> simp_all
  have hstart : Unicode.isIdStart '/' = false := rfl
  rw [Lexeme.first, hskip]
  by_cases heq : c = '='
  · subst heq
    exact ⟨Or.inr rfl, rfl, rfl, rfl⟩
  · have hread : Punct.read? Punct.spellings ('/' :: c :: cs) = some (.slash, ['/'], c :: cs) := by
      have heq : ('=' : Char) ≠ c := Ne.symm heq
      simp [Punct.read?, Punct.spellings, Text.dropFront?, heq]
    simp [Lexeme.atFront, Lexeme.IsSlash, hstart, hread, Unicode.isAsciiDigit]

lemma start_regexp (l : Lexeme) : l.regexp.start = l.start := by
  unfold Lexeme.regexp
  split
  · split
    · simp only
      split
      · split <;> rfl
      · rfl
    · rfl
  · rfl

lemma start_operand (l : Lexeme) : l.operand.start = l.start := by
  unfold Lexeme.operand
  split
  · exact start_regexp l
  · exact start_regexp l
  · rfl

lemma malformed_or_lt_first (markup newline : Bool) (start : ℕ) (cs : Text) :
    (Lexeme.first markup newline start ('/' :: '*' :: cs)).token = .malformed ∨
      start < (Lexeme.first markup newline start ('/' :: '*' :: cs)).start := by
  have hskip : skipTrivia markup .plain newline start ('/' :: '*' :: cs) =
      skipTrivia markup .block newline (start + 2) cs := rfl
  rw [Lexeme.first, hskip]
  cases h : skipTrivia markup .block newline (start + 2) cs with
  | none => exact Or.inl rfl
  | some x =>
    obtain ⟨nl, pos, here⟩ := x
    have hblanks : IsPlain (List.replicate (start + 2) ' ') :=
      fun c hc => (List.eq_of_mem_replicate hc) ▸ rfl
    have hfrom : Text.From (List.replicate (start + 2) ' ' ++ cs) (start + 2) cs :=
      ⟨_, rfl, hblanks.size_eq.trans List.length_replicate⟩
    have hle : start + 2 ≤ pos := (skipTrivia_from hfrom h).2
    refine Or.inr ?_
    rw [Lexeme.start_atFront]
    omega

section Written

variable {r : RegExp}

lemma isFlagChar_of_validFlags {flags : Text} (h : RegExp.validFlags flags = true) :
    ∀ c ∈ flags, isFlagChar c = true := by
  have hknown : ∀ c ∈ RegExp.knownFlags, isFlagChar c = true := List.all_eq_true.mp (by decide)
  exact fun c hc => hknown c (RegExp.mem_knownFlags h c hc)

lemma slash_notMem {flags : Text} (h : ∀ c ∈ flags, isFlagChar c = true) : '/' ∉ flags :=
  fun hc => absurd (h _ hc) (by decide)

lemma source_append (r : RegExp) (rest : Text) : r.source ++ rest =
    '/' :: (RegExp.escape r.pattern.toList ++ '/' :: (r.flags.toList ++ rest)) := by
  simp [RegExp.source]

lemma regexp_eq_of_closed (h : r.hasValidFlags = true) (hrest : ∀ c ∈ rest.head?, isFlagChar c = false)
    (hclosed : (Mode.start.after r.pattern.toList).inClass = false) {l : Lexeme}
    (hl : l.here = r.source ++ rest) :
    l.regexp = ⟨.regexp ⟨String.ofList (RegExp.escape r.pattern.toList), r.flags⟩, l.start, l.here,
      l.start + size r.source, rest, l.newline⟩ := by
  have hflags := isFlagChar_of_validFlags h
  have hbody := RegExp.isBody_escape r.pattern.toList
  rw [hclosed] at hbody
  have hread : readBody false [] (RegExp.escape r.pattern.toList ++ '/' :: (r.flags.toList ++ rest)) =
      some (RegExp.escape r.pattern.toList, r.flags.toList ++ rest) := by
    rw [readBody_of_isBody hbody, readBody_slash]
    simp
  have hvalid : RegExp.hasValidFlags ⟨String.ofList (RegExp.escape r.pattern.toList), r.flags⟩ = true := h
  unfold Lexeme.regexp
  rw [hl, source_append]
  simp only [hread, span_append_of_forall hflags hrest, RegExp.ofSource?_append _ (slash_notMem hflags),
    hvalid, if_true, String.ofList_toList, RegExp.source]

lemma regexp_ne_of_open (hopen : (Mode.start.after r.pattern.toList).inClass = true) {l : Lexeme}
    (hl : l.here = r.source ++ rest) :
    l.regexp.token ≠ .regexp ⟨String.ofList (RegExp.escape r.pattern.toList), r.flags⟩ := by
  have hbody := RegExp.isBody_escape r.pattern.toList
  rw [hopen] at hbody
  unfold Lexeme.regexp
  rw [hl, source_append]
  simp only [readBody_of_isBody hbody]
  split
  · next body tail hread =>
    have hne := ne_of_readBody_slash _ hread
    have hflags : ∀ c ∈ (tail.span isFlagChar).1, isFlagChar c = true := by
      rw [List.span_eq_takeWhile_dropWhile]
      exact fun c hc => List.mem_takeWhile_imp hc
    simp only [RegExp.ofSource?_append _ (slash_notMem hflags)]
    split
    · intro heq
      have hpattern := congrArg (fun r => r.pattern.toList) (Token.regexp.inj heq)
      refine hne ?_
      simpa only [String.toList_ofList, List.append_nil, List.reverse_reverse] using hpattern
    · exact nofun
  · exact nofun

lemma head?_escape_eq_star_iff (cs : Text) :
    (RegExp.escape cs).head? = some '*' ↔ cs.head? = some '*' := by
  cases cs with
  | nil => decide
  | cons c cs =>
    rw [RegExp.escape]
    unfold RegExp.escapeFrom
    split
    · next h => cases h
    · next h =>
      obtain rfl : c = '\\' := (List.cons.inj h).1
      simp
    · next h =>
      obtain rfl : c = '\\' := (List.cons.inj h).1
      simp
    · next h =>
      obtain ⟨rfl, rfl⟩ := List.cons.inj h
      split_ifs with hopen hclose hslash hbreak
      · simp
      · simp
      · simp [hslash.1]
      · have hstar : c ≠ '*' := by
          rintro rfl
          cases hbreak
        simp [hstar]
      · simp

lemma head?_ne_slash {b : Bool} (h : IsBody false cs b) : cs.head? ≠ some '/' := by
  cases h with
  | plain _ _ hslash _ =>
    intro heq
    exact Bool.false_ne_true (hslash (Option.some.inj heq))
  | _ => exact nofun

lemma exists_source_star (hstar : r.pattern.toList.head? = some '*') (rest : Text) :
    ∃ cs, r.source ++ rest = '/' :: '*' :: cs := by
  obtain ⟨cs, hcs⟩ := List.head?_eq_some_iff.mp ((head?_escape_eq_star_iff _).mpr hstar)
  exact ⟨_, by rw [source_append, hcs, List.cons_append]⟩

lemma exists_source_plain (hstar : r.pattern.toList.head? ≠ some '*') (rest : Text) :
    ∃ c cs, r.source ++ rest = '/' :: c :: cs ∧ c ≠ '/' ∧ c ≠ '*' := by
  obtain ⟨c, cs, hcs⟩ := List.exists_cons_of_ne_nil (RegExp.escape_ne_nil r.pattern.toList)
  refine ⟨c, _, by rw [source_append, hcs, List.cons_append], ?_, ?_⟩
  · have hslash := head?_ne_slash (RegExp.isBody_escape r.pattern.toList)
    rw [hcs] at hslash
    exact fun heq => hslash (congrArg some heq)
  · have hstar := mt (head?_escape_eq_star_iff _).mp hstar
    rw [hcs] at hstar
    exact fun heq => hstar (congrArg some heq)

lemma first_source (hstar : r.pattern.toList.head? ≠ some '*') (rest : Text) :
    let l := Lexeme.first markup newline start (r.source ++ rest)
    l.IsSlash ∧ l.start = start ∧ l.here = r.source ++ rest ∧ l.newline = newline := by
  obtain ⟨c, cs, hsource, hc⟩ := exists_source_plain hstar rest
  rw [hsource]
  exact first_slash hc

lemma primary_slash (g : Rules) (ctx : Context) {c : Cursor} {v : RegExp} (hc : c.lexeme.IsSlash)
    (hv : c.lexeme.regexp.token = .regexp v) : Grammar.primary g ctx c =
      some (.literal ⟨c.lexeme.start, c.lexeme.regexp.stop⟩ (.regexp v),
        ({ c with lexeme := c.lexeme.regexp } : Cursor).advanced) := by
  have hreread : Parse.reread Lexeme.regexp c = some ((), { c with lexeme := c.lexeme.regexp }) := rfl
  have hleaf (f : Span → Tree) (c : Cursor) :
      Grammar.leaf f c = some (f ⟨c.lexeme.start, c.lexeme.stop⟩, c.advanced) := rfl
  rw [Grammar.primary, Parse.bind_eq (Parse.position_eq c), Parse.bind_eq (Parse.token_eq c)]
  rcases hc with hc | hc
  · simp only [hc]
    rw [Parse.bind_eq hreread, Parse.bind_eq (Parse.token_eq _)]
    simp only [hv, hleaf, start_regexp]
  · simp only [hc]
    rw [Parse.bind_eq hreread, Parse.bind_eq (Parse.token_eq _)]
    simp only [hv, hleaf, start_regexp]

lemma ne_star_of_operand {v : RegExp} {stop : ℕ}
    (h : (Lexeme.first markup newline start (r.source ++ rest)).operand =
      ⟨.regexp v, start, r.source ++ rest, stop, rest, newline⟩) :
    r.pattern.toList.head? ≠ some '*' := by
  intro hstar
  obtain ⟨cs, hsource⟩ := exists_source_star hstar rest
  rw [hsource] at h
  rcases malformed_or_lt_first markup newline start cs with hbad | hlt
  · have htoken := congrArg Lexeme.token h
    rw [Lexeme.operand, hbad, hbad] at htoken
    cases htoken
  · have hstart := congrArg Lexeme.start h
    rw [start_operand] at hstart
    exact hlt.ne' hstart

/-- What is written for a regular expression is read as one token where an expression begins, with its
escaped body and its flags, exactly if its body does not begin with a star and leaves no class open. Then
it is a literal there. -/
theorem operand_source_iff (h : r.hasValidFlags = true) (hrest : ∀ c ∈ rest.head?, isFlagChar c = false)
    (markup newline : Bool) (start : ℕ) :
    let read : RegExp := ⟨String.ofList (RegExp.escape r.pattern.toList), r.flags⟩
    let stop := start + size r.source
    let closed := r.pattern.toList.head? ≠ some '*' ∧ (Mode.start.after r.pattern.toList).inClass = false
    ((Lexeme.first markup newline start (r.source ++ rest)).operand =
        ⟨.regexp read, start, r.source ++ rest, stop, rest, newline⟩ ↔ closed) ∧
      (closed → ∀ g ctx lastStop,
        Grammar.primary g ctx (Grammar.cursorAt markup newline lastStop start (r.source ++ rest)) =
          some (.literal ⟨start, stop⟩ (.regexp read), Grammar.cursorAt markup false stop stop rest)) := by
  intro read stop closed
  refine ⟨⟨fun heq => ?_, fun hclosed => ?_⟩, fun hclosed g ctx lastStop => ?_⟩
  · have hstar := ne_star_of_operand heq
    obtain ⟨hslash, -, hhere, -⟩ := first_source (r := r) hstar rest
    rw [hslash.operand_eq] at heq
    exact ⟨hstar, Bool.eq_false_iff.mpr fun hopen =>
      regexp_ne_of_open hopen hhere (congrArg Lexeme.token heq)⟩
  · obtain ⟨hslash, hstart, hhere, hnewline⟩ := first_source (r := r) hclosed.1 rest
    rw [hslash.operand_eq, regexp_eq_of_closed h hrest hclosed.2 hhere, hstart, hhere, hnewline]
  · obtain ⟨hslash, hstart, hhere, -⟩ := first_source (r := r) hclosed.1 rest
    have hread := regexp_eq_of_closed h hrest hclosed.2 hhere
    rw [Grammar.cursorAt, primary_slash g ctx hslash (congrArg Lexeme.token hread)]
    simp only [hread, hstart]
    rfl

theorem operand_source_class :
    let r : RegExp := ⟨"a/[/]", "gi"⟩
    r.hasValidFlags = true ∧ (∀ c ∈ [')'].head?, isFlagChar c = false) ∧
      (Lexeme.first false false 0 (r.source ++ [')'])).operand =
        ⟨.regexp ⟨"a\\/[/]", "gi"⟩, 0, "/a\\/[/]/gi)".toList, 10, [')'], false⟩ := by
  intro r
  have h : r.hasValidFlags = true := by decide
  have hrest : ∀ c ∈ [')'].head?, isFlagChar c = false := by
    rintro c ⟨⟩
    rfl
  have hread := (operand_source_iff h hrest false false 0).1.mpr (by decide)
  have hsource : r.source = "/a\\/[/]/gi".toList := by decide
  have hescape : RegExp.escape r.pattern.toList = "a\\/[/]".toList := by decide
  rw [hescape, String.ofList_toList] at hread
  refine ⟨h, hrest, hread.trans ?_⟩
  rw [hsource]
  rfl

theorem exists_operand_malformed :
    let star : RegExp := ⟨"*", ""⟩
    let bracket : RegExp := ⟨"[", ""⟩
    (star.hasValidFlags = true ∧ star.source = "/*/".toList ∧
        (Lexeme.first false false 0 star.source).operand.token = .malformed) ∧
      bracket.hasValidFlags = true ∧ bracket.source = "/[/".toList ∧
        (Lexeme.first false false 0 bracket.source).operand.token = .malformed := by
  exact ⟨⟨by decide, by decide, rfl⟩, by decide, by decide, rfl⟩

end Written

end MetaInline.Script
