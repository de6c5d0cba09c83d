import Mathlib
import MetaInline.Proofs.Number.Notation
import MetaInline.Proofs.Script.Lexeme

namespace MetaInline.Script

open Text (size)

def Ends (rest : Text) : Prop :=
  rest = [] ∨ ∃ more, rest = ')' :: more

lemma ends_nil : Ends [] := Or.inl rfl

lemma ends_rparen (more : Text) : Ends (')' :: more) := Or.inr ⟨more, rfl⟩

def Separates (rest : Text) : Prop :=
  ∀ c ∈ rest.head?, Unicode.isIdStart c = false ∧ Unicode.isIdPart c = false ∧ c ≠ '\\'

def Follows : Literal → Text → Prop
  | .string _, _ => True
  | .number _, rest => Separates rest ∧ rest.head? ≠ some '.'
  | .regexp _, rest => ∀ c ∈ rest.head?, isFlagChar c = false
  | _, rest => Separates rest

def LexesTo (P : Text → Prop) (text : Text) (t : Token) : Prop :=
  ∀ markup newline start rest, P rest → Lexeme.first markup newline start (text ++ rest) =
    ⟨t, start, text ++ rest, start + size text, rest, newline⟩

lemma Ends.separates {rest : Text} (h : Ends rest) : Separates rest := by
  rcases h with rfl | ⟨more, rfl⟩
  · exact nofun
  · rintro c ⟨⟩
    decide

lemma Ends.follows {rest : Text} (h : Ends rest) (v : Literal) : Follows v rest := by
  cases v with
  | string s => trivial
  | number x =>
    refine ⟨h.separates, ?_⟩
    rcases h with rfl | ⟨more, rfl⟩
    · exact nofun
    · exact nofun
  | regexp r =>
    rcases h with rfl | ⟨more, rfl⟩
    · exact nofun
    · rintro c ⟨⟩
      decide
  | _ => exact h.separates

lemma isIdPart_of_isDigit {c : Char} (h : c.isDigit = true) : Unicode.isIdPart c = true := by
  have hrange := toNat_of_isDigit h
  exact Text.forall_of_between c hrange.1 (Nat.lt_succ_of_le hrange.2) (by decide)

lemma Separates.isDigit_eq {rest : Text} (h : Separates rest) {c : Char} (hc : c ∈ rest.head?) :
    c.isDigit = false :=
  Bool.eq_false_iff.mpr fun hdigit =>
    Bool.false_ne_true ((h c hc).2.1.symm.trans (isIdPart_of_isDigit hdigit))

lemma Separates.ne {rest : Text} (h : Separates rest) {c : Char} (hc : c ∈ rest.head?) {d : Char}
    (hd : Unicode.isIdPart d = true) : c ≠ d := by
  rintro rfl
  exact Bool.false_ne_true ((h c hc).2.1.symm.trans hd)

def IsSolid (c : Char) : Prop :=
  isLineBreak c = false ∧ isSpace c = false ∧ c ≠ '/' ∧ c ≠ '<' ∧ c ≠ '-'

instance (c : Char) : Decidable (IsSolid c) :=
  inferInstanceAs (Decidable (_ ∧ _))

variable {markup newline : Bool} {start : ℕ} {c : Char} {cs rest : Text}

def IsFront (u : Text) : Prop :=
  ∀ markup newline start, skipTrivia markup .plain newline start u = some (newline, start, u)

lemma first_of_isFront {u : Text} (h : IsFront u) :
    Lexeme.first markup newline start u = Lexeme.atFront markup newline start u := by
  rw [Lexeme.first, h]

lemma isFront_of_isSolid (h : IsSolid c) (cs : Text) : IsFront (c :: cs) := by
  intro markup newline start
  obtain ⟨hbreak, hspace, hslash, hless, hminus⟩ := h
  unfold skipTrivia
  rw [hbreak, hspace, if_neg Bool.false_ne_true, if_neg Bool.false_ne_true]
  split <;> simp_all

lemma isFront_nil : IsFront [] := by
  intro markup newline start
  unfold skipTrivia
  rfl

lemma isFront_minus (h : c ≠ '-') (cs : Text) : IsFront ('-' :: c :: cs) := by
  intro markup newline start
  unfold skipTrivia
  rw [if_neg (by decide), if_neg (by decide)]
  split <;> simp_all

lemma first_of_isSolid (h : IsSolid c) :
    Lexeme.first markup newline start (c :: cs) = Lexeme.atFront markup newline start (c :: cs) :=
  first_of_isFront (isFront_of_isSolid h cs)

lemma first_blanks (markup newline : Bool) (start : ℕ) {blanks u : Text} (h : IsBlanks blanks)
    (hu : IsFront u) : ∃ newline', Lexeme.first markup newline start (blanks ++ u) =
      Lexeme.first markup newline' (start + size blanks) u := by
  obtain ⟨newline', hskip⟩ := skipTrivia_blanks markup newline start h u
  refine ⟨newline', ?_⟩
  rw [first_of_isFront hu, Lexeme.first, hskip, hu]

lemma first_nil : Lexeme.first markup newline start [] = ⟨.done, start, [], start, [], newline⟩ :=
  first_of_isFront isFront_nil

lemma first_lparen : Lexeme.first markup newline start ('(' :: cs) =
    ⟨.punct .lparen, start, '(' :: cs, start + 1, cs, newline⟩ := by
  rw [first_of_isSolid (by decide)]
  rfl

lemma first_rparen : Lexeme.first markup newline start (')' :: cs) =
    ⟨.punct .rparen, start, ')' :: cs, start + 1, cs, newline⟩ := by
  rw [first_of_isSolid (by decide)]
  rfl

lemma isSolid_of_isDigit (h : c.isDigit = true) : IsSolid c ∧ Unicode.isIdStart c = false ∧
    Unicode.isAsciiDigit c = true ∧ c ≠ '\\' ∧ c ≠ '=' := by
  have hrange := toNat_of_isDigit h
  exact Text.forall_of_between c hrange.1 (Nat.lt_succ_of_le hrange.2) (by decide)

lemma isSolid_of_isAsciiLetter (h : Unicode.isAsciiLetter c = true) : IsSolid c ∧
    Unicode.isIdStart c = true ∧ Unicode.isIdPart c = true ∧ c ≠ '\\' := by
  simp only [Unicode.isAsciiLetter, Bool.or_eq_true, Bool.and_eq_true, decide_eq_true_eq] at h
  rcases h with ⟨hlo, hhi⟩ | ⟨hlo, hhi⟩
  · exact Text.forall_of_between c (toNat_le_of_le hlo) (Nat.lt_succ_of_le (toNat_le_of_le hhi))
      (by decide)
  · exact Text.forall_of_between c (toNat_le_of_le hlo) (Nat.lt_succ_of_le (toNat_le_of_le hhi))
      (by decide)

lemma first_minus_of_ne (hminus : c ≠ '-') (heq : c ≠ '=') :
    Lexeme.first markup newline start ('-' :: c :: cs) =
      ⟨.punct .minus, start, '-' :: c :: cs, start + 1, c :: cs, newline⟩ := by
  have hread : Punct.read? Punct.spellings ('-' :: c :: cs) = some (.minus, ['-'], c :: cs) := by
    simp [Punct.read?, Punct.spellings, Text.dropFront?, hminus.symm, heq.symm]
  have hstart : Unicode.isIdStart '-' = false := rfl
  rw [first_of_isFront (isFront_minus hminus cs)]
  simp [Lexeme.atFront, hstart, hread, Unicode.isAsciiDigit]

lemma first_minus (h : c.isDigit = true) : Lexeme.first markup newline start ('-' :: c :: cs) =
    ⟨.punct .minus, start, '-' :: c :: cs, start + 1, c :: cs, newline⟩ := by
  obtain ⟨hsolid, -, -, -, hequals⟩ := isSolid_of_isDigit h
  exact first_minus_of_ne hsolid.2.2.2.2 hequals

lemma readName_letters {name acc : Text} (h : ∀ c ∈ name, Unicode.isAsciiLetter c = true)
    (hrest : Separates rest) : readName none false acc start (name ++ rest) =
      some (acc.reverse ++ name, false, start + size name, rest) := by
  induction name generalizing acc start with
  | nil =>
    rw [List.nil_append, List.append_nil]
    cases rest with
    | nil =>
      unfold readName
      rfl
    | cons c cs =>
      obtain ⟨hstart, hpart, hne⟩ := hrest c rfl
      have hname : ¬ (if acc.isEmpty then Unicode.isIdStart c else Unicode.isIdPart c) = true := by
        rw [hstart, hpart, ite_self]
        exact Bool.false_ne_true
      rw [readName_cons hne, if_neg hname]
      rfl
  | cons c name ih =>
    obtain ⟨hc, hname⟩ := List.forall_mem_cons.mp h
    obtain ⟨-, hstart, hpart, hne⟩ := isSolid_of_isAsciiLetter hc
    have hname' : (if acc.isEmpty then Unicode.isIdStart c else Unicode.isIdPart c) = true := by
      rw [hstart, hpart, ite_self]
    rw [List.cons_append, readName_cons hne, if_pos hname', ih hname, Text.size_cons, Nat.add_assoc]
    simp

lemma lexesTo_word {name : Text} (h : name.all Unicode.isAsciiLetter = true) (hne : name ≠ []) :
    LexesTo Separates name (.word (String.ofList name) (Keyword.ofText? name) false) := by
  intro markup newline start rest hrest
  rw [List.all_eq_true] at h
  obtain ⟨c, cs, rfl⟩ := List.exists_cons_of_ne_nil hne
  obtain ⟨hsolid, hstart, -, -⟩ := isSolid_of_isAsciiLetter (h c (by simp))
  rw [List.cons_append, first_of_isSolid hsolid]
  unfold Lexeme.atFront
  simp only [hstart, Bool.true_or, if_true]
  rw [← List.cons_append, readName_letters h hrest]
  rfl

lemma endsNumber_of_separates (h : Separates rest) : endsNumber rest = true := by
  cases rest with
  | nil => rfl
  | cons c cs =>
    obtain ⟨hstart, -, hne⟩ := h c rfl
    have hdigit : Unicode.isAsciiDigit c = false := h.isDigit_eq rfl
    simp [endsNumber, hstart, hdigit, hne]

lemma first_of_readNumber {raw : Text} (hdigit : ∃ c cs, raw = c :: cs ∧ c.isDigit = true)
    (h : readNumber (raw ++ rest) = some (raw, rest)) (hend : endsNumber rest = true) :
    Lexeme.first markup newline start (raw ++ rest) =
      ⟨numberToken raw, start, raw ++ rest, start + size raw, rest, newline⟩ := by
  obtain ⟨c, cs, rfl, hc⟩ := hdigit
  obtain ⟨hsolid, hstart, hdigit, hescape, -⟩ := isSolid_of_isDigit hc
  have hplain : IsPlain (c :: cs) := (readNumber_append h).2.1
  rw [List.cons_append, first_of_isSolid hsolid]
  unfold Lexeme.atFront
  simp only [hstart, hdigit, beq_eq_false_iff_ne.mpr hescape, Bool.false_or, Bool.false_eq_true,
    if_false, if_true]
  rw [← List.cons_append, h]
  simp only [hend, if_true, hplain.size_eq]

lemma lexesTo_of_readNumber {P : Text → Prop} {raw : Text}
    (hdigit : ∃ c cs, raw = c :: cs ∧ c.isDigit = true) (hP : ∀ rest, P rest → Separates rest)
    (h : ∀ rest, P rest → readNumber (raw ++ rest) = some (raw, rest)) :
    LexesTo P raw (numberToken raw) :=
  fun _ _ _ rest hrest =>
    first_of_readNumber hdigit (h rest hrest) (endsNumber_of_separates (hP rest hrest))

lemma digitRun_of_isDigits {ds : Text} (h : IsDigits ds)
    (hrest : ∀ c ∈ rest.head?, c.isDigit = false ∧ c ≠ '_') : digitRun 10 (ds ++ rest) = (ds, rest) := by
  refine span_append_of_forall (fun c hc => ?_) fun c hc => ?_
  · rw [Numeric.isDigit_ten, h c hc, Bool.true_or]
  · rw [Numeric.isDigit_ten, (hrest c hc).1, Bool.false_or]
    exact beq_eq_false_iff_ne.mpr (hrest c hc).2

lemma separated_of_isDigits {ds : Text} (h : IsDigits ds) (hne : ds ≠ []) : separated ds = true := by
  have hunderscore := Numeric.underscore_notMem h
  have hmentions : Text.mentions ['_', '_'] ds = false := by
    clear hne h
    induction ds with
    | nil => rfl
    | cons c ds ih =>
      obtain ⟨hc, hds⟩ := not_or.mp (mt List.mem_cons.mpr hunderscore)
      have hcut : (Text.cut? ['_', '_'] ds).isSome = false := ih hds
      simp [Text.mentions, Text.cut?, Text.dropFront?, hc, hcut]
  have hhead : ds.head? ≠ some '_' := fun heq => hunderscore (List.mem_of_head? heq)
  have hlast : ds.getLast? ≠ some '_' := fun heq => hunderscore (List.mem_of_getLast? heq)
  simp [separated, hne, hhead, hlast, hmentions]

lemma readExponent_of_separates (h : Separates rest) : readExponent rest = some ([], rest) := by
  cases rest with
  | nil => rfl
  | cons c cs =>
    have hlower : c ≠ 'e' := h.ne rfl rfl
    have hupper : c ≠ 'E' := h.ne rfl rfl
    exact if_neg (not_or.mpr ⟨hlower, hupper⟩)

lemma readExponent_exponentText (e : Option ℤ) (h : Separates rest) :
    readExponent (Numeral.exponentText e ++ rest) = some (Numeral.exponentText e, rest) := by
  cases e with
  | none => exact readExponent_of_separates h
  | some e =>
    obtain ⟨c, cs, hdigits⟩ := List.exists_cons_of_length_pos (Decimal.length_digits_pos e.natAbs)
    have hall := Decimal.isDigits_digits e.natAbs
    have hrun : digitRun 10 (Decimal.digits e.natAbs ++ rest) = (Decimal.digits e.natAbs, rest) :=
      digitRun_of_isDigits hall fun c hc => ⟨h.isDigit_eq hc, h.ne hc rfl⟩
    have hseparated := separated_of_isDigits hall (List.ne_nil_of_length_pos (Decimal.length_digits_pos _))
    have hc : c.isDigit = true := hall c (by simp [hdigits])
    have hplus : c ≠ '+' := ne_of_isDigit hc rfl
    have hminus : c ≠ '-' := ne_of_isDigit hc rfl
    rw [hdigits] at hrun hseparated
    rw [List.cons_append] at hrun
    rw [Numeral.exponentText, Numeral.sign]
    split_ifs with he
    · simp [readExponent, hdigits, hrun, hseparated]
    · simp only [hdigits, List.nil_append, List.cons_append, readExponent, true_or, if_true]
      split
      · next heq => exact absurd (List.cons.inj heq).1 hplus
      · next heq => exact absurd (List.cons.inj heq).1 hminus
      · simp [hrun, hseparated]

lemma mem_head?_exponentText {e : Option ℤ} {c : Char}
    (hc : c ∈ (Numeral.exponentText e ++ rest).head?) : c = 'e' ∨ c ∈ rest.head? := by
  cases e with
  | none => exact Or.inr (by simpa [Numeral.exponentText] using hc)
  | some e => exact Or.inl (by simpa [Numeral.exponentText, eq_comm] using hc)

lemma readFraction_fractionText (l : Numeral) (h : Separates rest) (hpoint : rest.head? ≠ some '.') :
    readFraction (Numeral.fractionText l.fraction ++ (Numeral.exponentText l.exponent ++ rest)) =
      some (Numeral.fractionText l.fraction ++ Numeral.exponentText l.exponent, rest) := by
  have hexponent := readExponent_exponentText l.exponent h
  unfold Numeral.fractionText
  split_ifs with hf
  · have hpoint : ∀ cs, Numeral.exponentText l.exponent ++ rest ≠ '.' :: cs := by
      intro cs heq
      rcases mem_head?_exponentText (c := '.') (by rw [heq]; rfl) with hc | hc
      · cases hc
      · exact hpoint hc
    rw [List.nil_append, List.nil_append, readFraction]
    · exact hexponent
    · exact hpoint
  · have hrun : digitRun 10 (l.fraction ++ (Numeral.exponentText l.exponent ++ rest)) =
        (l.fraction, Numeral.exponentText l.exponent ++ rest) := by
      refine digitRun_of_isDigits l.isDigits_fraction fun c hc => ?_
      rcases mem_head?_exponentText hc with rfl | hc
      · decide
      · exact ⟨h.isDigit_eq hc, h.ne hc rfl⟩
    rw [List.cons_append, readFraction, hrun]
    simp [guard, separated_of_isDigits l.isDigits_fraction hf, hexponent]

lemma readNumber_of_isDigits {ds tail : Text} (h : IsDigits ds)
    (hds : ds = ['0'] ∨ ∃ c cs, ds = c :: cs ∧ c ≠ '0')
    (htail : ∀ c ∈ tail.head?, c.isDigit = false ∧ c ≠ '_' ∧ Numeric.radixOf? c = none) :
    readNumber (ds ++ tail) = match tail with
      | 'n' :: rest => some (ds ++ ['n'], rest)
      | tail => (readFraction tail).bind fun x => some (ds ++ x.1, x.2) := by
  have hrun : digitRun 10 (ds ++ tail) = (ds, tail) :=
    digitRun_of_isDigits h fun c hc => ⟨(htail c hc).1, (htail c hc).2.1⟩
  have hseparated : separated ds = true := by
    refine separated_of_isDigits h ?_
    rcases hds with rfl | ⟨c, cs, rfl, -⟩ <;> exact List.cons_ne_nil _ _
  rw [readNumber, hrun]
  rcases hds with rfl | ⟨c, cs, rfl, hc⟩
  · cases tail with
    | nil => simp [guard, hseparated]
    | cons d tail =>
      have hradix := (htail d rfl).2.2
      by_cases hd : d = 'n'
      · subst hd
        rfl
      · simp [hradix, hd]
  · cases tail with
    | nil => simp [guard, hseparated, hc]
    | cons d tail =>
      by_cases hd : d = 'n'
      · subst hd
        simp [guard, hseparated, hc]
      · simp [guard, hseparated, hc, hd]

lemma mem_head?_tail {l : Numeral} {c : Char} (hc : c ∈
    (Numeral.fractionText l.fraction ++ (Numeral.exponentText l.exponent ++ rest)).head?) :
    c = '.' ∨ c = 'e' ∨ c ∈ rest.head? := by
  unfold Numeral.fractionText at hc
  split_ifs at hc
  · exact Or.inr (mem_head?_exponentText hc)
  · exact Or.inl (Option.some.inj hc).symm

lemma Separates.radixOf?_eq (h : Separates rest) {c : Char} (hc : c ∈ rest.head?) :
    Numeric.radixOf? c = none := by
  have hletter {d : Char} (hd : Unicode.isIdPart d = true) : c ≠ d := h.ne hc hd
  rw [Numeric.radixOf?, if_neg (not_or.mpr ⟨hletter rfl, hletter rfl⟩),
    if_neg (not_or.mpr ⟨hletter rfl, hletter rfl⟩), if_neg (not_or.mpr ⟨hletter rfl, hletter rfl⟩)]

lemma readNumber_numeral (l : Numeral) (h : Separates rest) (hpoint : rest.head? ≠ some '.') :
    readNumber (l.text ++ rest) = some (l.text, rest) := by
  have hread := readFraction_fractionText l h hpoint
  rw [Numeral.text, List.append_assoc, List.append_assoc, readNumber_of_isDigits l.isDigits_whole l.whole_eq]
  · split
    · next heq _ =>
      have hhead : 'n' ∈ (Numeral.fractionText l.fraction ++
          (Numeral.exponentText l.exponent ++ rest)).head? := by
        rw [heq]
        rfl
      rcases mem_head?_tail hhead with hc | hc | hc
      · cases hc
      · cases hc
      · exact absurd rfl (h.ne hc rfl)
    · rw [hread]
      rfl
  · intro c hc
    rcases mem_head?_tail hc with rfl | rfl | hc
    · decide
    · decide
    · exact ⟨h.isDigit_eq hc, h.ne hc rfl, h.radixOf?_eq hc⟩

theorem lexesTo_numeral (l : Numeral) : LexesTo (fun rest => Separates rest ∧ rest.head? ≠ some '.')
    l.text (.number (l.decimal.toDouble false)) := by
  obtain ⟨c, cs, hwhole, hc⟩ := l.exists_whole_eq_cons
  have hlast : l.text.getLast? ≠ some 'n' := fun h =>
    absurd (Numeral.of_mem_text (List.mem_of_getLast? h)) (by decide)
  have h := lexesTo_of_readNumber ⟨c, _, by rw [Numeral.text, hwhole, List.cons_append], hc⟩
    (fun _ => And.left) fun _ h => readNumber_numeral l h.1 h.2
  rwa [numberToken, if_neg hlast, l.number_text] at h

lemma integer?_digits (n : ℕ) : Numeric.integer? (Decimal.digits n ++ ['n']) = some n := by
  have hall := Decimal.isDigits_digits n
  have hvalue := Numeric.ofDigits?_eq hall (List.ne_nil_of_length_pos (Decimal.length_digits_pos n))
  rw [Decimal.ofDigits_digits] at hvalue
  rw [Numeric.integer?, List.getLast?_concat, List.dropLast_concat,
    Numeric.withoutSeparators_eq (Numeric.underscore_notMem hall), guard, if_pos rfl]
  rcases Decimal.digits_eq n with h | ⟨d, ds, h, hd⟩
  · rw [h] at hvalue ⊢
    exact hvalue
  · rw [h] at hvalue ⊢
    simpa [hd] using hvalue

theorem lexesTo_bigint (n : ℕ) : LexesTo Separates (Decimal.digits n ++ ['n']) (.bigint n) := by
  have hall := Decimal.isDigits_digits n
  have hread : ∀ rest, Separates rest → readNumber (Decimal.digits n ++ ['n'] ++ rest) =
      some (Decimal.digits n ++ ['n'], rest) := by
    intro rest _
    rw [List.append_assoc, readNumber_of_isDigits hall (Decimal.digits_eq n)]
    · rfl
    · intro c hc
      obtain rfl : 'n' = c := Option.some.inj hc
      decide
  obtain ⟨c, cs, hdigits⟩ := List.exists_cons_of_length_pos (Decimal.length_digits_pos n)
  have h := lexesTo_of_readNumber ⟨c, _, by rw [hdigits, List.cons_append], hall c (by simp [hdigits])⟩
    (fun _ => id) hread
  rwa [numberToken, List.getLast?_concat, if_pos rfl, integer?_digits] at h

def IsVerbatim (c : Char) : Prop :=
  c ≠ '"' ∧ c ≠ '\\' ∧ 0x20 ≤ c.toNat

instance (c : Char) : Decidable (IsVerbatim c) :=
  inferInstanceAs (Decidable (_ ∧ _))

lemma dataChar_cases (c : Char) : (IsVerbatim c ∧ Quoted.dataChar c = [c]) ∨
    (∃ d ∈ ['"', '\\', 'n', 'r', 't', 'b', 'f'],
      Quoted.dataChar c = ['\\', d] ∧ letterEscape d = c.toNat) ∨
    ∃ a b, Quoted.dataChar c = ['\\', 'u', '0', '0', a, b] ∧ IsVerbatim a ∧ IsVerbatim b ∧
      Numeric.ofDigits? 16 ['0', '0', a, b] = some c.toNat := by
  unfold Quoted.dataChar
  split_ifs with h₁ h₂ h₃ h₄ h₅ h₆ h₇ h₈
  · exact Or.inr (Or.inl ⟨'"', by simp, rfl, by rw [h₁]; rfl⟩)
  · exact Or.inr (Or.inl ⟨'\\', by simp, rfl, by rw [h₂]; rfl⟩)
  · exact Or.inr (Or.inl ⟨'n', by simp, rfl, by rw [h₃]; rfl⟩)
  · exact Or.inr (Or.inl ⟨'r', by simp, rfl, by rw [h₄]; rfl⟩)
  · exact Or.inr (Or.inl ⟨'t', by simp, rfl, by rw [h₅]; rfl⟩)
  · exact Or.inr (Or.inl ⟨'b', by simp, rfl, by rw [h₆]; rfl⟩)
  · exact Or.inr (Or.inl ⟨'f', by simp, rfl, by rw [h₇]; rfl⟩)
  · have hall : ∀ n : Fin 32, Quoted.hex 4 n = ['0', '0', (n / 16).val.digitChar, (n % 16).val.digitChar] ∧
        IsVerbatim (n / 16).val.digitChar ∧ IsVerbatim (n % 16).val.digitChar ∧
        Numeric.ofDigits? 16 ['0', '0', (n / 16).val.digitChar, (n % 16).val.digitChar] = some n.val := by
      decide
    obtain ⟨hhex, ha, hb, hvalue⟩ := hall ⟨c.toNat, h₈⟩
    exact Or.inr (Or.inr ⟨_, _, by rw [← hhex], ha, hb, hvalue⟩)
  · exact Or.inl ⟨⟨h₁, h₂, Nat.le_of_not_lt h₈⟩, rfl⟩

lemma readString_cons {acc rest : Text} {c : Char} (h : IsVerbatim c) :
    readString '"' acc (c :: rest) = readString '"' (c :: acc) rest := by
  have hn : c ≠ '\n' := fun h' => absurd (h' ▸ h.2.2) (by decide)
  have hr : c ≠ '\r' := fun h' => absurd (h' ▸ h.2.2) (by decide)
  obtain ⟨hquote, hslash, -⟩ := h
  conv_lhs => unfold readString
  split <;> simp_all

lemma readString_escape {acc rest : Text} {c : Char} (h : c ≠ '\r') :
    readString '"' acc ('\\' :: c :: rest) = readString '"' (c :: '\\' :: acc) rest := by
  conv_lhs => unfold readString
  split <;> grind

lemma readString_data (s acc rest : Text) :
    readString '"' acc (s.flatMap Quoted.dataChar ++ '"' :: rest) =
      some (acc.reverse ++ s.flatMap Quoted.dataChar, rest) := by
  induction s generalizing acc with
  | nil =>
    unfold readString
    simp
  | cons c s ih =>
    rw [List.flatMap_cons, List.append_assoc]
    rcases dataChar_cases c with ⟨hc, h⟩ | ⟨d, hd, h, -⟩ | ⟨a, b, h, ha, hb, -⟩
    · rw [h, List.singleton_append, readString_cons hc, ih]
      simp
    · have hr : d ≠ '\r' := fun h' => absurd (h' ▸ hd) (by decide)
      rw [h, List.cons_append, List.singleton_append, readString_escape hr, ih]
      simp
    · have hzero : IsVerbatim '0' := by decide
      rw [h]
      simp only [List.cons_append, List.nil_append]
      rw [readString_escape (by decide), readString_cons hzero, readString_cons hzero, readString_cons ha,
        readString_cons hb, ih]
      simp

lemma cook_letter {acc : List ℕ} {rest : Text} {d : Char} (h : d ∈ ['"', '\\', 'n', 'r', 't', 'b', 'f']) :
    cook false none acc ('\\' :: d :: rest) = cook false none (letterEscape d :: acc) rest := by
  simp only [List.mem_cons, List.not_mem_nil, or_false] at h
  rcases h with rfl | rfl | rfl | rfl | rfl | rfl | rfl
  all_goals
    conv_lhs => unfold cook
    rfl

lemma cook_data (acc : List ℕ) (s : Text) : cook false none acc (s.flatMap Quoted.dataChar) =
    some (acc.reverse ++ s.map Char.toNat) := by
  induction s generalizing acc with
  | nil =>
    unfold cook
    simp
  | cons c s ih =>
    rw [List.flatMap_cons]
    rcases dataChar_cases c with ⟨hc, h⟩ | ⟨d, hd, h, hvalue⟩ | ⟨a, b, h, -, -, hvalue⟩
    · have hcook : cook false none acc (c :: s.flatMap Quoted.dataChar) =
          cook false none (c.toNat :: acc) (s.flatMap Quoted.dataChar) := by
        obtain ⟨-, hslash, -⟩ := hc
        conv_lhs => unfold cook
        split <;> simp_all
      rw [h, List.singleton_append, hcook, ih]
      simp
    · rw [h, List.cons_append, List.singleton_append, cook_letter hd, ih, hvalue]
      simp
    · have hcook : cook false none acc ('\\' :: 'u' :: '0' :: '0' :: a :: b :: s.flatMap Quoted.dataChar) =
          (Numeric.ofDigits? 16 ['0', '0', a, b]).bind fun n =>
            cook false none (n :: acc) (s.flatMap Quoted.dataChar) := by
        conv_lhs => unfold cook
        rfl
      rw [h]
      simp only [List.cons_append, List.nil_append]
      rw [hcook, hvalue, Option.bind_some, ih]
      simp

lemma textOfCodes_map (s : Text) : textOfCodes (s.map Char.toNat) = s := by
  have hplain (c : Char) : ¬ (0xd800 ≤ c.toNat ∧ c.toNat < 0xe000) := by
    have hvalid := c.valid
    change c.toNat < 0xd800 ∨ 0xdfff < c.toNat ∧ c.toNat < 0x110000 at hvalid
    omega
  have hjoin : joinSurrogates (s.map Char.toNat) = s.map Char.toNat := by
    induction s with
    | nil => rfl
    | cons c s ih =>
      cases s with
      | nil => rfl
      | cons d s =>
        have hc := hplain c
        rw [List.map_cons, List.map_cons, joinSurrogates, if_neg (by omega)]
        rw [List.map_cons] at ih
        rw [ih]
  have hnone : (s.map Char.toNat).any isSurrogate = false := by
    rw [List.any_map, List.any_eq_false]
    intro c _
    have hc := hplain c
    simpa [isSurrogate] using hc
  rw [textOfCodes]
  simp only [hjoin, hnone, Bool.false_eq_true, if_false, List.map_map]
  exact (List.map_congr_left fun c _ => Char.ofNat_toNat c).trans (List.map_id s)

theorem lexesTo_string (s : Text) : LexesTo (fun _ => True) (Quoted.data s) (.string (String.ofList s)) := by
  intro markup newline start rest _
  have hread := readString_data s [] rest
  have hcook : cookedText? false (s.flatMap Quoted.dataChar) = some (String.ofList s) := by
    rw [cookedText?, cook_data, List.reverse_nil, List.nil_append, Option.map_some, textOfCodes_map]
  have htext : Quoted.data s ++ rest = '"' :: (s.flatMap Quoted.dataChar ++ '"' :: rest) := by
    simp [Quoted.data]
  have hsize : size (Quoted.data s) = size (s.flatMap Quoted.dataChar) + 2 := by
    have hquote : '"'.utf8Size = 1 := rfl
    simp only [Quoted.data, Text.size_cons, Text.size_append, Text.size_nil, hquote, List.cons_append]
    omega
  rw [htext, first_of_isSolid (by decide)]
  have hstart : Unicode.isIdStart '"' = false := rfl
  rw [List.reverse_nil, List.nil_append] at hread
  simp [Lexeme.atFront, hstart, hread, hcook, hsize, Nat.add_assoc, Unicode.isAsciiDigit]

lemma not_mem_data {s : Text} {c : Char} (h : c.toNat < 0x20) : c ∉ Quoted.data s := by
  have hne (d : Char) (hd : 0x20 ≤ d.toNat) : c ≠ d := by
    rintro rfl
    omega
  have hchar (d : Char) : c ∉ Quoted.dataChar d := by
    rcases dataChar_cases d with ⟨hd, h⟩ | ⟨e, he, h, -⟩ | ⟨a, b, h, ha, hb, -⟩
    · rw [h, List.mem_singleton]
      exact hne d hd.2.2
    · have hmem : 0x20 ≤ e.toNat := by fin_cases he <;> decide
      simp [h, hne e hmem, hne '\\' (by decide)]
    · simp [h, hne '\\' (by decide), hne 'u' (by decide), hne '0' (by decide), hne a ha.2.2,
        hne b hb.2.2]
  have hquote := hne '"' (by decide)
  simp [Quoted.data, hquote, hchar]

end MetaInline.Script
