import Mathlib
import MetaInline.Proofs.Literal.Readable
import MetaInline.Proofs.Text.Boundary
import MetaInline.Script.Lexer

namespace MetaInline.Script

open Text (From size)

variable {u : Text}

lemma utf8Size_of_lt {c : Char} (h : c.toNat < 128) : c.utf8Size = 1 :=
  Char.utf8Size_eq_one_iff.mpr (UInt32.le_iff_toNat_le.mpr (Nat.le_of_lt_succ h))

lemma toNat_le_of_le {c d : Char} (h : c ≤ d) : c.toNat ≤ d.toNat :=
  UInt32.le_iff_toNat_le.mp h

lemma utf8Size_of_digitValue? {radix d : ℕ} {c : Char} (h : Numeric.digitValue? radix c = some d) :
    c.utf8Size = 1 := by
  refine utf8Size_of_lt ?_
  by_contra hc
  have h9 : ¬ c ≤ '9' := fun h => hc ((toNat_le_of_le h).trans_lt (by decide))
  have hz : ¬ c ≤ 'z' := fun h => hc ((toNat_le_of_le h).trans_lt (by decide))
  have hZ : ¬ c ≤ 'Z' := fun h => hc ((toNat_le_of_le h).trans_lt (by decide))
  simp [Numeric.digitValue?, h9, hz, hZ] at h

def IsPlain (cs : Text) : Prop := ∀ c ∈ cs, c.utf8Size = 1

lemma IsPlain.size_eq {cs : Text} (h : IsPlain cs) : size cs = cs.length := by
  induction cs with
  | nil => rfl
  | cons c cs ih =>
    rw [Text.size_cons, h c (by simp), ih fun d hd => h d (by simp [hd]), List.length_cons]
    omega

@[simp] lemma isPlain_nil : IsPlain [] := by simp [IsPlain]

@[simp] lemma isPlain_cons {c : Char} {cs : Text} :
    IsPlain (c :: cs) ↔ c.utf8Size = 1 ∧ IsPlain cs := by
  simp [IsPlain]

@[simp] lemma isPlain_append {cs ds : Text} : IsPlain (cs ++ ds) ↔ IsPlain cs ∧ IsPlain ds := by
  simp [IsPlain, or_imp, forall_and]

lemma exists_digitValue?_of_foldlM {radix m n : ℕ} {cs : Text}
    (h : cs.foldlM (fun n c => (Numeric.digitValue? radix c).map (radix * n + ·)) m = some n) :
    ∀ c ∈ cs, ∃ d, Numeric.digitValue? radix c = some d := by
  induction cs generalizing m with
  | nil => simp
  | cons c cs ih =>
    rw [List.foldlM_cons] at h
    obtain ⟨x, hx, h⟩ := Option.bind_eq_some_iff.mp h
    obtain ⟨d, hd, -⟩ := Option.map_eq_some_iff.mp hx
    exact List.forall_mem_cons.mpr ⟨⟨d, hd⟩, ih h⟩

lemma exists_digitValue?_of_ofDigits? {radix n : ℕ} {cs : Text}
    (h : Numeric.ofDigits? radix cs = some n) :
    ∀ c ∈ cs, ∃ d, Numeric.digitValue? radix c = some d := by
  unfold Numeric.ofDigits? at h
  split at h
  · cases h
  · exact exists_digitValue?_of_foldlM h

lemma isPlain_of_ofDigits? {radix n : ℕ} {cs : Text} (h : Numeric.ofDigits? radix cs = some n) :
    IsPlain cs := by
  intro c hc
  obtain ⟨d, hd⟩ := exists_digitValue?_of_ofDigits? h c hc
  exact utf8Size_of_digitValue? hd

lemma ne_newline_of_digitValue? {d : ℕ} {c : Char} (h : Numeric.digitValue? 16 c = some d) :
    c ≠ '\n' := by
  rintro rfl
  cases h

lemma skipTrivia_from {markup nl nl' : Bool} {k : Trivia} {pos pos' : ℕ} {cs cs' : Text}
    (hu : From u pos cs) (h : skipTrivia markup k nl pos cs = some (nl', pos', cs')) :
    From u pos' cs' ∧ pos ≤ pos' := by
  have hslash : '/'.utf8Size = 1 := rfl
  have hstar : '*'.utf8Size = 1 := rfl
  have hless : '<'.utf8Size = 1 := rfl
  have hbang : '!'.utf8Size = 1 := rfl
  have hminus : '-'.utf8Size = 1 := rfl
  have hgreater : '>'.utf8Size = 1 := rfl
  induction hn : cs.length using Nat.strong_induction_on generalizing k nl pos cs with
  | h n ih =>
    -- Each case skips the characters whose sizes are added to the position.
    unfold skipTrivia at h
    split at h
    all_goals grind [→ From.drop_cons]

def IsBlanks (u : Text) : Prop :=
  ∀ c ∈ u, (isSpace c || isLineBreak c) = true

lemma skipTrivia_blanks (markup newline : Bool) (start : ℕ) {blanks : Text} (h : IsBlanks blanks)
    (u : Text) : ∃ newline',
      skipTrivia markup .plain newline start (blanks ++ u) =
        skipTrivia markup .plain newline' (start + size blanks) u := by
  induction blanks generalizing newline start with
  | nil => exact ⟨newline, rfl⟩
  | cons c blanks ih =>
    obtain ⟨hc, hblanks⟩ := List.forall_mem_cons.mp h
    rw [List.cons_append, Text.size_cons, ← Nat.add_assoc]
    conv in skipTrivia _ _ _ _ (c :: _) => unfold skipTrivia
    by_cases hbreak : isLineBreak c = true
    · rw [if_pos hbreak]
      exact ih true _ hblanks
    · have hspace : isSpace c = true := by simpa [hbreak] using hc
      rw [if_neg hbreak, if_pos hspace]
      exact ih newline _ hblanks

lemma readName_from {braced : Option (Option ℕ)} {escaped escaped' : Bool} {acc name : Text}
    {pos stop : ℕ} {cs rest : Text} (hu : From u pos cs)
    (h : readName braced escaped acc pos cs = some (name, escaped', stop, rest)) :
    From u stop rest ∧ pos ≤ stop := by
  have hslash : '\\'.utf8Size = 1 := rfl
  have hu' : 'u'.utf8Size = 1 := rfl
  have hopen : '{'.utf8Size = 1 := rfl
  have hclose : '}'.utf8Size = 1 := rfl
  induction hn : cs.length using Nat.strong_induction_on generalizing braced escaped acc pos cs with
  | h n ih =>
    unfold readName at h
    split at h
    all_goals grind [→ From.drop_cons, utf8Size_of_digitValue?, isPlain_of_ofDigits?,
      Option.bind_eq_some_iff, isPlain_cons]

def LeftInLine (cs rest : Text) : Prop :=
  ∃ w, cs = w ++ rest ∧ '\n' ∉ w

lemma LeftInLine.refl (cs : Text) : LeftInLine cs cs :=
  ⟨[], rfl, List.not_mem_nil⟩

lemma LeftInLine.cons {c : Char} {cs rest : Text} (hc : c ≠ '\n') (h : LeftInLine cs rest) :
    LeftInLine (c :: cs) rest := by
  obtain ⟨w, rfl, hw⟩ := h
  exact ⟨c :: w, rfl, by simp [hc.symm, hw]⟩

lemma leftInLine_readName {braced : Option (Option ℕ)} {escaped escaped' : Bool} {acc name : Text}
    {pos stop : ℕ} {cs rest : Text}
    (h : readName braced escaped acc pos cs = some (name, escaped', stop, rest)) :
    LeftInLine cs rest := by
  have hslash : '\\' ≠ '\n' := by decide
  have hu : 'u' ≠ '\n' := by decide
  have hopen : '{' ≠ '\n' := by decide
  have hclose : '}' ≠ '\n' := by decide
  have hstart : ¬ Unicode.isIdStart '\n' = true := by decide
  have hpart : ¬ Unicode.isIdPart '\n' = true := by decide
  have hdigit {n : ℕ} {ds : Text} (h : Numeric.ofDigits? 16 ds = some n) : ∀ d ∈ ds, d ≠ '\n' := by
    intro d hd
    obtain ⟨m, hm⟩ := exists_digitValue?_of_ofDigits? h d hd
    exact ne_newline_of_digitValue? hm
  induction hn : cs.length using Nat.strong_induction_on generalizing braced escaped acc pos cs with
  | h n ih =>
    unfold readName at h
    split at h
    all_goals grind [LeftInLine.refl, LeftInLine.cons, ne_newline_of_digitValue?,
      Option.bind_eq_some_iff]

lemma escaped_of_readName {braced : Option (Option ℕ)} {escaped : Bool} {acc name : Text}
    {pos stop : ℕ} {cs rest : Text}
    (h : readName braced true acc pos cs = some (name, escaped, stop, rest)) : escaped = true := by
  induction hn : cs.length using Nat.strong_induction_on generalizing braced acc pos cs with
  | h n ih =>
    unfold readName at h
    split at h
    all_goals grind [Option.bind_eq_some_iff]

lemma readName_cons {escaped : Bool} {acc cs : Text} {pos : ℕ} {c : Char} (h : c ≠ '\\') :
    readName none escaped acc pos (c :: cs) =
      if (if acc.isEmpty then Unicode.isIdStart c else Unicode.isIdPart c) then
        readName none escaped (c :: acc) (pos + c.utf8Size) cs
      else some (acc.reverse, escaped, pos, c :: cs) := by
  conv_lhs => unfold readName
  simp only [h, if_false]

lemma readName_append {acc name : Text} {pos stop : ℕ} {cs rest : Text}
    (h : readName none false acc pos cs = some (name, false, stop, rest)) :
    ∃ mid, name = acc.reverse ++ mid ∧ cs = mid ++ rest := by
  induction cs generalizing acc pos with
  | nil =>
    cases h
    exact ⟨[], by simp, rfl⟩
  | cons c cs ih =>
    by_cases hc : c = '\\'
    · -- An escape would be kept.
      unfold readName at h
      grind [→ escaped_of_readName, Option.bind_eq_some_iff]
    · rw [readName_cons hc] at h
      by_cases hp : (if acc.isEmpty then Unicode.isIdStart c else Unicode.isIdPart c) = true
      · rw [if_pos hp] at h
        obtain ⟨mid, rfl, rfl⟩ := ih h
        exact ⟨c :: mid, by simp, rfl⟩
      · rw [if_neg hp] at h
        cases h
        exact ⟨[], by simp, rfl⟩

lemma lt_of_readName {escaped : Bool} {name : Text} {pos stop : ℕ} {c : Char} {cs rest : Text}
    (hu : From u pos (c :: cs)) (hc : Unicode.isIdStart c = true ∨ c = '\\')
    (h : readName none false [] pos (c :: cs) = some (name, escaped, stop, rest)) : pos < stop := by
  have hbound {braced : Option (Option ℕ)} {escaped' : Bool} {acc : Text} {n : ℕ} {ds : Text}
      (hn : From u n ds) (hlt : pos < n)
      (h : readName braced escaped' acc n ds = some (name, escaped, stop, rest)) : pos < stop :=
    hlt.trans_le (readName_from hn h).2
  have hslash : '\\'.utf8Size = 1 := rfl
  have hu' : 'u'.utf8Size = 1 := rfl
  have hopen : '{'.utf8Size = 1 := rfl
  have hpos := c.utf8Size_pos
  have hplain : c = '\\' → ¬ Unicode.isIdStart c = true := by rintro rfl; decide
  unfold readName at h
  grind [→ From.drop_cons, isPlain_of_ofDigits?, Option.bind_eq_some_iff, isPlain_cons]

lemma span_append {α : Type*} {p : α → Bool} {xs ys zs : List α} (h : xs.span p = (ys, zs)) :
    xs = ys ++ zs ∧ ∀ x ∈ ys, p x = true := by
  rw [List.span_eq_takeWhile_dropWhile, Prod.mk.injEq] at h
  obtain ⟨rfl, rfl⟩ := h
  exact ⟨List.takeWhile_append_dropWhile.symm, fun x hx => List.mem_takeWhile_imp hx⟩

lemma append_span {α : Type*} (p : α → Bool) (xs : List α) :
    (xs.span p).1 ++ (xs.span p).2 = xs :=
  (span_append rfl).1.symm

lemma append_of_span_ne {α : Type*} [BEq α] [LawfulBEq α] {c d : α} {xs zs : List α}
    (h : (xs.span (· != c)).2 = d :: zs) : xs = (xs.span (· != c)).1 ++ c :: zs := by
  have hd := List.head?_dropWhile_not (· != c) xs
  have happend := append_span (· != c) xs
  rw [List.span_eq_takeWhile_dropWhile] at h happend ⊢
  simp only at h happend ⊢
  rw [h] at hd happend
  obtain rfl : d = c := by simpa using hd
  exact happend.symm

lemma digitRun_append {radix : ℕ} {cs run rest : Text} (h : digitRun radix cs = (run, rest)) :
    cs = run ++ rest ∧ IsPlain run := by
  obtain ⟨hcs, hrun⟩ := span_append h
  refine ⟨hcs, fun c hc => ?_⟩
  rcases Bool.or_eq_true_iff.mp (hrun c hc) with hd | hd
  · obtain ⟨d, hd⟩ := Option.isSome_iff_exists.mp hd
    exact utf8Size_of_digitValue? hd
  · rw [beq_iff_eq.mp hd]
    rfl

lemma exists_digitRun (radix : ℕ) (cs : Text) :
    ∃ run rest, digitRun radix cs = (run, rest) ∧ cs = run ++ rest ∧ IsPlain run :=
  ⟨_, _, rfl, digitRun_append rfl⟩

lemma readExponent_append {cs tail rest : Text} (h : readExponent cs = some (tail, rest)) :
    cs = tail ++ rest ∧ IsPlain tail := by
  have hsmall : 'e'.utf8Size = 1 := rfl
  have hlarge : 'E'.utf8Size = 1 := rfl
  have hplus : '+'.utf8Size = 1 := rfl
  have hminus : '-'.utf8Size = 1 := rfl
  unfold readExponent at h
  grind [digitRun_append, isPlain_cons, isPlain_append, isPlain_nil]

lemma readFraction_append {cs tail rest : Text} (h : readFraction cs = some (tail, rest)) :
    cs = tail ++ rest ∧ IsPlain tail := by
  have hpoint : '.'.utf8Size = 1 := rfl
  unfold readFraction at h
  split at h
  · next cs' =>
    cases hd : digitRun 10 cs' with | mk run cs'' =>
    obtain ⟨rfl, hrun⟩ := digitRun_append hd
    simp only [hd] at h
    obtain ⟨-, -, hread⟩ := Option.bind_eq_some_iff.mp h
    obtain ⟨⟨power, rest'⟩, hp, htail⟩ := Option.bind_eq_some_iff.mp hread
    obtain ⟨rfl, hpower⟩ := readExponent_append hp
    obtain ⟨rfl, rfl⟩ := Prod.mk.inj (Option.some.inj htail)
    simp [hrun, hpower, hpoint]
  · exact readExponent_append h

lemma utf8Size_of_radixOf? {c : Char} {radix : ℕ} (h : Numeric.radixOf? c = some radix) :
    c.utf8Size = 1 := by
  unfold Numeric.radixOf? at h
  split at h
  · next hc => rcases hc with rfl | rfl <;> rfl
  · split at h
    · next hc => rcases hc with rfl | rfl <;> rfl
    · split at h
      · next hc => rcases hc with rfl | rfl <;> rfl
      · cases h

lemma readNumber_append {cs raw rest : Text} (h : readNumber cs = some (raw, rest)) :
    cs = raw ++ rest ∧ IsPlain raw ∧ raw ≠ [] := by
  have hn : 'n'.utf8Size = 1 := rfl
  have hzero : '0'.utf8Size = 1 := rfl
  unfold readNumber at h
  obtain ⟨run, rest', hd, rfl, hrun⟩ := exists_digitRun 10 cs
  simp only [hd] at h
  split at h
  · -- A zero, maybe with the letter of a radix.
    next _ _ c cs =>
    split at h
    · next radix hr =>
      obtain ⟨digits, rest', hd', rfl, hdigits⟩ := exists_digitRun radix cs
      have hc := utf8Size_of_radixOf? hr
      simp only [hd'] at h
      obtain ⟨-, -, h⟩ := Option.bind_eq_some_iff.mp h
      split at h
      · cases h
        simp [hn, hzero, hc, hdigits]
      · cases h
        simp [hzero, hc, hdigits]
    · split at h
      · next hc =>
        cases h
        simp [hc, hn, hzero]
      · obtain ⟨⟨tail, rest'⟩, ht, hraw⟩ := Option.bind_eq_some_iff.mp h
        obtain ⟨ht, htail⟩ := readFraction_append ht
        cases hraw
        simp [ht, hzero, htail]
  · -- A zero before other digits.
    obtain ⟨-, -, h⟩ := Option.bind_eq_some_iff.mp h
    split at h
    · cases h
      exact ⟨rfl, hrun, by simp⟩
    · obtain ⟨⟨tail, rest'⟩, ht, hraw⟩ := Option.bind_eq_some_iff.mp h
      obtain ⟨rfl, htail⟩ := readFraction_append ht
      cases hraw
      exact ⟨by simp, isPlain_append.mpr ⟨hrun, htail⟩, by simp⟩
  · -- No digits before the point.
    obtain ⟨⟨tail, rest'⟩, ht, hraw⟩ := Option.bind_eq_some_iff.mp h
    obtain ⟨_, hl, hraw⟩ := Option.bind_eq_some_iff.mp hraw
    obtain ⟨rfl, htail⟩ := readFraction_append ht
    cases hraw
    refine ⟨rfl, htail, ?_⟩
    rintro rfl
    simp [guard] at hl
  · obtain ⟨-, -, h⟩ := Option.bind_eq_some_iff.mp h
    cases h
    simp [hrun, hn]
  · next hne _ _ =>
    obtain ⟨-, -, h⟩ := Option.bind_eq_some_iff.mp h
    obtain ⟨⟨tail, rest'⟩, ht, hraw⟩ := Option.bind_eq_some_iff.mp h
    obtain ⟨rfl, htail⟩ := readFraction_append ht
    cases hraw
    refine ⟨by simp, by simp [hrun, htail], fun h => hne ?_⟩
    exact (List.append_eq_nil_iff.mp h).1

lemma read?_append {table : List (Text × Punct)} {cs word rest : Text} {p : Punct}
    (h : Punct.read? table cs = some (p, word, rest)) : cs = word ++ rest ∧ (word, p) ∈ table := by
  obtain ⟨⟨w, q⟩, hmem, h⟩ := List.exists_of_findSome?_eq_some h
  obtain ⟨r, hr, h⟩ := Option.map_eq_some_iff.mp h
  cases h
  exact ⟨Text.eq_append_of_dropFront? hr, hmem⟩

lemma isPlain_of_mem_spellings {x : Text × Punct}
    (h : x ∈ Punct.spellings ++ Punct.greaterTails) :
    IsPlain x.1 ∧ x.1 ≠ [] ∧ '\n' ∉ x.1 := by
  have hall : (Punct.spellings ++ Punct.greaterTails).all (fun x => x.1.all (·.utf8Size == 1) &&
      (!x.1.isEmpty && !x.1.contains '\n')) = true := rfl
  have hx := List.all_eq_true.mp hall x h
  simpa [List.all_eq_true, IsPlain] using hx

lemma readString_append {quote : Char} {acc cs raw rest : Text}
    (h : readString quote acc cs = some (raw, rest)) :
    ∃ mid, raw = acc.reverse ++ mid ∧ cs = mid ++ quote :: rest := by
  induction hn : cs.length using Nat.strong_induction_on generalizing acc cs with
  | h n ih =>
    unfold readString at h
    split at h
    · cases h
    · obtain ⟨mid, rfl, rfl⟩ := ih _ (by simp only [← hn, List.length_cons]; omega) h rfl
      exact ⟨'\\' :: '\r' :: '\n' :: mid, by simp, by simp⟩
    · next c cs _ =>
      obtain ⟨mid, rfl, rfl⟩ := ih _ (by simp only [← hn, List.length_cons]; omega) h rfl
      exact ⟨'\\' :: c :: mid, by simp, by simp⟩
    · next c cs _ _ =>
      split at h
      · next hc =>
        cases h
        exact ⟨[], by simp, by simp [hc]⟩
      · split at h
        · cases h
        · obtain ⟨mid, rfl, rfl⟩ := ih _ (by simp only [← hn, List.length_cons]; omega) h rfl
          exact ⟨c :: mid, by simp, by simp⟩

def templateEnd (closed : Bool) : Text :=
  if closed then [Char.ofNat 0x60] else ['$', '{']

lemma readTemplate_append {acc cs raw rest : Text} {closed : Bool}
    (h : readTemplate acc cs = some (raw, closed, rest)) :
    ∃ mid, raw = acc.reverse ++ mid ∧ cs = mid ++ (templateEnd closed ++ rest) := by
  induction hn : cs.length using Nat.strong_induction_on generalizing acc cs with
  | h n ih =>
    unfold readTemplate at h
    split at h
    · cases h
    · next c cs =>
      obtain ⟨mid, rfl, rfl⟩ := ih _ (by simp only [← hn, List.length_cons]; omega) h rfl
      exact ⟨'\\' :: c :: mid, by simp, by simp⟩
    · cases h
      exact ⟨[], by simp, rfl⟩
    · next c cs _ _ =>
      split at h
      · next hc =>
        cases h
        refine ⟨[], by simp, ?_⟩
        rw [templateEnd, if_pos rfl, ← hc, Char.ofNat_toNat]
        rfl
      · obtain ⟨mid, rfl, rfl⟩ := ih _ (by simp only [← hn, List.length_cons]; omega) h rfl
        exact ⟨c :: mid, by simp, by simp⟩

lemma readBody_append {inClass : Bool} {acc cs body rest : Text}
    (h : readBody inClass acc cs = some (body, rest)) :
    ∃ mid, body = acc.reverse ++ mid ∧ cs = mid ++ '/' :: rest := by
  induction hn : cs.length using Nat.strong_induction_on generalizing inClass acc cs with
  | h n ih =>
    unfold readBody at h
    split at h
    · cases h
    · next c cs =>
      split at h
      · cases h
      · obtain ⟨mid, rfl, rfl⟩ := ih _ (by simp only [← hn, List.length_cons]; omega) h rfl
        exact ⟨'\\' :: c :: mid, by simp, by simp⟩
    · next c cs _ =>
      have hstep {b : Bool} (h : readBody b (c :: acc) cs = some (body, rest)) :
          ∃ mid, body = acc.reverse ++ mid ∧ c :: cs = mid ++ '/' :: rest := by
        obtain ⟨mid, rfl, rfl⟩ := ih _ (by simp only [← hn, List.length_cons]; omega) h rfl
        exact ⟨c :: mid, by simp, by simp⟩
      split at h
      · cases h
      · split at h
        · exact hstep h
        · split at h
          · exact hstep h
          · split at h
            · next hc =>
              cases h
              exact ⟨[], by simp, by simp [hc.1]⟩
            · exact hstep h

namespace Lexeme

/-- How some tokens stand between `here` and `rest`: a keyword that is not escaped as it is spelled, a
dot by itself, and a double less-than sign by one at least. A number and a regular expression stand for
literals that can be read. -/
def Spelled (here rest : Text) : Token → Prop
  | .word name (some k) false => (name.toList, k) ∈ Keyword.spellings ∧ here = name.toList ++ rest
  | .punct .dot => here = '.' :: rest
  | .punct .shiftLeft => ∃ cs, here = '<' :: cs
  | .number x => (Literal.number x).IsReadable
  | .regexp r => (Literal.regexp r).IsReadable
  | _ => True

def IsSign : Token → Prop
  | .word .. | .punct _ => True
  | _ => False

structure Sound (u : Text) (l : Lexeme) : Prop where
  here : From u l.start l.here
  rest : From u l.stop l.rest
  le : l.start ≤ l.stop
  lt : l.token ≠ .done → l.token ≠ .malformed → l.start < l.stop
  spelled : Spelled l.here l.rest l.token
  inLine : IsSign l.token → ¬ Text.IsAfterNewline u l.stop

variable {markup newline : Bool} {start stop : ℕ} {here rest : Text} {token : Token}

lemma sound_malformed (hu : From u start here) : (malformed start here newline).Sound u where
  here := hu
  rest := From.drop (by simpa [malformed] using hu)
  le := Nat.le_add_right ..
  lt _ h := absurd rfl h
  spelled := trivial
  inLine := False.elim

lemma sound_of_lt (hu : From u start here) (hr : From u stop rest) (hlt : start < stop)
    (ht : Spelled here rest token) (hline : IsSign token → ¬ Text.IsAfterNewline u stop) :
    (⟨token, start, here, stop, rest, newline⟩ : Lexeme).Sound u where
  here := hu
  rest := hr
  le := hlt.le
  lt _ _ := hlt
  spelled := ht
  inLine := hline

lemma not_isAfterNewline {pos : ℕ} {cs : Text} (hu : From u pos cs) (hr : From u stop rest)
    (hlt : pos < stop) (h : LeftInLine cs rest) : ¬ Text.IsAfterNewline u stop := by
  obtain ⟨w, rfl, hw⟩ := h
  have hstop : stop = pos + size w := by
    have hsize := hu.drop.add_size
    have hsize' := hr.add_size
    omega
  rw [hstop]
  refine hu.not_isAfterNewline ?_ hw
  rintro rfl
  simp at hstop
  omega

lemma sound_sign (hu : From u start here) (hr : From u stop rest) (hlt : start < stop)
    (ht : Spelled here rest token) (hline : LeftInLine here rest) :
    (⟨token, start, here, stop, rest, newline⟩ : Lexeme).Sound u :=
  sound_of_lt hu hr hlt ht fun _ => not_isAfterNewline hu hr hlt hline

lemma not_isSign_numberToken (raw : Text) : ¬ IsSign (numberToken raw) := by
  unfold numberToken
  split
  · split <;> exact id
  · exact id

lemma size_pos {word : Text} (h : word ≠ []) : 0 < size word :=
  (List.length_pos_of_ne_nil h).trans_le (Text.length_le_size word)

lemma spelled_numberToken (raw : Text) : Spelled here rest (numberToken raw) := by
  unfold numberToken
  split
  · split <;> trivial
  · exact Numeric.isNaN_number raw

lemma spelled_word {name : Text} {pos : ℕ} {escaped : Bool}
    (h : readName none false [] pos here = some (name, escaped, stop, rest)) :
    Spelled here rest (.word (String.ofList name) (Keyword.ofText? name) escaped) := by
  cases escaped with
  | true => cases Keyword.ofText? name <;> trivial
  | false =>
    cases hk : Keyword.ofText? name with
    | none => trivial
    | some k =>
      obtain ⟨mid, rfl, rfl⟩ := readName_append h
      obtain ⟨front, back, hs, -⟩ := List.lookup_eq_some_iff.mp hk
      refine ⟨?_, by simp⟩
      rw [hs]
      simp

lemma spelled_punct {word : Text} {p : Punct} (h : (word, p) ∈ Punct.spellings) :
    Spelled (word ++ rest) rest (.punct p) := by
  have hall : ∀ x ∈ Punct.spellings, (x.2 = .dot → x.1 = ['.']) ∧
      (x.2 = .shiftLeft → x.1 = ['<', '<']) := by decide
  obtain ⟨hdot, hless⟩ := hall _ h
  unfold Spelled
  split
  · next heq => cases heq
  · next heq =>
    obtain rfl : word = ['.'] := hdot (Token.punct.inj heq)
    rfl
  · next heq =>
    obtain rfl : word = ['<', '<'] := hless (Token.punct.inj heq)
    exact ⟨'<' :: rest, rfl⟩
  · next heq => cases heq
  · next heq => cases heq
  · trivial

lemma spelled_greaterTail {x : Text × Punct} (h : x ∈ Punct.greaterTails) :
    Spelled here rest (.punct x.2) := by
  have hall : ∀ x ∈ Punct.greaterTails, x.2 ≠ .dot ∧ x.2 ≠ .shiftLeft := by decide
  obtain ⟨hdot, hless⟩ := hall x h
  unfold Spelled
  split
  · next heq => cases heq
  · next heq => exact absurd (Token.punct.inj heq) hdot
  · next heq => exact absurd (Token.punct.inj heq) hless
  · next heq => cases heq
  · next heq => cases heq
  · trivial

lemma sound_number (hu : From u start here) (newline : Bool) :
    (match readNumber here with
      | some (raw, rest) =>
        if endsNumber rest then
          ⟨numberToken raw, start, here, start + raw.length, rest, newline⟩
        else malformed start here newline
      | none => malformed start here newline : Lexeme).Sound u := by
  split
  · next raw rest h =>
    obtain ⟨rfl, hplain, hne⟩ := readNumber_append h
    split
    · have hrest := hu.drop
      rw [hplain.size_eq] at hrest
      have := List.length_pos_of_ne_nil hne
      exact sound_of_lt hu hrest (by omega) (spelled_numberToken raw)
        fun h => absurd h (not_isSign_numberToken raw)
    · exact sound_malformed hu
  · exact sound_malformed hu

lemma sound_punct (hu : From u start here) (newline : Bool) :
    (match Punct.read? Punct.spellings here with
      | some (p, word, rest) =>
        ⟨.punct p, start, here, start + word.length, rest, newline⟩
      | none => malformed start here newline : Lexeme).Sound u := by
  split
  · next p word rest h =>
    obtain ⟨rfl, hmem⟩ := read?_append h
    obtain ⟨hplain, hne, hline⟩ := isPlain_of_mem_spellings (List.mem_append_left _ hmem)
    have hrest := hu.drop
    rw [hplain.size_eq] at hrest
    have hlt := Nat.lt_add_of_pos_right (n := start) (List.length_pos_of_ne_nil hne)
    exact sound_sign hu hrest hlt (spelled_punct hmem) ⟨word, rfl, hline⟩
  · exact sound_malformed hu

lemma sound_quoted {q : Char} {raw : Text} (hu : From u start here)
    (hhere : here = q :: (raw ++ q :: rest)) (hq : q.utf8Size = 1)
    (ht : Spelled here rest token) (hsign : ¬ IsSign token) :
    (⟨token, start, here, start + size raw + 2, rest, newline⟩ : Lexeme).Sound u := by
  have hrest : From u (start + size (q :: raw ++ [q])) rest := From.drop (by simpa [hhere] using hu)
  have hsize : start + size (q :: raw ++ [q]) = start + size raw + 2 := by
    simp only [Text.size_append, Text.size_cons, Text.size_nil, hq]
    omega
  exact sound_of_lt hu (hsize ▸ hrest) (by omega) ht fun h => absurd h hsign

lemma size_templateEnd (closed : Bool) : size (templateEnd closed) = if closed then 1 else 2 := by
  cases closed <;> rfl

lemma sound_name {c : Char} {cs : Text} (hu : From u start (c :: cs))
    (hc : (Unicode.isIdStart c || c == '\\') = true) (newline : Bool) :
    (match readName none false [] start (c :: cs) with
      | some (name, escaped, stop, rest) =>
        ⟨.word (String.ofList name) (Keyword.ofText? name) escaped, start, c :: cs, stop, rest,
          newline⟩
      | none => malformed start (c :: cs) newline : Lexeme).Sound u := by
  split
  · next name escaped stop rest hr =>
    have hlt := lt_of_readName hu (by simpa using hc) hr
    exact sound_sign hu (readName_from hu hr).1 hlt (spelled_word hr) (leftInLine_readName hr)
  · exact sound_malformed hu

lemma sound_string {c : Char} {cs : Text} (hu : From u start (c :: cs))
    (hq : (c == '"' || c == '\'') = true) (newline : Bool) :
    (match readString c [] cs with
      | some (raw, rest) =>
        match cookedText? false raw with
        | some s => ⟨.string s, start, c :: cs, start + size raw + 2, rest, newline⟩
        | none => malformed start (c :: cs) newline
      | none => malformed start (c :: cs) newline : Lexeme).Sound u := by
  split
  · next raw rest hr =>
    split
    · obtain ⟨_, rfl, rfl⟩ := readString_append hr
      have hsize : c.utf8Size = 1 := by
        rcases Bool.or_eq_true_iff.mp hq with h | h <;> rw [beq_iff_eq.mp h] <;> rfl
      exact sound_quoted hu rfl hsize trivial id
    · exact sound_malformed hu
  · exact sound_malformed hu

lemma sound_template {c : Char} {cs : Text} (hu : From u start (c :: cs))
    (hc : (c.toNat == 0x60) = true) (newline : Bool) :
    (match readTemplate [] cs with
      | some (raw, closed, rest) =>
        ⟨.template (cookedText? true raw) closed, start, c :: cs,
          start + size raw + (if closed then 2 else 3), rest, newline⟩
      | none => malformed start (c :: cs) newline : Lexeme).Sound u := by
  split
  · next raw closed rest hr =>
    obtain ⟨_, rfl, rfl⟩ := readTemplate_append hr
    have hsize : c.utf8Size = 1 := utf8Size_of_lt (by simp_all)
    have hrest : From u (start + size (c :: (raw ++ templateEnd closed))) rest :=
      From.drop (by simpa using hu)
    have hstop : start + size (c :: (raw ++ templateEnd closed)) =
        start + size raw + if closed then 2 else 3 := by
      simp only [Text.size_append, Text.size_cons, hsize, size_templateEnd]
      cases closed <;> simp only [if_true, if_false, Bool.false_eq_true] <;> omega
    refine sound_of_lt hu (hstop ▸ hrest) ?_ trivial False.elim
    cases closed <;> simp <;> omega
  · exact sound_malformed hu

lemma sound_hidden {c : Char} {cs : Text} (hu : From u start (c :: cs)) (hc : (c == '#') = true)
    (newline : Bool) :
    (match readName none false [] (start + 1) cs with
      | some (name, _, stop, rest) =>
        if name.isEmpty then malformed start (c :: cs) newline
        else ⟨.hidden (String.ofList name), start, c :: cs, stop, rest, newline⟩
      | none => malformed start (c :: cs) newline : Lexeme).Sound u := by
  split
  · next name escaped stop rest hr =>
    split
    · exact sound_malformed hu
    · obtain rfl := beq_iff_eq.mp hc
      obtain ⟨hrest, hle⟩ := readName_from hu.drop_cons hr
      exact sound_of_lt hu hrest (Nat.lt_of_succ_le hle) trivial False.elim
  · exact sound_malformed hu

lemma sound_atFront (hu : From u start here) : (atFront markup newline start here).Sound u := by
  have hnumber := sound_number hu newline
  have hpunct := sound_punct hu newline
  unfold atFront
  simp only
  split
  · exact ⟨hu, hu, le_rfl, fun h => absurd rfl h, trivial, False.elim⟩
  · split
    · next hc => exact sound_name hu hc newline
    · split
      · exact hnumber
      · split
        · next hq => exact sound_string hu hq newline
        · split
          · next hq => exact sound_template hu hq newline
          · split
            · next hc => exact sound_hidden hu hc newline
            · -- The signs that are no punctuator where they stand: `.5`, `?.5` and `<!--`.
              split
              · split
                · exact hnumber
                · exact hpunct
              · split
                · exact sound_sign hu hu.drop_cons (Nat.lt_succ_self _) trivial
                    (.cons (by decide) (.refl _))
                · exact hpunct
              · split
                · exact hpunct
                · exact sound_malformed hu
              · exact hpunct

@[simp] lemma start_atFront : (atFront markup newline start here).start = start := by
  unfold atFront
  simp only
  repeat' split
  all_goals rfl

lemma sound_first {pos : ℕ} {cs : Text} (hu : From u pos cs) :
    (first markup newline pos cs).Sound u ∧ pos ≤ (first markup newline pos cs).start := by
  unfold first
  split
  · next nl start here h =>
    obtain ⟨hhere, hle⟩ := skipTrivia_from hu h
    exact ⟨sound_atFront hhere, by simpa using hle⟩
  · exact ⟨sound_malformed hu, le_rfl⟩

variable {l : Lexeme}

lemma Sound.next (h : l.Sound u) (markup : Bool) :
    (l.next markup).Sound u ∧ l.stop ≤ (l.next markup).start :=
  sound_first h.rest

lemma Sound.extend (h : l.Sound u) (hr : From u stop rest) (hlt : l.start < stop)
    (ht : Spelled l.here rest token) (hline : IsSign token → ¬ Text.IsAfterNewline u stop) :
    ({ l with token := token, stop := stop, rest := rest } : Lexeme).Sound u :=
  sound_of_lt h.here hr hlt ht hline

lemma Sound.joined (h : l.Sound u) : l.joined.Sound u ∧ l.joined.start = l.start := by
  unfold Lexeme.joined
  split
  · next ht =>
    split
    · next p word rest hr =>
      obtain ⟨hrest, hmem⟩ := read?_append hr
      obtain ⟨hplain, hne, hline⟩ := isPlain_of_mem_spellings (List.mem_append_right _ hmem)
      have hmore : From u l.stop (word ++ rest) := hrest ▸ h.rest
      have hfrom := hmore.drop
      have hstop := hmore.not_isAfterNewline hne hline
      rw [hplain.size_eq] at hfrom hstop
      have hlt := h.lt (by simp [ht]) (by simp [ht])
      exact ⟨h.extend hfrom (Nat.lt_add_right _ hlt) (spelled_greaterTail hmem) fun _ => hstop, rfl⟩
    · exact ⟨h, rfl⟩
  · exact ⟨h, rfl⟩

lemma Sound.split (h : l.Sound u) : l.split.Sound u ∧ l.split.start = l.start := by
  unfold Lexeme.split
  split
  · next c rest ht hl =>
    obtain ⟨cs, hcs⟩ : ∃ cs, l.here = '<' :: cs := by
      have hspelled := h.spelled
      rwa [ht] at hspelled
    obtain ⟨rfl, rfl⟩ := List.cons.inj (hl.symm.trans hcs)
    have hhere : From u l.start ('<' :: rest) := hl ▸ h.here
    have hstop := From.not_isAfterNewline (v := ['<']) hhere (List.cons_ne_nil _ _) (by decide)
    exact ⟨h.extend hhere.drop_cons (Nat.lt_succ_self _) trivial fun _ => hstop, rfl⟩
  · exact ⟨h, rfl⟩

lemma Sound.regexp (h : l.Sound u) : l.regexp.Sound u ∧ l.regexp.start = l.start := by
  have hbad : (malformed l.start l.here l.newline).Sound u := sound_malformed h.here
  unfold Lexeme.regexp
  split
  · next cs hl =>
    split
    · next body rest hb =>
      obtain ⟨_, rfl, rfl⟩ := readBody_append hb
      have hflags := append_span isFlagChar rest
      simp only
      split
      · split
        · next hvalid =>
          refine ⟨h.extend (From.drop ?_) ?_ hvalid False.elim, rfl⟩
          · simpa [hflags, hl] using h.here
          · exact Nat.lt_add_of_pos_right (size_pos (by simp))
        · exact ⟨hbad, rfl⟩
      · exact ⟨hbad, rfl⟩
    · exact ⟨hbad, rfl⟩
  · exact ⟨hbad, rfl⟩

lemma Sound.templateRest (h : l.Sound u) :
    l.templateRest.Sound u ∧ l.templateRest.start = l.start := by
  unfold Lexeme.templateRest
  split
  · next raw closed rest hr =>
    obtain ⟨_, rfl, hl⟩ := readTemplate_append hr
    have hle := h.le
    have hfrom : From u (l.stop + size (raw ++ templateEnd closed)) rest :=
      From.drop (by simpa [hl] using h.rest)
    rw [Text.size_append, size_templateEnd, ← Nat.add_assoc] at hfrom
    refine ⟨h.extend hfrom ?_ trivial False.elim, rfl⟩
    cases closed <;> simp <;> omega
  · exact ⟨sound_malformed h.here, rfl⟩

lemma Sound.hyphenated (h : l.Sound u) : l.hyphenated.Sound u ∧ l.hyphenated.start = l.start := by
  unfold Lexeme.hyphenated
  split
  · next name k ht =>
    have hlt := h.lt (by simp [ht]) (by simp [ht])
    cases hspan : l.rest.span fun c => c == '-' || Unicode.isIdPart c with | mk more rest =>
    obtain ⟨hmore, hname⟩ := span_append hspan
    have hrest := hmore ▸ h.rest
    refine ⟨h.extend hrest.drop (Nat.lt_add_right _ hlt) trivial fun _ => ?_, rfl⟩
    cases more with
    | nil => exact h.inLine (ht ▸ trivial)
    | cons c more =>
      refine hrest.not_isAfterNewline (List.cons_ne_nil c more) fun hmem => ?_
      exact absurd (hname _ hmem) (by decide)
  · exact ⟨h, rfl⟩

lemma Sound.elementText (h : l.Sound u) :
    l.elementText.2.Sound u ∧ l.stop ≤ l.elementText.2.start := by
  have htext := append_span (fun c => c != '{' && c != '}' && c != '<' && c != '>') l.rest
  exact ⟨sound_atFront (From.drop (htext.symm ▸ h.rest)), by simp [Lexeme.elementText]⟩

lemma Sound.attributeValue (h : l.Sound u) :
    l.attributeValue.Sound u ∧ l.stop ≤ l.attributeValue.start := by
  unfold Lexeme.attributeValue
  split
  · next nl start here hs =>
    obtain ⟨hhere, hle⟩ := skipTrivia_from h.rest hs
    split
    · next c cs =>
      split
      · next hq =>
        have hsize : c.utf8Size = 1 := by
          rcases Bool.or_eq_true_iff.mp hq with h | h <;> rw [beq_iff_eq.mp h] <;> rfl
        simp only
        split
        · next d rest hd =>
          exact ⟨sound_quoted hhere (congrArg _ (append_of_span_ne hd)) hsize trivial id, hle⟩
        · exact ⟨sound_malformed hhere, hle⟩
      · exact ⟨sound_atFront hhere, by simpa using hle⟩
    · exact ⟨sound_atFront hhere, by simpa using hle⟩
  · exact ⟨sound_malformed h.rest, le_rfl⟩

end Lexeme

end MetaInline.Script
