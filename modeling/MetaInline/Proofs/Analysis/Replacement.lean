import Mathlib
import MetaInline.Proofs.Analysis.Coverage
import MetaInline.Proofs.Edit.Insertion
import MetaInline.Proofs.Literal.Operand
import MetaInline.Proofs.Script.Punctuation

namespace MetaInline

open Script (Lexeme Punct Follows)
open Script.Grammar (PartsStatements cursorWith)
open Text (size)

structure Front (v : Literal) (c : Char) : Prop where
  continues : Punct.continues c = false
  slash : c = '/' → ∃ r, v = .regexp r

lemma Front.of_ne {v : Literal} {c : Char} (hc : Punct.continues c = false) (hne : c ≠ '/') : Front v c :=
  ⟨hc, fun heq => absurd heq hne⟩

lemma front_of_isDigit {v : Literal} {c : Char} (h : c.isDigit = true) : Front v c := by
  have hrange := toNat_of_isDigit h
  have hall : Punct.continues c = false ∧ c ≠ '/' :=
    Text.forall_of_between c hrange.1 (Nat.lt_succ_of_le hrange.2) (by decide)
  exact .of_ne hall.1 hall.2

lemma Literal.exists_front {v : Literal} (hv : v.isValid = true) (hminus : v.text.head? ≠ some '-') :
    ∃ c cs, v.text = c :: cs ∧ Front v c := by
  have hsigned {negative : Bool} {body : Text} (htext : v.text = Script.Grammar.signed negative body) :
      v.text = body := by
    cases negative with
    | false => exact htext
    | true => exact absurd (by rw [htext]; rfl) hminus
  cases v with
  | null => exact ⟨'n', _, rfl, .of_ne (by decide) (by decide)⟩
  | bool b =>
    cases b with
    | false => exact ⟨'f', _, rfl, .of_ne (by decide) (by decide)⟩
    | true => exact ⟨'t', _, rfl, .of_ne (by decide) (by decide)⟩
  | number x =>
    obtain ⟨l, hsource, -⟩ := Double.exists_denotes_source hv
    obtain ⟨c, cs, hwhole, hc⟩ := l.exists_whole_eq_cons
    obtain ⟨ds, hds⟩ : ∃ ds, l.text = c :: ds := ⟨_, by rw [Numeral.text, hwhole, List.cons_append]⟩
    exact ⟨c, ds, (hsigned hsource).trans hds, front_of_isDigit hc⟩
  | string s => exact ⟨'"', _, rfl, .of_ne (by decide) (by decide)⟩
  | bigint n =>
    obtain ⟨c, cs, hdigits⟩ := List.exists_cons_of_length_pos (Decimal.length_digits_pos n.natAbs)
    refine ⟨c, _, (hsigned (bigintSource_eq n)).trans (by rw [hdigits, List.cons_append]), ?_⟩
    exact front_of_isDigit (Decimal.isDigits_digits n.natAbs c (by rw [hdigits]; exact List.mem_cons_self))
  | regexp r => exact ⟨'/', _, rfl, by decide, fun _ => ⟨r, rfl⟩⟩

lemma Evaluation.exists_front {v : Literal} (hv : v.isValid = true) (isObject : Bool) :
    ∃ c cs, replacement v isObject = c :: cs ∧ Front v c := by
  rw [replacement]
  split
  · exact ⟨'(', _, rfl, .of_ne (by decide) (by decide)⟩
  · next hneeds =>
    exact Literal.exists_front hv fun hdash => hneeds (by simp [needsParens, hdash])

namespace Analysis

variable {table : BindingTable} {options : AnalysisOptions} {source : Text}

lemma isValid_of_mem_valued {x : Site × Literal} (h : x ∈ valued table options source) :
    x.2.isValid = true := by
  cases ht : Script.parse options.dialect options.allowReturn source with
  | none =>
    have hsites : sites options source = [] := by
      rw [sites, ht]
      simp
    rw [valued, hsites] at h
    simp [Evaluation.valued] at h
  | some t =>
    rw [valued, sites_eq ht] at h
    split at h
    · exact isValid_of_mem_valuedOf h
    · simp [Evaluation.valued] at h

lemma exists_valued_of_mem_edits {e : Edit} (h : e ∈ (analyze table options source).edits) :
    ∃ x ∈ valued table options source, e = Evaluation.editOf x.1 x.2 := by
  cases ht : Script.parse options.dialect options.allowReturn source with
  | none =>
    rw [edits_eq_nil_of_parse table ht] at h
    cases h
  | some t =>
    rw [analyze, ofScript, ht] at h
    rw [valued, sites_eq ht]
    split at h
    · next hm =>
      rw [if_pos hm]
      exact exists_of_mem_edits (Script.nested_of_parse ht) h
    · cases h

/-- Every edit puts in a site the text of its literal, which is read as one operand of that value
wherever an operand is read, unless what stands behind it goes on with its last token. The
punctuator before it is read as it stands, and behind a line break it begins a statement. -/
theorem isOperand_analyze (table : BindingTable) (options : AnalysisOptions) (source : Text) :
    (∀ e ∈ (analyze table options source).edits, ∃ x ∈ valued table options source,
      e = Evaluation.editOf x.1 x.2) ∧
    ∀ x ∈ valued table options source,
      let text := Evaluation.replacement x.2 x.1.isObject
      (x.2.IsClosed → ∀ rest, (text = x.2.text → Follows x.2 rest) →
        x.2.readBack.IsOperand text rest) ∧
      (∀ word p, (word, p) ∈ Punct.spellings → p ≠ .dot → p ≠ .questionDot →
        (p = .slash → ∀ r, x.2 ≠ .regexp r) → ∀ markup newline start rest,
        Lexeme.first markup newline start (word ++ (text ++ rest)) =
          ⟨.punct p, start, word ++ (text ++ rest), start + size word, text ++ rest, newline⟩) ∧
      (text.head? ≠ some '(' → text.head? ≠ some '/' → ∀ rest, Follows x.2 rest →
        ∀ pending markup lastStop start, PartsStatements
          (cursorWith pending markup true lastStop start (text ++ rest))) := by
  refine ⟨fun e => exists_valued_of_mem_edits, fun x hx => ?_⟩
  have hv := isValid_of_mem_valued hx
  refine ⟨fun hclosed rest => Literal.isOperand_replacement hv hclosed x.1.isObject, ?_,
    fun hparen hslash rest => Literal.partsStatements_replacement hv x.1.isObject hparen hslash⟩
  intro word p hmem hdot hquestionDot hslash markup newline start rest
  obtain ⟨c, cs, htext, hfront⟩ := Evaluation.exists_front hv x.1.isObject
  rw [htext, List.cons_append]
  refine Script.first_punct hmem hdot hquestionDot hfront.continues (fun hp hc => ?_) (cs ++ rest)
  obtain ⟨r, hr⟩ := hfront.slash hc
  exact hslash hp r hr

theorem isOperand_analyze_negative :
    let table : BindingTable :=
      ⟨[("m", .value (.literal (.bigint 1))), ("n", .value (.literal (.bigint (-5))))]⟩
    let options : AnalysisOptions := ⟨.standard, false, false⟩
    let source := "x -import.meta.n.a".toList
    let site : Site := ⟨"n", ⟨3, 16⟩, .access, true⟩
    let lines := "x\nimport.meta.m".toList
    let line : Site := ⟨"m", ⟨2, 15⟩, .access, false⟩
    (site, .bigint (-5)) ∈ valued table options source ∧
      (analyze table options source).edits = [⟨⟨3, 16⟩, "(-5n)"⟩] ∧
      (Literal.bigint (-5)).IsOperand "(-5n)".toList ".a".toList ∧
      Lexeme.first false false 2 "-(-5n).a".toList =
        ⟨.punct .minus, 2, "-(-5n).a".toList, 3, "(-5n).a".toList, false⟩ ∧
      (line, .bigint 1) ∈ valued table options lines ∧
      (analyze table options lines).edits = [⟨⟨2, 15⟩, "1n"⟩] ∧
      PartsStatements (cursorWith [] false true 1 2 "1n".toList) := by
  intro table options source site lines line
  have hmem : (site, .bigint (-5)) ∈ valued table options source := by decide +kernel
  have hline : (line, .bigint 1) ∈ valued table options lines := by decide +kernel
  have htext : Evaluation.replacement (.bigint (-5)) true = "(-5n)".toList := by decide
  have hone : Evaluation.replacement (.bigint 1) false = "1n".toList := by decide
  obtain ⟨hoperand, hpunct, -⟩ := (isOperand_analyze table options source).2 _ hmem
  obtain ⟨-, -, hparts⟩ := (isOperand_analyze table options lines).2 _ hline
  have hbare : "(-5n)".toList ≠ Literal.text (.bigint (-5)) := by decide
  have hminus := hpunct ['-'] .minus (by decide) nofun nofun nofun false false 2 ".a".toList
  have hbegins := hparts (by decide) (by decide) [] nofun [] false 1 2
  rw [htext] at hoperand hminus
  rw [hone, List.append_nil] at hbegins
  exact ⟨hmem, by decide +kernel, hoperand trivial _ fun h => absurd h hbare, hminus, hline,
    by decide +kernel, hbegins⟩

/-- Such neighbours do not keep the tree where types may stand: two comparisons become a call. -/
theorem exists_edited_call :
    let table : BindingTable := ⟨[("n", .value (.literal (.bigint 1)))]⟩
    let options : AnalysisOptions := ⟨.standard, false, false⟩
    let source := "a < import.meta.n > (b)".toList
    let edited := Edit.applyAll source (analyze table options source).edits
    let kinds (u : Text) : List String :=
      match Script.parse .standard false u with
      | some (.node .program _ ts) => ts.map fun
        | .node .expressionStatement _ [t] => t.kindName
        | t => t.kindName
      | _ => []
    edited = "a < 1n > (b)".toList ∧ Follows (.bigint 1) " > (b)".toList ∧
      kinds source = ["BinaryExpression"] ∧ kinds edited = ["CallExpression"] := by
  refine ⟨by decide +kernel, ?_, by decide +kernel, by decide +kernel⟩
  rintro c ⟨⟩
  decide

end Analysis
end MetaInline
