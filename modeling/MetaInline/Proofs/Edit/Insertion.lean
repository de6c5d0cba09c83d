import Mathlib
import MetaInline.Proofs.Analysis.ArgumentValue
import MetaInline.Proofs.Document.Splicing
import MetaInline.Proofs.Literal.Number
import MetaInline.Proofs.Literal.ReadBack
import MetaInline.Proofs.Literal.RegExpBody
import MetaInline.Unicode.Blank

namespace MetaInline

open Text (size)
open Unicode (isBlank)

namespace Edit

/-- The second text is the first one with other texts, of which `P` holds, put in for parts of it. None of
the parts ends in a line feed. -/
inductive Puts (P : Text → Prop) : Text → Text → Prop
  | nil : Puts P [] []
  | keep (c : Char) {u v : Text} (h : Puts P u v) : Puts P (c :: u) (c :: v)
  | put {old new u v : Text} {c : Char} (hold : old.getLast? = some c) (hc : c ≠ '\n')
      (hnew : P new) (h : Puts P u v) : Puts P (old ++ u) (new ++ v)

variable {P : Text → Prop} {u v source : Text} {es : List Edit}

lemma Puts.refl (u : Text) : Puts P u u := by
  induction u with
  | nil => exact .nil
  | cons c u ih => exact .keep c ih

lemma Puts.append {u' v' : Text} (h : Puts P u v) (h' : Puts P u' v') :
    Puts P (u ++ u') (v ++ v') := by
  induction h with
  | nil => exact h'
  | keep c _ ih => exact .keep c ih
  | put hold hc hnew _ ih =>
    rw [List.append_assoc, List.append_assoc]
    exact .put hold hc hnew ih

lemma Puts.eq_nil (h : Puts P [] v) : v = [] := by
  generalize hu : ([] : Text) = u at h
  cases h with
  | nil => rfl
  | keep c h => cases hu
  | put hold hc hnew h =>
    rw [(List.append_eq_nil_iff.mp hu.symm).1] at hold
    cases hold

lemma Puts.getLast?_eq (h : Puts P u v) (hu : u.getLast? = some '\n') : v.getLast? = some '\n' := by
  have hend {w u v : Text} (ih : u.getLast? = some '\n' → v.getLast? = some '\n')
      (hu : u.getLast? = some '\n') : (w ++ v).getLast? = some '\n' := by
    have hv := ih hu
    rw [List.getLast?_append, hv]
    rfl
  induction h with
  | nil => exact hu
  | @keep c u v h ih =>
    rw [List.getLast?_cons] at hu
    cases hlast : u.getLast? with
    | none =>
      obtain rfl := List.getLast?_eq_none_iff.mp hlast
      rw [h.eq_nil]
      exact hu
    | some d =>
      rw [hlast] at hu
      exact hend (w := [c]) ih (hlast.trans hu)
  | @put old new u v c hold hc hnew h ih =>
    rw [List.getLast?_append] at hu
    cases hlast : u.getLast? with
    | none =>
      rw [hlast, hold] at hu
      exact absurd (Option.some.inj hu) hc
    | some d =>
      rw [hlast] at hu
      exact hend ih (hlast.trans hu)

lemma Fits.puts {pos : ℕ} (h : Fits pos u es) (hfrom : Text.From source pos u)
    (hlt : ∀ e ∈ es, e.span.start < e.span.stop)
    (hline : ∀ e ∈ es, ¬ Text.IsAfterNewline source e.span.stop) (hP : ∀ e ∈ es, P e.text.toList) :
    Puts P u (Editor.splice pos u es) := by
  induction h with
  | nil => exact .refl _
  | @cons pos kept old rest e es hs ht _ ih =>
    obtain ⟨hlt, hothers⟩ := List.forall_mem_cons.mp hlt
    obtain ⟨hstop, hline⟩ := List.forall_mem_cons.mp hline
    obtain ⟨hnew, hP⟩ := List.forall_mem_cons.mp hP
    have hafter := hfrom.drop.drop
    rw [hs, ht] at hafter
    obtain ⟨o, c, rfl⟩ : ∃ o c, old = o ++ [c] := by
      refine (List.eq_nil_or_concat old).resolve_left ?_ |>.imp fun o h => h.imp fun c h => ?_
      · rintro rfl
        simp at ht
        omega
      · rwa [List.concat_eq_append] at h
    have hc : c ≠ '\n' := by
      rintro rfl
      obtain ⟨w, rfl, hw⟩ := hfrom
      refine hstop ⟨w ++ (kept ++ o), rest, by simp, ?_⟩
      simp [show '\n'.utf8Size = 1 from rfl] at ht ⊢
      omega
    rw [splice_cons hs ht]
    exact (Puts.refl kept).append (.put (by simp) hc hnew (ih hafter hothers hline hP))

lemma puts_applyAll (h : InOrder es) (hin : ∀ e ∈ es, e.span.IsIn source)
    (hline : ∀ e ∈ es, ¬ Text.IsAfterNewline source e.span.stop) (hP : ∀ e ∈ es, P e.text.toList) :
    Puts P source (applyAll source es) := by
  rw [applyAll_eq_splice (.refl es) h hin]
  have hfits : Fits 0 source es := .of_pairwise (.self source) (fun _ _ => Nat.zero_le _) hin h.2
  exact hfits.puts (.self source) h.1 hline hP

end Edit

structure Solid (v : Text) : Prop where
  begins : ∃ c cs, v = c :: cs ∧ isBlank c = false ∧ c ≠ '-'
  line : '\n' ∉ v

structure Inline (v : Text) : Prop where
  begins : ∃ c cs, v = c :: cs ∧ isBlank c = false
  line : '\n' ∉ v

lemma isBlank_of_isDigit {c : Char} (h : c.isDigit = true) : isBlank c = false := by
  obtain ⟨hlower, hupper⟩ := toNat_of_isDigit h
  simp only [isBlank, Bool.or_eq_false_iff, Bool.and_eq_false_iff, decide_eq_false_iff_not,
    beq_eq_false_iff_ne, ne_eq]
  omega

lemma Inline.of_forall {v : Text} (hne : v ≠ []) (h : ∀ c ∈ v, isBlank c = false) : Inline v := by
  obtain ⟨c, cs, rfl⟩ := List.exists_cons_of_ne_nil hne
  exact ⟨⟨c, cs, rfl, h c List.mem_cons_self⟩, fun hline => absurd (h _ hline) (by decide)⟩

lemma Double.inline_source {x : Double} (hx : x.isFinite = true) : Inline x.source := by
  cases hzero : x.isZero with
  | true =>
    rw [source_of_isZero hzero]
    exact .of_forall (List.cons_ne_nil _ _) (by simp [isBlank])
  | false =>
    obtain ⟨l, hsource, -, -⟩ := exists_numeral_of_not_isZero hx hzero
    obtain ⟨c, cs, hwhole, -⟩ := l.exists_whole_eq_cons
    have hsign : ∀ c ∈ l.text, isBlank c = false := by
      intro c hc
      rcases Numeral.of_mem_text hc with hdigit | rfl | rfl | rfl
      · exact isBlank_of_isDigit hdigit
      all_goals decide
    rw [hsource, Script.Grammar.signed]
    split
    · exact .of_forall (List.cons_ne_nil _ _) (List.forall_mem_cons.mpr ⟨by decide, hsign⟩)
    · exact .of_forall (by simp [Numeral.text, hwhole]) hsign

lemma Literal.inline_bigintSource (n : ℤ) : Inline (bigintSource n) := by
  have hdigits : ∀ c ∈ Decimal.digits n.natAbs ++ ['n'], isBlank c = false := by
    refine List.forall_mem_append.mpr ⟨fun c hc => ?_, by simp [isBlank]⟩
    exact isBlank_of_isDigit (Decimal.isDigits_digits _ c hc)
  rw [bigintSource_eq, Script.Grammar.signed]
  split
  · exact .of_forall (List.cons_ne_nil _ _) (List.forall_mem_cons.mpr ⟨by decide, hdigits⟩)
  · exact .of_forall (by simp) hdigits

lemma RegExp.inline_source {r : RegExp} (h : r.hasValidFlags = true) : Inline r.source := by
  refine ⟨⟨'/', _, rfl, by decide⟩, ?_⟩
  have hbody : '\n' ∉ escape r.pattern.toList := fun hline =>
    absurd ((isBody_escape _).not_isBreak _ hline) (by decide)
  have hflags : '\n' ∉ r.flags.toList := fun hline =>
    absurd (mem_knownFlags h _ hline) (by decide)
  simp [source, hbody, hflags]

lemma Literal.inline_text {v : Literal} (hv : v.isValid = true) : Inline v.text := by
  cases v with
  | null => exact ⟨⟨'n', _, rfl, by decide⟩, by decide⟩
  | bool b =>
    cases b with
    | false => exact ⟨⟨'f', _, rfl, by decide⟩, by decide⟩
    | true => exact ⟨⟨'t', _, rfl, by decide⟩, by decide⟩
  | number x => exact Double.inline_source hv
  | string s => exact ⟨⟨'"', _, rfl, by decide⟩, Script.not_mem_data (by decide)⟩
  | bigint n => exact inline_bigintSource n
  | regexp r => exact RegExp.inline_source hv

lemma Evaluation.solid_replacement {v : Literal} (hv : v.isValid = true) (isObject : Bool) :
    Solid (replacement v isObject) := by
  obtain ⟨⟨c, cs, htext, hc⟩, hline⟩ := Literal.inline_text hv
  rw [replacement]
  split
  · exact ⟨⟨'(', _, rfl, by decide, by decide⟩, by simp [hline]⟩
  · next hneeds =>
    refine ⟨⟨c, cs, htext, hc, ?_⟩, hline⟩
    rintro rfl
    simp [needsParens, htext] at hneeds

namespace Edit

variable {u v w : Text}

lemma Puts.eq_nil_of_nil (h : Puts Solid u []) : u = [] := by
  generalize hv : ([] : Text) = v at h
  cases h with
  | nil => rfl
  | keep c h => cases hv
  | put hold hc hnew h =>
    obtain ⟨c, cs, rfl, -, -⟩ := hnew.begins
    cases hv

lemma Puts.exists_of_append (h : Puts Solid u (w ++ v)) (hw : ∀ c ∈ w, isBlank c = true ∨ c = '-') :
    ∃ u', u = w ++ u' ∧ Puts Solid u' v := by
  induction w generalizing u with
  | nil => exact ⟨u, rfl, h⟩
  | cons c w ih =>
    obtain ⟨hc, hw⟩ := List.forall_mem_cons.mp hw
    generalize hv : (c :: w) ++ v = v' at h
    cases h with
    | nil => cases hv
    | keep d h =>
      obtain ⟨rfl, rfl⟩ := List.cons_eq_cons.mp hv
      obtain ⟨u', rfl, hu'⟩ := ih h hw
      exact ⟨u', rfl, hu'⟩
    | put hold hend hnew h =>
      obtain ⟨d, ds, rfl, hblank, hdash⟩ := hnew.begins
      obtain ⟨rfl, -⟩ := List.cons_eq_cons.mp hv
      rcases hc with hc | hc
      · rw [hblank] at hc
        cases hc
      · exact absurd hc hdash

lemma Puts.exists_of_newline (h : Puts Solid u (v ++ '\n' :: w)) :
    ∃ u' w', u = u' ++ '\n' :: w' ∧ Puts Solid u' v ∧ Puts Solid w' w := by
  generalize hv : v ++ '\n' :: w = v' at h
  induction h generalizing v with
  | nil => simp at hv
  | @keep c u v' h ih =>
    rcases List.append_eq_cons_iff.mp hv with ⟨rfl, hcons⟩ | ⟨v, rfl, rfl⟩
    · obtain ⟨rfl, rfl⟩ := List.cons_eq_cons.mp hcons
      exact ⟨[], u, rfl, .nil, h⟩
    · obtain ⟨u', w', rfl, hu', hw'⟩ := ih rfl
      exact ⟨c :: u', w', rfl, .keep c hu', hw'⟩
  | @put old new u v' c hold hc hnew h ih =>
    -- The line feed stands behind the text that is put in, which has none.
    have hbehind : ∃ x, v = new ++ x ∧ x ++ '\n' :: w = v' := by
      rcases List.append_eq_append_iff.mp hv with ⟨x, rfl, hx⟩ | ⟨x, rfl, hx⟩
      · cases x with
        | nil => exact ⟨[], by simp, hx⟩
        | cons d x =>
          obtain ⟨rfl, -⟩ := List.cons_eq_cons.mp hx
          exact absurd (by simp) hnew.line
      · exact ⟨x, rfl, hx.symm⟩
    obtain ⟨x, rfl, hx⟩ := hbehind
    obtain ⟨u', w', rfl, hu', hw'⟩ := ih hx
    exact ⟨old ++ u', w', by simp, .put hold hc hnew hu', hw'⟩

lemma Puts.all_isBlank (h : Puts Solid u v) (hu : ∃ c ∈ u, isBlank c = false) :
    v.all isBlank = false := by
  induction h with
  | nil => simp at hu
  | keep c h ih =>
    obtain ⟨d, hd, hblank⟩ := hu
    rw [List.all_cons, Bool.and_eq_false_iff]
    rcases List.mem_cons.mp hd with rfl | hd
    · exact .inl hblank
    · exact .inr (ih ⟨d, hd, hblank⟩)
  | put hold hend hnew h ih =>
    obtain ⟨c, cs, rfl, hc, -⟩ := hnew.begins
    simp [hc]

end Edit

lemma Site.not_isAfterNewline {u : Text} {t : Script.Tree} (ht : t.Nested u) {s : Site}
    (h : s ∈ ofTree t) : ¬ Text.IsAfterNewline u s.span.stop := by
  obtain ⟨i, hi, rfl⟩ := exists_place h
  obtain ⟨hocc, hs⟩ := Place.mem_ofTree (List.getElem_mem hi)
  refine (hocc.nested ht).1.inLine ?_
  rcases Place.isSite_iff.mp hs with ⟨s, o, x, b, htree, -⟩ | ⟨s, c, ts, as, b, htree, -⟩
  · rw [htree]
    rfl
  · rw [htree]
    rfl

namespace Analysis

open Script (Tree)

lemma isValid_of_mem_valuedOf {table : BindingTable} {reportUnbound : Bool} {t : Tree}
    {x : Site × Literal} (h : x ∈ valuedOf table reportUnbound t) : x.2.isValid = true := by
  rw [valuedOf, Evaluation.valued, List.mem_filterMap] at h
  obtain ⟨⟨s, outcome⟩, hmem, hx⟩ := h
  obtain ⟨v, rfl, rfl⟩ := Option.map_eq_some_iff.mp hx
  exact Evaluation.isValid_of_mem_outcomes _ _ _ (by simpa using (List.of_mem_zip hmem).2)

variable {table : BindingTable} {options : AnalysisOptions} {source : Text} {e : Edit}

lemma not_isAfterNewline_of_mem_edits (h : e ∈ (analyze table options source).edits) :
    ¬ Text.IsAfterNewline source e.span.stop := by
  cases ht : Script.parse options.dialect options.allowReturn source with
  | none =>
    rw [edits_eq_nil_of_parse table ht] at h
    cases h
  | some t =>
    have hn := Script.nested_of_parse ht
    rw [analyze, ofScript, ht] at h
    split at h
    · obtain ⟨x, hx, rfl⟩ := exists_of_mem_edits hn h
      exact Site.not_isAfterNewline hn (mem_of_mem_valuedOf hx)
    · cases h

lemma solid_of_mem_edits (h : e ∈ (analyze table options source).edits) : Solid e.text.toList := by
  cases ht : Script.parse options.dialect options.allowReturn source with
  | none =>
    rw [edits_eq_nil_of_parse table ht] at h
    cases h
  | some t =>
    rw [analyze, ofScript, ht] at h
    split at h
    · obtain ⟨x, hx, rfl⟩ := exists_of_mem_edits (Script.nested_of_parse ht) h
      rw [Evaluation.editOf, String.toList_ofList]
      exact Evaluation.solid_replacement (isValid_of_mem_valuedOf hx) _
    · cases h

lemma puts_edited (table : BindingTable) (options : AnalysisOptions) (document : Text)
    (rs : List Region) (r : Region) :
    Edit.Puts Solid (r.text document) (edited table options document rs r) := by
  obtain ⟨horder, hin, -⟩ :=
    analyze_isIn (tableAt table options document rs r) (r.options options) (r.text document)
  exact Edit.puts_applyAll horder hin (fun e => not_isAfterNewline_of_mem_edits)
    fun e => solid_of_mem_edits

end Analysis

end MetaInline
