import Mathlib
import MetaInline.Proofs.Analysis.Coverage

/-! The look for the text of `import.meta` before a script is read. It hides sites only where no
`import.meta` of the script is written in one piece, and then all of them. -/

namespace MetaInline

namespace Text

lemma infix_of_slice? {u v : Text} {m n : ℕ} (h : slice? u m n = some v) : v <:+: u := by
  obtain ⟨-, w, ⟨x, rfl, -⟩, -⟩ := slice?_eq_some_iff.mp h
  exact ⟨x, w, by simp⟩

end Text

namespace Site

open Script.Tree
open Script (Tree)

lemma exists_importMeta_of_names? {t : Tree} {xs : List String} (h : names? t = some xs) :
    ∃ s, (Tree.importMeta s).Occurs t := by
  induction t using names?.induct generalizing xs with
  | case1 s => exact ⟨s, .refl⟩
  | case2 s o x b ih =>
    obtain ⟨ys, ho, -⟩ := Option.map_eq_some_iff.mp (names?.eq_2 .. ▸ h)
    obtain ⟨r, hr⟩ := ih ho
    exact ⟨r, .part (by simp [parts]) hr⟩
  | case3 t h1 h2 => rw [names?] at h <;> simp_all

lemma exists_importMeta_of_path? {t : Tree} (h : (path? t).isSome = true) :
    ∃ s, (Tree.importMeta s).Occurs t := by
  cases t with
  | member s o x b =>
    obtain ⟨xs, ho⟩ : ∃ xs, names? o = some xs := by
      simpa [path?, Option.isSome_iff_exists] using h
    obtain ⟨r, hr⟩ := exists_importMeta_of_names? ho
    exact ⟨r, .part (by simp [parts]) hr⟩
  | _ => cases h

lemma exists_importMeta {u : Text} {t : Tree} (ht : t.Nested u) {s : Site} (h : s ∈ ofTree t) :
    ∃ r, (Tree.importMeta r).Occurs t ∧ s.span.covers r = true := by
  obtain ⟨i, hi, rfl⟩ := exists_place h
  obtain ⟨hocc, hs⟩ := Place.mem_ofTree (List.getElem_mem hi)
  have hn := (hocc.nested ht).1
  obtain ⟨r, hr⟩ : ∃ r, (Tree.importMeta r).Occurs (Place.ofTree .value t)[i].tree := by
    rcases Place.isSite_iff.mp hs with ⟨s, o, x, b, htree, ho⟩ | ⟨s, c, ts, as, b, htree, hc⟩
    · obtain ⟨xs, ho⟩ := Option.isSome_iff_exists.mp ho
      obtain ⟨r, hr⟩ := exists_importMeta_of_names? ho
      exact ⟨r, htree ▸ .part (by simp [parts]) hr⟩
    · obtain ⟨r, hr⟩ := exists_importMeta_of_path? hc
      exact ⟨r, htree ▸ .part (by simp [parts]) hr⟩
  exact ⟨r, hr.trans hocc, (hr.nested hn).2⟩

end Site

namespace Analysis

open Script (Tree)

/-- A script is analysed as if it were read in any case, unless it has sites and the text
`import.meta` is nowhere in it. Then nothing is found, and the `import.meta` of each site is written
with a gap beside its dot. -/
theorem analyze_eq_ofScript (table : BindingTable) (options : AnalysisOptions) {source : Text}
    {t : Tree} (ht : Script.parse options.dialect options.allowReturn source = some t) :
    (marker <:+: source ∨ Site.ofTree t = [] →
        analyze table options source = ofScript table options source) ∧
      (¬ marker <:+: source → analyze table options source = empty ∧
        ∀ s ∈ Site.ofTree t, ∃ r gap gap', (Tree.importMeta r).Occurs t ∧ s.span.covers r = true ∧
          Text.slice? source r.start r.stop =
            some ("import".toList ++ (gap ++ '.' :: (gap' ++ "meta".toList))) ∧
          gap ++ gap' ≠ []) := by
  have hn := Script.nested_of_parse ht
  have hmentions : mentionsImportMeta source = true ↔ marker <:+: source := Text.mentions_iff
  constructor
  · rintro (h | h)
    · rw [analyze, if_pos (hmentions.mpr h)]
    · have hscript : ofScript table options source = empty := by
        simp only [ofScript, ht, h, ofSites_nil]
      rw [analyze, hscript, ite_self]
  · intro h
    refine ⟨by rw [analyze, if_neg (fun hm => h (hmentions.mp hm))], fun s hs => ?_⟩
    obtain ⟨r, hr, hcov⟩ := Site.exists_importMeta hn hs
    obtain ⟨gap, gap', hslice⟩ := (hr.nested hn).1.spelled
    refine ⟨r, gap, gap', hr, hcov, hslice, fun hgaps => h ?_⟩
    -- Without gaps the words are the text that is looked for.
    obtain ⟨rfl, rfl⟩ := List.append_eq_nil_iff.mp hgaps
    exact Text.infix_of_slice? hslice

theorem analyze_eq_empty_of_blanks :
    let table : BindingTable := ⟨[("a", .value (.literal .null))]⟩
    let options : AnalysisOptions := ⟨.standard, false, false⟩
    analyze table options "import . meta.a".toList = empty := by
  intro table options
  have hparse : (Script.parse options.dialect options.allowReturn "import . meta.a".toList).isSome =
      true := by decide +kernel
  obtain ⟨t, ht⟩ := Option.isSome_iff_exists.mp hparse
  exact ((analyze_eq_ofScript table options ht).2 (by decide +kernel)).1

theorem exists_analyze_ne_ofScript :
    let table : BindingTable := ⟨[("a", .value (.literal .null))]⟩
    let options : AnalysisOptions := ⟨.standard, false, false⟩
    let source := "import . meta.a".toList
    (Script.parse options.dialect options.allowReturn source).isSome = true ∧
      (analyze table options source).edits = [] ∧
      (ofScript table options source).edits = [⟨⟨0, 15⟩, "null"⟩] := by
  refine ⟨?_, ?_, ?_⟩ <;> decide +kernel

end Analysis
end MetaInline
