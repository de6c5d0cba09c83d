import Mathlib
import MetaInline.Proofs.Analysis.Invocation
import MetaInline.Proofs.Document.Sequence
import MetaInline.Proofs.Edit.Application
import MetaInline.Proofs.Script.Program

namespace MetaInline

open Script (Tree)
open Text (size)

namespace Analysis

variable {u : Text} {t : Tree} {table : BindingTable} {reportUnbound : Bool}

lemma isIn_refusal (ht : t.Nested u) {k : ℕ} {s : Site} (hk : (Site.ofTree t)[k]? = some s)
    {as : List Argument} (hf : s.form = .call as) {x : Argument} (hx : x ∈ as)
    (hv : ∀ v, x ≠ .literal v) :
    (Evaluation.refusal (Site.ofTree t).toArray x).2.IsIn u := by
  obtain ⟨callee, types, args, optional, hocc, -, hargs⟩ := Site.exists_call ht hk hf
  obtain ⟨j, hj, rfl⟩ := List.getElem_of_mem hx
  have hj' : j < args.length := hargs.length_eq ▸ hj
  have hstands : Site.Stands t k as[j] args[j] := (List.forall₂_iff_get.mp hargs).2 j hj hj'
  have hslot : Evaluation.slot #[] as[j] = none := by
    cases hx : as[j] with
    | literal v => exact absurd hx (hv v)
    | site i => simp [Evaluation.slot]
    | other kind span => rfl
  rw [Site.refusal_eq hstands hslot]
  split
  · next hs =>
    obtain ⟨n, -, hsite⟩ := hstands
    exact (Site.isIn_of_mem ht (List.mem_of_getElem? (hsite hs).2)).1
  · exact ((hocc.nested ht).1.of_mem (by simp [Script.Tree.parts])).isIn

lemma isIn_of_mem_diagnostics (ht : t.Nested u) {d : Diagnostic}
    (h : d ∈ (ofSites table reportUnbound (Site.ofTree t)).diagnostics) : d.span.IsIn u := by
  obtain ⟨x, hx, rfl⟩ := List.mem_map.mp h
  have hmem := List.mem_reverse.mp (List.mem_filter.mp hx).1
  obtain ⟨s, hs, hspan⟩ := Evaluation.span_of_mem_problems _ _ _ hmem
  rcases hspan with hspan | ⟨as, hf, a, ha, hv, hspan⟩
  · exact hspan ▸ (Site.isIn_of_mem ht hs).1
  · obtain ⟨k, hk⟩ := List.mem_iff_getElem?.mp hs
    exact hspan ▸ isIn_refusal ht hk hf ha hv

lemma analyze_isIn (table : BindingTable) (options : AnalysisOptions) (source : Text) :
    Edit.InOrder (analyze table options source).edits ∧
      (∀ e ∈ (analyze table options source).edits, e.span.IsIn source) ∧
      ∀ d ∈ (analyze table options source).diagnostics, d.span.IsIn source := by
  rw [analyze]
  split
  · rw [ofScript]
    cases hp : Script.parse options.dialect options.allowReturn source with
    | none =>
      refine ⟨⟨by simp [unreadable], by simp [unreadable]⟩, by simp [unreadable], ?_⟩
      intro d hd
      obtain rfl := List.mem_singleton.mp hd
      exact ⟨Nat.zero_le _, Text.isBoundary_zero source, Text.isBoundary_size source⟩
    | some t =>
      have ht := Script.nested_of_parse hp
      exact ⟨⟨fun e he => (isIn_of_mem_edits ht he).2, pairwise_edits ht⟩,
        fun e he => (isIn_of_mem_edits ht he).1, fun d hd => isIn_of_mem_diagnostics ht hd⟩
  · simp [empty, Edit.InOrder]

lemma edits_eq_nil_of_parse (table : BindingTable) {options : AnalysisOptions} {source : Text}
    (h : Script.parse options.dialect options.allowReturn source = none) :
    (analyze table options source).edits = [] := by
  rw [analyze, ofScript, h]
  split <;> rfl

lemma invocations_eq_nil_of_parse (table : BindingTable) {options : AnalysisOptions} {source : Text}
    (h : Script.parse options.dialect options.allowReturn source = none) :
    (analyze table options source).invocations = [] := by
  rw [analyze, ofScript, h]
  split <;> rfl

end Analysis

def spliced (document : Text) (f : Region → Text) : ℕ → List Region → Text
  | pos, [] => (Text.slice? document pos (size document)).getD []
  | pos, r :: rs =>
    (Text.slice? document pos r.span.start).getD [] ++ (f r ++ spliced document f r.span.stop rs)

lemma spliced_congr {document : Text} {f g : Region → Text} {pos : ℕ} {rs : List Region}
    (h : ∀ r ∈ rs, f r = g r) : spliced document f pos rs = spliced document g pos rs := by
  induction rs generalizing pos with
  | nil => rfl
  | cons r rs ih => rw [spliced, spliced, h r (by simp), ih fun q hq => h q (by simp [hq])]

namespace Region

def ordered (rs : List Region) : List Region :=
  rs.mergeSort fun a b =>
    a.span.start < b.span.start || (a.span.start == b.span.start && a.span.stop ≤ b.span.stop)

lemma ordered_perm (rs : List Region) : (ordered rs).Perm rs := List.mergeSort_perm ..

lemma pairwise_ordered {rs : List Region} (hle : ∀ r ∈ rs, r.span.start ≤ r.span.stop)
    (h : rs.Pairwise fun a b => a.span.Apart b.span) :
    (ordered rs).Pairwise fun a b => a.span.stop ≤ b.span.start := by
  have hsorted : (ordered rs).Pairwise fun a b => a.span.start < b.span.start ∨
      (a.span.start = b.span.start ∧ a.span.stop ≤ b.span.stop) := by
    refine (List.pairwise_mergeSort (fun a b c hab hbc => ?_) (fun a b => ?_) rs).imp fun {a b} h => ?_
    · simp only [Bool.or_eq_true, Bool.and_eq_true, decide_eq_true_eq, beq_iff_eq] at *
      omega
    · simp only [Bool.or_eq_true, Bool.and_eq_true, decide_eq_true_eq, beq_iff_eq]
      omega
    · simpa using h
  have hapart : (ordered rs).Pairwise fun a b => a.span.Apart b.span :=
    h.perm (ordered_perm rs).symm fun h => h.symm
  refine (hsorted.and hapart).imp_of_mem fun {a b} ha hb hab => ?_
  have hal := hle a ((ordered_perm rs).subset ha)
  have hbl := hle b ((ordered_perm rs).subset hb)
  obtain ⟨hab, h | h⟩ := hab <;> omega

def isNonempty (r : Region) : Bool :=
  r.span.start < r.span.stop

lemma isNonempty_iff {r : Region} : r.isNonempty = true ↔ r.span.start < r.span.stop :=
  decide_eq_true_iff

def standing (rs : List Region) : List Region :=
  ordered (rs.filter isNonempty)

lemma exists_from {document : Text} {r : Region} (h : r.span.IsIn document) :
    ∃ rest, Text.From document r.span.start (r.text document ++ rest) ∧
      r.span.start + size (r.text document) = r.span.stop := by
  obtain ⟨v, rest, hv, hsize⟩ := h.exists_from
  have hslice : Text.slice? document r.span.start r.span.stop = some v :=
    Text.slice?_eq_some_iff.mpr ⟨h.le, rest, hv, hsize⟩
  have htext : r.text document = v := by rw [text, hslice, Option.getD_some]
  exact ⟨rest, htext ▸ hv, htext ▸ hsize⟩

lemma text_eq_nil {document : Text} {r : Region} (h : r.span.IsIn document)
    (he : r.isNonempty = false) : r.text document = [] := by
  obtain ⟨-, -, hsize⟩ := exists_from h
  have hle : ¬ r.span.start < r.span.stop := fun hlt => by simp [isNonempty_iff.mpr hlt] at he
  have hlength := Text.length_le_size (r.text document)
  exact List.eq_nil_of_length_eq_zero (by omega)

lemma isIn_shift {document : Text} {r : Region} (h : r.span.IsIn document) {s : Span}
    (hs : s.IsIn (r.text document)) : (s.shift r.span.start).IsIn document ∧
      r.span.covers (s.shift r.span.start) = true := by
  obtain ⟨rest, hfrom, hsize⟩ := exists_from h
  have hb {n : ℕ} (hn : Text.IsBoundary (r.text document) n) :
      Text.IsBoundary document (n + r.span.start) := by
    rw [Nat.add_comm, hfrom.isBoundary_iff]
    exact hn.append rest
  have hle := hs.le
  have hstop := hs.stop.le_size
  refine ⟨⟨?_, hb hs.start, hb hs.stop⟩, ?_⟩
  · simp only [Span.shift_start, Span.shift_stop]
    omega
  · simp only [Span.covers_iff, Span.shift_start, Span.shift_stop]
    omega

lemma slice?_shift {document : Text} {r : Region} (h : r.span.IsIn document) {s : Span}
    (hs : s.IsIn (r.text document)) : ∃ v, Text.slice? (r.text document) s.start s.stop = some v ∧
      Text.slice? document (s.shift r.span.start).start (s.shift r.span.start).stop = some v := by
  obtain ⟨rest, hfrom, -⟩ := exists_from h
  obtain ⟨v, w, hv, hsize⟩ := hs.exists_from
  have hdocument := hfrom.trans (hv.append rest)
  rw [List.append_assoc, Nat.add_comm] at hdocument
  refine ⟨v, Text.slice?_eq_some_iff.mpr ⟨hs.le, w, hv, hsize⟩, Text.slice?_eq_some_iff.mpr ?_⟩
  refine ⟨(isIn_shift h hs).1.le, w ++ rest, hdocument, ?_⟩
  simp only [Span.shift_start, Span.shift_stop]
  omega

end Region

lemma splice_flatMap {document rest : Text} {pos : ℕ} (hfrom : Text.From document pos rest)
    {rs : List Region} (hin : ∀ r ∈ rs, r.span.IsIn document) (hpos : ∀ r ∈ rs, pos ≤ r.span.start)
    (h : rs.Pairwise fun a b => a.span.stop ≤ b.span.start) (edits : Region → List Edit)
    (hfits : ∀ r ∈ rs, Edit.Fits 0 (r.text document) (edits r)) :
    Edit.Fits pos rest (rs.flatMap fun r => (edits r).map (·.shift r.span.start)) ∧
      Editor.splice pos rest (rs.flatMap fun r => (edits r).map (·.shift r.span.start)) =
        spliced document (fun r => Editor.splice 0 (r.text document) (edits r)) pos rs := by
  induction rs generalizing pos rest with
  | nil =>
    have hslice : Text.slice? document pos (size document) = some rest :=
      Text.slice?_eq_some_iff.mpr ⟨hfrom.isBoundary.le_size, [], by simpa using hfrom, hfrom.add_size⟩
    exact ⟨.nil, by rw [spliced, hslice]; rfl⟩
  | cons r rs ih =>
    -- The text is cut into the gap before the region, the text of the region, and what follows.
    obtain ⟨hlater, h⟩ := List.pairwise_cons.mp h
    have hr := hin r (by simp)
    have hle := hpos r (by simp)
    obtain ⟨gap, v, rfl, hgap, hv⟩ := hfrom.exists_append hle hr.start
    obtain ⟨after, hafter, hsize⟩ := Region.exists_from hr
    obtain rfl := hv.unique hafter
    have hslice : Text.slice? document pos r.span.start = some gap :=
      Text.slice?_eq_some_iff.mpr ⟨hle, _, hfrom, hgap⟩
    obtain ⟨hrest, hsplice⟩ := ih (hsize ▸ hv.drop) (fun q hq => hin q (by simp [hq])) hlater h
      fun q hq => hfits q (by simp [hq])
    obtain ⟨hregion, hmade⟩ := (hfits r (by simp)).shift r.span.start
    rw [Nat.zero_add] at hregion hmade
    obtain ⟨hboth, hmadeBoth⟩ := hregion.append hrest hsize
    obtain ⟨hall, hmadeAll⟩ := hboth.prepend hgap
    refine ⟨hall, ?_⟩
    rw [List.flatMap_cons, hmadeAll, hmadeBoth, hmade, hsplice, spliced, hslice]
    rfl

lemma spliced_text {document rest : Text} {pos : ℕ} (hfrom : Text.From document pos rest)
    {rs : List Region} (hin : ∀ r ∈ rs, r.span.IsIn document) (hpos : ∀ r ∈ rs, pos ≤ r.span.start)
    (h : rs.Pairwise fun a b => a.span.stop ≤ b.span.start) :
    spliced document (·.text document) pos rs = rest := by
  obtain ⟨-, hsplice⟩ := splice_flatMap hfrom hin hpos h (fun _ => []) (fun _ _ => .nil)
  have hnone : (rs.flatMap fun r => ([] : List Edit).map (·.shift r.span.start)) = [] :=
    List.flatMap_eq_nil_iff.mpr fun _ _ => rfl
  rw [hnone] at hsplice
  exact hsplice.symm

namespace Analysis

lemma ofScan_eq {document : Text} {scan : Scan} (table : BindingTable) (options : AnalysisOptions)
    (h : scan.regions.Pairwise fun a b => a = b → a.text document = []) :
    (ofScan document scan table options).edits = scan.regions.flatMap
        (fun r => (inTurn table options document scan.regions r).edits.map (·.shift r.span.start)) ∧
      (ofScan document scan table options).diagnostics = scan.diagnostics ++ scan.regions.flatMap
        (fun r => (inTurn table options document scan.regions r).diagnostics.map
          (·.shift r.span.start)) := by
  obtain ⟨hedits, hdiagnostics⟩ := ofRegions_eq h
  exact ⟨hedits, congrArg (scan.diagnostics ++ ·) hdiagnostics⟩

lemma inOrder_flatMap {document : Text} {rs : List Region} (hin : ∀ r ∈ rs, r.span.IsIn document)
    (h : rs.Pairwise fun a b => a.span.stop ≤ b.span.start) (edits : Region → List Edit)
    (horder : ∀ r ∈ rs, Edit.InOrder (edits r))
    (hedits : ∀ r ∈ rs, ∀ e ∈ edits r, e.span.IsIn (r.text document)) :
    Edit.InOrder (rs.flatMap fun r => (edits r).map (·.shift r.span.start)) := by
  refine ⟨fun e he => ?_, List.pairwise_flatMap.mpr ⟨fun r hr => ?_, ?_⟩⟩
  · obtain ⟨r, hr, he⟩ := List.mem_flatMap.mp he
    obtain ⟨e, he', rfl⟩ := List.mem_map.mp he
    exact Nat.add_lt_add_right ((horder r hr).1 e he') _
  · exact List.pairwise_map.mpr ((horder r hr).2.imp fun h => Nat.add_le_add_right h _)
  · refine h.imp_of_mem fun {r q} hr hq hrq a ha b hb => ?_
    obtain ⟨a, ha', rfl⟩ := List.mem_map.mp ha
    obtain ⟨b, hb', rfl⟩ := List.mem_map.mp hb
    have hcov := (Region.isIn_shift (hin r hr) (hedits r hr a ha')).2
    have hcov' := (Region.isIn_shift (hin q hq) (hedits q hq b hb')).2
    simp only [Span.covers_iff] at hcov hcov'
    exact hcov.2.trans (hrq.trans hcov'.1)

section Regions

variable {document : Text} {scan : Scan} (table : BindingTable) (options : AnalysisOptions)

def edited (document : Text) (rs : List Region) (r : Region) : Text :=
  Edit.applyAll (r.text document) (inTurn table options document rs r).edits

lemma text_eq_nil_of_apart {rs : List Region} (hin : ∀ r ∈ rs, r.span.IsIn document)
    (h : rs.Pairwise fun a b => a.span.Apart b.span) :
    rs.Pairwise fun a b => a = b → a.text document = [] := by
  refine h.imp_of_mem fun {a b} ha _ hab heq => ?_
  subst heq
  have hempty : a.isNonempty = false := by
    by_contra hne
    have hlt := Region.isNonempty_iff.mp (Bool.not_eq_false _ ▸ hne)
    rcases hab with h | h <;> omega
  exact Region.text_eq_nil (hin a ha) hempty

lemma applyAll_ofScan_eq (hin : ∀ r ∈ scan.regions, r.span.IsIn document)
    (hapart : scan.regions.Pairwise fun a b => a.span.Apart b.span) :
    Edit.applyAll document (ofScan document scan table options).edits =
      spliced document (edited table options document scan.regions) 0
        (Region.ordered scan.regions) := by
  set E := fun r : Region => (inTurn table options document scan.regions r).edits
  have hspec := fun r : Region => analyze_isIn (tableAt table options document scan.regions r)
    (r.options options) (r.text document)
  have hperm := Region.ordered_perm scan.regions
  have hin' : ∀ r ∈ Region.ordered scan.regions, r.span.IsIn document :=
    fun r hr => hin r (hperm.subset hr)
  have hpair := Region.pairwise_ordered (fun r hr => (hin r hr).le) hapart
  have horder := inOrder_flatMap hin' hpair E (fun r _ => (hspec r).1) fun r _ => (hspec r).2.1
  have hfits : ∀ r ∈ Region.ordered scan.regions, Edit.Fits 0 (r.text document) (E r) :=
    fun r _ => .of_pairwise (Text.From.self _) (fun e _ => Nat.zero_le _) (hspec r).2.1
      (hspec r).1.2
  have hinAll : ∀ e ∈ (Region.ordered scan.regions).flatMap
      (fun r => (E r).map (·.shift r.span.start)), e.span.IsIn document := by
    intro e he
    obtain ⟨r, hr, he⟩ := List.mem_flatMap.mp he
    obtain ⟨e, he', rfl⟩ := List.mem_map.mp he
    exact (Region.isIn_shift (hin' r hr) ((hspec r).2.1 e he')).1
  -- The edits as they are given are those of the regions in order, up to a permutation.
  rw [(ofScan_eq table options (text_eq_nil_of_apart hin hapart)).1,
    Edit.applyAll_eq_splice (hperm.symm.flatMap_right _) horder hinAll,
    (splice_flatMap (Text.From.self document) hin' (fun r _ => Nat.zero_le _) hpair E hfits).2]
  exact spliced_congr fun r _ => (Edit.applyAll_eq_splice (.refl _) (hspec r).1 (hspec r).2.1).symm

/-- Regions that share no byte are edited each by itself, in whatever order they are given: the
document edited at once is the document with each region edited. Diagnostics point at the same text
in the document as in their region, and a region that cannot be read stays as it is. Each region is
analysed with the table that the calls made for the regions before have left. -/
theorem applyAll_ofScan (hin : ∀ r ∈ scan.regions, r.span.IsIn document)
    (hdisjoint : scan.regions.Pairwise fun a b => a.span.Disjoint b.span) :
    let rs := scan.regions
    Edit.applyAll document (ofScan document scan table options).edits =
        spliced document (edited table options document rs) 0 (Region.standing rs) ∧
      spliced document (·.text document) 0 (Region.standing rs) = document ∧
      (∀ r ∈ rs, r ∉ Region.standing rs →
        r.text document = [] ∧ edited table options document rs r = []) ∧
      (ofScan document scan table options).diagnostics = scan.diagnostics ++ rs.flatMap
        (fun r => (inTurn table options document rs r).diagnostics.map (·.shift r.span.start)) ∧
      (∀ r ∈ rs, ∀ d ∈ (inTurn table options document rs r).diagnostics,
        ∃ v, Text.slice? (r.text document) d.span.start d.span.stop = some v ∧
          Text.slice? document (d.shift r.span.start).span.start (d.shift r.span.start).span.stop =
            some v) ∧
      (∀ r ∈ rs, Script.parse r.dialect r.allowReturn (r.text document) = none →
        edited table options document rs r = r.text document ∧
          ∀ q, q ≠ r → inTurn table options document (rs.filter (· ≠ r)) q =
            inTurn table options document rs q) ∧
      (table.IsStateless → ∀ r, inTurn table options document rs r =
        analyze table (r.options options) (r.text document)) := by
  intro rs
  have hempty : ∀ r ∈ rs, r.isNonempty = false → r.text document = [] :=
    fun r hr => Region.text_eq_nil (hin r hr)
  have hsub : ∀ r ∈ rs.filter Region.isNonempty, r ∈ rs := fun r hr => (List.mem_filter.mp hr).1
  have hapart : (rs.filter Region.isNonempty).Pairwise fun a b => a.span.Apart b.span := by
    refine (hdisjoint.sublist List.filter_sublist).imp_of_mem fun {a b} ha hb hab => ?_
    exact hab.apart (Region.isNonempty_iff.mp (List.mem_filter.mp ha).2)
      (Region.isNonempty_iff.mp (List.mem_filter.mp hb).2)
  have hdistinct : rs.Pairwise fun a b => a = b → a.text document = [] := by
    refine hdisjoint.imp_of_mem fun {a b} ha _ hab heq => ?_
    subst heq
    by_cases hne : a.isNonempty = true
    · have hlt := Region.isNonempty_iff.mp hne
      rcases hab.apart hlt hlt with h | h <;> omega
    · exact hempty a ha (by simpa using hne)
  have hperm := Region.ordered_perm (rs.filter Region.isNonempty)
  have hstanding : ∀ r ∈ Region.standing rs, r ∈ rs.filter Region.isNonempty :=
    fun r hr => hperm.subset hr
  refine ⟨?_, ?_, fun r hr hout => ?_, (ofScan_eq table options hdistinct).2, fun r hr d hd => ?_,
    fun r hr hp => ⟨?_, fun q hq => ?_⟩, fun hstateless r => ?_⟩
  · -- Regions that hold nothing add nothing, and the others do not notice them.
    have hscan : ofScan document scan table options =
        ofScan document { scan with regions := rs.filter Region.isNonempty } table options := by
      rw [ofScan, ofScan, ofRegions_filter hempty]
    have hedited : ∀ r ∈ Region.standing rs,
        edited table options document (rs.filter Region.isNonempty) r =
          edited table options document rs r := by
      intro r hr
      rw [edited, edited, inTurn_filter table (fun q hq hnone t => ?_)
        (List.mem_filter.mp (hstanding r hr)).2]
      rw [analyze_eq_empty t _ (hempty q hq hnone)]
      rfl
    rw [hscan, applyAll_ofScan_eq table options (fun r hr => hin r (hsub r hr)) hapart]
    exact spliced_congr hedited
  · exact spliced_text (Text.From.self document) (fun r hr => hin r (hsub r (hstanding r hr)))
      (fun r _ => Nat.zero_le _) (Region.pairwise_ordered (fun r hr => (hin r (hsub r hr)).le) hapart)
  · have hnone : r.isNonempty = false := by
      by_contra hne
      exact hout (hperm.symm.subset (List.mem_filter.mpr ⟨hr, by simpa using hne⟩))
    have htext := hempty r hr hnone
    refine ⟨htext, ?_⟩
    rw [edited, inTurn, analyze_eq_empty _ _ htext, htext]
    exact Edit.applyAll_nil []
  · exact Region.slice?_shift (hin r hr) ((analyze_isIn _ _ _).2.2 d hd)
  · rw [edited, inTurn, edits_eq_nil_of_parse _ hp, Edit.applyAll_nil]
  · refine inTurn_filter table (fun x _ hx t => ?_) (decide_eq_true hq)
    obtain rfl : x = r := by simpa using hx
    exact invocations_eq_nil_of_parse t hp
  · rw [inTurn, tableAt, BindingTable.after_of_isStateless hstateless]

end Regions

theorem applyAll_ofScan_unreadable :
    let table : BindingTable := ⟨[("a", .value (.literal .null))]⟩
    let document := "import.meta.a;;import.meta.(".toList
    let options : AnalysisOptions := ⟨.standard, true, false⟩
    let last : Region := ⟨⟨15, 28⟩, .standard, false⟩
    let first : Region := ⟨⟨0, 13⟩, .standard, false⟩
    let edited := edited table options document [last, first]
    Edit.applyAll document (ofScan document ⟨[last, first], []⟩ table options).edits =
        spliced document edited 0 (Region.standing [last, first]) ∧
      edited last = last.text document := by
  intro table document options last first
  have hin : ∀ r ∈ [last, first], r.span.IsIn document := by
    intro r hr
    rcases List.mem_pair.mp hr with rfl | rfl
    · exact ⟨by decide, by decide +kernel, by decide +kernel⟩
    · exact ⟨by decide, by decide +kernel, by decide +kernel⟩
  have hdisjoint : [last, first].Pairwise fun a b => a.span.Disjoint b.span :=
    List.pairwise_pair.mpr fun n h => by simp only [last, first] at h; omega
  have hparse : Script.parse last.dialect last.allowReturn (last.text document) = none :=
    Option.isNone_iff_eq_none.mp (by decide +kernel)
  have h := @applyAll_ofScan document ⟨[last, first], []⟩ table options hin hdisjoint
  exact ⟨h.1, (h.2.2.2.2.2.1 last (by simp) hparse).1⟩

end Analysis
end MetaInline
