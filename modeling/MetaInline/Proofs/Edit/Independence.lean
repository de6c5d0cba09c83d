import Mathlib
import MetaInline.Proofs.Edit.Overwriting

namespace MetaInline

open Text (size)
open Editor (written? removed added)

namespace Edit

lemma not_conflicts_comm {a b : Edit} (h : ¬ a.conflicts b = true) : ¬ b.conflicts a = true := by
  rw [conflicts_iff] at *
  rwa [and_comm, eq_comm]

lemma eq_of_pairwise_before {es fs : List Edit} (hes : es.Pairwise Before) (hfs : fs.Pairwise Before)
    (h : ∀ e, e ∈ es ↔ e ∈ fs) : es = fs := by
  have hnodup {gs : List Edit} (hgs : gs.Pairwise Before) : gs.Nodup :=
    hgs.imp fun hab heq => hab.span_ne (congrArg span heq)
  refine ((List.perm_ext_iff_of_nodup (hnodup hes) (hnodup hfs)).mpr h).eq_of_pairwise ?_ hes hfs
  exact fun a b _ _ hab hba => absurd hba hab.asymm

lemma ordered_perm (es : List Edit) : (ordered es).Perm es :=
  List.mergeSort_perm es _

lemma ordered_eq_self {es : List Edit} (h : es.Pairwise fun a b => a.span.start ≤ b.span.start) :
    ordered es = es :=
  List.mergeSort_of_pairwise (h.imp fun hab => by simpa using hab)

lemma exists_made (source : Text) (es : List Edit) : ∃ made : List Edit,
    made.Pairwise (fun a b => a.Before b ∧ a.span.stop ≤ b.span.start) ∧
      (∀ e, e ∈ made ↔ Editor.Stays source (ordered es) e) ∧
      written? source 0 made = some (applyAll source es) ∧ removed made ≤ size source ∧
      size (applyAll source es) = size source - removed made + added made := by
  set editor := (ordered es).foldl Editor.overwrite (.ofText source) with heditor
  have hs : editor.Sound := Editor.sound_foldl (Editor.sound_ofText source) _
  have hsource : editor.source = source := Editor.source_foldl ..
  have hfits := hs.fits
  rw [hsource] at hfits
  have htext : applyAll source es = Editor.splice 0 source editor.edits := by
    rw [applyAll, ← heditor, Editor.finish, hsource]
  rw [htext]
  exact ⟨editor.edits, hs.sorted, Editor.mem_foldl_iff source _,
    Editor.written?_eq_splice (.self source) hfits, Editor.size_splice hfits⟩

lemma stays_iff_of_pairwise {source : Text} {es : List Edit} (hin : ∀ e ∈ es, e.span.IsIn source)
    (hfree : es.Pairwise fun a b => ¬ a.conflicts b = true) (e : Edit) :
    Editor.Stays source es e ↔ e ∈ es := by
  constructor
  · rintro ⟨earlier, later, rfl, -, -⟩
    simp
  · intro he
    obtain ⟨earlier, later, rfl⟩ := List.append_of_mem he
    refine ⟨earlier, later, rfl, hin e he, fun a ha _ => ?_⟩
    exact (List.pairwise_cons.mp (List.pairwise_append.mp hfree).2.1).1 a ha

/-- Edits of different ranges none of which overlaps another one are all made, and the text is the same
in whatever order they are given. -/
theorem applyAll_eq_of_perm {source : Text} {es : List Edit} (hin : ∀ e ∈ es, e.span.IsIn source)
    (hfree : es.Pairwise fun a b => a.span ≠ b.span ∧
      ¬ (a.span.start < b.span.stop ∧ b.span.start < a.span.stop)) :
    (∀ fs, es.Perm fs → applyAll source fs = applyAll source es) ∧
      ∃ placed, placed.Perm es ∧
        placed.Pairwise (fun a b => a.Before b ∧ a.span.stop ≤ b.span.start) ∧
        written? source 0 placed = some (applyAll source es) := by
  have hconflict : es.Pairwise fun a b => ¬ a.conflicts b = true :=
    hfree.imp fun hab => by rw [conflicts_iff]; tauto
  -- Whatever the order, the edits made are those of the list.
  have hmade {fs : List Edit} (hfs : es.Perm fs) (e : Edit) :
      Editor.Stays source (ordered fs) e ↔ e ∈ es := by
    have hperm : es.Perm (ordered fs) := hfs.trans (ordered_perm fs).symm
    rw [stays_iff_of_pairwise (fun e he => hin e (hperm.mem_iff.mpr he))
      (hperm.pairwise hconflict not_conflicts_comm), hperm.mem_iff]
  obtain ⟨placed, hplaced, hmem, hwritten, -⟩ := exists_made source es
  have hbefore := hplaced.imp And.left
  refine ⟨fun fs hfs => ?_, placed, ?_, hplaced, hwritten⟩
  · obtain ⟨placed', hplaced', hmem', hwritten', -⟩ := exists_made source fs
    have heq : placed = placed' := by
      refine eq_of_pairwise_before hbefore (hplaced'.imp And.left) fun e => ?_
      rw [hmem, hmem', hmade (.refl es), hmade hfs]
    rw [heq, hwritten'] at hwritten
    exact Option.some.inj hwritten
  · have hnodup : placed.Nodup := hbefore.imp fun hab heq => hab.span_ne (congrArg span heq)
    have hnodup' : es.Nodup := hfree.imp fun hab heq => hab.1 (congrArg span heq)
    refine (List.perm_ext_iff_of_nodup hnodup hnodup').mpr fun e => ?_
    rw [hmem, hmade (.refl es)]

theorem applyAll_eq_of_perm_touching :
    let es : List Edit := [⟨⟨1, 3⟩, "-"⟩, ⟨⟨1, 1⟩, "+"⟩, ⟨⟨3, 3⟩, "*"⟩]
    let source := "abcd".toList
    (∀ e ∈ es, e.span.IsIn source) ∧ es.Pairwise (fun a b => a.span ≠ b.span ∧
      ¬ (a.span.start < b.span.stop ∧ b.span.start < a.span.stop)) ∧
      applyAll source es.reverse = applyAll source es ∧ applyAll source es = "a+-*d".toList := by
  intro es source
  have hin : ∀ e ∈ es, e.span.IsIn source := by
    refine fun e he => isValid_iff.mp ?_
    revert e
    decide +kernel
  have hfree : es.Pairwise (fun a b => a.span ≠ b.span ∧
      ¬ (a.span.start < b.span.stop ∧ b.span.start < a.span.stop)) := by decide
  refine ⟨hin, hfree, (applyAll_eq_of_perm hin hfree).1 es.reverse es.reverse_perm.symm, ?_⟩
  rw [applyAll, ordered_eq_self (by decide)]
  decide +kernel

def lastOfEach : List Edit → List Edit
  | [] => []
  | e :: es => if ∃ a ∈ es, a.span = e.span then lastOfEach es else e :: lastOfEach es

lemma lastOfEach_sublist (es : List Edit) : (lastOfEach es).Sublist es := by
  induction es with
  | nil => exact .slnil
  | cons e es ih =>
    rw [lastOfEach]
    split
    · exact ih.cons e
    · exact ih.cons_cons e

lemma span_ne_lastOfEach (es : List Edit) : (lastOfEach es).Pairwise fun a b => a.span ≠ b.span := by
  induction es with
  | nil => exact .nil
  | cons e es ih =>
    rw [lastOfEach]
    split
    · exact ih
    · next hlast =>
      refine List.pairwise_cons.mpr ⟨fun a ha heq => hlast ⟨a, ?_, heq.symm⟩, ih⟩
      exact (lastOfEach_sublist es).subset ha

lemma mem_lastOfEach_iff {es : List Edit} {e : Edit} : e ∈ lastOfEach es ↔
    ∃ earlier later, es = earlier ++ e :: later ∧ ∀ a ∈ later, a.span ≠ e.span := by
  induction es with
  | nil => simp [lastOfEach]
  | cons b es ih =>
    have hcons : (∃ earlier later, b :: es = earlier ++ e :: later ∧ ∀ a ∈ later, a.span ≠ e.span) ↔
        (b = e ∧ ∀ a ∈ es, a.span ≠ e.span) ∨ e ∈ lastOfEach es := by
      rw [ih]
      constructor
      · rintro ⟨earlier, later, hsplit, hlater⟩
        rcases List.cons_eq_append_iff.mp hsplit with ⟨rfl, hcons⟩ | ⟨earlier, rfl, hsplit⟩
        · obtain ⟨rfl, rfl⟩ := List.cons_eq_cons.mp hcons
          exact Or.inl ⟨rfl, hlater⟩
        · obtain rfl := (List.cons_eq_cons.mp hsplit).2
          exact Or.inr ⟨earlier, later, rfl, hlater⟩
      · rintro (⟨rfl, hlater⟩ | ⟨earlier, later, rfl, hlater⟩)
        · exact ⟨[], es, rfl, hlater⟩
        · exact ⟨b :: earlier, later, rfl, hlater⟩
    rw [hcons, lastOfEach]
    split
    · next hlast =>
      obtain ⟨a, ha, heq⟩ := hlast
      refine ⟨Or.inr, ?_⟩
      rintro (⟨rfl, hlater⟩ | h)
      · exact absurd heq (hlater a ha)
      · exact h
    · next hlast =>
      rw [List.mem_cons, eq_comm]
      refine or_congr_left ⟨?_, And.left⟩
      rintro rfl
      exact ⟨rfl, fun a ha heq => hlast ⟨a, ha, heq⟩⟩

lemma lastOfEach_eq_self_iff {es : List Edit} : lastOfEach es = es ↔ (es.map (·.span)).Nodup := by
  constructor
  · intro h
    rw [← h]
    exact List.pairwise_map.mpr (span_ne_lastOfEach es)
  · intro h
    induction es with
    | nil => rfl
    | cons e es ih =>
      rw [List.map_cons, List.nodup_cons] at h
      rw [lastOfEach, if_neg fun ⟨a, ha, heq⟩ => h.1 (List.mem_map.mpr ⟨a, ha, heq⟩), ih h.2]

def IsApart (es : List Edit) : Prop :=
  es.IsChain fun a b => a.span.stop ≤ b.span.start

instance (es : List Edit) : Decidable (IsApart es) :=
  inferInstanceAs (Decidable (List.IsChain _ _))

lemma IsApart.pairwise {es : List Edit} (h : IsApart es) (hle : ∀ e ∈ es, e.span.start ≤ e.span.stop) :
    es.Pairwise fun a b => a.span.stop ≤ b.span.start := by
  induction es with
  | nil => exact .nil
  | cons e es ih =>
    have hes := ih h.tail fun a ha => hle a (by simp [ha])
    refine List.pairwise_cons.mpr ⟨fun a ha => ?_, hes⟩
    cases es with
    | nil => cases ha
    | cons b es =>
      have heb : e.span.stop ≤ b.span.start := (List.isChain_cons_cons.mp h).1
      rcases List.mem_cons.mp ha with rfl | ha
      · exact heb
      · exact heb.trans ((hle b (by simp)).trans ((List.pairwise_cons.mp hes).1 a ha))

lemma removed_lastOfEach {es : List Edit} (hle : ∀ e ∈ es, e.span.start ≤ e.span.stop)
    (h : es.Pairwise fun a b => a.span.stop ≤ b.span.start) : removed (lastOfEach es) = removed es := by
  induction es with
  | nil => rfl
  | cons e es ih =>
    obtain ⟨hlater, hes⟩ := List.pairwise_cons.mp h
    have hrest := ih (fun a ha => hle a (by simp [ha])) hes
    simp only [removed, List.map_cons, List.sum_cons] at *
    rw [lastOfEach]
    split
    · next hlast =>
      -- A range that stands twice is empty.
      obtain ⟨a, ha, heq⟩ := hlast
      have hstop := hlater a ha
      rw [heq] at hstop
      omega
    · rw [List.map_cons, List.sum_cons, hrest]

lemma stays_iff_mem_lastOfEach {source : Text} {es : List Edit} (hin : ∀ e ∈ es, e.span.IsIn source)
    (h : es.Pairwise fun a b => a.span.stop ≤ b.span.start) (e : Edit) :
    Editor.Stays source es e ↔ e ∈ lastOfEach es := by
  -- Where one edit ends before the other one begins they conflict only if both have one range.
  have hconflicts : es.Pairwise fun a b => ¬ a.conflicts b = true ↔ b.span ≠ a.span := by
    refine h.imp_of_mem fun {a b} _ hb hab => not_congr ?_
    have hbl := (hin b hb).le
    rw [conflicts_iff, eq_comm (a := b.span)]
    exact ⟨fun h => h.resolve_left (by omega), Or.inr⟩
  rw [mem_lastOfEach_iff, Editor.Stays]
  refine exists₂_congr fun earlier later => and_congr_right fun hsplit => ?_
  rw [hsplit] at hin hconflicts
  have hlater := (List.pairwise_cons.mp (List.pairwise_append.mp hconflicts).2.1).1
  constructor
  · exact fun h a ha => (hlater a ha).mp (h.2 a ha (hin a (by simp [ha])))
  · exact fun h => ⟨hin e (by simp), fun a ha _ => (hlater a ha).mpr (h a ha)⟩

lemma pairwise_before_lastOfEach {es : List Edit} (hle : ∀ e ∈ es, e.span.start ≤ e.span.stop)
    (h : es.Pairwise fun a b => a.span.stop ≤ b.span.start) : (lastOfEach es).Pairwise Before := by
  have hsub := h.sublist (lastOfEach_sublist es)
  refine (hsub.and (span_ne_lastOfEach es)).imp_of_mem fun {a b} ha hb hab => ?_
  have hal := hle a ((lastOfEach_sublist es).subset ha)
  have hbl := hle b ((lastOfEach_sublist es).subset hb)
  obtain ⟨hstop, hne⟩ := hab
  obtain ⟨⟨m, n⟩, s⟩ := a
  obtain ⟨⟨k, l⟩, t⟩ := b
  simp only [Before, ne_eq, Span.mk.injEq, not_and] at *
  omega

/-- Edits that can be made and that in order of their starts end before the next one begins are all made
but for insertions at one place, of which the last one is made. The text grows by what is put in for what is
taken away. -/
theorem written?_lastOfEach {source : Text} {es : List Edit} (hin : ∀ e ∈ es, e.span.IsIn source)
    (hapart : IsApart (ordered es)) :
    written? source 0 (lastOfEach (ordered es)) = some (applyAll source es) ∧
      removed es ≤ size source ∧
      size (applyAll source es) =
        size source - removed es + added (lastOfEach (ordered es)) ∧
      (lastOfEach (ordered es) = ordered es ↔ (es.map (·.span)).Nodup) := by
  have hin' : ∀ e ∈ ordered es, e.span.IsIn source :=
    fun e he => hin e ((ordered_perm es).mem_iff.mp he)
  have hle : ∀ e ∈ ordered es, e.span.start ≤ e.span.stop := fun e he => (hin' e he).le
  have hpair := hapart.pairwise hle
  obtain ⟨made, hmade, hmem, hwritten, hrem, hsize⟩ := exists_made source es
  obtain rfl : made = lastOfEach (ordered es) :=
    eq_of_pairwise_before (hmade.imp And.left) (pairwise_before_lastOfEach hle hpair) fun e =>
      (hmem e).trans (stays_iff_mem_lastOfEach hin' hpair e)
  have hremoved : removed (lastOfEach (ordered es)) = removed es := by
    rw [removed_lastOfEach hle hpair]
    exact ((ordered_perm es).map _).sum_eq
  rw [hremoved] at hrem hsize
  exact ⟨hwritten, hrem, hsize, lastOfEach_eq_self_iff.trans ((ordered_perm es).map _).nodup_iff⟩

theorem written?_lastOfEach_insertions :
    let es : List Edit := [⟨⟨0, 1⟩, "-"⟩, ⟨⟨1, 1⟩, "x"⟩, ⟨⟨1, 1⟩, "y"⟩, ⟨⟨1, 2⟩, "+"⟩]
    let source := "ab".toList
    (∀ e ∈ es, e.span.IsIn source) ∧ IsApart (ordered es) ∧
      lastOfEach (ordered es) = [⟨⟨0, 1⟩, "-"⟩, ⟨⟨1, 1⟩, "y"⟩, ⟨⟨1, 2⟩, "+"⟩] ∧
      applyAll source es = "-y+".toList ∧
      written? source 0 (lastOfEach (ordered es)) = some (applyAll source es) := by
  intro es source
  have hordered : ordered es = es := ordered_eq_self (by decide)
  have hin : ∀ e ∈ es, e.span.IsIn source := by
    refine fun e he => isValid_iff.mp ?_
    revert e
    decide +kernel
  have hapart : IsApart (ordered es) := by
    rw [hordered]
    decide
  refine ⟨hin, hapart, ?_, ?_, (written?_lastOfEach hin hapart).1⟩
  · rw [hordered]
    decide
  · rw [applyAll, hordered]
    decide +kernel

theorem exists_insertion_lost :
    let es : List Edit := [⟨⟨1, 1⟩, "x"⟩, ⟨⟨1, 1⟩, "y"⟩]
    let source := "ab".toList
    (∀ e ∈ es, e.span.IsIn source) ∧ IsApart (ordered es) ∧
      written? source 0 (ordered es) = some "axyb".toList ∧ applyAll source es = "ayb".toList ∧
      size (applyAll source es) ≠ size source - removed es + added es := by
  intro es source
  have hordered : ordered es = es := ordered_eq_self (by decide)
  refine ⟨fun e he => isValid_iff.mp ?_, ?_, ?_, ?_, ?_⟩
  · revert e
    decide +kernel
  · rw [hordered]
    decide
  · rw [hordered]
    decide +kernel
  · rw [applyAll, hordered]
    decide +kernel
  · rw [applyAll, hordered]
    decide +kernel

end Edit
end MetaInline
