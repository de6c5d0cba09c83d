import Mathlib
import MetaInline.Edit.Basic
import MetaInline.Proofs.Text.Boundary

/-! The edits that lie in no other one. They are found in one pass over the edits in order of their
starts, of two that start together the longer first: it is enough to compare with the last one kept. -/

namespace MetaInline

namespace Span

def Precedes (s t : Span) : Prop :=
  s.start < t.start ∧ s.stop < t.stop

lemma Precedes.trans {r s t : Span} (h : r.Precedes s) (h' : s.Precedes t) : r.Precedes t :=
  ⟨h.1.trans h'.1, h.2.trans h'.2⟩

lemma Within.precedes_false {s t : Span} (h : s.Within t) : ¬ t.Precedes s ∧ ¬ s.Precedes t := by
  have hc := h.1
  simp only [covers_iff] at hc
  exact ⟨fun hp => absurd hp.2 (by omega), fun hp => absurd hp.1 (by omega)⟩

end Span

namespace Edit

def Leads (a b : Edit) : Prop :=
  a.span.start < b.span.start ∨ (a.span.start = b.span.start ∧ b.span.stop ≤ a.span.stop)

def inOrder (a b : Edit) : Bool :=
  a.span.start < b.span.start || (a.span.start == b.span.start && b.span.stop ≤ a.span.stop)

lemma inOrder_iff {a b : Edit} : a.inOrder b = true ↔ a.Leads b := by
  simp [inOrder, Leads]

lemma keepOuter_sublist (outer : Option Edit) (es : List Edit) :
    (keepOuter outer es).Sublist es := by
  induction es generalizing outer with
  | nil => exact .slnil
  | cons e es ih =>
    rw [keepOuter]
    split
    · exact (ih outer).cons e
    · exact (ih (some e)).cons_cons e

lemma exists_covers_keepOuter (outer : Option Edit) {es : List Edit} {e : Edit} (he : e ∈ es) :
    ∃ k ∈ outer.toList ++ keepOuter outer es, k.span.covers e.span = true := by
  induction es generalizing outer with
  | nil => cases he
  | cons a es ih =>
    rw [keepOuter]
    split
    · next ha =>
      rcases List.mem_cons.mp he with rfl | he
      · cases outer with
        | none => simp at ha
        | some o => exact ⟨o, by simp, by simpa using ha⟩
      · exact ih outer he
    · rcases List.mem_cons.mp he with rfl | he
      · exact ⟨e, by simp, by simp⟩
      · obtain ⟨k, hk, hc⟩ := ih (some a) he
        exact ⟨k, List.mem_append_right _ (by simpa using hk), hc⟩

lemma Leads.precedes {a b : Edit} (h : a.Leads b) (hc : ¬ a.span.covers b.span = true) :
    a.span.Precedes b.span := by
  simp only [Span.covers_iff] at hc
  unfold Leads at h
  exact ⟨by omega, by omega⟩

lemma pairwise_keepOuter (outer : Option Edit) {es : List Edit}
    (h : (outer.toList ++ es).Pairwise Leads) :
    (outer.toList ++ keepOuter outer es).Pairwise fun a b => a.span.Precedes b.span := by
  induction es generalizing outer with
  | nil => cases outer <;> simp [keepOuter]
  | cons a es ih =>
    rw [keepOuter]
    split
    · exact ih outer (h.sublist ((List.Sublist.refl _).append (List.sublist_cons_self a es)))
    · next ha =>
      have hkept := ih (some a) (h.sublist (List.sublist_append_right _ _))
      cases outer with
      | none => exact hkept
      | some o =>
        have hoa : o.span.Precedes a.span :=
          ((List.pairwise_cons.mp h).1 a (by simp)).precedes (by simpa using ha)
        refine List.pairwise_cons.mpr ⟨fun k hk => ?_, hkept⟩
        rcases List.mem_cons.mp hk with rfl | hk
        · exact hoa
        · exact hoa.trans ((List.pairwise_cons.mp hkept).1 k hk)

variable {es : List Edit}

lemma inOrder_trans (a b c : Edit) (hab : a.inOrder b = true) (hbc : b.inOrder c = true) :
    a.inOrder c = true := by
  rw [inOrder_iff, Leads] at *
  omega

lemma inOrder_total (a b : Edit) : (a.inOrder b || b.inOrder a) = true := by
  rw [Bool.or_eq_true, inOrder_iff, inOrder_iff, Leads, Leads]
  omega

lemma exists_sorted (es : List Edit) : ∃ sorted, outermost es = keepOuter none sorted ∧
    sorted.Perm es ∧ sorted.Pairwise Leads ∧
    ∀ s : Span, sorted.filter (·.span = s) = es.filter (·.span = s) := by
  have hperm := es.mergeSort_perm inOrder
  refine ⟨es.mergeSort inOrder, rfl, hperm, ?_, fun s => ?_⟩
  · exact (List.pairwise_mergeSort inOrder_trans inOrder_total es).imp inOrder_iff.mp
  · have hsame : (es.filter (·.span = s)).Pairwise fun a b => a.inOrder b = true := by
      refine List.pairwise_of_forall_mem_list fun a ha b hb => inOrder_iff.mpr (.inr ?_)
      have has : a.span = s := by simpa using (List.mem_filter.mp ha).2
      have hbs : b.span = s := by simpa using (List.mem_filter.mp hb).2
      rw [has, hbs]
      exact ⟨rfl, le_rfl⟩
    -- Sorting is stable, so that the edits of one range are a sublist of the sorted ones.
    have hsub := (List.sublist_mergeSort inOrder_trans inOrder_total hsame List.filter_sublist).filter
      (·.span = s)
    rw [List.filter_filter] at hsub
    simp only [Bool.and_self] at hsub
    exact (hsub.eq_of_length (hperm.filter _).length_eq.symm).symm

lemma mem_of_mem_outermost {e : Edit} (h : e ∈ outermost es) : e ∈ es := by
  obtain ⟨sorted, heq, hperm, -⟩ := exists_sorted es
  rw [heq] at h
  exact hperm.subset ((keepOuter_sublist none sorted).subset h)

theorem pairwise_outermost (es : List Edit) :
    (outermost es).Pairwise fun a b => a.span.Precedes b.span := by
  obtain ⟨sorted, heq, -, hleads, -⟩ := exists_sorted es
  rw [heq]
  exact pairwise_keepOuter none hleads

theorem exists_covers_outermost {e : Edit} (he : e ∈ es) :
    ∃ k ∈ outermost es, k.span.covers e.span = true := by
  obtain ⟨sorted, heq, hperm, -⟩ := exists_sorted es
  rw [heq]
  exact exists_covers_keepOuter none (hperm.symm.subset he)

theorem not_within_of_mem_outermost {k e : Edit} (hk : k ∈ outermost es) (he : e ∈ es) :
    ¬ k.span.Within e.span := by
  intro hw
  obtain ⟨k', hk', hc⟩ := exists_covers_outermost he
  have hwithin : k.span.Within k'.span := hw.mono hc
  have hne : k ≠ k' := fun h => hwithin.2 (by rw [h])
  rcases pairwise_or_of_mem (pairwise_outermost es) hk hk' hne with h | h
  · exact hwithin.precedes_false.2 h
  · exact hwithin.precedes_false.1 h

theorem outermost_perm (h : (es.map (·.span)).Nodup) :
    (outermost es).Perm (es.filter fun e => ∀ a ∈ es, ¬ e.span.Within a.span) := by
  have hnodup : (outermost es).Nodup := (pairwise_outermost es).imp fun {a b} hab heq => by
    rw [heq] at hab
    exact absurd hab.1 (lt_irrefl _)
  refine (List.perm_ext_iff_of_nodup hnodup (h.of_map.filter _)).mpr fun e => ?_
  simp only [List.mem_filter, decide_eq_true_eq]
  constructor
  · exact fun he => ⟨mem_of_mem_outermost he, fun a ha => not_within_of_mem_outermost he ha⟩
  · rintro ⟨he, hmax⟩
    obtain ⟨k, hk, hc⟩ := exists_covers_outermost he
    have heq : e.span = k.span := by
      by_contra hne
      exact hmax k (mem_of_mem_outermost hk) ⟨hc, hne⟩
    rwa [List.inj_on_of_nodup_map h he (mem_of_mem_outermost hk) heq]

lemma find?_keepOuter (outer : Option Edit) {e : Edit} (h : (outer.toList ++ es).Pairwise Leads)
    (he : e ∈ keepOuter outer es) : es.find? (·.span = e.span) = some e := by
  induction es generalizing outer with
  | nil => cases he
  | cons a es ih =>
    rw [keepOuter] at he
    split at he
    · next ha =>
      obtain ⟨o, rfl, hoa⟩ : ∃ o, outer = some o ∧ o.span.covers a.span = true := by
        simpa [Option.any_eq_true] using ha
      have htail : ((some o).toList ++ es).Pairwise Leads :=
        h.sublist ((List.Sublist.refl _).append (List.sublist_cons_self a es))
      have hoe : o.span.Precedes e.span :=
        (List.pairwise_cons.mp (pairwise_keepOuter (some o) htail)).1 e he
      -- What is kept ends after the last one kept, and what lies in that one does not.
      have hne : a.span ≠ e.span := fun heq => by
        rw [heq, Span.covers_iff] at hoa
        have := hoe.2
        omega
      rw [List.find?_cons_of_neg (by simpa using hne)]
      exact ih (some o) htail he
    · have htail : ((some a).toList ++ es).Pairwise Leads :=
        h.sublist (List.sublist_append_right _ _)
      rcases List.mem_cons.mp he with rfl | he
      · exact List.find?_cons_of_pos (by simp)
      · have hae : a.span.Precedes e.span :=
          (List.pairwise_cons.mp (pairwise_keepOuter (some a) htail)).1 e he
        have hne : a.span ≠ e.span := fun heq => by
          have := hae.1
          rw [heq] at this
          exact lt_irrefl _ this
        rw [List.find?_cons_of_neg (by simpa using hne)]
        exact ih (some a) htail he

lemma find?_of_mem_outermost {e : Edit} (he : e ∈ outermost es) :
    es.find? (·.span = e.span) = some e := by
  obtain ⟨sorted, heq, -, hleads, hfilter⟩ := exists_sorted es
  rw [heq] at he
  rw [← List.head?_filter, ← hfilter, List.head?_filter]
  exact find?_keepOuter none hleads he

lemma mem_outermost_iff {e : Edit} : e ∈ outermost es ↔
    es.find? (·.span = e.span) = some e ∧ ∀ a ∈ es, ¬ e.span.Within a.span := by
  constructor
  · exact fun he => ⟨find?_of_mem_outermost he, fun a ha => not_within_of_mem_outermost he ha⟩
  · rintro ⟨hfirst, hmax⟩
    obtain ⟨k, hk, hc⟩ := exists_covers_outermost (List.mem_of_find?_eq_some hfirst)
    have hspan : e.span = k.span := by
      by_contra hne
      exact hmax k (mem_of_mem_outermost hk) ⟨hc, hne⟩
    have hke := find?_of_mem_outermost hk
    rw [← hspan, hfirst] at hke
    rwa [Option.some.inj hke]

/-- Exactly those edits are kept that lie within no other one, of several in one place the first, and
each edit lies in one that is kept. -/
theorem outermost_maximal (es : List Edit) :
    (∀ e, e ∈ outermost es ↔ ∃ i : ℕ, es[i]? = some e ∧ (∀ a ∈ es, ¬ e.span.Within a.span) ∧
      ∀ j < i, ∀ a : Edit, es[j]? = some a → a.span ≠ e.span) ∧
    (outermost es).Pairwise (fun a b : Edit => a.span.Precedes b.span) ∧
    ∀ e ∈ es, ∃ k ∈ outermost es, k.span.covers e.span = true := by
  refine ⟨fun e => ?_, pairwise_outermost es, fun e he => exists_covers_outermost he⟩
  rw [mem_outermost_iff, List.find?_eq_some_iff_getElem]
  constructor
  · rintro ⟨⟨-, i, hi, rfl, hfirst⟩, hmax⟩
    refine ⟨i, List.getElem?_eq_getElem hi, hmax, fun j hj a ha => ?_⟩
    obtain ⟨hj', rfl⟩ := List.getElem?_eq_some_iff.mp ha
    simpa using hfirst j hj
  · rintro ⟨i, hi, hmax, hfirst⟩
    obtain ⟨hlt, rfl⟩ := List.getElem?_eq_some_iff.mp hi
    refine ⟨⟨by simp, i, hlt, rfl, fun j hj => ?_⟩, hmax⟩
    simpa using hfirst j hj es[j] (List.getElem?_eq_getElem (hj.trans hlt))

theorem pairwise_stop_le_outermost (hle : ∀ e ∈ es, e.span.start ≤ e.span.stop)
    (h : ∀ a ∈ es, ∀ b ∈ es, a.span.Apart b.span ∨ a.span.covers b.span = true ∨
      b.span.covers a.span = true) :
    (outermost es).Pairwise fun a b => a.span.stop ≤ b.span.start := by
  refine (pairwise_outermost es).imp_of_mem fun {a b} ha hb hab => ?_
  have hbl := hle b (mem_of_mem_outermost hb)
  have hab' := h a (mem_of_mem_outermost ha) b (mem_of_mem_outermost hb)
  obtain ⟨hstart, hstop⟩ := hab
  simp only [Span.covers_iff] at hab'
  rcases hab' with (h | h) | h | h <;> omega

end Edit
end MetaInline
