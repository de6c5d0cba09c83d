import Mathlib
import MetaInline.Edit.Basic
import MetaInline.Proofs.Text.Boundary

namespace MetaInline

open Text (size)

namespace Edit

inductive Fits : ℕ → Text → List Edit → Prop
  | nil {pos : ℕ} {source : Text} : Fits pos source []
  | cons {pos : ℕ} {kept old rest : Text} {e : Edit} {es : List Edit}
      (start : pos + size kept = e.span.start) (stop : e.span.start + size old = e.span.stop)
      (fits : Fits e.span.stop rest es) : Fits pos (kept ++ (old ++ rest)) (e :: es)

lemma splice_cons {pos : ℕ} {kept old rest : Text} {e : Edit} (hs : pos + size kept = e.span.start)
    (ht : e.span.start + size old = e.span.stop) (es : List Edit) :
    Editor.splice pos (kept ++ (old ++ rest)) (e :: es) =
      kept ++ (e.text.toList ++ Editor.splice e.span.stop rest es) := by
  have hk : e.span.start - pos = size kept := by omega
  have ho : e.span.stop - e.span.start = size old := by omega
  simp only [Editor.splice, hk, ho, Text.splitAt?_size_append, List.append_assoc]

lemma Fits.prepend {pos n : ℕ} {before source : Text} {es : List Edit} (h : Fits n source es)
    (hn : pos + size before = n) : Fits pos (before ++ source) es ∧
      Editor.splice pos (before ++ source) es = before ++ Editor.splice n source es := by
  cases h with
  | nil => exact ⟨.nil, rfl⟩
  | @cons _ kept old rest e es hs ht h =>
    have hs' : pos + size (before ++ kept) = e.span.start := by
      rw [Text.size_append]
      omega
    rw [← List.append_assoc before]
    refine ⟨.cons hs' ht h, ?_⟩
    rw [splice_cons hs' ht, splice_cons hs ht, List.append_assoc]

lemma Fits.append {pos n : ℕ} {source after : Text} {es fs : List Edit} (h : Fits pos source es)
    (h' : Fits n after fs) (hn : pos + size source = n) : Fits pos (source ++ after) (es ++ fs) ∧
      Editor.splice pos (source ++ after) (es ++ fs) =
        Editor.splice pos source es ++ Editor.splice n after fs := by
  induction h with
  | nil => exact h'.prepend hn
  | @cons pos kept old rest e es hs ht _ ih =>
    have hend : e.span.stop + size rest = n := by
      simp only [Text.size_append] at hn
      omega
    obtain ⟨hf, hsplice⟩ := ih hend
    rw [List.append_assoc, List.append_assoc, List.cons_append, splice_cons hs ht,
      splice_cons hs ht, hsplice]
    exact ⟨.cons hs ht hf, by simp⟩

lemma Fits.shift {pos : ℕ} {source : Text} {es : List Edit} (h : Fits pos source es) (n : ℕ) :
    Fits (pos + n) source (es.map (·.shift n)) ∧
      Editor.splice (pos + n) source (es.map (·.shift n)) = Editor.splice pos source es := by
  induction h with
  | nil => exact ⟨.nil, rfl⟩
  | @cons pos kept old rest e es hs ht _ ih =>
    have hs' : pos + n + size kept = (e.shift n).span.start := by
      simp only [Edit.shift, Span.shift_start]
      omega
    have ht' : (e.shift n).span.start + size old = (e.shift n).span.stop := by
      simp only [Edit.shift, Span.shift_start, Span.shift_stop]
      omega
    rw [List.map_cons, splice_cons hs' ht', splice_cons hs ht]
    have hstop : (e.shift n).span.stop = e.span.stop + n := rfl
    refine ⟨.cons hs' ht' (hstop ▸ ih.1), ?_⟩
    rw [hstop, ih.2]
    rfl

lemma Fits.of_pairwise {u source : Text} {pos : ℕ} (hu : Text.From u pos source) {es : List Edit}
    (hpos : ∀ e ∈ es, pos ≤ e.span.start) (hin : ∀ e ∈ es, e.span.IsIn u)
    (h : es.Pairwise fun a b => a.span.stop ≤ b.span.start) : Fits pos source es := by
  induction es generalizing pos source with
  | nil => exact .nil
  | cons e es ih =>
    obtain ⟨hlater, h⟩ := List.pairwise_cons.mp h
    obtain ⟨hle, hstart, hstop⟩ := hin e (by simp)
    obtain ⟨kept, v, rfl, hkept, hv⟩ := hu.exists_append (hpos e (by simp)) hstart
    obtain ⟨old, rest, rfl, hold, hrest⟩ := hv.exists_append hle hstop
    exact .cons hkept hold (ih hrest hlater (fun a ha => hin a (by simp [ha])) h)

def InOrder (es : List Edit) : Prop :=
  (∀ e ∈ es, e.span.start < e.span.stop) ∧ es.Pairwise fun a b => a.span.stop ≤ b.span.start

lemma InOrder.pairwise_lt {es : List Edit} (h : InOrder es) :
    es.Pairwise fun a b => a.span.start < b.span.start :=
  h.2.imp_of_mem fun ha _ hab => (h.1 _ ha).trans_le hab

lemma ordered_eq_of_perm {es fs : List Edit} (h : es.Perm fs) (hf : InOrder fs) :
    ordered es = fs := by
  have hsorted : (ordered es).Pairwise fun a b => a.span.start ≤ b.span.start := by
    refine (List.pairwise_mergeSort (fun a b c hab hbc => ?_) (fun a b => ?_) es).imp fun {a b} h => ?_
    · simp only [decide_eq_true_eq] at *
      omega
    · simp only [Bool.or_eq_true, decide_eq_true_eq]
      omega
    · simpa using h
  have hperm : (ordered es).Perm fs := (List.mergeSort_perm es _).trans h
  refine List.Perm.eq_of_pairwise (fun a b ha hb hab hba => ?_) hsorted
    (hf.pairwise_lt.imp le_of_lt) hperm
  by_contra hne
  rcases pairwise_or_of_mem hf.pairwise_lt (hperm.subset ha) hb hne with h | h <;> omega

lemma insert_of_forall_lt {e : Edit} {es : List Edit}
    (h : ∀ a ∈ es, a.span.start < e.span.start) : Editor.insert e es = es ++ [e] := by
  induction es with
  | nil => rfl
  | cons a es ih =>
    have ha := h a (by simp)
    rw [Editor.insert, if_pos (Or.inl ha), ih fun b hb => h b (by simp [hb])]
    rfl

lemma foldl_overwrite {source : Text} {es fs : List Edit} (h : InOrder (es ++ fs))
    (hin : ∀ e ∈ fs, e.span.IsIn source) :
    fs.foldl Editor.overwrite ⟨source, es⟩ = ⟨source, es ++ fs⟩ := by
  induction fs generalizing es with
  | nil => simp
  | cons e fs ih =>
    obtain ⟨hlt, hpair⟩ := h
    have hbefore : ∀ a ∈ es, a.span.start < a.span.stop ∧ a.span.stop ≤ e.span.start :=
      fun a ha => ⟨hlt a (by simp [ha]), (List.pairwise_append.mp hpair).2.2 a ha e (by simp)⟩
    have hvalid : e.isValid source = true := by
      obtain ⟨hle, hstart, hstop⟩ := hin e (by simp)
      simp [isValid, hle, hstart, hstop]
    have hkeep : es.filter (fun a => !a.conflicts e) = es := by
      refine List.filter_eq_self.mpr fun a ha => ?_
      have hab := hbefore a ha
      have hne : a.span ≠ e.span := fun h => by rw [h] at hab; omega
      simp [conflicts, Span.overlaps, hab.2, hne]
    have hover : Editor.overwrite ⟨source, es⟩ e = ⟨source, es ++ [e]⟩ := by
      have hins := insert_of_forall_lt fun a ha => (hbefore a ha).1.trans_le (hbefore a ha).2
      rw [Editor.overwrite, if_pos hvalid, hkeep, hins]
    have hnext : InOrder (es ++ [e] ++ fs) := by
      rw [List.append_assoc]
      exact ⟨hlt, hpair⟩
    rw [List.foldl_cons, hover, ih hnext fun a ha => hin a (by simp [ha]), List.append_assoc]
    rfl

theorem applyAll_eq_splice {source : Text} {es fs : List Edit} (h : es.Perm fs) (hf : InOrder fs)
    (hin : ∀ e ∈ fs, e.span.IsIn source) : applyAll source es = Editor.splice 0 source fs := by
  rw [applyAll, ordered_eq_of_perm h hf, Editor.ofText, foldl_overwrite (by simpa using hf) hin]
  rfl

@[simp] lemma applyAll_nil (source : Text) : applyAll source [] = source :=
  applyAll_eq_splice .nil ⟨nofun, .nil⟩ nofun

end Edit
end MetaInline
