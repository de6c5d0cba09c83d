import Mathlib
import MetaInline.Proofs.Edit.Application

namespace MetaInline

open Text (size)

namespace Edit

def Before (a b : Edit) : Prop :=
  a.span.start < b.span.start ∨ (a.span.start = b.span.start ∧ a.span.stop < b.span.stop)

instance (a b : Edit) : Decidable (a.Before b) :=
  inferInstanceAs (Decidable (_ ∨ _))

lemma isValid_iff {source : Text} {e : Edit} : e.isValid source = true ↔ e.span.IsIn source := by
  simp only [isValid, Bool.and_eq_true, decide_eq_true_eq, and_assoc]
  constructor
  · rintro ⟨hle, hstart, hstop⟩
    exact ⟨hle, hstart, hstop⟩
  · intro h
    exact ⟨h.le, h.start, h.stop⟩

lemma conflicts_iff {a b : Edit} : a.conflicts b = true ↔
    (a.span.start < b.span.stop ∧ b.span.start < a.span.stop) ∨ a.span = b.span := by
  simp [conflicts, Span.overlaps]

lemma before_or_of_not_conflicts {a b : Edit} (ha : a.span.start ≤ a.span.stop)
    (hb : b.span.start ≤ b.span.stop) (h : ¬ a.conflicts b = true) :
    (a.Before b ∧ a.span.stop ≤ b.span.start) ∨ (b.Before a ∧ b.span.stop ≤ a.span.start) := by
  obtain ⟨⟨m, n⟩, s⟩ := a
  obtain ⟨⟨k, l⟩, t⟩ := b
  simp only [conflicts_iff, Span.mk.injEq, not_or, not_and, Before] at *
  omega

lemma Before.asymm {a b : Edit} (h : a.Before b) : ¬ b.Before a := by
  unfold Before at *
  omega

lemma Before.span_ne {a b : Edit} (h : a.Before b) : a.span ≠ b.span := by
  intro heq
  rw [Before, heq] at h
  omega

end Edit

namespace Editor

open Edit (Before)

lemma insert_cons (e a : Edit) (es : List Edit) : insert e (a :: es) =
    if e.Before a then e :: a :: es else a :: insert e es := by
  have h : (a.span.start < e.span.start ∨
      (a.span.start = e.span.start ∧ a.span.stop ≤ e.span.stop)) ↔ ¬ e.Before a := by
    unfold Before
    omega
  simp only [insert, h, ite_not]

theorem insert_eq_append (e : Edit) {es : List Edit} (h : es.Pairwise Before) :
    ∃ front back, es = front ++ back ∧ insert e es = front ++ e :: back ∧
      (∀ a ∈ front, ¬ e.Before a) ∧ ∀ a ∈ back, e.Before a := by
  induction es with
  | nil => exact ⟨[], [], rfl, rfl, nofun, nofun⟩
  | cons a es ih =>
    obtain ⟨hlater, h⟩ := List.pairwise_cons.mp h
    rw [insert_cons]
    by_cases hea : e.Before a
    · refine ⟨[], a :: es, rfl, if_pos hea, nofun, fun b hb => ?_⟩
      rcases List.mem_cons.mp hb with rfl | hb
      · exact hea
      · have hab := hlater b hb
        unfold Before at *
        omega
    · obtain ⟨front, back, rfl, hinsert, hfront, hback⟩ := ih h
      refine ⟨a :: front, back, rfl, ?_, List.forall_mem_cons.mpr ⟨hea, hfront⟩, hback⟩
      rw [if_neg hea, hinsert]
      rfl

structure Sound (editor : Editor) : Prop where
  isIn : ∀ e ∈ editor.edits, e.span.IsIn editor.source
  sorted : editor.edits.Pairwise fun a b => a.Before b ∧ a.span.stop ≤ b.span.start

lemma sound_ofText (source : Text) : (ofText source).Sound :=
  ⟨nofun, .nil⟩

variable {editor : Editor} {e : Edit}

lemma overwrite_of_isIn (h : e.span.IsIn editor.source) : editor.overwrite e =
    ⟨editor.source, insert e (editor.edits.filter fun a => !a.conflicts e)⟩ :=
  if_pos (Edit.isValid_iff.mpr h)

lemma overwrite_of_not_isIn (h : ¬ e.span.IsIn editor.source) : editor.overwrite e = editor :=
  if_neg (Edit.isValid_iff.not.mpr h)

@[simp] lemma source_overwrite (editor : Editor) (e : Edit) :
    (editor.overwrite e).source = editor.source := by
  unfold overwrite
  split <;> rfl

lemma Sound.exists_overwrite (hs : editor.Sound) (h : e.span.IsIn editor.source) :
    ∃ front back, (editor.edits.filter fun a => !a.conflicts e) = front ++ back ∧
      (editor.overwrite e).edits = front ++ e :: back ∧
      (∀ a ∈ front, a.Before e ∧ a.span.stop ≤ e.span.start) ∧
      ∀ a ∈ back, e.Before a ∧ e.span.stop ≤ a.span.start := by
  have hkept : ∀ a ∈ editor.edits.filter fun a => !a.conflicts e,
      (a.Before e ∧ a.span.stop ≤ e.span.start) ∨ (e.Before a ∧ e.span.stop ≤ a.span.start) := by
    intro a ha
    obtain ⟨hmem, hfree⟩ := List.mem_filter.mp ha
    exact Edit.before_or_of_not_conflicts (hs.isIn a hmem).le h.le (by simpa using hfree)
  obtain ⟨front, back, hsplit, hinsert, hfront, hback⟩ :=
    insert_eq_append e ((hs.sorted.sublist List.filter_sublist).imp And.left)
  rw [hsplit] at hkept
  refine ⟨front, back, hsplit, by rw [overwrite_of_isIn h, hinsert], fun a ha => ?_, fun a ha => ?_⟩
  · exact (hkept a (by simp [ha])).resolve_right fun hea => hfront a ha hea.1
  · exact (hkept a (by simp [ha])).resolve_left fun hae => (hback a ha).asymm hae.1

lemma Sound.mem_overwrite_iff (hs : editor.Sound) (h : e.span.IsIn editor.source) {a : Edit} :
    a ∈ (editor.overwrite e).edits ↔ a = e ∨ (a ∈ editor.edits ∧ ¬ a.conflicts e = true) := by
  obtain ⟨front, back, hsplit, hedits, -, -⟩ := hs.exists_overwrite h
  have hmem : a ∈ front ++ back ↔ a ∈ editor.edits ∧ ¬ a.conflicts e = true := by
    rw [← hsplit, List.mem_filter]
    simp
  rw [hedits, ← hmem]
  simp only [List.mem_append, List.mem_cons]
  tauto

lemma Sound.overwrite (hs : editor.Sound) (e : Edit) : (editor.overwrite e).Sound := by
  by_cases h : e.span.IsIn editor.source
  · refine ⟨fun a ha => ?_, ?_⟩
    · rw [source_overwrite]
      rcases (hs.mem_overwrite_iff h).mp ha with rfl | ⟨ha, -⟩
      · exact h
      · exact hs.isIn a ha
    · obtain ⟨front, back, hsplit, hedits, hfront, hback⟩ := hs.exists_overwrite h
      have hsorted := hs.sorted.sublist (List.filter_sublist (p := fun a => !a.conflicts e))
      rw [hsplit] at hsorted
      obtain ⟨hf, hb, hfb⟩ := List.pairwise_append.mp hsorted
      rw [hedits]
      refine List.pairwise_append.mpr ⟨hf, List.pairwise_cons.mpr ⟨hback, hb⟩, fun a ha b hb => ?_⟩
      rcases List.mem_cons.mp hb with rfl | hb
      · exact hfront a ha
      · exact hfb a ha b hb
  · rwa [overwrite_of_not_isIn h]

/-- What is written out from byte `pos` on: the slices of the text between the edits, and the texts of
these in between. Nothing is written if a slice is out of order. -/
def written? (source : Text) : ℕ → List Edit → Option Text
  | pos, [] => Text.slice? source pos (size source)
  | pos, e :: es => do
    let kept ← Text.slice? source pos e.span.start
    let rest ← written? source e.span.stop es
    return kept ++ (e.text.toList ++ rest)

def removed (es : List Edit) : ℕ :=
  (es.map fun e => e.span.stop - e.span.start).sum

def added (es : List Edit) : ℕ :=
  (es.map fun e => size e.text.toList).sum

lemma written?_eq_splice {source rest : Text} {pos : ℕ} {es : List Edit}
    (hfrom : Text.From source pos rest) (h : Edit.Fits pos rest es) :
    written? source pos es = some (splice pos rest es) := by
  induction h with
  | @nil pos rest =>
    have hrest : Text.From source pos (rest ++ []) := by rwa [List.append_nil]
    exact Text.slice?_eq_some_iff.mpr ⟨hfrom.isBoundary.le_size, [], hrest, hfrom.add_size⟩
  | @cons pos kept old rest e es hs ht _ ih =>
    have hkept : Text.slice? source pos e.span.start = some kept :=
      Text.slice?_eq_some_iff.mpr ⟨by omega, _, hfrom, hs⟩
    have hrest : Text.From source e.span.stop rest := ht ▸ (hs ▸ hfrom.drop).drop
    rw [written?, hkept, ih hrest, Edit.splice_cons hs ht]
    rfl

lemma size_splice {rest : Text} {pos : ℕ} {es : List Edit} (h : Edit.Fits pos rest es) :
    removed es ≤ size rest ∧ size (splice pos rest es) = size rest - removed es + added es := by
  induction h with
  | nil => simp [removed, added, splice]
  | @cons pos kept old rest e es hs ht _ ih =>
    have hold : e.span.stop - e.span.start = size old := by omega
    rw [Edit.splice_cons hs ht]
    simp only [removed, added, List.map_cons, List.sum_cons, Text.size_append, hold] at *
    omega

lemma Sound.fits (hs : editor.Sound) : Edit.Fits 0 editor.source editor.edits :=
  .of_pairwise (.self _) (fun _ _ => Nat.zero_le _) hs.isIn (hs.sorted.imp And.right)

lemma sound_foldl (hs : editor.Sound) (calls : List Edit) :
    (calls.foldl Editor.overwrite editor).Sound := by
  induction calls generalizing editor with
  | nil => exact hs
  | cons e calls ih => exact ih (hs.overwrite e)

lemma source_foldl (editor : Editor) (calls : List Edit) :
    (calls.foldl Editor.overwrite editor).source = editor.source := by
  induction calls generalizing editor with
  | nil => rfl
  | cons e calls ih => rw [List.foldl_cons, ih, source_overwrite]

def Stays (source : Text) (calls : List Edit) (e : Edit) : Prop :=
  ∃ earlier later, calls = earlier ++ e :: later ∧ e.span.IsIn source ∧
    ∀ a ∈ later, a.span.IsIn source → ¬ e.conflicts a = true

lemma stays_concat_iff {source : Text} {calls : List Edit} {a : Edit} :
    Stays source (calls ++ [a]) e ↔ (e = a ∧ a.span.IsIn source) ∨
      (Stays source calls e ∧ (a.span.IsIn source → ¬ e.conflicts a = true)) := by
  constructor
  · rintro ⟨earlier, later, hsplit, hin, hlater⟩
    rcases List.eq_nil_or_concat later with rfl | ⟨later, b, rfl⟩
    · obtain ⟨-, hea⟩ := List.append_inj' hsplit rfl
      obtain rfl := List.singleton_inj.mp hea
      exact Or.inl ⟨rfl, hin⟩
    · rw [List.concat_eq_append, ← List.cons_append, ← List.append_assoc] at hsplit
      obtain ⟨rfl, hab⟩ := List.append_inj' hsplit rfl
      obtain rfl := List.singleton_inj.mp hab
      exact Or.inr ⟨⟨earlier, later, rfl, hin, fun c hc => hlater c (by simp [hc])⟩,
        hlater a (by simp)⟩
  · rintro (⟨rfl, hin⟩ | ⟨⟨earlier, later, rfl, hin, hlater⟩, ha⟩)
    · exact ⟨calls, [], rfl, hin, nofun⟩
    · refine ⟨earlier, later ++ [a], by simp, hin, fun c hc => ?_⟩
      rcases List.mem_append.mp hc with hc | hc
      · exact hlater c hc
      · rw [List.mem_singleton.mp hc]
        exact ha

lemma mem_foldl_iff (source : Text) (calls : List Edit) (e : Edit) :
    e ∈ (calls.foldl Editor.overwrite (.ofText source)).edits ↔ Stays source calls e := by
  induction calls using List.reverseRecOn generalizing e with
  | nil => simp [ofText, Stays]
  | append_singleton calls a ih =>
    have hs := sound_foldl (sound_ofText source) calls
    have hsource := source_foldl (.ofText source) calls
    rw [List.foldl_concat, stays_concat_iff, ← ih]
    by_cases ha : a.span.IsIn source
    · rw [hs.mem_overwrite_iff (by rwa [hsource])]
      simp [ha]
    · rw [overwrite_of_not_isIn (by rwa [hsource])]
      simp [ha]

/-- Whatever ranges of a text are overwritten one after the other, the edits kept are those that can be
made and that no later one conflicts with. They stand in order, each ends before the next one begins,
and making them writes the text between them as it is and their own texts in the place of their
ranges. -/
theorem edits_foldl_overwrite (source : Text) (calls : List Edit) :
    let editor := calls.foldl Editor.overwrite (.ofText source)
    editor.source = source ∧ (∀ e ∈ editor.edits, e.span.IsIn source) ∧
      editor.edits.Pairwise
        (fun a b => a.Before b ∧ a.span ≠ b.span ∧ a.span.stop ≤ b.span.start) ∧
      (∀ e, e ∈ editor.edits ↔ Stays source calls e) ∧
      written? source 0 editor.edits = some editor.finish ∧
      removed editor.edits ≤ size source ∧
      size editor.finish = size source - removed editor.edits + added editor.edits := by
  have hs := sound_foldl (sound_ofText source) calls
  have hsource : (calls.foldl Editor.overwrite (.ofText source)).source = source := source_foldl ..
  have hisIn := hs.isIn
  have hfits := hs.fits
  simp only [finish, hsource] at hisIn hfits ⊢
  refine ⟨trivial, hisIn, hs.sorted.imp fun h => ⟨h.1, h.1.span_ne, h.2⟩, mem_foldl_iff source calls,
    written?_eq_splice (.self source) hfits, size_splice hfits⟩

example : let editor := [⟨⟨1, 1⟩, "<"⟩, ⟨⟨1, 2⟩, "B"⟩].foldl overwrite (.ofText ['a', 'b', 'c'])
    editor.finish = ['a', '<', 'B', 'c'] ∧
      (editor.overwrite ⟨⟨0, 2⟩, "-"⟩).finish = ['-', 'c'] := by
  decide +kernel

end Editor
end MetaInline
