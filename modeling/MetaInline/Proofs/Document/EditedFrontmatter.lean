import Mathlib
import MetaInline.Proofs.Document.Frontmatter
import MetaInline.Proofs.Document.Rereading
import MetaInline.Proofs.Edit.Insertion

namespace MetaInline.Astro

open Text (size)
open Unicode (isBlank)

variable {u v w front t r body blanks rest : Text} {c : Char}

lemma splitFence_of_isFence (h : isFence (v.takeWhile (· ≠ '\n')) = true) :
    splitFence ('\n' :: v) = some (['\n'], v.drop 3) := by
  obtain ⟨rest, rfl, hblanks⟩ := exists_of_isFence h
  exact if_pos hblanks

lemma splitFence_cons_eq_none_iff : splitFence (c :: v) = none ↔
    (c = '\n' → isFence (v.takeWhile (· ≠ '\n')) = false) ∧ splitFence v = none := by
  by_cases hline : c = '\n' → isFence (v.takeWhile (· ≠ '\n')) = false
  · rw [splitFence_line hline, Option.map_eq_none_iff]
    exact (and_iff_right hline).symm
  · obtain ⟨rfl, hfence⟩ := Classical.not_imp.mp hline
    rw [splitFence_of_isFence (Bool.not_eq_false _ ▸ hfence)]
    exact ⟨nofun, fun h => absurd (h.1 rfl) hfence⟩

lemma splitFence_eq_none_of_append (h : splitFence (u ++ v) = none) : splitFence v = none := by
  induction u with
  | nil => exact h
  | cons c u ih => exact ih (splitFence_cons_eq_none_iff.mp h).2

lemma splitFence_append_eq_none (hu : '\n' ∉ u) (h : splitFence v = none) :
    splitFence (u ++ v) = none := by
  induction u with
  | nil => exact h
  | cons c u ih =>
    obtain ⟨hc, hu⟩ := not_or.mp (mt List.mem_cons.mpr hu)
    exact splitFence_cons_eq_none_iff.mpr ⟨fun heq => absurd heq.symm hc, ih hu⟩

lemma splitFence_eq_some_iff : splitFence (front ++ '\n' :: t) = some (front ++ ['\n'], r) ↔
    splitFence front = none ∧ isFence (t.takeWhile (· ≠ '\n')) = true ∧ r = t.drop 3 := by
  induction front with
  | nil =>
    by_cases hfence : isFence (t.takeWhile (· ≠ '\n')) = true
    · rw [List.nil_append, splitFence_of_isFence hfence]
      refine ⟨fun h => ⟨rfl, hfence, ?_⟩, fun h => by rw [h.2.2]; rfl⟩
      exact (Prod.mk.inj (Option.some.inj h)).2.symm
    · have hline := splitFence_line (c := '\n') fun _ => Bool.eq_false_iff.mpr hfence
      rw [List.nil_append, hline]
      refine ⟨fun h => ?_, fun h => absurd h.2.1 hfence⟩
      obtain ⟨⟨body, rest⟩, hsplit, heq⟩ := Option.map_eq_some_iff.mp h
      obtain ⟨front, rfl, -⟩ := eq_append_of_splitFence hsplit
      simp at heq
  | cons c front ih =>
    have hfirst : (front ++ '\n' :: t).takeWhile (· ≠ '\n') = front.takeWhile (· ≠ '\n') :=
      takeWhile_append_newline _ _ (.inr rfl)
    rw [splitFence_cons_eq_none_iff, and_assoc, ← ih, List.cons_append]
    by_cases hline : c = '\n' → isFence (front.takeWhile (· ≠ '\n')) = false
    · rw [splitFence_line (hfirst ▸ hline), and_iff_right hline]
      constructor
      · intro h
        obtain ⟨⟨body, rest⟩, hsplit, heq⟩ := Option.map_eq_some_iff.mp h
        obtain ⟨hbody, hrest⟩ := Prod.mk.inj heq
        obtain rfl : body = front ++ ['\n'] := (List.cons_eq_cons.mp hbody).2
        obtain rfl : rest = r := hrest
        exact hsplit
      · intro h
        rw [h]
        rfl
    · obtain ⟨rfl, hfence⟩ := Classical.not_imp.mp hline
      have hfence := Bool.not_eq_false _ ▸ hfence
      rw [splitFence_of_isFence (hfirst ▸ hfence)]
      refine ⟨fun h => ?_, fun h => absurd h.1 hline⟩
      have hbody := (Prod.mk.inj (Option.some.inj h)).1
      simp at hbody

lemma of_mem_isFence (h : isFence u = true) : ∀ c ∈ u, isBlank c = true ∨ c = '-' := by
  obtain ⟨w, hdrop, hblanks⟩ := (Option.any_eq_true _ _).mp h
  rw [Text.eq_append_of_dropFront? hdrop]
  intro c hc
  rcases List.mem_append.mp hc with hdash | hblank
  · right
    simpa using hdash
  · left
    exact List.all_eq_true.mp hblanks c hblank

lemma line_of_puts (h : Edit.Puts Solid u v) (hv : isFence (v.takeWhile (· ≠ '\n')) = true) :
    u.takeWhile (· ≠ '\n') = v.takeWhile (· ≠ '\n') := by
  have hsigns := of_mem_isFence hv
  have hsplit := List.takeWhile_append_dropWhile (p := (· ≠ '\n')) (l := v)
  have hplain : ∀ c ∈ v.takeWhile (· ≠ '\n'), decide (c ≠ '\n') = true := by
    intro c hc
    exact List.mem_takeWhile_imp (p := (· ≠ '\n')) hc
  generalize v.takeWhile (· ≠ '\n') = line at hsigns hsplit hplain
  have hline : line.takeWhile (· ≠ '\n') = line := List.takeWhile_eq_self_iff.mpr hplain
  obtain ⟨u', rfl, hu'⟩ := (hsplit.symm ▸ h).exists_of_append hsigns
  rw [takeWhile_append_newline _ _ ?_, hline]
  have hhead := List.head?_dropWhile_not (· ≠ '\n') v
  cases hdrop : v.dropWhile (· ≠ '\n') with
  | nil =>
    rw [hdrop] at hu'
    exact .inl hu'.eq_nil_of_nil
  | cons c rest =>
    rw [hdrop] at hu' hhead
    obtain rfl : c = '\n' := by simpa using hhead
    obtain ⟨u'', rfl, -⟩ := hu'.exists_of_append (w := ['\n']) (by simp [isBlank])
    exact .inr rfl

lemma splitFence_eq_none_of_puts (h : Edit.Puts Solid u v) (hu : splitFence u = none) :
    splitFence v = none := by
  induction h with
  | nil => rfl
  | keep c h ih =>
    obtain ⟨hline, hu⟩ := splitFence_cons_eq_none_iff.mp hu
    refine splitFence_cons_eq_none_iff.mpr ⟨fun hc => ?_, ih hu⟩
    by_contra hfence
    have hfence := Bool.not_eq_false _ ▸ hfence
    rw [← line_of_puts h hfence, hline hc] at hfence
    cases hfence
  | put hold hc hnew h ih =>
    exact splitFence_append_eq_none hnew.line (ih (splitFence_eq_none_of_append hu))

lemma line_of_follow (h : Follow u v) (hu : isFence (u.takeWhile (· ≠ '\n')) = true) :
    v.takeWhile (· ≠ '\n') = u.takeWhile (· ≠ '\n') := by
  rcases h with rfl | ⟨a, z, b, b', hz, rfl, rfl⟩
  · rfl
  rw [List.takeWhile_append] at hu ⊢
  rw [List.takeWhile_append]
  split at hu
  · have hline : z ∈ a ++ (z :: b).takeWhile (· ≠ '\n') := by
      rw [List.takeWhile_cons_of_pos (by rcases hz with rfl | rfl <;> decide)]
      simp
    exfalso
    have hsign := of_mem_isFence hu z hline
    rcases hz with rfl | rfl <;> revert hsign <;> decide
  · next hshort => rw [if_neg hshort, if_neg hshort]

lemma frontmatter_dashes (hblanks : ∀ c ∈ blanks, isBlank c = true) (v : Text) :
    frontmatter (blanks ++ ("---".toList ++ v)) =
      (splitFence v).map fun x => (blanks, x.1, x.2) := by
  have htake : (blanks ++ ("---".toList ++ v)).takeWhile isBlank = blanks := by
    rw [List.takeWhile_append_of_pos hblanks]
    exact List.append_nil _
  have hdrop : (blanks ++ ("---".toList ++ v)).dropWhile isBlank = "---".toList ++ v := by
    rw [List.dropWhile_append_of_pos hblanks]
    rfl
  have hopening : "---".toList <+: (afterBlanks (blanks ++ ("---".toList ++ v))).rest := by
    rw [afterBlanks_eq, hdrop]
    exact List.prefix_append _ _
  have hmove : ((afterBlanks (blanks ++ ("---".toList ++ v))).move 3).rest = v := by
    rw [Place.rest_move, afterBlanks_eq, hdrop]
    rfl
  rw [frontmatter_of_dashes hopening, hmove, htake]

lemma isBlank_of_mem_takeWhile {c : Char} (h : c ∈ u.takeWhile isBlank) : isBlank c = true :=
  List.mem_takeWhile_imp h

lemma frontmatter_eq_none_of_puts (h : Edit.Puts Solid u v) (hu : frontmatter u = none) :
    frontmatter v = none := by
  by_cases hopening : "---".toList <+: v.dropWhile isBlank
  · obtain ⟨w, hw⟩ := hopening
    have hblanks : ∀ c ∈ v.takeWhile isBlank, isBlank c = true := fun c => isBlank_of_mem_takeWhile
    have hsplit := List.takeWhile_append_dropWhile (p := isBlank) (l := v)
    rw [← hw] at hsplit
    generalize v.takeWhile isBlank = blanks at hblanks hsplit
    subst hsplit
    obtain ⟨u', rfl, hu'⟩ := h.exists_of_append fun c hc => .inl (hblanks c hc)
    obtain ⟨u'', rfl, hw'⟩ := hu'.exists_of_append (w := "---".toList) (by simp)
    rw [frontmatter_dashes hblanks, Option.map_eq_none_iff] at hu ⊢
    exact splitFence_eq_none_of_puts hw' hu
  · exact frontmatter_eq_none hopening

lemma isBlank_of_frontmatter (h : frontmatter u = some (blanks, body, rest)) :
    ∀ c ∈ blanks, isBlank c = true := by
  rw [frontmatter, List.span_eq_takeWhile_dropWhile] at h
  obtain ⟨r, -, h⟩ := Option.bind_eq_some_iff.mp h
  obtain ⟨x, -, heq⟩ := Option.bind_eq_some_iff.mp h
  obtain ⟨rfl, -⟩ := Prod.mk.inj (Option.some.inj heq)
  exact fun c => isBlank_of_mem_takeWhile

lemma frontmatter_of_puts {body' rest' : Text} (h : frontmatter u = some (blanks, body, rest))
    (hbody : Edit.Puts Solid body body') (hrest : Follow rest rest') :
    frontmatter (blanks ++ ("---".toList ++ (body' ++ ("---".toList ++ rest')))) =
      some (blanks, body', rest') := by
  have hblanks := isBlank_of_frontmatter h
  rw [eq_append_of_frontmatter h, frontmatter_dashes hblanks] at h
  obtain ⟨⟨b, r⟩, hsplit, heq⟩ := Option.map_eq_some_iff.mp h
  obtain ⟨-, heq⟩ := Prod.mk.inj heq
  obtain ⟨rfl, rfl⟩ : b = body ∧ r = rest := Prod.mk.inj heq
  obtain ⟨front, rfl, -⟩ := eq_append_of_splitFence hsplit
  obtain ⟨front', rfl⟩ : ∃ front', body' = front' ++ ['\n'] :=
    ⟨_, (List.dropLast_append_getLast? _ (hbody.getLast?_eq (by simp))).symm⟩
  -- The last line feed is the same one, and no fence comes up before it.
  obtain ⟨w, w', hw, hputs, hw'⟩ := hbody.exists_of_newline
  obtain rfl := hw'.eq_nil_of_nil
  obtain rfl := List.append_cancel_right hw
  rw [List.append_assoc, List.singleton_append, splitFence_eq_some_iff] at hsplit
  obtain ⟨hnone, hfence, -⟩ := hsplit
  rw [← line_of_follow (hrest.append "---".toList) hfence] at hfence
  have hsplit' := splitFence_eq_some_iff.mpr
    ⟨splitFence_eq_none_of_puts hputs hnone, hfence, rfl⟩
  rw [frontmatter_dashes hblanks, List.append_assoc, List.singleton_append, hsplit']
  rfl

end MetaInline.Astro
