import Mathlib
import MetaInline.Proofs.Document.Recovery
import MetaInline.Proofs.Document.Regions

namespace MetaInline.Astro

open Text (size)
open Unicode (isBlank)

section

variable {p : Place} {u : Text} {c : Char} {cs : Text} {n : ℕ}

namespace Place

structure AtFence (p : Place) : Prop where
  newline : p.before.head? = some '\n'
  line : isFence (p.rest.takeWhile (· ≠ '\n')) = true

instance (p : Place) : Decidable p.AtFence :=
  decidable_of_iff (p.before.head? = some '\n' ∧ isFence (p.rest.takeWhile (· ≠ '\n')) = true)
    ⟨fun h => ⟨h.1, h.2⟩, fun h => ⟨h.newline, h.line⟩⟩

lemma AtFence.exists_cons (h : (p.move n).AtFence) : ∃ c cs, p.rest = c :: cs := by
  apply List.exists_cons_of_ne_nil
  intro hr
  have hline := h.line
  rw [rest_move, hr, List.drop_nil] at hline
  cases hline

lemma atFence_move_one_iff (hr : p.rest = c :: cs) :
    (p.move 1).AtFence ↔ c = '\n' ∧ isFence (cs.takeWhile (· ≠ '\n')) = true := by
  have hmove : p.move 1 = ⟨p.offset + c.utf8Size, c :: p.before, cs⟩ := move_append (w := [c]) hr
  rw [hmove]
  constructor
  · rintro ⟨hc, hline⟩
    exact ⟨Option.some.inj hc, hline⟩
  · rintro ⟨rfl, hline⟩
    exact ⟨rfl, hline⟩

lemma move_one_move (p : Place) (n : ℕ) : (p.move 1).move n = p.move (n + 1) := by
  rw [move_move, Nat.add_comm]

end Place

lemma exists_of_isFence (h : isFence (u.takeWhile (· ≠ '\n')) = true) :
    ∃ rest, u = "---".toList ++ rest ∧ (rest.takeWhile (· ≠ '\n')).all isBlank = true := by
  obtain ⟨blanks, hdrop, hblanks⟩ := (Option.any_eq_true _ _).mp h
  have hline := Text.eq_append_of_dropFront? hdrop
  have hu := List.takeWhile_append_dropWhile (p := (· ≠ '\n')) (l := u)
  rw [hline, List.append_assoc] at hu
  have hrest : (blanks ++ u.dropWhile (· ≠ '\n')).takeWhile (· ≠ '\n') = blanks := by
    rw [← hu] at hline
    simpa using hline
  refine ⟨_, hu.symm, ?_⟩
  rw [hrest]
  exact hblanks

lemma splitFence_of_atFence (h : (p.move 1).AtFence) :
    splitFence p.rest = some (p.rest.take 1, p.rest.drop 4) := by
  obtain ⟨c, cs, hr⟩ := h.exists_cons
  obtain ⟨rfl, hline⟩ := (Place.atFence_move_one_iff hr).mp h
  obtain ⟨rest, rfl, hblanks⟩ := exists_of_isFence hline
  rw [hr]
  exact if_pos hblanks

lemma splitFence_of_not_atFence (hr : p.rest = c :: cs) (h : ¬ (p.move 1).AtFence) :
    splitFence p.rest = (splitFence (p.move 1).rest).map fun x => (c :: x.1, x.2) := by
  have hline : c = '\n' → isFence (cs.takeWhile (· ≠ '\n')) = false := fun hc =>
    Bool.eq_false_iff.mpr fun hline => h ((Place.atFence_move_one_iff hr).mpr ⟨hc, hline⟩)
  rw [hr, splitFence_line hline, Place.rest_move, hr]
  rfl

lemma splitFence_of_first (h : (p.move (n + 1)).AtFence)
    (hfirst : ∀ m < n, ¬ (p.move (m + 1)).AtFence) :
    splitFence p.rest = some (p.rest.take (n + 1), p.rest.drop (n + 4)) := by
  -- The fence comes one character nearer with each step, and stays the first one.
  induction n generalizing p with
  | zero => exact splitFence_of_atFence h
  | succ n ih =>
    obtain ⟨c, cs, hr⟩ := h.exists_cons
    have hnext : ((p.move 1).move (n + 1)).AtFence := by rwa [p.move_one_move]
    have hrest := ih hnext fun m hm => by
      rw [p.move_one_move]
      exact hfirst (m + 1) (Nat.succ_lt_succ hm)
    rw [splitFence_of_not_atFence hr (hfirst 0 n.succ_pos), hrest]
    simp [hr]

lemma splitFence_eq_none (h : ∀ n, ¬ (p.move (n + 1)).AtFence) : splitFence p.rest = none := by
  induction hr : p.rest generalizing p with
  | nil => rfl
  | cons c cs ih =>
    have hnext : (p.move 1).rest = cs := by simp [hr]
    have hnone : splitFence cs = none := by
      refine ih (fun n => ?_) hnext
      rw [p.move_one_move]
      exact h (n + 1)
    rw [← hr, splitFence_of_not_atFence hr (h 0), hnext, hnone]
    rfl

def afterBlanks (u : Text) : Place :=
  Place.move (u.takeWhile isBlank).length ⟨0, [], u⟩

lemma isAt_afterBlanks (u : Text) : (afterBlanks u).IsAt u :=
  Place.IsAt.move (p := ⟨0, [], u⟩) ⟨rfl, rfl⟩ _

lemma afterBlanks_eq (u : Text) : afterBlanks u =
    ⟨size (u.takeWhile isBlank), (u.takeWhile isBlank).reverse, u.dropWhile isBlank⟩ := by
  have hsplit : (⟨0, [], u⟩ : Place).rest = u.takeWhile isBlank ++ u.dropWhile isBlank :=
    List.takeWhile_append_dropWhile.symm
  rw [afterBlanks, Place.move_append hsplit]
  simp

structure FencedAt (u : Text) (n : ℕ) : Prop where
  opening : "---".toList <+: (afterBlanks u).rest
  closing : (((afterBlanks u).move 3).move n).AtFence

instance (u : Text) (n : ℕ) : Decidable (FencedAt u n) :=
  decidable_of_iff ("---".toList <+: (afterBlanks u).rest ∧ (((afterBlanks u).move 3).move n).AtFence)
    ⟨fun h => ⟨h.1, h.2⟩, fun h => ⟨h.opening, h.closing⟩⟩

lemma move_dashes (h : "---".toList <+: (afterBlanks u).rest) : (afterBlanks u).move 3 =
    ⟨size (u.takeWhile isBlank) + 3, '-' :: '-' :: '-' :: (u.takeWhile isBlank).reverse,
      ((afterBlanks u).move 3).rest⟩ := by
  obtain ⟨rest, hrest⟩ := h
  have hmove := Place.move_append hrest.symm
  rw [show (afterBlanks u).move 3 = _ from hmove, afterBlanks_eq]
  rfl

lemma FencedAt.ne_zero (h : FencedAt u n) : n ≠ 0 := by
  rintro rfl
  have hnewline := h.closing.newline
  rw [Place.move_zero, move_dashes h.opening] at hnewline
  cases hnewline

lemma frontmatter_of_dashes (h : "---".toList <+: (afterBlanks u).rest) : frontmatter u =
    (splitFence ((afterBlanks u).move 3).rest).map fun x => (u.takeWhile isBlank, x.1, x.2) := by
  obtain ⟨rest, hrest⟩ := h
  have hmove : ((afterBlanks u).move 3).rest = rest := by
    rw [Place.rest_move, ← hrest]
    rfl
  have hu : u.dropWhile isBlank = "---".toList ++ rest := by rw [hrest, afterBlanks_eq]
  rw [hmove, frontmatter, List.span_eq_takeWhile_dropWhile]
  dsimp only
  rw [hu, Text.dropFront?_append]
  simp only [Option.bind_eq_bind, Option.bind_some]
  cases splitFence rest <;> rfl

lemma scan_of_not_fencedAt (h : ∀ n, ¬ FencedAt u n) : scan u = Place.markup ⟨0, [], u⟩ := by
  have hfront : frontmatter u = none := by
    by_cases hopening : "---".toList <+: (afterBlanks u).rest
    · rw [frontmatter_of_dashes hopening, splitFence_eq_none fun n hn => h (n + 1) ⟨hopening, hn⟩]
      rfl
    · rw [afterBlanks_eq] at hopening
      exact frontmatter_eq_none hopening
  rw [scan, hfront]
  rfl

lemma scan_of_fencedAt (h : FencedAt u n) (hfirst : ∀ m < n, ¬ FencedAt u m) :
    let p := (afterBlanks u).move 3
    scan u = ⟨[⟨⟨p.offset, (p.move n).offset⟩, script, true⟩], []⟩ ++ (p.move (n + 3)).markup := by
  intro p
  obtain ⟨n, rfl⟩ := Nat.exists_eq_add_one_of_ne_zero h.ne_zero
  have hsplit : splitFence p.rest = some (p.rest.take (n + 1), p.rest.drop (n + 4)) :=
    splitFence_of_first h.closing fun m hm hn => hfirst (m + 1) (Nat.succ_lt_succ hm) ⟨h.opening, hn⟩
  have hfront := frontmatter_of_dashes h.opening
  rw [hsplit, Option.map_some] at hfront
  have hoffset : p.offset = size (u.takeWhile isBlank) + 3 :=
    congrArg Place.offset (move_dashes h.opening)
  have hstart : start u = p.move (n + 1 + 3) := by
    refine (isAt_start u).eq_of_rest (((isAt_afterBlanks u).move 3).move _) ?_
    rw [start, hfront]
    exact (Place.rest_move _ p).symm
  rw [scan_eq_append, fenced, hfront, hstart, Place.offset_move _ p, hoffset]

lemma allowReturn_markup (h : p.IsAt u) : ∀ r ∈ p.markup.regions, r.allowReturn = false := by
  intro r hr
  rcases (fits_markup (f := none) h).nonblank r hr with ⟨hreturn, -⟩ | ⟨-, hfront⟩
  · exact hreturn
  · cases hfront

end

/-- A document has a frontmatter, in which alone a script may return, exactly if after blanks it begins with
three dashes and a later line is a fence. The frontmatter goes from behind the dashes up to the first such
line, and the markup begins behind the dashes of that. Without a frontmatter all of the document is markup. -/
theorem scan_frontmatter (document : Text) :
    let p := (afterBlanks document).move 3
    ((∃ r ∈ (scan document).regions, r.allowReturn = true) ↔ ∃ n, FencedAt document n) ∧
      (∀ n, FencedAt document n → (∀ m < n, ¬ FencedAt document m) →
        scan document = ⟨[⟨⟨p.offset, (p.move n).offset⟩, script, true⟩], []⟩ ++
          (p.move (n + 3)).markup) ∧
      ((∀ n, ¬ FencedAt document n) → scan document = Place.markup ⟨0, [], document⟩) := by
  intro p
  refine ⟨⟨?_, ?_⟩, fun n => scan_of_fencedAt, scan_of_not_fencedAt⟩
  · rintro ⟨r, hr, hreturn⟩
    by_contra! hnone
    rw [scan_of_not_fencedAt hnone] at hr
    rw [allowReturn_markup ⟨rfl, rfl⟩ r hr] at hreturn
    cases hreturn
  · intro h
    have hscan := scan_of_fencedAt (Nat.find_spec h) fun m => Nat.find_min h
    rw [hscan]
    exact ⟨_, List.mem_cons_self, rfl⟩

theorem scan_frontmatter_dashes :
    let document := "\u00a0\n---\r\n----\n--- x\n--- \t\r\n{y}".toList
    FencedAt document 13 ∧ (∀ m < 13, ¬ FencedAt document m) ∧
      (scan document).regions = [⟨⟨6, 19⟩, script, true⟩, ⟨⟨27, 28⟩, expression, false⟩] := by
  intro document
  have hfence : FencedAt document 13 := by decide +kernel
  have hfirst : ∀ m < 13, ¬ FencedAt document m := by decide +kernel
  obtain ⟨-, hscan, -⟩ := scan_frontmatter document
  refine ⟨hfence, hfirst, ?_⟩
  rw [hscan 13 hfence hfirst]
  decide +kernel

end MetaInline.Astro
