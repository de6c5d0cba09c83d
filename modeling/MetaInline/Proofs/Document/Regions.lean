import Mathlib
import MetaInline.Proofs.Document.Markup

namespace MetaInline

open Text (size)
open Unicode (isBlank)

def Span.IsBracePair (u : Text) (s : Span) : Prop :=
  ∃ inner : Text, Text.slice? u s.start s.stop = some ('{' :: (inner ++ ['}'])) ∧
    Brace.size? Brace.Sign.ofChar ('{' :: (inner ++ ['}'])) = some (inner.length + 2)

/-- Code of the bytes from `lo` up to `hi` of a document. Only the range `front` may be blank; only it
may return. -/
structure Scan.Fits (u : Text) (front : Option Span) (lo hi : ℕ) (s : Scan) : Prop where
  isIn : ∀ r ∈ s.regions, r.span.IsIn u
  bounds : ∀ r ∈ s.regions, lo ≤ r.span.start ∧ r.span.stop ≤ hi
  sorted : s.regions.Pairwise fun a b => a.span.stop ≤ b.span.start
  nonblank : ∀ r ∈ s.regions, (r.allowReturn = false ∧ ∃ c ∈ r.text u, isBlank c = false) ∨
    r.allowReturn = true ∧ front = some r.span
  braces : ∀ d ∈ s.diagnostics, d.span.IsBracePair u ∧ lo ≤ d.span.start ∧ d.span.stop ≤ hi
  apart : ∀ d ∈ s.diagnostics, ∀ r ∈ s.regions, d.span.Apart r.span

namespace Scan

variable {u : Text} {f : Option Span} {lo mid hi : ℕ} {s t : Scan}

lemma fits_empty (u : Text) (f : Option Span) (lo hi : ℕ) : Scan.empty.Fits u f lo hi := by
  constructor <;> simp

lemma Fits.mono {lo' hi' : ℕ} (h : s.Fits u f lo hi) (hlo : lo' ≤ lo) (hhi : hi ≤ hi') :
    s.Fits u f lo' hi' where
  isIn := h.isIn
  bounds r hr := ⟨hlo.trans (h.bounds r hr).1, (h.bounds r hr).2.trans hhi⟩
  sorted := h.sorted
  nonblank := h.nonblank
  braces d hd :=
    ⟨(h.braces d hd).1, hlo.trans (h.braces d hd).2.1, (h.braces d hd).2.2.trans hhi⟩
  apart := h.apart

lemma Fits.append (hs : s.Fits u f lo mid) (ht : t.Fits u f mid hi) (hlo : lo ≤ mid) (hhi : mid ≤ hi) :
    (s ++ t).Fits u f lo hi := by
  have hs' := hs.mono le_rfl hhi
  have ht' := ht.mono hlo le_rfl
  constructor
  · simpa [or_imp, forall_and] using ⟨hs.isIn, ht.isIn⟩
  · simpa only [regions_append, List.forall_mem_append] using ⟨hs'.bounds, ht'.bounds⟩
  · refine List.pairwise_append.mpr ⟨hs.sorted, ht.sorted, fun a ha b hb => ?_⟩
    exact (hs.bounds a ha).2.trans (ht.bounds b hb).1
  · simpa only [regions_append, List.forall_mem_append] using ⟨hs.nonblank, ht.nonblank⟩
  · simpa only [diagnostics_append, List.forall_mem_append] using ⟨hs'.braces, ht'.braces⟩
  · simp only [diagnostics_append, regions_append, List.forall_mem_append]
    refine ⟨fun d hd => ⟨hs.apart d hd, fun r hr => ?_⟩, fun d hd => ⟨fun r hr => ?_, ht.apart d hd⟩⟩
    · exact Or.inl ((hs.braces d hd).2.2.trans (ht.bounds r hr).1)
    · exact Or.inr ((hs.bounds r hr).2.trans (ht.braces d hd).2.1)

lemma fits_region {r : Region} {v : Text} (hv : Text.slice? u r.span.start r.span.stop = some v)
    (hr : (r.allowReturn = false ∧ ∃ c ∈ v, isBlank c = false) ∨
      r.allowReturn = true ∧ f = some r.span) :
    Scan.Fits u f r.span.start r.span.stop ⟨[r], []⟩ := by
  have htext : r.text u = v := by rw [Region.text, hv]; rfl
  obtain ⟨hle, w, hfrom, hstop⟩ := Text.slice?_eq_some_iff.mp hv
  constructor
  · simpa using ⟨hle, hfrom.isBoundary, hstop ▸ hfrom.drop.isBoundary⟩
  · simp
  · simp
  · simpa [htext] using hr
  · simp
  · simp

end Scan

namespace Astro

variable {u : Text} {f : Option Span} {p : Place}

lemma Place.offset_le_move (p : Place) (n : ℕ) : p.offset ≤ (p.move n).offset := by
  simp

lemma fits_region (h : p.IsAt u) (dialect : Script.Dialect) (n : ℕ) :
    (region dialect p n).Fits u f p.offset (p.move n).offset := by
  rw [region]
  split
  · exact Scan.fits_empty ..
  · next hblank =>
    have hslice := h.slice n
    rw [Place.offset_move] at hslice ⊢
    exact Scan.fits_region (r := ⟨⟨_, _⟩, dialect, false⟩) hslice
      (Or.inl ⟨rfl, by simpa using hblank⟩)

lemma fits_braced (h : p.IsAt u) {cs : Text} (hr : p.rest = '{' :: cs) {n : ℕ}
    (hn : Brace.size? Brace.Sign.ofChar p.rest = some n) :
    (braced p n).Fits u f p.offset (p.move n).offset := by
  obtain ⟨inner, rest, -, hlen, -⟩ := Brace.size?_eq_some_iff.mp (hr ▸ hn)
  have hend : p.move n = ((p.move 1).move (n - 2)).move 1 := by
    rw [Place.move_move, Place.move_move]
    congr 1
    omega
  refine (fits_region (h.move 1) expression (n - 2)).mono (p.offset_le_move 1) ?_
  rw [hend]
  exact Place.offset_le_move ..

lemma isBracePair (h : p.IsAt u) {cs : Text} (hr : p.rest = '{' :: cs) {n : ℕ}
    (hn : Brace.size? Brace.Sign.ofChar p.rest = some n) :
    Span.IsBracePair u ⟨p.offset, (p.move n).offset⟩ := by
  obtain ⟨inner, rest, rfl, rfl, hinner⟩ := Brace.size?_eq_some_iff.mp (hr ▸ hn)
  have htake : p.rest.take (inner.length + 2) = '{' :: (inner ++ ['}']) := by
    simp [hr, List.take_append]
  exact ⟨inner, htake ▸ h.slice (inner.length + 2), hinner⟩

lemma fits_attributeBraces (h : p.IsAt u) (tag : Text) {cs : Text} (hr : p.rest = '{' :: cs) {n : ℕ}
    (hn : Brace.size? Brace.Sign.ofChar p.rest = some n) :
    (attributeBraces tag p n).Fits u f p.offset (p.move n).offset := by
  have hpair := isBracePair h hr hn
  rw [attributeBraces]
  split
  · exact fits_braced h hr hn
  · dsimp only
    split
    · rw [Place.offset_move] at hpair ⊢
      constructor <;> simp [Problem.report, hpair]
    · exact Scan.fits_empty ..

lemma fits_part (h : p.IsAt u) {tag : Text} {n : ℕ} {s : Scan} (hp : part? tag p = some (n, s)) :
    s.Fits u f p.offset (p.move n).offset := by
  unfold part? at hp
  split at hp
  · cases hp
  · next c cs hr =>
    split_ifs at hp with hend hquote hbrace
    · cases hp
      exact Scan.fits_empty ..
    · subst hbrace
      split at hp
      · next hn =>
        cases hp
        exact fits_attributeBraces h tag hr (hr ▸ hn)
      · cases hp
        exact Scan.fits_empty ..
    · cases hp
      exact Scan.fits_empty ..

lemma fits_attributes (h : p.IsAt u) (tag : Text) :
    (p.attributes tag).2.Fits u f p.offset (p.move (p.attributes tag).1).offset := by
  induction hl : p.rest.length using Nat.strong_induction_on generalizing p with
  | _ l ih =>
    cases hp : part? tag p with
    | none =>
      rcases part?_eq_none_iff.mp hp with hr | ⟨cs, hr⟩
      · rw [attributes_nil tag hr]
        exact Scan.fits_empty ..
      · rw [attributes_end tag hr]
        exact Scan.fits_empty ..
    | some x =>
      obtain ⟨n, s⟩ := x
      obtain ⟨hpos, hle⟩ := part?_le hp
      have hrest := ih ((p.move n).rest.length) (by simp; omega) (h.move n) rfl
      rw [attributes_part hp, ← Place.move_move]
      exact (fits_part h hp).append hrest (p.offset_le_move n) (Place.offset_le_move ..)

lemma fits_tag (h : p.IsAt u) : (tag p).2.Fits u f p.offset (p.move (tag p).1).offset := by
  have hq := fits_attributes (f := f) (h.move (tagName p.rest).2) (tagName p.rest).1
  rw [Place.move_move] at hq
  exact hq.mono (p.offset_le_move _) le_rfl

lemma fits_content (h : p.IsAt u) {n : ℕ} {s : Scan} (hs : s.Fits u f p.offset (p.move n).offset)
    (isCode : Bool) (k m : ℕ) :
    (if isCode then s ++ region script (p.move n) k else s).Fits u f p.offset
      (p.move (n + k + m)).offset := by
  have hbody := Place.offset_le_move (p.move n) k
  have hclosing := Place.offset_le_move ((p.move n).move k) m
  have hregion := fits_region (f := f) (h.move n) script k
  rw [← Place.move_move, ← Place.move_move]
  split
  · exact (hs.append hregion (p.offset_le_move n) hbody).mono le_rfl hclosing
  · exact hs.mono le_rfl (hbody.trans hclosing)

lemma fits_rawElement (h : p.IsAt u) (name : Text) (isCode : Bool) :
    (rawElement name isCode p).2.Fits u f p.offset (p.move (rawElement name isCode p).1).offset := by
  have htag := fits_tag (f := f) h
  rw [rawElement]
  generalize tag p = x at htag
  obtain ⟨n, s⟩ := x
  dsimp only at htag ⊢
  split
  · exact htag
  · split
    · exact fits_content h htag isCode ..
    · exact fits_content h htag isCode _ 0

lemma fits_item (h : p.IsAt u) : (item p).2.Fits u f p.offset (p.move (item p).1).offset := by
  rw [item]
  split
  · exact Scan.fits_empty ..
  · next c cs hr =>
    split_ifs with hcomment hscript hstyle htag hbrace
    · exact Scan.fits_empty ..
    · exact fits_rawElement h ..
    · exact fits_rawElement h ..
    · exact fits_tag h
    · rw [beq_iff_eq] at hbrace
      subst hbrace
      split
      · next hn => exact fits_braced h hr hn
      · exact Scan.fits_empty ..
    · exact Scan.fits_empty ..

lemma fits_markup (h : p.IsAt u) : p.markup.Fits u f p.offset (size u) := by
  induction hl : p.rest.length using Nat.strong_induction_on generalizing p with
  | _ l ih =>
    rcases eq_or_ne p.rest [] with hr | hr
    · rw [markup_nil hr]
      exact Scan.fits_empty ..
    · have hpos := fst_item_pos hr
      have hlength := List.length_pos_of_ne_nil hr
      have hnext := h.move (item p).1
      have hrest := ih _ (by simp; omega) hnext rfl
      rw [markup_cons hr]
      exact (fits_item h).append hrest (p.offset_le_move _) hnext.isBoundary.le_size

def front? (u : Text) : Option Span :=
  (frontmatter u).map fun (blanks, body, _) => ⟨size blanks + 3, size blanks + 3 + size body⟩

lemma fits_fenced (u : Text) : (fenced u).Fits u (front? u) 0 (start u).offset := by
  rw [fenced, start, front?]
  cases h : frontmatter u with
  | none => exact Scan.fits_empty ..
  | some x =>
    obtain ⟨blanks, body, rest⟩ := x
    have hu := eq_append_of_frontmatter h
    have hbody : Text.From u (size blanks + 3) (body ++ ("---".toList ++ rest)) :=
      ⟨blanks ++ "---".toList, by simpa using hu, by simp [show '-'.utf8Size = 1 from rfl]⟩
    have hslice : Text.slice? u (size blanks + 3) (size blanks + 3 + size body) = some body :=
      Text.slice?_eq_some_iff.mpr ⟨by omega, _, hbody, rfl⟩
    have hfits := Scan.fits_region (f := some ⟨size blanks + 3, size blanks + 3 + size body⟩)
      (r := ⟨⟨size blanks + 3, size blanks + 3 + size body⟩, script, true⟩) hslice (by simp)
    exact hfits.mono (Nat.zero_le _) (by simp)

lemma fits_scan (u : Text) : (scan u).Fits u (front? u) 0 (size u) := by
  have hstart := isAt_start u
  rw [scan_eq_append]
  exact (fits_fenced u).append (fits_markup hstart) (Nat.zero_le _) hstart.isBoundary.le_size

end Astro
end MetaInline
