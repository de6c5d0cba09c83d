import Mathlib
import MetaInline.Document.Component
import MetaInline.Proofs.Document.Refinement
import MetaInline.Proofs.Document.Regions
import MetaInline.Proofs.Document.Splicing

namespace MetaInline

open Text (size)
open Unicode (isBlank)

namespace Component

variable {u : Text}

lemma exists_append_of_dropWord? {word u r : Text} (h : dropWord? word u = some r) :
    ∃ w, u = w ++ r ∧ w.length = word.length := by
  induction word generalizing u with
  | nil => exact ⟨[], by simpa [dropWord?] using h, rfl⟩
  | cons x word ih =>
    cases u with
    | nil => simp [dropWord?] at h
    | cons c u =>
      rw [dropWord?] at h
      split at h
      · obtain ⟨w, rfl, hlen⟩ := ih h
        exact ⟨c :: w, rfl, by simp [hlen]⟩
      · cases h

lemma eq_append_of_splitTag {quote : Option Char} {u attributes rest : Text}
    (h : splitTag quote u = some (attributes, rest)) : u = attributes ++ '>' :: rest := by
  induction u generalizing quote attributes with
  | nil => cases quote <;> simp [splitTag] at h
  | cons c cs ih =>
    cases quote with
    | some q =>
      rw [splitTag] at h
      obtain ⟨⟨a, r⟩, hx, heq⟩ := Option.map_eq_some_iff.mp h
      obtain ⟨rfl, rfl⟩ := Prod.mk.inj heq
      simp [ih hx]
    | none =>
      rw [splitTag] at h
      split at h
      · next hc =>
        obtain ⟨rfl, rfl⟩ := Prod.mk.inj (Option.some.inj h)
        rw [hc]
        rfl
      · obtain ⟨⟨a, r⟩, hx, heq⟩ := Option.map_eq_some_iff.mp h
        obtain ⟨rfl, rfl⟩ := Prod.mk.inj heq
        simp [ih hx]

lemma exists_append_of_dropClosing? {u rest : Text} (h : dropClosing? u = some rest) :
    ∃ closing, u = closing ++ rest := by
  rw [dropClosing?] at h
  obtain ⟨r, hr, h⟩ := Option.bind_eq_some_iff.mp h
  obtain ⟨r', hr', h⟩ := Option.bind_eq_some_iff.mp h
  obtain ⟨w, hw, -⟩ := exists_append_of_dropWord? hr'
  have hblank := List.takeWhile_append_dropWhile (p := isBlank) (l := r')
  split at h
  · next hgt =>
    obtain rfl := Option.some.inj h
    rw [Text.eq_append_of_dropFront? hr, hw, ← hblank, hgt]
    exact ⟨"</".toList ++ (w ++ (r'.takeWhile isBlank ++ ['>'])), by simp⟩
  · cases h

lemma exists_append_of_splitContent {u body rest : Text} (h : splitContent u = some (body, rest)) :
    ∃ closing, u = body ++ (closing ++ rest) := by
  induction u generalizing body with
  | nil => cases h
  | cons c cs ih =>
    rw [splitContent] at h
    cases hd : dropClosing? (c :: cs) with
    | some r =>
      rw [hd] at h
      obtain ⟨rfl, rfl⟩ := Prod.mk.inj (Option.some.inj h)
      exact exists_append_of_dropClosing? hd
    | none =>
      rw [hd] at h
      obtain ⟨⟨b, r⟩, hx, heq⟩ := Option.map_eq_some_iff.mp h
      obtain ⟨rfl, rfl⟩ := Prod.mk.inj heq
      obtain ⟨closing, hcs⟩ := ih hx
      exact ⟨closing, by rw [hcs]; rfl⟩

lemma exists_append_of_splitScript? {e : Element} (h : splitScript? u = some e) :
    ∃ opening closing, u = opening ++ (e.body ++ (closing ++ e.rest)) ∧
      opening.length = e.tagLength ∧ 0 < e.tagLength := by
  rw [splitScript?] at h
  obtain ⟨r, hr, h⟩ := Option.bind_eq_some_iff.mp h
  obtain ⟨r', hr', h⟩ := Option.bind_eq_some_iff.mp h
  obtain ⟨-, -, h⟩ := Option.bind_eq_some_iff.mp h
  obtain ⟨⟨attributes, r''⟩, htag, h⟩ := Option.bind_eq_some_iff.mp h
  obtain ⟨⟨body, rest⟩, hbody, h⟩ := Option.bind_eq_some_iff.mp h
  obtain rfl := Option.some.inj h
  obtain rfl := Text.eq_append_of_dropFront? hr
  obtain ⟨w, rfl, -⟩ := exists_append_of_dropWord? hr'
  obtain rfl := eq_append_of_splitTag htag
  obtain ⟨closing, rfl⟩ := exists_append_of_splitContent hbody
  refine ⟨'<' :: (w ++ (attributes ++ ['>'])), closing, by simp, ?_, ?_⟩
  · simp
    omega
  · simp
    omega

lemma scripts_skip (k offset : ℕ) (v : Text) :
    scripts k offset v = scripts 0 (offset + size (v.take k)) (v.drop k) := by
  induction v generalizing k offset with
  | nil => cases k <;> simp [scripts]
  | cons c cs ih =>
    cases k with
    | zero => simp
    | succ k =>
      rw [scripts, ih]
      simp [Nat.add_assoc]

lemma scripts_element {v : Text} {e : Element} (h : splitScript? v = some e) (offset : ℕ) :
    ∃ opening closing, v = opening ++ (e.body ++ (closing ++ e.rest)) ∧ 0 < opening.length ∧
      scripts 0 offset v = (offset, ⟨⟨offset + size opening, offset + size opening + size e.body⟩,
        readAttributes 0 [] e.attributes⟩) ::
          scripts 0 (offset + size opening + size e.body + size closing) e.rest := by
  obtain ⟨opening, closing, heq, hlen, hpos⟩ := exists_append_of_splitScript? h
  refine ⟨opening, closing, heq, hlen ▸ hpos, ?_⟩
  cases opening with
  | nil => simp at hlen; omega
  | cons c front =>
    subst heq
    have hsplit : front ++ (e.body ++ (closing ++ e.rest)) =
        (front ++ (e.body ++ closing)) ++ e.rest := by simp
    have hskip : (front ++ (e.body ++ (closing ++ e.rest))).length - e.rest.length =
        (front ++ (e.body ++ closing)).length := by
      simp
      omega
    have htake : (c :: front ++ (e.body ++ (closing ++ e.rest))).take e.tagLength = c :: front := by
      rw [← hlen, List.take_left]
    rw [List.cons_append] at h htake ⊢
    rw [scripts, h]
    dsimp only
    rw [htake, scripts_skip, hskip, hsplit, List.take_left, List.drop_left]
    simp [Nat.add_assoc]

lemma scripts_spec {offset : ℕ} {v : Text} (h : Text.From u offset v) :
    (∀ x ∈ scripts 0 offset v, offset ≤ x.2.span.start ∧ x.2.span.IsIn u) ∧
      (scripts 0 offset v).Pairwise fun x y => x.2.span.stop ≤ y.2.span.start := by
  induction hl : v.length using Nat.strong_induction_on generalizing offset v with
  | _ l ih =>
    cases he : splitScript? v with
    | none =>
      cases v with
      | nil => simp [scripts]
      | cons c cs =>
        obtain ⟨hmem, hpair⟩ := ih cs.length (by simp [← hl]) h.drop_cons rfl
        rw [scripts, he]
        exact ⟨fun x hx => ⟨(Nat.le_add_right ..).trans (hmem x hx).1, (hmem x hx).2⟩, hpair⟩
    | some e =>
      obtain ⟨opening, closing, rfl, hpos, hscripts⟩ := scripts_element he offset
      have hopen := h.drop
      have hclose := hopen.drop
      obtain ⟨hmem, hpair⟩ := ih e.rest.length (by simp at hl; omega) hclose.drop rfl
      simp only [hscripts, List.pairwise_cons, List.forall_mem_cons]
      refine ⟨⟨⟨Nat.le_add_right .., ?_⟩, fun x hx => ?_⟩, fun x hx => ?_, hpair⟩
      · exact ⟨Nat.le_add_right .., hopen.isBoundary, hclose.isBoundary⟩
      · obtain ⟨hle, hin⟩ := hmem x hx
        exact ⟨by omega, hin⟩
      · exact (Nat.le_add_right ..).trans (hmem x hx).1

lemma scriptBlocks_spec (u : Text) : (∀ b ∈ scriptBlocks u, b.span.IsIn u) ∧
    (scriptBlocks u).Pairwise fun a b => a.span.stop ≤ b.span.start := by
  obtain ⟨hmem, hpair⟩ := scripts_spec (Text.From.self u)
  rw [scriptBlocks]
  refine ⟨fun b hb => ?_, List.pairwise_map.mpr (hpair.filter _)⟩
  obtain ⟨x, hx, rfl⟩ := List.mem_map.mp hb
  exact (hmem x (List.mem_of_mem_filter hx)).2

def regions? (u : Text) : List ScriptBlock → Option (List Region)
  | [] => some []
  | b :: bs =>
    if b.isExternal then regions? u bs
    else do
      let body ← Text.slice? u b.span.start b.span.stop
      let rest ← regions? u bs
      if body.all isBlank then return rest
      else return ⟨b.span, Module.dialectOfLang b.lang?, false⟩ :: rest

def checkedScan (u : Text) : Option Scan := do
  let regions ← regions? u (scriptBlocks u)
  return ⟨regions, []⟩

lemma regions?_eq {bs : List ScriptBlock} (h : ∀ b ∈ bs, b.span.IsIn u) :
    regions? u bs = some ((bs.filter fun b =>
      !b.isExternal && !((Text.slice? u b.span.start b.span.stop).getD []).all isBlank).map fun b =>
        ⟨b.span, Module.dialectOfLang b.lang?, false⟩) := by
  induction bs with
  | nil => rfl
  | cons b bs ih =>
    obtain ⟨hb, hbs⟩ := List.forall_mem_cons.mp h
    obtain ⟨body, w, hfrom, hstop⟩ := hb.exists_from
    have hslice := Text.slice?_eq_some_iff.mpr ⟨hb.le, w, hfrom, hstop⟩
    rw [regions?, ih hbs, List.filter_cons, hslice]
    simp only [Option.bind_eq_bind, Option.bind_some, Option.getD_some]
    by_cases hext : b.isExternal = true <;> by_cases hblank : body.all isBlank = true <;>
      simp only [hext, hblank, if_true, if_false, Bool.not_true, Bool.and_false,
        Bool.not_false, Bool.and_true, Bool.false_eq_true] <;> rfl

lemma checkedScan_eq (u : Text) : checkedScan u = some (scan u) := by
  rw [checkedScan, regions?_eq (scriptBlocks_spec u).1]
  rfl

lemma fits_scan (u : Text) : (scan u).Fits u none 0 (size u) := by
  obtain ⟨hin, hpair⟩ := scriptBlocks_spec u
  have hregion : ∀ r ∈ (scan u).regions, ∃ b ∈ scriptBlocks u, b.span = r.span ∧
      r.allowReturn = false ∧ ∃ c ∈ r.text u, isBlank c = false := by
    intro r hr
    obtain ⟨b, hb, rfl⟩ := List.mem_map.mp hr
    obtain ⟨hb, hkeep⟩ := List.mem_filter.mp hb
    exact ⟨b, hb, rfl, rfl, by simpa [Region.text] using (Bool.and_eq_true_iff.mp hkeep).2⟩
  constructor
  · intro r hr
    obtain ⟨b, hb, hspan, -⟩ := hregion r hr
    exact hspan ▸ hin b hb
  · intro r hr
    obtain ⟨b, hb, hspan, -⟩ := hregion r hr
    exact hspan ▸ ⟨Nat.zero_le _, (hin b hb).stop.le_size⟩
  · exact List.pairwise_map.mpr (hpair.filter _)
  · intro r hr
    obtain ⟨b, hb, -, hc⟩ := hregion r hr
    exact Or.inl hc
  · simp [scan]
  · simp [scan]

end Component

/-- Any document is read in full, by steps that stay inside it. Its code stands in order in ranges of the
document; none is blank but the frontmatter of an Astro document. The braces that are told stand apart
from the code. -/
theorem exists_scan_fits (u : Text) :
    (∃ s, Astro.Checked.scan u = some s ∧ s = Astro.scan u ∧ s.Fits u (Astro.front? u) 0 (size u)) ∧
      ∃ s, Component.checkedScan u = some s ∧ s = Component.scan u ∧ s.Fits u none 0 (size u) ∧
        s.diagnostics = [] :=
  ⟨⟨_, Astro.Checked.scan_eq u, rfl, Astro.fits_scan u⟩,
    ⟨_, Component.checkedScan_eq u, rfl, Component.fits_scan u, rfl⟩⟩

theorem exists_scan_edited :
    let table : BindingTable := ⟨[("s", .value (.literal (.string "</script>")))]⟩
    let options : AnalysisOptions := ⟨.standard, true, false⟩
    let document := "<script>x = import.meta.s</script>".toList
    let scanned := Component.scan document
    let patched := Edit.applyAll document (Analysis.ofScan document scanned table options).edits
    (∀ r ∈ scanned.regions, (Script.parse r.dialect r.allowReturn (r.text document)).isSome) ∧
      scanned.regions.map (Analysis.edited table options document scanned.regions) =
        ["x = \"</script>\"".toList] ∧
      (Component.scan patched).regions.map (·.text patched) = ["x = \"".toList] := by
  decide +kernel

end MetaInline
