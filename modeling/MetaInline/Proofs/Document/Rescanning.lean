import Mathlib
import MetaInline.Proofs.Document.Component.Recovery
import MetaInline.Proofs.Document.EditedFrontmatter
import MetaInline.Proofs.Document.MarkupRereading

namespace MetaInline

open Segment (kept code printAll regions recode)
open Text (From size)
open Unicode (isBlank)

def editedCode (scan : Text → Scan) (table : BindingTable) (options : AnalysisOptions)
    (document : Text) : Region → Text :=
  Analysis.edited table options document (scan document).regions

/-- In the edited document the code is found that is the edited code of the document, in the same order and
to be read in the same way. -/
def Rescans (scan : Text → Scan) (table : BindingTable) (options : AnalysisOptions)
    (document : Text) : Prop :=
  let patched := Edit.applyAll document
    (Analysis.ofScan document (scan document) table options).edits
  (scan patched).regions.map (fun r => (r.text patched, r.dialect, r.allowReturn)) =
    (scan document).regions.map fun r =>
      (editedCode scan table options document r, r.dialect, r.allowReturn)

lemma Region.ordered_eq_of_pairwise {rs : List Region} (hle : ∀ r ∈ rs, r.span.start ≤ r.span.stop)
    (h : rs.Pairwise fun a b => a.span.stop ≤ b.span.start) : ordered rs = rs := by
  refine List.mergeSort_of_pairwise (h.imp_of_mem fun {a b} ha hb hab => ?_)
  have hal := hle a ha
  have hbl := hle b hb
  simp only [Bool.or_eq_true, Bool.and_eq_true, decide_eq_true_eq, beq_iff_eq]
  omega

namespace Segment

variable {xs : List Segment} {f : Region → Text} {document : Text} {offset : ℕ} {P : Text → Prop}

lemma puts_recode (h : From document offset (printAll xs))
    (hf : ∀ r ∈ regions offset xs, Edit.Puts P (r.text document) (f r)) :
    Edit.Puts P (printAll xs) (printAll (recode f offset xs)) := by
  induction xs generalizing offset with
  | nil => exact .nil
  | cons x xs ih =>
    cases x with
    | kept u =>
      have hrest : From document (offset + size u) (printAll xs) := h.drop
      exact (Edit.Puts.refl u).append (ih hrest hf)
    | code d a u =>
      obtain ⟨hu, hxs⟩ := List.forall_mem_cons.mp hf
      rw [text_region (u := u) h] at hu
      exact hu.append (ih h.drop hxs)

lemma applyAll_eq_printAll (table : BindingTable) (options : AnalysisOptions) {scan : Text → Scan}
    (hdocument : document = printAll xs) (hregions : (scan document).regions = regions 0 xs)
    (hin : ∀ r ∈ (scan document).regions, r.span.IsIn document)
    (h : (scan document).regions.Pairwise fun a b => a.span.stop ≤ b.span.start) :
    Edit.applyAll document (Analysis.ofScan document (scan document) table options).edits =
      printAll (recode (editedCode scan table options document) 0 xs) := by
  have hapart : (scan document).regions.Pairwise fun a b => a.span.Apart b.span := h.imp Or.inl
  have hfrom : From document 0 (printAll xs) := hdocument ▸ From.self document
  have hordered := Region.ordered_eq_of_pairwise (fun r hr => (hin r hr).le) h
  rw [Analysis.applyAll_ofScan_eq table options hin hapart, hordered]
  change spliced document (editedCode scan table options document) 0 (scan document).regions = _
  rw [hregions, spliced_recode hfrom]

end Segment

namespace Astro

structure Contained (r : Region) (v : Text) : Prop where
  content : r.allowReturn = false → r.dialect = script →
    ¬ '<' :: '/' :: RawKind.script.word <:+: v.map Char.toLower
  braces : r.dialect = expression → Brace.Closed .braces (v.map Brace.Sign.ofChar)

variable {document u blanks body rest : Text} {xs : List Segment} {f : Region → Text} {p q : Place}

lemma inert_of_contained (hp : p.IsAt document)
    (hputs : ∀ r ∈ p.markup.regions, Edit.Puts Solid (r.text document) (f r))
    (hf : ∀ r ∈ p.markup.regions, Contained r (f r)) :
    ∀ r ∈ p.markup.regions, Inert r.dialect (f r) := by
  intro r hr
  obtain ⟨hreturn, hblank⟩ := ((fits_markup (f := none) hp).nonblank r hr).resolve_right nofun
  exact ⟨(hputs r hr).all_isBlank hblank, (hf r hr).content hreturn, (hf r hr).braces⟩

lemma exists_start (h : frontmatter u = some (blanks, body, rest)) :
    ∃ b, start u = ⟨size blanks + 3 + size body + 3, '-' :: b, rest⟩ := by
  obtain ⟨b, hb⟩ : ∃ b, start u = ⟨size blanks + 3 + size body + 3, b, rest⟩ := by
    rw [start, h]
    exact ⟨_, rfl⟩
  have hsplit := (isAt_start u).text
  rw [hb, eq_append_of_frontmatter h] at hsplit
  have hall : b.reverse ++ rest = (blanks ++ ("---".toList ++ (body ++ "---".toList))) ++ rest := by
    simpa using hsplit.symm
  rw [hb, ← b.reverse_reverse, List.append_cancel_right hall]
  exact ⟨'-' :: '-' :: (body.reverse ++ '-' :: '-' :: '-' :: blanks.reverse), by simp⟩

section

variable (h : Stable EndsToo ReadsAll p xs []) (hf : ∀ r ∈ p.markup.regions, Inert r.dialect (f r))

include h hf

lemma replaced_recode : Replaced xs (recode f p.offset xs) := by
  obtain ⟨-, hregions⟩ := h.reads id
  exact Segment.becomes_recode (hregions ▸ hf)

lemma follow_recode : Follow p.rest (printAll (recode f p.offset xs)) := by
  have hopen := h.opens _ [] (replaced_recode h hf) id
  rwa [← h.rest, List.append_nil] at hopen

lemma regions_markup_recode (hrest : q.rest = printAll (recode f p.offset xs))
    (hbefore : Precede p.before q.before) :
    q.markup.regions = regions q.offset (recode f p.offset xs) :=
  (h.again _ q [] (replaced_recode h hf) (by simpa using hrest) id hbefore).2

end

structure Segmented (document : Text) (xs : List Segment) : Prop where
  text : document = printAll xs
  regions : (scan document).regions = regions 0 xs
  recoded (f : Region → Text) :
    (∀ r ∈ (scan document).regions, Edit.Puts Solid (r.text document) (f r)) →
    (∀ r ∈ (scan document).regions, Contained r (f r)) →
    (scan (printAll (recode f 0 xs))).regions = Segment.regions 0 (recode f 0 xs)

lemma scan_of_frontmatter_eq_none (h : frontmatter u = none) : scan u = Place.markup ⟨0, [], u⟩ := by
  rw [scan, h]
  rfl

lemma segmented_of_eq_none (hfront : frontmatter document = none)
    (h : Stable EndsToo ReadsAll ⟨0, [], document⟩ xs []) : Segmented document xs := by
  have htext : document = printAll xs := by simpa using h.rest
  have hscan := scan_of_frontmatter_eq_none hfront
  have hregions : (scan document).regions = regions 0 xs := hscan ▸ (h.reads id).2
  refine ⟨htext, hregions, fun f hputs hf => ?_⟩
  have hall : Edit.Puts Solid document (printAll (recode f 0 xs)) := by
    have hfrom : From document 0 (printAll xs) := htext ▸ From.self document
    have hrecode := Segment.puts_recode hfrom (hregions ▸ hputs)
    rwa [← htext] at hrecode
  rw [hscan] at hputs hf
  have hinert := inert_of_contained (p := ⟨0, [], document⟩) ⟨rfl, rfl⟩ hputs hf
  rw [scan_of_frontmatter_eq_none (frontmatter_eq_none_of_puts hall hfront)]
  exact regions_markup_recode (q := ⟨0, [], _⟩) h hinert rfl (.refl _)

lemma segmented_of_eq_some (hfront : frontmatter document = some (blanks, body, rest))
    (h : Stable EndsToo ReadsAll (start document) xs []) :
    Segmented document
      (kept (blanks ++ "---".toList) :: code script true body :: kept "---".toList :: xs) := by
  obtain ⟨b, hstart⟩ := exists_start hfront
  have hin := isAt_start document
  rw [hstart] at h hin
  have hrest : rest = printAll xs := by simpa using h.rest
  have htext := eq_append_of_frontmatter hfront
  have hdashes : size "---".toList = 3 := rfl
  have hopening : 0 + size (blanks ++ "---".toList) = size blanks + 3 := by
    rw [Text.size_append, hdashes, Nat.zero_add]
  set front : Region := ⟨⟨size blanks + 3, size blanks + 3 + size body⟩, script, true⟩ with hregion
  have hscan {u b r : Text} (h : frontmatter u = some (blanks, b, r)) : (scan u).regions =
      ⟨⟨size blanks + 3, size blanks + 3 + size b⟩, script, true⟩ :: (start u).markup.regions := by
    rw [scan_eq_append, fenced, h]
    rfl
  have hdocument := hscan hfront
  rw [hstart] at hdocument
  refine ⟨by simp [htext, hrest], ?_, fun f hputs hf => ?_⟩
  · rw [hdocument, (h.reads id).2, regions, regions, regions, hopening, hdashes]
  · rw [hdocument] at hputs hf
    obtain ⟨hbody, hputs⟩ := List.forall_mem_cons.mp hputs
    obtain ⟨-, hf⟩ := List.forall_mem_cons.mp hf
    have hfrom : From document (size blanks + 3) (body ++ ("---".toList ++ rest)) :=
      ⟨blanks ++ "---".toList, by simp [htext], by rw [Text.size_append, hdashes]⟩
    rw [Segment.text_region hfrom] at hbody
    have hinert := inert_of_contained hin hputs hf
    set ys := recode f (size blanks + 3 + size body + 3) xs with hys
    have hcode : recode f 0 (kept (blanks ++ "---".toList) :: code script true body ::
        kept "---".toList :: xs) = kept (blanks ++ "---".toList) :: code script true (f front) ::
          kept "---".toList :: ys := by
      rw [recode, recode, recode, hopening, hdashes]
    have hfront' := frontmatter_of_puts hfront hbody (follow_recode h hinert)
    have hprint : printAll (kept (blanks ++ "---".toList) :: code script true (f front) ::
        kept "---".toList :: ys) = blanks ++ ("---".toList ++ (f front ++ ("---".toList ++
          printAll ys))) := by simp
    obtain ⟨b', hstart'⟩ := exists_start hfront'
    rw [hcode, hprint, hscan hfront', hstart',
      regions_markup_recode h hinert rfl (.of_sign (.inr (.inr rfl)) _ _)]
    rw [regions, regions, regions, hopening, hdashes]

lemma exists_segmented (document : Text) : ∃ xs, Segmented document xs := by
  obtain ⟨xs, hxs⟩ := exists_stable_markup (start document)
  cases hfront : frontmatter document with
  | none =>
    rw [start, hfront] at hxs
    exact ⟨xs, segmented_of_eq_none hfront hxs⟩
  | some x => exact ⟨_, segmented_of_eq_some hfront hxs⟩

lemma rescans_scan (table : BindingTable) (options : AnalysisOptions) (document : Text)
    (hf : ∀ r ∈ (scan document).regions, Contained r (editedCode scan table options document r)) :
    Rescans scan table options document := by
  obtain ⟨xs, hxs⟩ := exists_segmented document
  have hfits := fits_scan document
  have hpatched :=
    Segment.applyAll_eq_printAll table options hxs.text hxs.regions hfits.isIn hfits.sorted
  have hregions := hxs.recoded (editedCode scan table options document)
    (fun r _ => Analysis.puts_edited table options document _ r) hf
  rw [Rescans, hpatched, hregions, hxs.regions]
  exact Segment.map_regions_recode (From.self _)

end Astro

namespace Component

structure Contained (v : Text) : Prop where
  content : ¬ Closes v
  comment : ¬ "<!--".toList <:+: v

variable {u v w word : Text} {c : Char} {xs ys : List Segment}

lemma infix_append_cons_iff (hc : c ∉ word) :
    word <:+: u ++ c :: v ↔ word <:+: u ∨ word <:+: v := by
  constructor
  · rintro ⟨x, y, hxy⟩
    rw [List.append_assoc] at hxy
    rcases List.append_eq_append_iff.mp hxy with ⟨z, rfl, hz⟩ | ⟨z, rfl, hz⟩
    · -- The word begins in the first text, and does not reach the sign.
      rcases List.append_eq_append_iff.mp hz with ⟨t, rfl, -⟩ | ⟨t, rfl, ht⟩
      · exact .inl ⟨x, t, by simp⟩
      · cases t with
        | nil => exact .inl ⟨x, [], by simp⟩
        | cons d t =>
          obtain ⟨rfl, -⟩ := List.cons_eq_cons.mp ht
          simp at hc
    · cases z with
      | nil =>
        cases word with
        | nil => exact .inl List.nil_infix
        | cons d word =>
          obtain ⟨rfl, -⟩ := List.cons_eq_cons.mp hz
          simp at hc
      | cons d z =>
        obtain ⟨rfl, rfl⟩ := List.cons_eq_cons.mp hz
        exact .inr ⟨z, y, by simp⟩
  · rintro (h | h)
    · exact h.trans (List.prefix_append u _).isInfix
    · exact h.trans ((List.suffix_cons c v).trans (List.suffix_append u _)).isInfix

lemma infix_append_iff (hc : c ∉ word) (hv : v = [] ∨ v.head? = some c) :
    c :: word <:+: u ++ v ↔ c :: word <:+: u ∨ c :: word <:+: v := by
  constructor
  · intro h
    induction u with
    | nil => exact .inr h
    | cons d u ih =>
      rcases List.infix_cons_iff.mp h with hpre | hin
      · exact .inl (prefix_of_append (u := d :: u) hc (List.cons_ne_nil d u) hpre hv).isInfix
      · exact (ih hin).imp_left fun hin => hin.trans (List.suffix_cons d u).isInfix
  · rintro (h | h)
    · exact h.trans (List.prefix_append u v).isInfix
    · exact h.trans (List.suffix_append u v).isInfix

abbrev Suits (_ : Script.Dialect) (_ : Bool) (v : Text) : Prop :=
  v.all isBlank = false ∧ Contained v

def ScriptElement.segment (e : ScriptElement) : Segment :=
  if e.isCode then code ⟨true, e.hasMarkup, .module, false⟩ false e.body else kept e.body

lemma ScriptElement.exists_of_becomes {e : ScriptElement} {y : Segment}
    (h : Segment.Becomes Suits e.segment y) : ∃ e' : ScriptElement, y = e'.segment ∧
      e'.opening = e.opening ∧ ("<!--".toList <:+: e'.body → "<!--".toList <:+: e.body) := by
  rw [segment] at h
  split at h
  · next hcode =>
    cases h with
    | code _ hv =>
      obtain ⟨hblank, hv⟩ := hv
      refine ⟨{ e with body := _, isOpen := hv.content }, ?_, rfl, fun hin => absurd hin hv.comment⟩
      rw [isCode, Bool.and_eq_true] at hcode
      rw [segment, isCode, hcode.1, hblank]
      rfl
  · next hcode =>
    cases h
    exact ⟨e, by rw [segment, if_neg hcode], rfl, id⟩

namespace Parts

def segments (parts : Parts) : List Segment :=
  parts.flatMap fun (e, gap) => [kept e.opening, e.segment, kept (ScriptElement.closing ++ gap.text)]

lemma printAll_segments (parts : Parts) : printAll parts.segments = parts.print := by
  induction parts with
  | nil => rfl
  | cons part parts ih =>
    obtain ⟨e, gap⟩ := part
    have htext : e.segment.text = e.body := by
      rw [ScriptElement.segment]
      split <;> rfl
    rw [segments] at ih ⊢
    rw [List.flatMap_cons, Segment.printAll_append, ih]
    simp [htext, print, ScriptElement.print]

lemma regions_segments (offset : ℕ) (parts : Parts) : regions offset parts.segments =
    ((parts.placed offset).filter fun x => x.2.isCode).map fun x => x.2.region x.1 := by
  induction parts generalizing offset with
  | nil => rfl
  | cons part parts ih =>
    obtain ⟨e, gap⟩ := part
    have hnext : offset + size e.opening + size e.body + size (ScriptElement.closing ++ gap.text) =
        offset + size e.print + size gap.text := by
      simp [ScriptElement.print, Nat.add_assoc]
    have hsegments : segments ((e, gap) :: parts) = kept e.opening :: e.segment ::
        kept (ScriptElement.closing ++ gap.text) :: segments parts := rfl
    rw [hsegments, placed, List.filter_cons, regions, ScriptElement.segment]
    dsimp only
    split
    · rw [regions, regions, hnext, ih]
      rfl
    · rw [regions, regions, hnext, ih]

lemma infix_print_cons_iff (e : ScriptElement) (gap : Gap) (parts : Parts) :
    "<!--".toList <:+: print ((e, gap) :: parts) ↔ "<!--".toList <:+: e.opening ∨
      "<!--".toList <:+: e.body ∨ "<!--".toList <:+: gap.text ∨ "<!--".toList <:+: print parts := by
  have hgt : '>' ∉ "<!--".toList := by decide
  have hless : '<' ∉ "!--".toList := by decide
  have hnone : ¬ "<!--".toList <:+: [] := by decide
  have hclosing : ¬ "<!--".toList <:+: '<' :: '/' :: scriptWord := by decide
  obtain ⟨front, hopening⟩ : ∃ front, e.opening = front ++ ['>'] :=
    ⟨'<' :: (scriptWord ++ e.attributes.flatMap Attribute.print), by simp [ScriptElement.opening]⟩
  have hprint : print ((e, gap) :: parts) = front ++ '>' :: (e.body ++ (ScriptElement.closing ++
      (gap.text ++ print parts))) := by
    simp [print, ScriptElement.print, hopening]
  have hlast : ScriptElement.closing ++ (gap.text ++ print parts) =
      ('<' :: '/' :: scriptWord) ++ '>' :: (gap.text ++ print parts) := by
    simp [ScriptElement.closing]
  have hbody : "<!--".toList <:+: e.body ++ (ScriptElement.closing ++ (gap.text ++ print parts)) ↔
      "<!--".toList <:+: e.body ∨
        "<!--".toList <:+: ScriptElement.closing ++ (gap.text ++ print parts) :=
    infix_append_iff hless (.inr rfl)
  have hgap : "<!--".toList <:+: gap.text ++ print parts ↔
      "<!--".toList <:+: gap.text ∨ "<!--".toList <:+: print parts :=
    infix_append_iff hless (head?_print parts)
  rw [hprint, infix_append_cons_iff hgt, hbody, hlast, infix_append_cons_iff hgt, hgap, hopening,
    infix_append_cons_iff hgt, or_iff_left hnone, or_iff_right hclosing]

lemma exists_of_becomes {parts : Parts} (h : List.Forall₂ (Segment.Becomes Suits) parts.segments ys) :
    ∃ parts' : Parts, ys = parts'.segments ∧
      ("<!--".toList <:+: parts'.print → "<!--".toList <:+: parts.print) := by
  induction parts generalizing ys with
  | nil =>
    cases h
    exact ⟨[], rfl, id⟩
  | cons part parts ih =>
    obtain ⟨e, gap⟩ := part
    cases h with
    | cons hopening h =>
    cases h with
    | cons hbody h =>
    cases h with
    | cons hclosing h =>
    cases hopening
    cases hclosing
    obtain ⟨e', rfl, hsame, hcomment⟩ := ScriptElement.exists_of_becomes hbody
    obtain ⟨parts', rfl, hrest⟩ := ih h
    refine ⟨(e', gap) :: parts', ?_, ?_⟩
    · rw [← hsame]
      rfl
    · rw [infix_print_cons_iff, infix_print_cons_iff, hsame]
      exact Or.imp_right (Or.imp hcomment (Or.imp_right hrest))

end Parts

namespace Document

def segments (d : Document) : List Segment :=
  kept d.front.text :: d.parts.segments

lemma printAll_segments (d : Document) : printAll d.segments = d.print := by
  rw [segments, Segment.printAll_cons, d.parts.printAll_segments]
  rfl

lemma regions_segments (d : Document) : regions 0 d.segments = d.code.regions := by
  rw [segments, regions, Nat.zero_add, Parts.regions_segments]
  rfl

lemma exists_of_becomes {d : Document} (h : List.Forall₂ (Segment.Becomes Suits) d.segments ys) :
    ∃ d' : Document, ys = d'.segments := by
  cases h with
  | cons hfront h =>
    cases hfront
    obtain ⟨parts', rfl, hcomment⟩ := Parts.exists_of_becomes h
    have hless : '<' ∉ "!--".toList := by decide
    have hsplit (parts : Parts) : "<!--".toList <:+: d.front.text ++ parts.print ↔
        "<!--".toList <:+: d.front.text ∨ "<!--".toList <:+: parts.print :=
      infix_append_iff hless parts.head?_print
    refine ⟨⟨d.front, parts', fun hin => d.noComment ?_⟩, rfl⟩
    exact (hsplit d.parts).mpr (((hsplit parts').mp hin).imp_right hcomment)

end Document

lemma rescans_scan (table : BindingTable) (options : AnalysisOptions) (d : Document)
    (hf : ∀ r ∈ (scan d.print).regions, Contained (editedCode scan table options d.print r)) :
    Rescans scan table options d.print := by
  have hfits := fits_scan d.print
  have hregions : (scan d.print).regions = regions 0 d.segments := by
    rw [d.scan_document, d.regions_segments]
  have hpatched := Segment.applyAll_eq_printAll table options d.printAll_segments.symm hregions
    hfits.isIn hfits.sorted
  have hbecomes : List.Forall₂ (Segment.Becomes Suits) d.segments
      (recode (editedCode scan table options d.print) 0 d.segments) := by
    apply Segment.becomes_recode
    rw [← hregions]
    intro r hr
    obtain ⟨-, hblank⟩ := (hfits.nonblank r hr).resolve_right nofun
    exact ⟨(Analysis.puts_edited table options d.print _ r).all_isBlank hblank, hf r hr⟩
  obtain ⟨d', hd'⟩ := Document.exists_of_becomes hbecomes
  have hscan : (scan (printAll (recode (editedCode scan table options d.print) 0 d.segments))).regions =
      regions 0 (recode (editedCode scan table options d.print) 0 d.segments) := by
    rw [hd', d'.printAll_segments, d'.scan_document, d'.regions_segments]
  rw [Rescans, hpatched, hscan, hregions]
  exact Segment.map_regions_recode (From.self _)

end Component

/-- The code of an edited document is the edited code of the document, as long as no edited code holds what
ends the code around it: in an Astro document the end tag of a script, or in an expression braces that are
not closed; in a component of text and script elements a closing tag, or the sign that opens a comment. -/
theorem scan_edited (table : BindingTable) (options : AnalysisOptions) :
    (∀ document, (∀ r ∈ (Astro.scan document).regions,
        Astro.Contained r (editedCode Astro.scan table options document r)) →
      Rescans Astro.scan table options document) ∧
    ∀ d : Component.Document, (∀ r ∈ (Component.scan d.print).regions,
        Component.Contained (editedCode Component.scan table options d.print r)) →
      Rescans Component.scan table options d.print :=
  ⟨Astro.rescans_scan table options, Component.rescans_scan table options⟩

theorem scan_edited_string :
    let table : BindingTable :=
      ⟨[("s", .value (.literal (.string "\x7d"))), ("t", .value (.literal (.string "</script>")))]⟩
    let options : AnalysisOptions := ⟨.standard, true, false⟩
    let document := "---\nimport.meta.t\n---\n\x7bimport.meta.s\x7d".toList
    (∀ r ∈ (Astro.scan document).regions,
        Astro.Contained r (editedCode Astro.scan table options document r)) ∧
      Rescans Astro.scan table options document ∧
      ∃ d : Component.Document, d.print = "<script>import.meta.s</script>".toList ∧
        (∀ r ∈ (Component.scan d.print).regions,
          Component.Contained (editedCode Component.scan table options d.print r)) ∧
        Rescans Component.scan table options d.print := by
  intro table options document
  obtain ⟨hastro, hcomponent⟩ := scan_edited table options
  have hcontained : ∀ r ∈ (Astro.scan document).regions,
      Astro.Contained r (editedCode Astro.scan table options document r) := by
    have hregions : (Astro.scan document).regions =
        [⟨⟨3, 18⟩, Astro.script, true⟩, ⟨⟨23, 36⟩, Astro.expression, false⟩] := by decide +kernel
    have hexpression : editedCode Astro.scan table options document
        ⟨⟨23, 36⟩, Astro.expression, false⟩ = "\"\x7d\"".toList := by decide +kernel
    have hclosed : Brace.Closed .braces ("\"\x7d\"".toList.map Brace.Sign.ofChar) :=
      (Brace.size?_eq_length_iff (l := '{') (r := '}') rfl rfl "\"\x7d\"".toList []).mp (by decide)
    rw [hregions]
    intro r hr
    obtain rfl | rfl := List.mem_pair.mp hr
    · exact ⟨nofun, fun h => absurd h (by decide)⟩
    · exact ⟨fun _ h => absurd h (by decide), fun _ => hexpression ▸ hclosed⟩
  have hless {v : Text} (h : '<' ∉ v) : ¬ Component.Closes v ∧ ¬ Component.Opens v := by
    refine ⟨?_, ?_⟩
    · rintro ⟨w, blanks, -, -, hin⟩
      exact h (hin.subset List.mem_cons_self)
    · rintro ⟨w, -, hin⟩
      exact h (hin.subset List.mem_cons_self)
  obtain ⟨d, hprint⟩ : ∃ d : Component.Document, d.print = "<script>import.meta.s</script>".toList := by
    let e : Component.ScriptElement :=
      ⟨[], List.nodup_nil, "import.meta.s".toList, (hless (by decide)).1⟩
    let none : Component.Gap := ⟨[], (hless List.not_mem_nil).2⟩
    have hcomment : ¬ "<!--".toList <:+: "<script>import.meta.s</script>".toList := by decide
    exact ⟨⟨none, [(e, none)], hcomment⟩, rfl⟩
  have hbody : ∀ r ∈ (Component.scan d.print).regions,
      Component.Contained (editedCode Component.scan table options d.print r) := by
    have hregions : (Component.scan "<script>import.meta.s</script>".toList).regions =
        [⟨⟨8, 21⟩, ⟨true, false, .module, false⟩, false⟩] := by decide +kernel
    have hedited : editedCode Component.scan table options "<script>import.meta.s</script>".toList
        ⟨⟨8, 21⟩, ⟨true, false, .module, false⟩, false⟩ = "\"\x7d\"".toList := by decide +kernel
    rw [hprint, hregions, List.forall_mem_singleton, hedited]
    exact ⟨(hless (by decide)).1, by decide⟩
  exact ⟨hcontained, hastro document hcontained, d, hprint, hbody, hcomponent d hbody⟩

end MetaInline
