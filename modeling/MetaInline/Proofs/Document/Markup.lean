import Mathlib
import MetaInline.Document.Astro
import MetaInline.Proofs.Document.Brace
import MetaInline.Proofs.Text.Boundary

namespace MetaInline

namespace Text

lemma eq_append_of_cut? {word u s t : Text} (h : cut? word u = some (s, t)) : u = s ++ t := by
  induction u generalizing s with
  | nil => rw [cut?] at h; split at h <;> simp_all
  | cons c u ih =>
    rw [cut?] at h
    split at h
    · obtain ⟨rfl, rfl⟩ := Prod.mk.inj (Option.some.inj h)
      rfl
    · obtain ⟨⟨s', t'⟩, h', heq⟩ := Option.map_eq_some_iff.mp h
      obtain ⟨rfl, rfl⟩ := Prod.mk.inj heq
      simp [ih h']

lemma exists_append_of_cut? {word u s t : Text} (h : cut? word u = some (s, t)) :
    ∃ r, t = word ++ r := by
  induction u generalizing s with
  | nil =>
    rw [cut?] at h
    split at h
    · next hw => exact ⟨t, by simp [hw]⟩
    · cases h
  | cons c u ih =>
    rw [cut?] at h
    split at h
    · next hd =>
      obtain ⟨rfl, rfl⟩ := Prod.mk.inj (Option.some.inj h)
      obtain ⟨r, hr⟩ := Option.isSome_iff_exists.mp hd
      exact ⟨r, eq_append_of_dropFront? hr⟩
    · obtain ⟨⟨s', t'⟩, h', heq⟩ := Option.map_eq_some_iff.mp h
      obtain ⟨rfl, rfl⟩ := Prod.mk.inj heq
      exact ih h'

lemma takeWhile_append_cons {p : Char → Bool} {u : Text} {c : Char} (hu : ∀ d ∈ u, p d = true)
    (hc : p c = false) (v : Text) : (u ++ c :: v).takeWhile p = u := by
  rw [List.takeWhile_append_of_pos hu, List.takeWhile_cons, hc]
  simp

end Text

namespace Scan

@[simp] lemma regions_append (s s' : Scan) : (s ++ s').regions = s.regions ++ s'.regions := rfl
@[simp] lemma diagnostics_append (s s' : Scan) :
    (s ++ s').diagnostics = s.diagnostics ++ s'.diagnostics := rfl
@[simp] lemma regions_empty : Scan.empty.regions = [] := rfl
@[simp] lemma diagnostics_empty : Scan.empty.diagnostics = [] := rfl

@[ext] lemma ext {s s' : Scan} (hr : s.regions = s'.regions) (hd : s.diagnostics = s'.diagnostics) :
    s = s' := by
  cases s; cases s'; simp_all

@[simp] lemma empty_append (s : Scan) : Scan.empty ++ s = s := rfl
@[simp] lemma append_empty (s : Scan) : s ++ Scan.empty = s := by ext1 <;> simp

lemma append_assoc (r s t : Scan) : r ++ s ++ t = r ++ (s ++ t) := by ext1 <;> simp

end Scan

namespace Astro

open Text (size)

namespace Place

variable {u : Text} {p : Place}

@[simp] lemma move_zero (p : Place) : p.move 0 = p := by cases p; rfl

lemma move_nil {o : ℕ} {b : Text} (n : ℕ) : Place.move n ⟨o, b, []⟩ = ⟨o, b, []⟩ := by
  cases n <;> rfl

lemma move_succ {o : ℕ} {b cs : Text} {c : Char} (n : ℕ) :
    Place.move (n + 1) ⟨o, b, c :: cs⟩ = Place.move n ⟨o + c.utf8Size, c :: b, cs⟩ := rfl

@[simp] lemma rest_move (n : ℕ) (p : Place) : (p.move n).rest = p.rest.drop n := by
  obtain ⟨o, b, cs⟩ := p
  induction cs generalizing n o b with
  | nil => simp [move_nil]
  | cons c cs ih => cases n <;> simp [move_succ, ih]

@[simp] lemma offset_move (n : ℕ) (p : Place) :
    (p.move n).offset = p.offset + size (p.rest.take n) := by
  obtain ⟨o, b, cs⟩ := p
  induction cs generalizing n o b with
  | nil => simp [move_nil]
  | cons c cs ih => cases n <;> simp [move_succ, ih, Nat.add_assoc]

@[simp] lemma before_move (n : ℕ) (p : Place) :
    (p.move n).before = (p.rest.take n).reverse ++ p.before := by
  obtain ⟨o, b, cs⟩ := p
  induction cs generalizing n o b with
  | nil => simp [move_nil]
  | cons c cs ih => cases n <;> simp [move_succ, ih]

@[ext] lemma ext {p q : Place} (ho : p.offset = q.offset) (hb : p.before = q.before)
    (hr : p.rest = q.rest) : p = q := by
  cases p; cases q; simp_all

lemma move_move (m n : ℕ) (p : Place) : (p.move m).move n = p.move (m + n) := by
  obtain ⟨o, b, cs⟩ := p
  induction cs generalizing m o b with
  | nil => simp [move_nil]
  | cons c cs ih =>
    cases m with
    | zero => simp
    | succ m => rw [Nat.add_right_comm, move_succ, move_succ, ih]

structure IsAt (u : Text) (p : Place) : Prop where
  text : u = p.before.reverse ++ p.rest
  offset : p.offset = size p.before.reverse

lemma IsAt.move (h : p.IsAt u) (n : ℕ) : (p.move n).IsAt u := by
  refine ⟨?_, ?_⟩
  · simp [h.text]
  · simp [h.offset]

lemma IsAt.eq_of_rest {q : Place} (hp : p.IsAt u) (hq : q.IsAt u) (h : p.rest = q.rest) : p = q := by
  have hbefore : p.before.reverse = q.before.reverse :=
    List.append_cancel_right (hp.text.symm.trans (h ▸ hq.text))
  exact Place.ext (by rw [hp.offset, hq.offset, hbefore]) (List.reverse_injective hbefore) h

lemma IsAt.from (h : p.IsAt u) : Text.From u p.offset p.rest :=
  ⟨p.before.reverse, h.text, h.offset.symm⟩

lemma IsAt.slice_before (h : p.IsAt u) : Text.slice? u 0 p.offset = some p.before.reverse :=
  Text.slice?_eq_some_iff.mpr ⟨Nat.zero_le _, p.rest, h.text ▸ Text.From.self u, by simp [h.offset]⟩

lemma IsAt.slice (h : p.IsAt u) (n : ℕ) :
    Text.slice? u p.offset (p.move n).offset = some (p.rest.take n) := by
  refine Text.slice?_eq_some_iff.mpr ⟨by simp, p.rest.drop n, ?_, by simp⟩
  rw [List.take_append_drop]
  exact h.from

lemma IsAt.isBoundary (h : p.IsAt u) : Text.IsBoundary u p.offset :=
  h.from.isBoundary

end Place

def fenceWord : Text := ['\n', '-', '-', '-']

lemma splitFence_cons {c : Char} {cs : Text} (h : Text.dropFront? fenceWord (c :: cs) = none) :
    splitFence (c :: cs) = (splitFence cs).map fun x => (c :: x.1, x.2) := by
  rw [splitFence]
  rintro rest rfl rfl
  simp [Text.dropFront?, fenceWord] at h

lemma splitFence_eq (v : Text) : splitFence v = match Text.cut? fenceWord v with
    | none => none
    | some (before, t) =>
      if ((t.drop 4).takeWhile (· ≠ '\n')).all Unicode.isBlank then some (before ++ ['\n'], t.drop 4)
      else (splitFence (t.drop 4)).map fun x => (before ++ fenceWord ++ x.1, x.2) := by
  induction v with
  | nil => rfl
  | cons c cs ih =>
    cases hd : Text.dropFront? fenceWord (c :: cs) with
    | some rest =>
      have hcut : Text.cut? fenceWord (c :: cs) = some ([], c :: cs) := by rw [Text.cut?, hd]; rfl
      rw [hcut, Text.eq_append_of_dropFront? hd]
      have hdash (cs : Text) : splitFence ('-' :: cs) = (splitFence cs).map fun x => ('-' :: x.1, x.2) :=
        splitFence_cons (by simp [Text.dropFront?, fenceWord])
      rw [fenceWord, List.cons_append, List.cons_append, List.cons_append, List.cons_append,
        splitFence]
      simp [hdash, Option.map_map, Function.comp_def]
    | none =>
      rw [splitFence_cons hd, ih, Text.cut?, hd]
      cases Text.cut? fenceWord cs with
      | none => rfl
      | some x =>
        simp only [Option.isSome_none, Bool.false_eq_true, if_false, Option.map_some]
        split <;> simp [Option.map_map, Function.comp_def]

lemma eq_append_of_splitFence {v body rest : Text} (h : splitFence v = some (body, rest)) :
    ∃ front, body = front ++ ['\n'] ∧ v = front ++ (fenceWord ++ rest) := by
  induction hl : v.length using Nat.strong_induction_on generalizing v body with
  | _ l ih =>
    rw [splitFence_eq] at h
    cases hcut : Text.cut? fenceWord v with
    | none => rw [hcut] at h; cases h
    | some x =>
      obtain ⟨before, t⟩ := x
      obtain ⟨r, rfl⟩ := Text.exists_append_of_cut? hcut
      obtain rfl := Text.eq_append_of_cut? hcut
      rw [hcut] at h
      simp only [show (fenceWord ++ r).drop 4 = r from rfl] at h
      split at h
      · obtain ⟨rfl, rfl⟩ := Prod.mk.inj (Option.some.inj h)
        exact ⟨before, rfl, rfl⟩
      · obtain ⟨x, hx, heq⟩ := Option.map_eq_some_iff.mp h
        obtain ⟨rfl, rfl⟩ := Prod.mk.inj heq
        have hlt : r.length < l := by simp [← hl, fenceWord]; omega
        obtain ⟨front, hfront, rfl⟩ := ih _ hlt hx rfl
        exact ⟨before ++ fenceWord ++ front, by simp [hfront], by simp⟩

lemma eq_append_of_frontmatter {u blanks body rest : Text}
    (h : frontmatter u = some (blanks, body, rest)) :
    u = blanks ++ ("---".toList ++ (body ++ ("---".toList ++ rest))) := by
  rw [frontmatter, List.span_eq_takeWhile_dropWhile] at h
  obtain ⟨r, hr, h⟩ := Option.bind_eq_some_iff.mp h
  obtain ⟨⟨b, r'⟩, hb, heq⟩ := Option.bind_eq_some_iff.mp h
  obtain ⟨rfl, hpair⟩ := Prod.mk.inj (Option.some.inj heq)
  obtain ⟨rfl, rfl⟩ := Prod.mk.inj hpair
  obtain ⟨front, rfl, rfl⟩ := eq_append_of_splitFence hb
  have hsplit := List.takeWhile_append_dropWhile (p := Unicode.isBlank) (l := u)
  rw [Text.eq_append_of_dropFront? hr] at hsplit
  simpa [fenceWord] using hsplit.symm

def start (u : Text) : Place :=
  match frontmatter u with
  | some (blanks, body, rest) =>
    ⟨size blanks + 3 + size body + 3, (u.take (u.length - rest.length)).reverse, rest⟩
  | none => ⟨0, [], u⟩

lemma isAt_start (u : Text) : (start u).IsAt u := by
  rw [start]
  cases h : frontmatter u with
  | none => exact ⟨rfl, rfl⟩
  | some x =>
    obtain ⟨blanks, body, rest⟩ := x
    have hu := eq_append_of_frontmatter h
    have htake : u.take (u.length - rest.length) =
        blanks ++ ("---".toList ++ (body ++ "---".toList)) := by
      have hassoc : u = (blanks ++ ("---".toList ++ (body ++ "---".toList))) ++ rest := by
        rw [hu]
        simp
      conv_lhs => rw [hassoc]
      exact List.take_left' (by simp; omega)
    refine ⟨?_, ?_⟩
    · simp only [List.reverse_reverse, htake]
      rw [hu]
      simp
    · simp only [List.reverse_reverse, htake]
      simp [show '-'.utf8Size = 1 from rfl]
      omega

section

variable {c : Char}

lemma toLower_of_le (hc : 128 ≤ c.toNat) : c.toLower = c := by
  unfold Char.toLower
  split
  · next h =>
    have := UInt32.le_iff_toNat_le.mp h.2
    have hc' : 128 ≤ c.val.toNat := hc
    simp at this
    omega
  · rfl

lemma dropFrontNoCase?_eq_some_iff {word u r : Text} : dropFrontNoCase? word u = some r ↔
    ∃ w, u = w ++ r ∧ w.map Char.toLower = word.map Char.toLower := by
  induction word generalizing u with
  | nil => simp [dropFrontNoCase?, eq_comm]
  | cons x word ih =>
    cases u with
    | nil => simp [dropFrontNoCase?]
    | cons c u =>
      rw [dropFrontNoCase?]
      constructor
      · intro h
        split at h
        · next hcx =>
          obtain ⟨w, rfl, hmap⟩ := ih.mp h
          exact ⟨c :: w, rfl, by simp [hcx, hmap]⟩
        · cases h
      · rintro ⟨w, hu, hmap⟩
        cases w with
        | nil => cases hmap
        | cons d w =>
          obtain ⟨rfl, rfl⟩ := List.cons_eq_cons.mp hu
          obtain ⟨hcx, hmap⟩ := List.cons_eq_cons.mp hmap
          rw [if_pos hcx.symm]
          exact ih.mpr ⟨w, rfl, hmap⟩

lemma toLower_eq_less_iff : c.toLower = '<' ↔ c = '<' := by
  rcases lt_or_ge c.toNat 128 with hc | hc
  · exact Text.forall_of_between c (Nat.zero_le _) hc (by decide)
  · rw [toLower_of_le hc]

lemma opens_cons (name cs : Text) : opens name (c :: cs) =
    (c == '<' && match dropFrontNoCase? name cs with
      | some (d :: _) => d == '>' || d == '/' || d == ' ' || d == '\t' || d == '\n' || d == '\r'
      | _ => false) := by
  rw [opens, dropFrontNoCase?]
  by_cases hc : c = '<'
  · rw [if_pos (by rw [hc]), hc]
    rfl
  · have hne : ¬ '<'.toLower = c.toLower := fun h => hc (toLower_eq_less_iff.mp h.symm)
    rw [if_neg hne, beq_false_of_ne hc]
    rfl

lemma findNoCase_lt {w : Char} {word v : Text} {n : ℕ} (h : findNoCase (w :: word) v = some n) :
    n < v.length := by
  induction v generalizing n with
  | nil => simp [findNoCase] at h
  | cons c v ih =>
    rw [findNoCase] at h
    split at h
    · obtain rfl := Option.some.inj h
      simp
    · obtain ⟨k, hk, rfl⟩ := Option.map_eq_some_iff.mp h
      simpa using ih hk

end

def Place.markup (p : Place) : Scan :=
  Astro.markup 0 p.offset p.before p.rest

lemma markup_skip (k : ℕ) (p : Place) :
    markup k p.offset p.before p.rest = (p.move k).markup := by
  obtain ⟨o, b, cs⟩ := p
  induction cs generalizing k o b with
  | nil => cases k <;> simp [markup, Place.markup, Place.move_nil]
  | cons c cs ih =>
    cases k with
    | zero => rfl
    | succ k => exact ih k _ _

lemma markup_nil {p : Place} (h : p.rest = []) : p.markup = .empty := by
  simp [Place.markup, markup, h]

lemma sizePast_le (word u : Text) : sizePast word u ≤ u.length := by
  unfold sizePast
  split
  · next h =>
    obtain ⟨r, rfl⟩ := Text.exists_append_of_cut? h
    rw [Text.eq_append_of_cut? h]
    simp
  · exact le_rfl

lemma sizePast_pos {word u : Text} (hw : word ≠ []) (hu : u ≠ []) : 0 < sizePast word u := by
  have hw' := List.length_pos_of_ne_nil hw
  have hu' := List.length_pos_of_ne_nil hu
  unfold sizePast
  split <;> omega

lemma size?_le {cs : Text} {n : ℕ} (h : Brace.size? Brace.Sign.ofChar cs = some n) :
    0 < n ∧ n ≤ cs.length := by
  simpa using Brace.lt_of_scan h

lemma fst_tag_pos (p : Place) : 0 < (tag p).1 := by
  simp only [tag, tagName]
  omega

lemma fst_rawElement_pos (name : Text) (isCode : Bool) (p : Place) :
    0 < (rawElement name isCode p).1 := by
  have htag := fst_tag_pos p
  simp only [rawElement]
  split_ifs
  · exact htag
  · split <;> simp <;> omega
  · split <;> simp <;> omega

lemma fst_item_pos {p : Place} (h : p.rest ≠ []) : 0 < (item p).1 := by
  obtain ⟨c, cs, hr⟩ := List.exists_cons_of_ne_nil h
  rw [item, hr]
  simp only
  split_ifs
  · exact sizePast_pos (by simp) (by simp)
  · exact fst_rawElement_pos ..
  · exact fst_rawElement_pos ..
  · exact fst_tag_pos p
  · split
    · next hn => exact (size?_le hn).1
    · simp
  · exact Nat.one_pos

lemma item_of_ne {p : Place} {c : Char} {cs : Text} (hr : p.rest = c :: cs) (hc : c ≠ '<') :
    item p = if c = '{' then
      match Brace.size? Brace.Sign.ofChar p.rest with
      | some n => (n, braced p n)
      | none => (p.rest.length, .empty)
    else (1, .empty) := by
  have hopens (name : Text) : opens name (c :: cs) = false := by
    rw [opens_cons, beq_false_of_ne hc, Bool.false_and]
  have hcomment (w : Text) : Text.dropFront? ('<' :: w) (c :: cs) = none := by
    simp [Text.dropFront?, hc.symm]
  rw [item, hr]
  cases Brace.size? Brace.Sign.ofChar (c :: cs) <;> simp [hopens, hcomment, hc]

lemma markup_cons {p : Place} (h : p.rest ≠ []) :
    p.markup = (item p).2 ++ (p.move (item p).1).markup := by
  have hpos := fst_item_pos h
  obtain ⟨o, b, cs⟩ := p
  cases cs with
  | nil => contradiction
  | cons c cs =>
    have hskip := markup_skip ((item ⟨o, b, c :: cs⟩).1 - 1) ⟨o + c.utf8Size, c :: b, cs⟩
    rw [← Place.move_succ, Nat.sub_add_cancel hpos] at hskip
    rw [← hskip]
    rfl

def fenced (u : Text) : Scan :=
  match frontmatter u with
  | some (blanks, body, _) =>
    ⟨[⟨⟨size blanks + 3, size blanks + 3 + size body⟩, script, true⟩], []⟩
  | none => .empty

lemma scan_eq_append (u : Text) : scan u = fenced u ++ (start u).markup := by
  rw [scan, fenced, start]
  cases frontmatter u <;> rfl

def isNameEnd (c : Char) : Bool :=
  isTagBlank c || c == '>' || c == '/' || c == '{'

lemma tagName_cons (c : Char) (cs : Text) : tagName (c :: cs) =
    let n := (cs.takeWhile (!isNameEnd ·)).length
    let n := if n < cs.length then max n 1 else n
    ((cs.take n).dropWhile (· == '/'), n + 1) := rfl

def part? (tag : Text) (p : Place) : Option (ℕ × Scan) :=
  match p.rest with
  | [] => none
  | c :: cs =>
    if c = '>' then none
    else if c = '"' ∨ c = '\'' ∨ c.toNat = 0x60 then some (sizePast [c] cs + 1, .empty)
    else if c = '{' then
      match Brace.size? Brace.Sign.ofChar (c :: cs) with
      | some n => some (n, attributeBraces tag p n)
      | none => some (cs.length + 1, .empty)
    else some (1, .empty)

def Place.attributes (tag : Text) (p : Place) : ℕ × Scan :=
  Astro.attributes tag 0 p.offset p.before p.rest

lemma attributes_skip (tag : Text) {k : ℕ} {p : Place} (h : k ≤ p.rest.length) :
    Astro.attributes tag k p.offset p.before p.rest =
      (k + ((p.move k).attributes tag).1, ((p.move k).attributes tag).2) := by
  obtain ⟨o, b, cs⟩ := p
  induction cs generalizing k o b with
  | nil =>
    obtain rfl : k = 0 := by simpa using h
    simp [Place.attributes]
  | cons c cs ih =>
    cases k with
    | zero => simp [Place.attributes]
    | succ k =>
      have hskip := ih (k := k) (o + c.utf8Size) (c :: b) (by simpa using h)
      rw [Astro.attributes, Place.move_succ, hskip]
      simp only [Prod.mk.injEq, and_true]
      omega

lemma attributes_nil (tag : Text) {p : Place} (h : p.rest = []) : p.attributes tag = (0, .empty) := by
  simp [Place.attributes, Astro.attributes, h]

lemma attributes_end (tag : Text) {p : Place} {cs : Text} (h : p.rest = '>' :: cs) :
    p.attributes tag = (1, .empty) := by
  simp [Place.attributes, Astro.attributes, h]

lemma part?_eq_none_iff {tag : Text} {p : Place} :
    part? tag p = none ↔ p.rest = [] ∨ ∃ cs, p.rest = '>' :: cs := by
  rw [part?]
  cases hr : p.rest with
  | nil => simp
  | cons c cs =>
    simp only [reduceCtorEq, false_or]
    constructor
    · intro h
      split_ifs at h with h1 h2 h3
      · exact ⟨cs, by rw [h1]⟩
      · cases hn : Brace.size? Brace.Sign.ofChar (c :: cs) <;> simp [hn] at h
    · rintro ⟨cs, h⟩
      obtain ⟨rfl, rfl⟩ := List.cons_eq_cons.mp h
      rfl

lemma part?_le {tag : Text} {p : Place} {n : ℕ} {s : Scan} (h : part? tag p = some (n, s)) :
    0 < n ∧ n ≤ p.rest.length := by
  unfold part? at h
  split at h
  · cases h
  · next c cs hr =>
    have hq := sizePast_le [c] cs
    split at h
    · cases h
    · split at h
      · cases h; simpa [hr] using hq
      · split at h
        · split at h
          · next hn => cases h; exact hr ▸ size?_le hn
          · cases h; simp [hr]
        · cases h; simp [hr]

lemma attributes_part {tag : Text} {p : Place} {n : ℕ} {s : Scan} (h : part? tag p = some (n, s)) :
    p.attributes tag =
      (n + ((p.move n).attributes tag).1, s ++ ((p.move n).attributes tag).2) := by
  obtain ⟨o, b, cs⟩ := p
  obtain ⟨hpos, hle⟩ := part?_le h
  obtain ⟨k, rfl⟩ : ∃ k, n = k + 1 := ⟨n - 1, by omega⟩
  cases cs with
  | nil => simp at hle
  | cons c cs =>
    have hskip := attributes_skip tag (k := k) (p := ⟨o + c.utf8Size, c :: b, cs⟩) (by simpa using hle)
    have hgo : Place.attributes tag ⟨o, b, c :: cs⟩ =
        ((Astro.attributes tag k (o + c.utf8Size) (c :: b) cs).1 + 1,
          s ++ (Astro.attributes tag k (o + c.utf8Size) (c :: b) cs).2) := by
      unfold part? at h
      simp only at h
      simp only [Place.attributes, Astro.attributes, Bool.or_eq_true, beq_iff_eq, or_assoc]
      split_ifs at h ⊢ with h1 h2 h3
      · cases h
        rfl
      · cases hb : Brace.size? Brace.Sign.ofChar (c :: cs) with
        | some n => rw [hb] at h; cases h; rfl
        | none => rw [hb] at h; cases h; rfl
      · cases h
        rfl
    rw [hgo, Place.move_succ, hskip]
    simp only [Prod.mk.injEq, and_true]
    omega

end Astro
end MetaInline
