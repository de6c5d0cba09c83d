import Mathlib
import MetaInline.Proofs.Document.Grammar
import MetaInline.Proofs.Document.Markup

namespace MetaInline

open Text (size)
open Unicode (isBlank)

namespace Text

lemma cut?_eq {word a : Text} (hw : word ≠ []) (h : ¬ word <:+: a ++ word.dropLast) (r : Text) :
    cut? word (a ++ (word ++ r)) = some (a, word ++ r) := by
  induction a with
  | nil =>
    obtain ⟨c, cs, rfl⟩ := List.exists_cons_of_ne_nil hw
    rw [List.nil_append, List.cons_append, cut?, ← List.cons_append, dropFront?_append]
    rfl
  | cons c a ih =>
    rw [List.cons_append, List.infix_cons_iff, not_or] at h
    have hfront : ¬ word <+: c :: (a ++ (word ++ r)) := by
      intro hp
      have hshort : c :: (a ++ word.dropLast) <+: c :: (a ++ (word ++ r)) := by
        rw [List.cons_prefix_cons, List.prefix_append_right_inj]
        exact ⟨rfl, (List.dropLast_prefix word).trans (List.prefix_append word r)⟩
      refine h.1 (List.prefix_of_prefix_length_le hp hshort ?_)
      simp
      omega
    rw [List.cons_append, cut?, if_neg (mt isSome_dropFront?_iff.mp hfront), ih h.2]
    rfl

end Text

namespace Astro

lemma sizePast_append (word a : Text) (hw : word ≠ []) (h : ¬ word <:+: a ++ word.dropLast)
    (r : Text) : sizePast word (a ++ (word ++ r)) = a.length + word.length := by
  rw [sizePast, Text.cut?_eq hw h]

lemma sizePast_char {c : Char} {a : Text} (h : c ∉ a) (r : Text) :
    sizePast [c] (a ++ c :: r) = a.length + 1 := by
  refine sizePast_append [c] a (by simp) ?_ r
  rintro ⟨x, y, hxy⟩
  rw [List.dropLast_singleton, List.append_nil] at hxy
  exact h (hxy ▸ by simp)

section

variable {w : Char} {word u x : Text}

lemma dropFrontNoCase?_eq_none (hn : w ∉ word) (hu : u ≠ [])
    (hb : ¬ (w :: word) <+: u.map Char.toLower) (hx : x.map Char.toLower = w :: word)
    (hword : (w :: word).map Char.toLower = w :: word) (r : Text) :
    dropFrontNoCase? (w :: word) (u ++ (x ++ r)) = none := by
  rw [Option.eq_none_iff_forall_ne_some]
  intro r' hr
  obtain ⟨v, hv, hlower⟩ := dropFrontNoCase?_eq_some_iff.mp hr
  rw [hword] at hlower
  rcases List.append_eq_append_iff.mp hv with ⟨v', rfl, hrest⟩ | ⟨v', rfl, -⟩
  · rw [List.map_append] at hlower
    cases v' with
    | nil => exact hb ⟨[], by simpa using hlower.symm⟩
    | cons d v' =>
      obtain ⟨c, cs, rfl⟩ := List.exists_cons_of_ne_nil hu
      obtain ⟨y, ys, rfl⟩ := List.exists_cons_of_ne_nil (show x ≠ [] by rintro rfl; cases hx)
      obtain ⟨rfl, -⟩ := List.cons_eq_cons.mp hrest
      have hmem : y.toLower ∈ word := by
        rw [← (List.cons_eq_cons.mp hlower).2]
        simp
      exact hn ((List.cons_eq_cons.mp hx).1 ▸ hmem)
  · exact hb (by rw [List.map_append, hlower]; exact List.prefix_append _ _)

lemma findNoCase_append (hn : w ∉ word) (hb : ¬ (w :: word) <:+: u.map Char.toLower)
    (hx : x.map Char.toLower = w :: word) (hword : (w :: word).map Char.toLower = w :: word)
    (r : Text) : findNoCase (w :: word) (u ++ (x ++ r)) = some u.length := by
  induction u with
  | nil =>
    obtain ⟨y, ys, rfl⟩ := List.exists_cons_of_ne_nil (show x ≠ [] by rintro rfl; cases hx)
    have hfront : dropFrontNoCase? (w :: word) (y :: (ys ++ r)) = some r :=
      dropFrontNoCase?_eq_some_iff.mpr ⟨y :: ys, rfl, hx.trans hword.symm⟩
    rw [List.nil_append, List.cons_append, findNoCase, hfront]
    rfl
  | cons c u ih =>
    have hfront := dropFrontNoCase?_eq_none hn (List.cons_ne_nil c u)
      (fun h => hb h.isInfix) hx hword r
    rw [List.map_cons, List.infix_cons_iff, not_or] at hb
    rw [List.cons_append, findNoCase, ← List.cons_append, hfront, ih hb.2]
    rfl

end

section

variable {p : Place} {tag w w' v rest : Text} {s s' : Scan}

def IsPlain (c : Char) : Prop :=
  c ≠ '>' ∧ c ≠ '"' ∧ c ≠ '\'' ∧ c.toNat ≠ 0x60 ∧ c ≠ '{'

instance : DecidablePred IsPlain :=
  fun c => inferInstanceAs (Decidable (c ≠ '>' ∧ c ≠ '"' ∧ c ≠ '\'' ∧ c.toNat ≠ 0x60 ∧ c ≠ '{'))

def IsSolid (before : Text) : Prop :=
  ∃ c b, before = c :: b ∧ isBlank c = false ∧ c ≠ '=' ∧ c ≠ '/'

lemma isNameChar_toLower (c : Char) : isNameChar c.toLower = isNameChar c := by
  rcases lt_or_ge c.toNat 128 with hc | hc
  · exact Text.forall_of_between c (Nat.zero_le _) hc (by decide)
  · rw [toLower_of_le hc]

lemma lt_of_isNameChar {c : Char} (h : isNameChar c = true) : c.toNat < 128 := by
  simp only [isNameChar, Unicode.isAsciiLetter, Unicode.isAsciiDigit, Bool.or_eq_true,
    Bool.and_eq_true, decide_eq_true_eq, beq_iff_eq, Char.le_def, UInt32.le_iff_toNat_le] at h
  rcases h with ((((((h | h) | h) | rfl) | rfl) | rfl) | rfl)
  · exact h.2.trans_lt (by decide)
  · exact h.2.trans_lt (by decide)
  · exact h.2.trans_lt (by decide)
  all_goals decide

lemma isBlank_of_isNameChar {c : Char} (h : isNameChar c = true) : isBlank c = false :=
  Text.forall_of_between (P := fun c => isNameChar c = true → isBlank c = false) c (Nat.zero_le _)
    (lt_of_isNameChar h) (by decide) h

lemma isPlain_of_isNameChar {c : Char} (h : isNameChar c = true) : IsPlain c :=
  Text.forall_of_between (P := fun c => isNameChar c = true → IsPlain c) c (Nat.zero_le _)
    (lt_of_isNameChar h) (by decide) h

namespace Name

lemma isPlain (name : Name) : ∀ c ∈ name.text, IsPlain c :=
  fun c hc => isPlain_of_isNameChar (name.chars c hc)

lemma isSolid (name : Name) (b : Text) : IsSolid (name.text.reverse ++ b) := by
  obtain ⟨c, cs, hc⟩ := List.exists_cons_of_ne_nil (mt List.reverse_eq_nil_iff.mp name.nonempty)
  have hname : isNameChar c = true := name.chars c (List.mem_reverse.mp (hc ▸ List.mem_cons_self))
  refine ⟨c, cs ++ b, by rw [hc]; rfl, isBlank_of_isNameChar hname, ?_, ?_⟩
  · rintro rfl; cases hname
  · rintro rfl; cases hname

end Name

namespace Expression

variable (e : Expression)

@[simp] lemma length_print : e.print.length = e.text.length + 2 := by
  simp [print]

lemma size?_append (rest : Text) :
    Brace.size? Brace.Sign.ofChar (e.print ++ rest) = some e.print.length := by
  rw [length_print, print, List.cons_append]
  exact Brace.size?_eq_some_iff.mpr ⟨e.text, rest, by simp, rfl, e.closed⟩

lemma braced_eq (hr : p.rest = e.print ++ rest) : braced p e.print.length = e.code p.offset := by
  have hinner : (p.move 1).rest.take (e.print.length - 2) = e.text := by
    simp [hr, print]
  have hoffset : (p.move 1).offset = p.offset + 1 := by
    simp [hr, print, show '{'.utf8Size = 1 from rfl]
  rw [braced, region, hinner, hoffset]
  rfl

lemma attributeBraces_value (hr : p.rest = e.print ++ rest)
    (hb : (p.before.dropWhile isBlank).head? = some '=') :
    attributeBraces tag p e.print.length = e.code p.offset := by
  rw [attributeBraces, if_pos hb, e.braced_eq hr]

lemma attributeBraces_report (hr : p.rest = e.print ++ rest)
    (hb : (p.before.dropWhile isBlank).head? ≠ some '=') :
    attributeBraces tag p e.print.length = e.report tag p.offset := by
  have htake : p.rest.take e.print.length = e.print := by rw [hr, List.take_left]
  have hinner : (e.print.drop 1).dropLast = e.text := by simp [print]
  simp only [attributeBraces, if_neg hb, htake, hinner, report, Text.isSome_dropFront?_iff]

end Expression

lemma Place.move_append (hr : p.rest = w ++ rest) :
    p.move w.length = ⟨p.offset + size w, w.reverse ++ p.before, rest⟩ := by
  ext1 <;> simp [hr]

def Place.Passes (tag : Text) (p : Place) (w : Text) (s : Scan) : Prop :=
  p.attributes tag = (w.length + ((p.move w.length).attributes tag).1,
    s ++ ((p.move w.length).attributes tag).2)

namespace Place

lemma Passes.nil : p.Passes tag [] .empty := by
  simp [Passes]

lemma Passes.append (h : p.Passes tag w s) (h' : (p.move w.length).Passes tag w' s') :
    p.Passes tag (w ++ w') (s ++ s') := by
  unfold Passes at *
  rw [h, h', move_move, List.length_append, Scan.append_assoc, Nat.add_assoc]

lemma Passes.of_part? (h : part? tag p = some (w.length, s)) : p.Passes tag w s :=
  attributes_part h

lemma passes_plain (tag : Text) (hr : p.rest = w ++ rest) (hw : ∀ c ∈ w, IsPlain c) :
    p.Passes tag w .empty := by
  induction w generalizing p with
  | nil => exact Passes.nil
  | cons c w ih =>
    obtain ⟨⟨hend, hdouble, hsingle, hback, hbrace⟩, hw⟩ := List.forall_mem_cons.mp hw
    have hpart : part? tag p = some ([c].length, .empty) := by
      simp [part?, hr, hend, hdouble, hsingle, hback, hbrace]
    exact (Passes.of_part? hpart).append (ih (by simp [hr]) hw)

lemma passes_quoted (tag : Text) (hr : p.rest = '"' :: (v ++ '"' :: rest)) (hv : '"' ∉ v) :
    p.Passes tag ('"' :: (v ++ ['"'])) .empty := by
  refine Passes.of_part? ?_
  simp [part?, hr, sizePast_char hv]

lemma passes_expression (tag : Text) (e : Expression) (hr : p.rest = e.print ++ rest) :
    p.Passes tag e.print (attributeBraces tag p e.print.length) := by
  refine Passes.of_part? ?_
  have hsize := hr ▸ e.size?_append rest
  obtain ⟨cs, hcs⟩ : ∃ cs, p.rest = '{' :: cs := ⟨_, hr⟩
  rw [part?, hcs]
  rw [hcs] at hsize
  simp [hsize]

end Place

namespace Attribute

lemma isSolid_print (a : Attribute) (b : Text) : IsSolid (a.print.reverse ++ b) := by
  have hquote (v : Text) : IsSolid ('"' :: v) := ⟨_, _, rfl, by decide, by decide, by decide⟩
  have hbrace (v : Text) : IsSolid ('}' :: v) := ⟨_, _, rfl, by decide, by decide, by decide⟩
  cases a with
  | bare name => exact name.isSolid b
  | quoted name value h => simpa [print] using hquote _
  | assigned name e => simpa [print, Expression.print] using hbrace _
  | braced e => simpa [print, Expression.print] using hbrace _

lemma isSolid_printAll (as : List Attribute) {b : Text} (hb : IsSolid b) :
    IsSolid ((printAll as).reverse ++ b) := by
  induction as generalizing b with
  | nil => exact hb
  | cons a as ih => simpa [printAll] using ih (a.isSolid_print (' ' :: b))

lemma passes (tag : Text) (a : Attribute) (hr : p.rest = ' ' :: (a.print ++ rest))
    (hb : IsSolid p.before) :
    p.Passes tag (' ' :: a.print) (a.code tag (p.offset + 1)) := by
  have hspace : IsPlain ' ' := by decide
  have hequals : IsPlain '=' := by decide
  have hname (name : Name) : ∀ c ∈ ' ' :: (name.text ++ ['=']), IsPlain c := by
    simpa [or_imp, forall_and] using ⟨hspace, name.isPlain, hequals⟩
  cases a with
  | bare name => exact Place.passes_plain tag hr (List.forall_mem_cons.mpr ⟨hspace, name.isPlain⟩)
  | quoted name value h =>
    have hsplit : p.rest = (' ' :: (name.text ++ ['='])) ++ '"' :: (value ++ '"' :: rest) := by
      simp [hr, print]
    have hfirst := Place.passes_plain tag hsplit (hname name)
    have hq : (p.move (' ' :: (name.text ++ ['='])).length).rest = '"' :: (value ++ '"' :: rest) := by
      rw [Place.move_append hsplit]
    have hvalue := Place.passes_quoted tag hq h
    simpa [print, code] using hfirst.append hvalue
  | assigned name e =>
    have hsplit : p.rest = (' ' :: (name.text ++ ['='])) ++ (e.print ++ rest) := by simp [hr, print]
    have hq := Place.move_append hsplit
    have hfirst := Place.passes_plain tag hsplit (hname name)
    have hvalue := Place.passes_expression (p := p.move (' ' :: (name.text ++ ['='])).length)
      tag e (by rw [hq])
    have hbefore : ((p.move (' ' :: (name.text ++ ['='])).length).before.dropWhile isBlank).head? =
        some '=' := by
      rw [hq]
      simp [show isBlank '=' = false by decide]
    have hoffset : (p.move (' ' :: (name.text ++ ['='])).length).offset =
        p.offset + 1 + size name.text + 1 := by
      rw [hq]
      simp [show ' '.utf8Size = 1 from rfl, show '='.utf8Size = 1 from rfl, Nat.add_assoc]
    rw [e.attributeBraces_value (by rw [hq]) hbefore, hoffset] at hvalue
    simpa [print, code] using hfirst.append hvalue
  | braced e =>
    have hsplit : p.rest = [' '] ++ (e.print ++ rest) := by simp [hr, print]
    have hq := Place.move_append hsplit
    have hfirst := Place.passes_plain tag hsplit (by simpa using hspace)
    have hvalue := Place.passes_expression (p := p.move [' '].length) tag e (by rw [hq])
    have hbefore : ((p.move [' '].length).before.dropWhile isBlank).head? ≠ some '=' := by
      obtain ⟨c, b, hb, hblank, hequals, -⟩ := hb
      rw [hq]
      simp [hb, hblank, hequals, show isBlank ' ' = true by decide]
    rw [e.attributeBraces_report (by rw [hq]) hbefore, hq] at hvalue
    exact hfirst.append (hq ▸ hvalue)

lemma passes_all (tag : Text) (as : List Attribute) (hr : p.rest = printAll as ++ rest)
    (hb : IsSolid p.before) :
    p.Passes tag (printAll as) (codeAll tag p.offset as) := by
  induction as generalizing p with
  | nil => exact Place.Passes.nil
  | cons a as ih =>
    have hcons : p.rest = ' ' :: a.print ++ (printAll as ++ rest) := by simp [hr, printAll]
    have hq := Place.move_append hcons
    have hbefore : IsSolid (p.move (' ' :: a.print).length).before := by
      rw [hq]
      simpa using a.isSolid_print (' ' :: p.before)
    have hrest := ih (p := p.move (' ' :: a.print).length) (by rw [hq]) hbefore
    have hoffset : (p.move (' ' :: a.print).length).offset = p.offset + 1 + size a.print := by
      rw [hq, Text.size_cons, show ' '.utf8Size = 1 from rfl, Nat.add_assoc]
    rw [hoffset] at hrest
    exact (a.passes tag hcons hb).append hrest

end Attribute

lemma tag_of_passes {name : Text} {k : ℕ} (hk : tagName p.rest = (name, k))
    (h : (p.move k).Passes name w s) (hend : (p.move (k + w.length)).rest = '>' :: rest) :
    Astro.tag p = (k + w.length + 1, s) := by
  have hattributes : (p.move k).attributes name = (w.length + 1, s) := by
    rw [h, Place.move_move, attributes_end name hend]
    simp
  have htag : Astro.tag p = ((tagName p.rest).2 +
      ((p.move (tagName p.rest).2).attributes (tagName p.rest).1).1,
        ((p.move (tagName p.rest).2).attributes (tagName p.rest).1).2) := rfl
  rw [htag, hk]
  simp only [hattributes]
  rw [Nat.add_assoc]

lemma tagName_eq (name : Name) {c : Char} (hc : c = ' ' ∨ c = '/' ∨ c = '>') :
    tagName ('<' :: (name.text ++ c :: rest)) = (name.text, name.text.length + 1) := by
  have hin : ∀ d ∈ name.text, (!isNameEnd d) = true := fun d hd =>
    Text.forall_of_between (P := fun d => isNameChar d = true → (!isNameEnd d) = true) d
      (Nat.zero_le _) (lt_of_isNameChar (name.chars d hd)) (by decide) (name.chars d hd)
  have hout : (!isNameEnd c) = false := by rcases hc with rfl | rfl | rfl <;> rfl
  have htake : (name.text ++ c :: rest).takeWhile (!isNameEnd ·) = name.text :=
    Text.takeWhile_append_cons hin hout rest
  have hmax : max name.text.length 1 = name.text.length :=
    max_eq_left (List.length_pos_of_ne_nil name.nonempty)
  have hslash : name.text.dropWhile (· == '/') = name.text := by
    obtain ⟨d, ds, hds⟩ := List.exists_cons_of_ne_nil name.nonempty
    have hd : d ≠ '/' := by
      rintro rfl
      cases name.chars '/' (hds ▸ List.mem_cons_self)
    simp [hds, hd]
  rw [tagName_cons, htake]
  dsimp only
  rw [if_pos (by simp), hmax, List.take_left, hslash]

lemma tagName_slash (hr : rest ≠ []) : tagName ('<' :: '/' :: rest) = ([], 2) := by
  have := List.length_pos_of_ne_nil hr
  simp [tagName]

def slash (closed : Bool) : Text :=
  if closed then ['/'] else []

lemma exists_end (as : List Attribute) (closed : Bool) (rest : Text) :
    ∃ c cs, Attribute.printAll as ++ (slash closed ++ '>' :: rest) = c :: cs ∧
      (c = ' ' ∨ c = '/' ∨ c = '>') := by
  cases as with
  | nil => cases closed <;> exact ⟨_, _, rfl, by simp⟩
  | cons a as => exact ⟨' ', _, rfl, Or.inl rfl⟩

lemma tag_open (name : Name) (as : List Attribute) (closed : Bool)
    (hr : p.rest = '<' :: (name.text ++ (Attribute.printAll as ++ (slash closed ++ '>' :: rest)))) :
    Astro.tag p = (name.text.length + (Attribute.printAll as).length + (slash closed).length + 2,
      Attribute.codeAll name.text (p.offset + 1 + size name.text) as) := by
  have hname : tagName p.rest = (name.text, name.text.length + 1) := by
    obtain ⟨c, cs, hcs, hc⟩ := exists_end as closed rest
    rw [hr, hcs]
    exact tagName_eq name hc
  have hsplit : p.rest = '<' :: name.text ++ (Attribute.printAll as ++ (slash closed ++ '>' :: rest)) :=
    hr
  have hq := Place.move_append hsplit
  rw [List.length_cons] at hq
  have hattributes := Attribute.passes_all (p := p.move (name.text.length + 1)) name.text as
    (by rw [hq]) (by rw [hq]; simpa using name.isSolid ('<' :: p.before))
  have hslash : ((p.move (name.text.length + 1)).move (Attribute.printAll as).length).Passes name.text
      (slash closed) .empty := by
    have hend : ((p.move (name.text.length + 1)).move (Attribute.printAll as).length).rest =
        slash closed ++ '>' :: rest := by
      rw [hq]
      simp
    refine Place.passes_plain name.text hend ?_
    · cases closed
      · simp [slash]
      · simpa [slash] using (by decide : IsPlain '/')
  have hend : (p.move (name.text.length + 1 + (Attribute.printAll as ++ slash closed).length)).rest =
      '>' :: rest := by
    rw [← Place.move_move, hq]
    simp
  have htag := tag_of_passes hname (hattributes.append hslash) hend
  refine htag.trans (Prod.ext (by simp; omega) ?_)
  simp [hq, show '<'.utf8Size = 1 from rfl, Nat.add_assoc]

lemma tag_close (name : Name) (as : List Attribute)
    (hr : p.rest = '<' :: '/' :: (name.text ++ (Attribute.printAll as ++ '>' :: rest))) :
    Astro.tag p = (name.text.length + (Attribute.printAll as).length + 3,
      Attribute.codeAll [] (p.offset + 2 + size name.text) as) := by
  have hname : tagName p.rest = ([], 2) := by
    rw [hr]
    exact tagName_slash (by simp)
  have hsplit : p.rest = ['<', '/'] ++ (name.text ++ (Attribute.printAll as ++ '>' :: rest)) := hr
  have hq : p.move 2 = ⟨p.offset + 2, '/' :: '<' :: p.before,
      name.text ++ (Attribute.printAll as ++ '>' :: rest)⟩ := Place.move_append hsplit
  have hplain := Place.passes_plain (p := p.move 2) [] (by rw [hq]) name.isPlain
  have hafter : ((p.move 2).move name.text.length).rest = Attribute.printAll as ++ '>' :: rest := by
    rw [hq]
    simp
  have hattributes := Attribute.passes_all [] as hafter
    (by rw [hq]; simpa using name.isSolid ('/' :: '<' :: p.before))
  have hend : (p.move (2 + (name.text ++ Attribute.printAll as).length)).rest = '>' :: rest := by
    rw [← Place.move_move, hq]
    simp
  have htag := tag_of_passes hname (hplain.append hattributes) hend
  refine htag.trans (Prod.ext (by simp; omega) ?_)
  simp [hq]

end

end Astro
end MetaInline
