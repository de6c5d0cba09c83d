import Mathlib
import MetaInline.Proofs.Document.Component.Search

namespace MetaInline.Component

open Text (size)
open Unicode (isBlank)

variable {u v rest : Text} {c : Char}

namespace Attribute

def printAll (as : List Attribute) : Text :=
  as.flatMap print

lemma spec_of_mem (a : Attribute) (hc : c ∈ a.name) : isNameChar c = true ∧ c.toLower = c ∧
    isBlank c = false ∧ c ≠ '=' ∧ c ≠ '>' ∧ c ≠ '"' ∧ c ≠ '\'' := by
  have hlt : c.toNat < 128 := by
    rcases a.chars c hc with ⟨-, h⟩ | ⟨-, h⟩ | rfl | rfl | rfl
    · exact lt_of_le_of_lt (show c.toNat ≤ 'z'.toNat from h) (by decide)
    · exact lt_of_le_of_lt (show c.toNat ≤ '9'.toNat from h) (by decide)
    all_goals decide
  exact Text.forall_of_between (P := fun c => ('a' ≤ c ∧ c ≤ 'z') ∨ ('0' ≤ c ∧ c ≤ '9') ∨ c = ':' ∨
    c = '@' ∨ c = '-' → isNameChar c = true ∧ c.toLower = c ∧ isBlank c = false ∧ c ≠ '=' ∧
      c ≠ '>' ∧ c ≠ '"' ∧ c ≠ '\'') c (Nat.zero_le _) hlt (by decide +kernel) (a.chars c hc)

lemma takeWhile_name (a : Attribute) (h : ∀ d ∈ v.head?, isNameChar d = false) :
    (a.name ++ v).takeWhile isNameChar = a.name := by
  have hname : ∀ d ∈ a.name, isNameChar d = true := fun d hd => (a.spec_of_mem hd).1
  cases v with
  | nil => simpa using hname
  | cons d v => exact Text.takeWhile_append_cons hname (h d rfl) v

end Attribute

lemma splitTag_plain (h : ∀ c ∈ u, c ≠ '>' ∧ c ≠ '"' ∧ c ≠ '\'') (v : Text) :
    splitTag none (u ++ v) = (splitTag none v).map fun x => (u ++ x.1, x.2) := by
  induction u with
  | nil => simp
  | cons c u ih =>
    obtain ⟨hgt, hdouble, hsingle⟩ := h c (by simp)
    rw [List.cons_append, splitTag, if_neg hgt, if_neg (by simp [hdouble, hsingle]),
      ih fun d hd => h d (by simp [hd]), Option.map_map]
    rfl

lemma splitTag_closing (h : c ∉ u) (v : Text) :
    splitTag (some c) (u ++ c :: v) = (splitTag none v).map fun x => (u ++ c :: x.1, x.2) := by
  induction u with
  | nil =>
    rw [List.nil_append, splitTag, if_pos rfl]
    rfl
  | cons d u ih =>
    simp only [List.mem_cons, not_or] at h
    rw [List.cons_append, splitTag, if_neg (Ne.symm h.1), ih h.2, Option.map_map]
    rfl

lemma splitTag_print (a : Attribute) (v : Text) :
    splitTag none (a.print ++ v) = (splitTag none v).map fun x => (a.print ++ x.1, x.2) := by
  have hname : ∀ c ∈ ' ' :: a.name, c ≠ '>' ∧ c ≠ '"' ∧ c ≠ '\'' := by
    intro c hc
    rcases List.mem_cons.mp hc with rfl | hc
    · decide
    · exact (a.spec_of_mem hc).2.2.2.2
  rw [Attribute.print]
  cases hv : a.value with
  | none =>
    rw [List.append_nil]
    exact splitTag_plain hname v
  | some value =>
    have hplain : ∀ c ∈ ' ' :: (a.name ++ ['=']), c ≠ '>' ∧ c ≠ '"' ∧ c ≠ '\'' := by
      intro c hc
      rw [← List.cons_append, List.mem_append, List.mem_singleton] at hc
      rcases hc with hc | rfl
      · exact hname c hc
      · decide
    have hquoted : splitTag none ('"' :: (value ++ '"' :: v)) =
        (splitTag none v).map fun x => ('"' :: (value ++ '"' :: x.1), x.2) := by
      rw [splitTag, if_neg (by decide), if_pos (by decide), splitTag_closing (a.unquoted value hv),
        Option.map_map]
      rfl
    have h := splitTag_plain hplain ('"' :: (value ++ '"' :: v))
    rw [hquoted, Option.map_map] at h
    simpa [Function.comp_def] using h

lemma splitTag_printAll (as : List Attribute) :
    splitTag none (Attribute.printAll as ++ '>' :: rest) = some (Attribute.printAll as, rest) := by
  induction as with
  | nil => rfl
  | cons a as ih =>
    rw [Attribute.printAll, List.flatMap_cons, List.append_assoc, splitTag_print]
    rw [Attribute.printAll] at ih
    rw [ih]
    rfl

lemma setAttribute_eq_append {name value : String} {found : List (String × String)}
    (h : name ∉ found.map (·.1)) : setAttribute name value found = found ++ [(name, value)] := by
  induction found with
  | nil => rfl
  | cons x found ih =>
    simp only [List.map_cons, List.mem_cons, not_or] at h
    rw [setAttribute, if_neg (Ne.symm h.1), ih h.2]
    rfl

lemma readAttributes_skip (k : ℕ) (found : List (String × String)) (u : Text) :
    readAttributes k found u = readAttributes 0 found (u.drop k) := by
  induction u generalizing k with
  | nil => cases k <;> rfl
  | cons c u ih =>
    cases k with
    | zero => rfl
    | succ k => rw [readAttributes, ih, List.drop_succ_cons]

lemma assigned?_printAll (as : List Attribute) : assigned? (Attribute.printAll as) = none := by
  cases as with
  | nil => rfl
  | cons a as =>
    obtain ⟨c, name, hname⟩ := List.exists_cons_of_ne_nil a.nonempty
    obtain ⟨-, -, hblank, heq, -⟩ := a.spec_of_mem (hname ▸ List.mem_cons_self)
    have hspace : isBlank ' ' = true := by decide
    rw [Attribute.printAll, List.flatMap_cons, Attribute.print, hname, assigned?]
    simp only [List.cons_append, List.takeWhile_cons, hspace, hblank, if_true, Bool.false_eq_true,
      if_false, List.length_singleton, List.drop_succ_cons, List.drop_zero]
    split
    · next h => exact absurd (List.cons_eq_cons.mp h).1 heq
    · rfl

lemma assigned?_quoted (h : '"' ∉ v) (rest : Text) :
    assigned? ('=' :: '"' :: (v ++ '"' :: rest)) = some (v, v.length + 3) := by
  have hvalue : (v ++ '"' :: rest).takeWhile (· ≠ '"') = v := by
    refine Text.takeWhile_append_cons (fun d hd => ?_) (by simp) rest
    rw [decide_eq_true_eq]
    rintro rfl
    exact h hd
  have hquoted : valueAt? ('"' :: (v ++ '"' :: rest)) = some (v, v.length + 2) := by
    rw [valueAt?]
    dsimp only
    rw [if_pos (Or.inl rfl), hvalue, if_pos (by simp)]
  have heq : isBlank '=' = false := by decide
  have hquote : isBlank '"' = false := by decide
  rw [assigned?]
  simp only [List.takeWhile_cons, heq, hquote, Bool.false_eq_true, if_false, List.length_nil,
    List.drop_zero, hquoted, Option.map_some]
  rw [show 0 + 1 + 0 + (v.length + 2) = v.length + 3 by omega]

lemma readAttributes_print (a : Attribute) (as : List Attribute) (found : List (String × String)) :
    readAttributes 0 found (a.print ++ Attribute.printAll as) = readAttributes 0
      (setAttribute (String.ofList a.name) (String.ofList a.meaning) found) (Attribute.printAll as) := by
  -- What the name is followed by, up to the next attribute, and what is read there.
  obtain ⟨value, hprint, hassigned, hend⟩ : ∃ value : Text,
      a.print = ' ' :: (a.name ++ value) ∧
      (assigned? (value ++ Attribute.printAll as)).getD ("true".toList, 0) =
        (a.meaning, value.length) ∧
      ∀ d ∈ (value ++ Attribute.printAll as).head?, isNameChar d = false := by
    rw [Attribute.print, Attribute.meaning]
    cases hv : a.value with
    | none =>
      refine ⟨[], rfl, by rw [List.nil_append, assigned?_printAll]; rfl, ?_⟩
      cases as with
      | nil => simp [Attribute.printAll]
      | cons b as => simp [Attribute.printAll, Attribute.print]; decide
    | some value =>
      refine ⟨'=' :: '"' :: (value ++ ['"']), rfl, ?_, by simp; decide⟩
      have h := assigned?_quoted (a.unquoted value hv) (Attribute.printAll as)
      simp [h]
  obtain ⟨c, name, hname⟩ := List.exists_cons_of_ne_nil a.nonempty
  have hspace : isNameChar ' ' = false := by decide
  have hlower : a.name.map Char.toLower = a.name :=
    (List.map_congr_left fun d hd => (a.spec_of_mem hd).2.1).trans (List.map_id _)
  have htake := a.takeWhile_name hend
  have hc := (a.spec_of_mem (hname ▸ List.mem_cons_self)).1
  rw [hprint, List.cons_append, List.append_assoc, readAttributes, hspace, if_neg (by simp), hname,
    List.cons_append, readAttributes, if_pos hc, ← List.cons_append, ← hname, htake]
  dsimp only
  have hskip : (name ++ (value ++ Attribute.printAll as)).drop (a.name.length + value.length - 1) =
      Attribute.printAll as := by
    have hlen : a.name.length + value.length - 1 = (name ++ value).length := by
      rw [hname, List.length_cons, List.length_append]
      omega
    rw [hlen, ← List.append_assoc, List.drop_left]
  rw [List.drop_left, hassigned, hlower, readAttributes_skip, hskip]

lemma readAttributes_printAll {as : List Attribute} {found : List (String × String)}
    (h : (found.map (·.1) ++ as.map fun a => String.ofList a.name).Nodup) :
    readAttributes 0 found (Attribute.printAll as) =
      found ++ as.map fun a => (String.ofList a.name, String.ofList a.meaning) := by
  induction as generalizing found with
  | nil => simp [Attribute.printAll, readAttributes]
  | cons a as ih =>
    have hnew : String.ofList a.name ∉ found.map (·.1) := by
      intro hmem
      exact (List.nodup_append.mp h).2.2 _ hmem _ (by simp) rfl
    have hprint : Attribute.printAll (a :: as) = a.print ++ Attribute.printAll as := rfl
    rw [hprint, readAttributes_print, setAttribute_eq_append hnew, ih (by simpa using h)]
    simp

namespace ScriptElement

lemma splitScript?_print (e : ScriptElement) (rest : Text) : splitScript? (e.print ++ rest) =
    some ⟨e.opening.length, Attribute.printAll e.attributes, e.body, rest⟩ := by
  have hprint : e.print ++ rest = '<' :: (scriptWord ++ (Attribute.printAll e.attributes ++
      '>' :: (e.body ++ (closing ++ rest)))) := by
    simp [print, opening, Attribute.printAll]
  have hfront : ∀ v, Text.dropFront? ['<'] ('<' :: v) = some v := Text.dropFront?_append ['<']
  have hword : dropWord? "script".toList (scriptWord ++ (Attribute.printAll e.attributes ++
      '>' :: (e.body ++ (closing ++ rest)))) = some (Attribute.printAll e.attributes ++
        '>' :: (e.body ++ (closing ++ rest))) :=
    (dropWord?_eq_some_iff (List.Subset.refl _)).mpr ⟨_, spells_scriptWord, rfl⟩
  have hend : (!(Attribute.printAll e.attributes ++ '>' :: (e.body ++ (closing ++ rest))).head?.any
      Unicode.isWord) = true := by
    have hsigns : Unicode.isWord '>' = false ∧ Unicode.isWord ' ' = false := by decide +kernel
    cases e.attributes with
    | nil => simp [Attribute.printAll, hsigns]
    | cons a as => simp [Attribute.printAll, Attribute.print, hsigns]
  have hlength : ('<' :: (scriptWord ++ (Attribute.printAll e.attributes ++
      '>' :: (e.body ++ (closing ++ rest))))).length - (e.body ++ (closing ++ rest)).length =
        e.opening.length := by
    simp only [opening, Attribute.printAll, List.length_cons, List.length_append, List.length_nil]
    omega
  have hguard : (guard (true = true) : Option Unit) = some () := rfl
  rw [hprint, splitScript?, hfront, Option.bind_eq_bind, Option.bind_some, hword,
    Option.bind_eq_bind, Option.bind_some, hend, hguard, Option.bind_eq_bind, Option.bind_some,
    splitTag_printAll, Option.bind_some]
  dsimp only
  rw [hlength, splitContent_append e.isOpen]
  rfl

lemma nodup_names (e : ScriptElement) :
    (e.attributes.map fun a => String.ofList a.name).Nodup := by
  have hinj : Function.Injective String.ofList := fun _ _ h => String.ofList_injective h
  have hmap := e.distinct.map hinj
  rwa [List.map_map] at hmap

lemma readAttributes_attributes (e : ScriptElement) (offset : ℕ) :
    readAttributes 0 [] (Attribute.printAll e.attributes) = (e.block offset).attributes :=
  readAttributes_printAll (by simpa using e.nodup_names)

lemma scripts_print (e : ScriptElement) (offset : ℕ) (rest : Text) :
    scripts 0 offset (e.print ++ rest) =
      (offset, e.block offset) :: scripts 0 (offset + size e.print) rest := by
  have hsplit := splitScript?_print e rest
  have hopening : e.print ++ rest = e.opening ++ (e.body ++ (closing ++ rest)) := by
    simp [print]
  obtain ⟨front, hfront⟩ : ∃ front, e.print = '<' :: front := ⟨_, rfl⟩
  rw [hfront, List.cons_append] at hsplit hopening ⊢
  rw [scripts, hsplit]
  dsimp only
  rw [hopening, List.take_left, readAttributes_attributes e offset, List.length_append,
    Nat.add_sub_cancel, scripts_skip, List.take_left, List.drop_left, Text.size_cons,
    Nat.add_assoc offset (Char.utf8Size _)]
  rfl

end ScriptElement

lemma scripts_gap (gap : Gap) (offset : ℕ) (hv : v = [] ∨ v.head? = some '<') :
    scripts 0 offset (gap.text ++ v) = scripts 0 (offset + size gap.text) v :=
  scripts_append offset fun _ _ hab hb => not_opensAt_of_gap gap.noScript hab hb hv

namespace Parts

lemma head?_print (parts : Parts) : print parts = [] ∨ (print parts).head? = some '<' := by
  cases parts with
  | nil => exact Or.inl rfl
  | cons part parts => exact Or.inr rfl

lemma scripts_print (parts : Parts) (offset : ℕ) :
    scripts 0 offset (print parts) = (placed offset parts).map fun x => (x.1, x.2.block x.1) := by
  induction parts generalizing offset with
  | nil => rfl
  | cons part parts ih =>
    obtain ⟨e, gap⟩ := part
    have hprint : print ((e, gap) :: parts) = e.print ++ (gap.text ++ print parts) := by
      simp [print]
    rw [hprint, e.scripts_print, scripts_gap gap _ (head?_print parts), ih]
    rfl

end Parts

namespace Document

lemma scriptBlocks_document (d : Document) : scriptBlocks d.print = d.blocks := by
  have hnone : ¬ "<!--".toList <:+: d.print := d.noComment
  rw [scriptBlocks_eq hnone, print, scripts_gap d.front 0 (Parts.head?_print d.parts),
    Parts.scripts_print, List.map_map, Nat.zero_add, blocks, elements]
  rfl

end Document

lemma lookup_any {as : List (String × String)} {key : String} {p : String → Bool}
    (h : (as.map (·.1)).Nodup) :
    (as.lookup key).any p = as.any fun a => a.1 == key && p a.2 := by
  induction as with
  | nil => rfl
  | cons a as ih =>
    obtain ⟨name, value⟩ := a
    rw [List.map_cons, List.nodup_cons] at h
    rw [List.lookup_cons, List.any_cons]
    by_cases hkey : key = name
    · subst hkey
      have hnone : (as.any fun a => a.1 == key && p a.2) = false := by
        rw [List.any_eq_false]
        intro a ha hp
        obtain ⟨hname, -⟩ := Bool.and_eq_true_iff.mp hp
        exact h.1 (List.mem_map.mpr ⟨a, ha, beq_iff_eq.mp hname⟩)
      simp [hnone]
    · have hne : (key == name) = false := beq_false_of_ne hkey
      have hne' : (name == key) = false := beq_false_of_ne (Ne.symm hkey)
      rw [hne, hne', Bool.false_and, Bool.false_or]
      exact ih h.2

namespace ScriptElement

variable (e : ScriptElement) (offset : ℕ)

lemma lookup_block (key : Text) (p : Text → Bool) :
    ((e.block offset).attributes.lookup (String.ofList key)).any (fun v => p v.toList) =
      e.attributes.any fun a => a.name == key && p a.meaning := by
  rw [lookup_any (by simpa [block, Function.comp_def] using e.nodup_names), block, List.any_map]
  congr 1
  funext a
  have hname : (String.ofList a.name == String.ofList key) = (a.name == key) := by
    rw [Bool.eq_iff_iff, beq_iff_eq, beq_iff_eq]
    exact ⟨fun h => String.ofList_injective h, fun h => by rw [h]⟩
  simp only [Function.comp_apply, hname, String.toList_ofList]

lemma isExternal_block : (e.block offset).isExternal =
    !(e.attributes.all fun a => a.name != "src".toList || a.meaning.all isBlank) := by
  have h := e.lookup_block offset "src".toList fun v => !v.all isBlank
  rw [String.ofList_toList] at h
  have hany : (e.block offset).isExternal =
      ((e.block offset).attributes.lookup "src").any fun v => !v.toList.all isBlank := by
    rw [ScriptBlock.isExternal]
    cases (e.block offset).attributes.lookup "src" <;> rfl
  rw [hany, h, List.not_all_eq_any_not]
  simp only [Bool.not_or, bne, Bool.not_not]

lemma dialectOfLang_block : Module.dialectOfLang (e.block offset).lang? =
    ⟨true, e.hasMarkup, .module, false⟩ := by
  have h := e.lookup_block offset "lang".toList fun v =>
    ["tsx".toList, "jsx".toList].contains (v.map Char.toLower)
  rw [String.ofList_toList] at h
  rw [hasMarkup, ← h, Module.dialectOfLang, ScriptBlock.lang?]
  cases (e.block offset).attributes.lookup "lang" with
  | none => rfl
  | some v => simp [Bool.beq_eq_decide_eq]

end ScriptElement

lemma Parts.exists_from {u : Text} {parts : Parts} {offset : ℕ}
    (h : Text.From u offset (print parts)) :
    ∀ x ∈ placed offset parts, ∃ rest, Text.From u x.1 (x.2.print ++ rest) := by
  induction parts generalizing offset with
  | nil => exact fun x hx => absurd hx List.not_mem_nil
  | cons part parts ih =>
    obtain ⟨e, gap⟩ := part
    have hprint : print ((e, gap) :: parts) = e.print ++ (gap.text ++ print parts) := by
      simp [print]
    rw [hprint] at h
    intro x hx
    rcases List.mem_cons.mp hx with rfl | hx
    · exact ⟨_, h⟩
    · exact ih h.drop.drop x hx

namespace Document

variable (d : Document)

lemma slice?_body {x : ℕ × ScriptElement} (hx : x ∈ d.elements) :
    Text.slice? d.print (x.2.bodySpan x.1).start (x.2.bodySpan x.1).stop = some x.2.body := by
  have hparts : Text.From d.print (size d.front.text) d.parts.print := ⟨_, rfl, rfl⟩
  obtain ⟨rest, hfrom⟩ := Parts.exists_from hparts x hx
  rw [ScriptElement.print, List.append_assoc, List.append_assoc] at hfrom
  exact Text.slice?_eq_some_iff.mpr ⟨Nat.le_add_right .., _, hfrom.drop, rfl⟩

lemma scan_document : scan d.print = d.code := by
  have hkeep : ∀ x ∈ d.elements, ((!(x.2.block x.1).isExternal &&
      !((Text.slice? d.print (x.2.block x.1).span.start (x.2.block x.1).span.stop).getD []).all
        isBlank) = x.2.isCode) := by
    intro x hx
    have hslice : Text.slice? d.print (x.2.block x.1).span.start (x.2.block x.1).span.stop =
        some x.2.body := d.slice?_body hx
    rw [hslice, x.2.isExternal_block, Bool.not_not]
    rfl
  rw [scan, scriptBlocks_document, blocks, List.filter_map, List.map_map, code]
  congr 1
  refine (congrArg (List.map _) (List.filter_congr hkeep)).trans (List.map_congr_left fun x _ => ?_)
  simp only [Function.comp_apply, x.2.dialectOfLang_block]
  rfl

end Document

/-- A document of text and script elements is read back: the blocks are its elements, each with its
attributes and the place of its body, and the code is that of the elements that have code of the document,
in the language that they name. -/
theorem scriptBlocks_print (d : Document) :
    scriptBlocks d.print = d.blocks ∧ scan d.print = d.code ∧
      ∀ x ∈ d.elements, Text.slice? d.print (x.2.bodySpan x.1).start (x.2.bodySpan x.1).stop =
        some x.2.body :=
  ⟨d.scriptBlocks_document, d.scan_document, fun _ => d.slice?_body⟩

example : scriptBlocks "<script lang=\"a>b\" setup>x = '<script>'</script>".toList =
    [⟨⟨25, 39⟩, [("lang", "a>b"), ("setup", "true")]⟩] := by
  decide +kernel

end MetaInline.Component
