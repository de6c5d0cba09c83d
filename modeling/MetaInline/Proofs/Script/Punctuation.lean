import Mathlib
import MetaInline.Proofs.Script.LiteralToken

namespace MetaInline.Script

open Text (size)

variable {word rest cs : Text} {c : Char} {p : Punct} {markup newline : Bool} {start : ℕ}

namespace Punct

def otherSigns : List Text :=
  ["/*".toList, "<!".toList, "-->".toList, "?.".toList]

def continues (c : Char) : Bool :=
  (spellings.map Prod.fst ++ otherSigns).any fun s => s.tail.contains c

lemma not_mem_tail (hc : continues c = false) {s : Text} (hs : s ∈ spellings.map Prod.fst ++ otherSigns) :
    c ∉ s.tail := by
  have hall := List.any_eq_false.mp hc s hs
  simpa using hall

lemma not_prefix_of_tail {s : Text} (hs : ¬ s <+: word) (hne : word ≠ []) (hc : c ∉ s.tail) :
    ¬ s <+: word ++ c :: rest := by
  intro h
  rcases List.prefix_or_prefix_of_prefix h (List.prefix_append word (c :: rest)) with hin | ⟨t, rfl⟩
  · exact hs hin
  · rw [List.prefix_append_right_inj] at h
    cases t with
    | nil => exact hs (by simp)
    | cons d t =>
      obtain rfl : d = c := (List.cons_prefix_cons.mp h).1
      obtain ⟨e, es, rfl⟩ := List.exists_cons_of_ne_nil hne
      exact hc (by simp)

lemma pairwise_spellings : spellings.Pairwise fun x y => ¬ x.1 <+: y.1 := by
  decide

lemma spec_of_mem {x : Text × Punct} (h : x ∈ spellings) : x.1 ≠ [] ∧ ¬ "//".toList <+: x.1 ∧
    (x.1 = ['/'] → x.2 = .slash) ∧ (x.2 ≠ .questionDot → ∀ s ∈ otherSigns, ¬ s <+: x.1) ∧
    (x.2 ≠ .dot → x.1.head? = some '.' → "..".toList <+: x.1) := by
  have hall : ∀ x ∈ spellings, x.1 ≠ [] ∧ ¬ "//".toList <+: x.1 ∧ (x.1 = ['/'] → x.2 = .slash) ∧
      (x.2 ≠ .questionDot → ∀ s ∈ otherSigns, ¬ s <+: x.1) ∧
      (x.2 ≠ .dot → x.1.head? = some '.' → "..".toList <+: x.1) := by decide
  exact hall x h

def IsMark (c : Char) : Prop :=
  isLineBreak c = false ∧ isSpace c = false ∧ Unicode.isIdStart c = false ∧ c ≠ '\\' ∧
    Unicode.isAsciiDigit c = false ∧ c ≠ '"' ∧ c ≠ '\'' ∧ c.toNat ≠ 0x60 ∧ c ≠ '#'

instance (c : Char) : Decidable (IsMark c) :=
  inferInstanceAs (Decidable (_ ∧ _))

lemma isMark_of_mem {x : Text × Punct} (h : x ∈ spellings) {cs : Text} (hcs : x.1 = c :: cs) : IsMark c := by
  have hall : spellings.all (fun x => x.1.head?.all fun c => decide (IsMark c)) = true := by decide
  have hx := List.all_eq_true.mp hall x h
  rw [hcs] at hx
  simpa using hx

lemma read?_append_cons (h : (word, p) ∈ spellings) (hc : continues c = false) (rest : Text) :
    read? spellings (word ++ c :: rest) = some (p, word, c :: rest) := by
  obtain ⟨before, after, hsplit⟩ := List.append_of_mem h
  have hpairwise := pairwise_spellings
  rw [hsplit, List.pairwise_append] at hpairwise
  obtain ⟨hne, -⟩ := spec_of_mem h
  have hbefore : before.findSome? (fun x : Text × Punct =>
      (Text.dropFront? x.1 (word ++ c :: rest)).map fun rest => (x.2, x.1, rest)) = none := by
    rw [List.findSome?_eq_none_iff]
    intro x hx
    have hword := hpairwise.2.2 x hx (word, p) List.mem_cons_self
    have hmem : x ∈ spellings := by
      rw [hsplit]
      exact List.mem_append_left _ hx
    have hsign : x.1 ∈ spellings.map Prod.fst ++ otherSigns :=
      List.mem_append_left _ (List.mem_map_of_mem hmem)
    have hnot : ¬ x.1 <+: word ++ c :: rest := not_prefix_of_tail hword hne (not_mem_tail hc hsign)
    rw [← Text.isSome_dropFront?_iff, Option.not_isSome_iff_eq_none] at hnot
    rw [hnot, Option.map_none]
  rw [read?, hsplit, List.findSome?_append, hbefore, Option.none_or, List.findSome?_cons]
  simp only [Text.dropFront?_append, Option.map_some]

end Punct

lemma isFront_of_signs (hbreak : isLineBreak c = false) (hspace : isSpace c = false)
    (hslashes : ¬ "//".toList <+: c :: cs) (hother : ∀ s ∈ Punct.otherSigns, ¬ s <+: c :: cs) :
    IsFront (c :: cs) := by
  intro markup newline start
  have hblock : ¬ "/*".toList <+: c :: cs := hother _ (by simp [Punct.otherSigns])
  have hopening : ¬ "<!".toList <+: c :: cs := hother _ (by simp [Punct.otherSigns])
  have hclosing : ¬ "-->".toList <+: c :: cs := hother _ (by simp [Punct.otherSigns])
  unfold skipTrivia
  rw [hbreak, hspace, if_neg Bool.false_ne_true, if_neg Bool.false_ne_true]
  split
  · exact absurd (by simp) hslashes
  · exact absurd (by simp) hblock
  · exact absurd (by simp) hopening
  · exact absurd (by simp) hclosing
  · rfl

lemma atFront_mark (h : Punct.IsMark c) (hdot : c = '.' → ∀ d ∈ cs.head?, Unicode.isAsciiDigit d = false)
    (hother : ∀ s ∈ Punct.otherSigns, ¬ s <+: c :: cs) {word rest : Text}
    (hread : Punct.read? Punct.spellings (c :: cs) = some (p, word, rest)) :
    Lexeme.atFront markup newline start (c :: cs) =
      ⟨.punct p, start, c :: cs, start + word.length, rest, newline⟩ := by
  obtain ⟨-, -, hstart, hescape, hdigit, hdouble, hsingle, htick, hhash⟩ := h
  have hopening : ¬ "<!".toList <+: c :: cs := hother _ (by simp [Punct.otherSigns])
  have hparted : ¬ "?.".toList <+: c :: cs := hother _ (by simp [Punct.otherSigns])
  unfold Lexeme.atFront
  simp only [hstart, hdigit, beq_eq_false_iff_ne.mpr hescape, beq_eq_false_iff_ne.mpr hdouble,
    beq_eq_false_iff_ne.mpr hsingle, beq_eq_false_iff_ne.mpr htick, beq_eq_false_iff_ne.mpr hhash,
    Bool.or_false, Bool.false_eq_true, if_false]
  split
  · rw [hdot rfl _ rfl, if_neg Bool.false_ne_true, hread]
  · exact absurd (by simp) hparted
  · exact absurd (by simp) hopening
  · rw [hread]

lemma first_punct (h : (word, p) ∈ Punct.spellings) (hdot : p ≠ .dot) (hquestionDot : p ≠ .questionDot)
    (hc : Punct.continues c = false) (hslash : p = .slash → c ≠ '/') (rest : Text) :
    Lexeme.first markup newline start (word ++ c :: rest) =
      ⟨.punct p, start, word ++ c :: rest, start + size word, c :: rest, newline⟩ := by
  obtain ⟨hne, hslashes, hsingle, hsigns, hdots⟩ := Punct.spec_of_mem h
  have hother : ∀ s ∈ Punct.otherSigns, ¬ s <+: word ++ c :: rest := fun s hs =>
    Punct.not_prefix_of_tail (hsigns hquestionDot s hs) hne
      (Punct.not_mem_tail hc (List.mem_append_right _ hs))
  have hread := Punct.read?_append_cons h hc rest
  have hplain : IsPlain word := (isPlain_of_mem_spellings (List.mem_append_left _ h)).1
  rw [hplain.size_eq]
  obtain ⟨d, ds, rfl⟩ := List.exists_cons_of_ne_nil hne
  have hmark := Punct.isMark_of_mem h rfl
  have hnot : ¬ "//".toList <+: d :: (ds ++ c :: rest) := by
    intro hprefix
    cases ds with
    | nil =>
      obtain ⟨rfl, rfl⟩ : '/' = d ∧ '/' = c := by simpa using hprefix
      exact hslash (hsingle rfl) rfl
    | cons e es =>
      obtain ⟨rfl, rfl⟩ : '/' = d ∧ '/' = e := by simpa using hprefix
      exact hslashes (by simp)
  have hnext : d = '.' → ∀ e ∈ (ds ++ c :: rest).head?, Unicode.isAsciiDigit e = false := by
    rintro rfl e he
    obtain ⟨es, hes⟩ := hdots hdot rfl
    obtain rfl : '.' :: es = ds := by simpa using hes
    cases he
    rfl
  rw [List.cons_append, first_of_isFront (isFront_of_signs hmark.1 hmark.2.1 hnot hother)]
  exact atFront_mark hmark hnext hother hread

end MetaInline.Script
