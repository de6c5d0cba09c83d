import Mathlib
import MetaInline.Proofs.Document.Component.Grammar
import MetaInline.Proofs.Document.ScriptElement

namespace MetaInline.Component

open Text (size)
open Unicode (isBlank)

variable {u v w word rest : Text} {c : Char}

section

variable {α : Type} (find : ℕ → Text → Option (ℕ × α))

def findAll : (skip offset : ℕ) → Text → List α
  | _, _, [] => []
  | skip + 1, offset, c :: u => findAll skip (offset + c.utf8Size) u
  | 0, offset, c :: u =>
    match find offset (c :: u) with
    | some (n, a) => a :: findAll (n - 1) (offset + c.utf8Size) u
    | none => findAll 0 (offset + c.utf8Size) u

lemma findAll_skip (k offset : ℕ) (u : Text) :
    findAll find k offset u = findAll find 0 (offset + size (u.take k)) (u.drop k) := by
  induction u generalizing k offset with
  | nil => cases k <;> simp [findAll]
  | cons c u ih =>
    cases k with
    | zero => simp
    | succ k =>
      rw [findAll, ih]
      simp [Nat.add_assoc]

variable {find}

lemma findAll_append (offset : ℕ)
    (h : ∀ a b, u = a ++ b → b ≠ [] → ∀ n, find n (b ++ v) = none) :
    findAll find 0 offset (u ++ v) = findAll find 0 (offset + size u) v := by
  induction u generalizing offset with
  | nil => rfl
  | cons c u ih =>
    have hnone : find offset (c :: (u ++ v)) = none := h [] (c :: u) rfl (by simp) offset
    rw [List.cons_append, findAll, hnone]
    dsimp only
    rw [ih _ fun a b hab hb => h (c :: a) b (by rw [hab]; rfl) hb, Text.size_cons, Nat.add_assoc]

lemma findAll_shift {n : ℕ} {shift : α → α}
    (h : ∀ offset u, find (offset + n) u = (find offset u).map (Prod.map id shift)) (k offset : ℕ)
    (u : Text) : findAll find k (offset + n) u = (findAll find k offset u).map shift := by
  induction u generalizing k offset with
  | nil => cases k <;> rfl
  | cons c u ih =>
    cases k with
    | succ k => rw [findAll, findAll, Nat.add_right_comm, ih]
    | zero =>
      rw [findAll, findAll, h, Nat.add_right_comm offset n c.utf8Size]
      cases find offset (c :: u) with
      | none => exact ih 0 _
      | some x => exact congrArg (shift x.2 :: ·) (ih (x.1 - 1) _)

end

def commentAt (offset : ℕ) (u : Text) : Option (ℕ × Span) :=
  (commentSize? u).map fun n => (n, ⟨offset, offset + size (u.take n)⟩)

def scriptAt (offset : ℕ) (u : Text) : Option (ℕ × ℕ × ScriptBlock) :=
  (splitScript? u).map fun e =>
    let start := offset + size (u.take e.tagLength)
    (u.length - e.rest.length, offset,
      ⟨⟨start, start + size e.body⟩, readAttributes 0 [] e.attributes⟩)

lemma comments_eq_findAll (k offset : ℕ) (u : Text) :
    comments k offset u = findAll commentAt k offset u := by
  induction u generalizing k offset with
  | nil => cases k <;> rfl
  | cons c u ih =>
    cases k with
    | succ k => exact ih k _
    | zero =>
      rw [comments, findAll, commentAt]
      cases commentSize? (c :: u) with
      | none => exact ih 0 _
      | some n => exact congrArg (_ :: ·) (ih (n - 1) _)

lemma scripts_eq_findAll (k offset : ℕ) (u : Text) :
    scripts k offset u = findAll scriptAt k offset u := by
  induction u generalizing k offset with
  | nil => cases k <;> rfl
  | cons c u ih =>
    cases k with
    | succ k => exact ih k _
    | zero =>
      rw [scripts, findAll, scriptAt]
      cases splitScript? (c :: u) with
      | none => exact ih 0 _
      | some e =>
        have hskip : (c :: u).length - e.rest.length - 1 = u.length - e.rest.length := by
          rw [List.length_cons]
          omega
        dsimp only [Option.map_some]
        rw [hskip, ih]

lemma isLetter_iff {letter : Char} (h : letter ∈ scriptWord) :
    isLetter letter c = true ↔ IsCaseOf letter c := by
  have hupper : scriptWord.all (fun d => d.toUpper.toNat + 32 == d.toNat) = true := by decide
  have hcapital : c.toNat + 32 = letter.toNat ↔ c = letter.toUpper := by
    rw [← beq_iff_eq.mp (List.all_eq_true.mp hupper letter h), Nat.add_right_cancel_iff,
      Char.toNat_inj]
  simp only [isLetter, IsCaseOf, Bool.or_eq_true, Bool.and_eq_true, beq_iff_eq, hcapital, or_assoc]

lemma dropWord?_eq_some_iff (hword : word ⊆ scriptWord) :
    dropWord? word u = some rest ↔ ∃ w, Spells word w ∧ u = w ++ rest := by
  induction word generalizing u with
  | nil => simp [dropWord?, Spells, eq_comm]
  | cons letter word ih =>
    have hletter : letter ∈ scriptWord := hword (by simp)
    have hrest : word ⊆ scriptWord := fun d hd => hword (by simp [hd])
    cases u with
    | nil =>
      simp only [dropWord?, reduceCtorEq, false_iff]
      rintro ⟨w, hw, hu⟩
      cases hw
      cases hu
    | cons c u =>
      rw [dropWord?]
      constructor
      · intro h
        split at h
        · next hc =>
          obtain ⟨w, hw, rfl⟩ := (ih hrest).mp h
          exact ⟨c :: w, .cons ((isLetter_iff hletter).mp hc) hw, rfl⟩
        · cases h
      · rintro ⟨_, hw, hu⟩
        cases hw with
        | cons hc hw =>
          obtain ⟨rfl, rfl⟩ := List.cons_eq_cons.mp hu
          rw [if_pos ((isLetter_iff hletter).mpr hc)]
          exact (ih hrest).mpr ⟨_, hw, rfl⟩

lemma spells_scriptWord : Spells scriptWord scriptWord :=
  List.forall₂_same.mpr fun _ _ => Or.inl rfl

lemma notMem_of_spells (h : Spells scriptWord w)
    (hc : (scriptWord.all fun letter => !isLetter letter c) = true) : c ∉ w := by
  intro hmem
  obtain ⟨i, hi, rfl⟩ := List.getElem_of_mem hmem
  have hi' : i < scriptWord.length := h.length_eq ▸ hi
  have hletter := (isLetter_iff (List.get_mem ..)).mpr ((List.forall₂_iff_get.mp h).2 i hi' hi)
  have hnone := List.all_eq_true.mp hc _ (List.get_mem scriptWord ⟨i, hi'⟩)
  rw [List.get_eq_getElem, List.get_eq_getElem] at hletter
  simp [hletter] at hnone

def OpensAt (u : Text) : Prop :=
  ∃ w, Spells scriptWord w ∧ '<' :: w <+: u

def ClosesAt (u : Text) : Prop :=
  ∃ w blanks, Spells scriptWord w ∧ (∀ c ∈ blanks, isBlank c = true) ∧
    '<' :: '/' :: (w ++ (blanks ++ ['>'])) <+: u

lemma prefix_of_append {p : Text} (hp : c ∉ p) (hu : u ≠ []) (h : c :: p <+: u ++ v)
    (hv : v = [] ∨ v.head? = some c) : c :: p <+: u := by
  obtain ⟨r, hr⟩ := h
  rcases List.append_eq_append_iff.mp hr with ⟨x, rfl, -⟩ | ⟨x, hx, rfl⟩
  · exact List.prefix_append _ x
  · cases x with
    | nil => exact ⟨[], by simpa using hx⟩
    | cons d x =>
      obtain ⟨e, u, rfl⟩ := List.exists_cons_of_ne_nil hu
      obtain ⟨rfl, rfl⟩ := List.cons_eq_cons.mp hx
      obtain rfl : d = c := by simpa using hv
      simp at hp

lemma splitScript?_eq_none (h : ¬ OpensAt u) : splitScript? u = none := by
  rw [Option.eq_none_iff_forall_ne_some]
  intro e he
  rw [splitScript?] at he
  obtain ⟨r, hr, he⟩ := Option.bind_eq_some_iff.mp he
  obtain ⟨r', hr', -⟩ := Option.bind_eq_some_iff.mp he
  obtain ⟨w, hw, rfl⟩ := (dropWord?_eq_some_iff (List.Subset.refl _)).mp hr'
  exact h ⟨w, hw, r', (Text.eq_append_of_dropFront? hr).symm⟩

lemma dropClosing?_eq_none (h : ¬ ClosesAt u) : dropClosing? u = none := by
  rw [Option.eq_none_iff_forall_ne_some]
  intro r he
  rw [dropClosing?] at he
  obtain ⟨r₁, hr₁, he⟩ := Option.bind_eq_some_iff.mp he
  obtain ⟨r₂, hr₂, hrest⟩ := Option.bind_eq_some_iff.mp he
  obtain ⟨w, hw, hr₁'⟩ := (dropWord?_eq_some_iff (List.Subset.refl _)).mp hr₂
  have hblank := List.takeWhile_append_dropWhile (p := isBlank) (l := r₂)
  split at hrest
  · next r' hgt =>
    refine h ⟨w, r₂.takeWhile isBlank, hw, fun c hc => List.mem_takeWhile_imp hc, r', ?_⟩
    have hsplit : r₂ = r₂.takeWhile isBlank ++ '>' :: r' := hgt ▸ hblank.symm
    rw [Text.eq_append_of_dropFront? hr₁, hr₁']
    nth_rewrite 2 [hsplit]
    simp
  · cases hrest

lemma scripts_append (offset : ℕ)
    (h : ∀ a b, u = a ++ b → b ≠ [] → ¬ OpensAt (b ++ v)) :
    scripts 0 offset (u ++ v) = scripts 0 (offset + size u) v := by
  rw [scripts_eq_findAll, scripts_eq_findAll]
  apply findAll_append
  intro a b hab hb n
  rw [scriptAt, splitScript?_eq_none (h a b hab hb), Option.map_none]

lemma not_opensAt_of_gap (h : ¬ Opens u) {a b : Text} (hab : u = a ++ b) (hb : b ≠ [])
    (hv : v = [] ∨ v.head? = some '<') : ¬ OpensAt (b ++ v) := by
  rintro ⟨w, hw, hpre⟩
  have hin := prefix_of_append (notMem_of_spells hw (by decide)) hb hpre hv
  exact h ⟨w, hw, hin.isInfix.trans (hab ▸ (List.suffix_append a b).isInfix)⟩

lemma dropClosing?_closing (rest : Text) :
    dropClosing? (ScriptElement.closing ++ rest) = some rest := by
  have hfront : Text.dropFront? "</".toList (ScriptElement.closing ++ rest) =
      some (scriptWord ++ '>' :: rest) := by
    simp [ScriptElement.closing, Text.dropFront?]
  have hword : dropWord? "script".toList (scriptWord ++ '>' :: rest) = some ('>' :: rest) :=
    (dropWord?_eq_some_iff (List.Subset.refl _)).mpr ⟨_, spells_scriptWord, rfl⟩
  have hblank : isBlank '>' = false := by decide
  rw [dropClosing?, hfront, Option.bind_eq_bind, Option.bind_some, hword]
  simp [hblank]

lemma splitContent_append (h : ¬ Closes u) :
    splitContent (u ++ (ScriptElement.closing ++ rest)) = some (u, rest) := by
  induction u with
  | nil =>
    have hclosing := dropClosing?_closing rest
    rw [ScriptElement.closing, List.cons_append] at hclosing
    rw [ScriptElement.closing, List.nil_append, List.cons_append, splitContent, hclosing]
  | cons c u ih =>
    have hrest : ¬ Closes u := by
      rintro ⟨w, blanks, hw, hblanks, hin⟩
      exact h ⟨w, blanks, hw, hblanks, hin.trans (List.suffix_cons c u).isInfix⟩
    have hnone : dropClosing? (c :: (u ++ (ScriptElement.closing ++ rest))) = none := by
      apply dropClosing?_eq_none
      rintro ⟨w, blanks, hw, hblanks, hpre⟩
      have hless : '<' ∉ '/' :: (w ++ (blanks ++ ['>'])) := by
        have hnone : '<' ∉ blanks := fun hmem => by cases hblanks _ hmem
        simp [notMem_of_spells hw (c := '<') (by decide), hnone]
      exact h ⟨w, blanks, hw, hblanks,
        (prefix_of_append (u := c :: u) hless (by simp) hpre (Or.inr rfl)).isInfix⟩
    rw [List.cons_append, splitContent, hnone, ih hrest]
    rfl

lemma commentSize?_eq_none (h : ¬ "<!--".toList <+: u) : commentSize? u = none := by
  rw [Option.eq_none_iff_forall_ne_some]
  intro n hn
  rw [commentSize?] at hn
  obtain ⟨rest, hrest, -⟩ := Option.bind_eq_some_iff.mp hn
  exact h ⟨rest, (Text.eq_append_of_dropFront? hrest).symm⟩

lemma comments_append (offset : ℕ)
    (h : ∀ a b, u = a ++ b → b ≠ [] → ¬ "<!--".toList <+: b ++ v) :
    comments 0 offset (u ++ v) = comments 0 (offset + size u) v := by
  rw [comments_eq_findAll, comments_eq_findAll]
  apply findAll_append
  intro a b hab hb n
  rw [commentAt, commentSize?_eq_none (h a b hab hb), Option.map_none]

lemma comments_eq_nil {offset : ℕ} (h : ¬ "<!--".toList <:+: u) : comments 0 offset u = [] := by
  have hnone : ∀ a b, u = a ++ b → b ≠ [] → ¬ "<!--".toList <+: b ++ [] := by
    rintro a b rfl - hpre
    rw [List.append_nil] at hpre
    exact h (hpre.isInfix.trans (List.suffix_append a b).isInfix)
  simpa [comments] using comments_append offset hnone

lemma scriptBlocks_eq (h : ¬ "<!--".toList <:+: u) :
    scriptBlocks u = (scripts 0 0 u).map (·.2) := by
  rw [scriptBlocks, comments_eq_nil h]
  simp

end MetaInline.Component
