import Mathlib
import MetaInline.Module.Id
import MetaInline.Proofs.Text.Boundary

/-! The language of a module whose name carries a query. A script or component is found by its path
alone, but a declaration file is looked for in the whole name, where a query may end like one or break
off the line. -/

namespace MetaInline.Module

variable {p q u v w r : Text}

lemma withoutQuery_append (hp : '?' ∉ p) (q : Text) : withoutQuery (p ++ '?' :: q) = p := by
  have hpath : ∀ c ∈ p, decide (c ≠ '?') = true := fun c hc => by
    simpa using fun h : c = '?' => hp (h ▸ hc)
  rw [withoutQuery, List.takeWhile_append_of_pos hpath]
  simp

lemma withoutQuery_eq_self (hp : '?' ∉ p) : withoutQuery p = p :=
  List.takeWhile_eq_self_iff.mpr fun c hc => by simpa using fun h : c = '?' => hp (h ▸ hc)

def declarationEndings : List Text :=
  [".d.ts".toList, ".d.cts".toList, ".d.mts".toList]

def IsLineQuery (r : Text) : Prop :=
  r = [] ∨ ∃ q, r = '?' :: q ∧ '\n' ∉ q

lemma ending_eq_cons (hw : w ∈ declarationEndings) : ∃ w', w = '.' :: w' := by
  revert w
  simp [declarationEndings]

lemma questionMark_notMem (hw : w ∈ declarationEndings) : '?' ∉ w := by
  revert w
  decide

lemma exists_ending (h : ((Text.dropFront? ".d.".toList u).bind fun u =>
    Text.dropFront? "ts".toList
      (match u with
      | 'c' :: v => v
      | 'm' :: v => v
      | v => v)) = some r) : ∃ w ∈ declarationEndings, u = w ++ r := by
  obtain ⟨v, hdot, hts⟩ := Option.bind_eq_some_iff.mp h
  obtain rfl := Text.eq_append_of_dropFront? hdot
  split at hts
  · obtain rfl := Text.eq_append_of_dropFront? hts
    exact ⟨".d.cts".toList, by decide, rfl⟩
  · obtain rfl := Text.eq_append_of_dropFront? hts
    exact ⟨".d.mts".toList, by decide, rfl⟩
  · obtain rfl := Text.eq_append_of_dropFront? hts
    exact ⟨".d.ts".toList, by decide, rfl⟩

lemma endsAsDeclaration_iff : endsAsDeclaration u = true ↔
    ∃ w ∈ declarationEndings, ∃ r, u = w ++ r ∧ IsLineQuery r := by
  constructor
  · intro h
    simp only [endsAsDeclaration] at h
    split at h
    · next hrest =>
      obtain ⟨w, hw, rfl⟩ := exists_ending hrest
      exact ⟨w, hw, [], rfl, Or.inl rfl⟩
    · next q hrest =>
      obtain ⟨w, hw, rfl⟩ := exists_ending hrest
      have hline : '\n' ∉ q := fun hbreak => by simpa using List.all_eq_true.mp h _ hbreak
      exact ⟨w, hw, '?' :: q, rfl, Or.inr ⟨q, rfl, hline⟩⟩
    · cases h
  · rintro ⟨w, hw, r, rfl, hr⟩
    simp only [declarationEndings, List.mem_cons, List.not_mem_nil, or_false] at hw
    rcases hr with rfl | ⟨q, rfl, hq⟩
    · rcases hw with rfl | rfl | rfl <;> rfl
    · have hline : q.all (· ≠ '\n') = true := by
        simpa using fun c hc (h : c = '\n') => hq (h ▸ hc)
      rcases hw with rfl | rfl | rfl <;> exact hline

lemma isDeclaration_iff : isDeclaration u = true ↔
    ∃ v, ∃ w ∈ declarationEndings, ∃ r, u = v ++ (w ++ r) ∧ IsLineQuery r := by
  induction u with
  | nil =>
    refine iff_of_false Bool.false_ne_true ?_
    rintro ⟨v, w, hw, r, h, -⟩
    obtain ⟨w', rfl⟩ := ending_eq_cons hw
    simp at h
  | cons c u ih =>
    rw [isDeclaration, Bool.or_eq_true, endsAsDeclaration_iff, ih]
    constructor
    · rintro (⟨w, hw, r, h, hr⟩ | ⟨v, w, hw, r, rfl, hr⟩)
      · exact ⟨[], w, hw, r, h, hr⟩
      · exact ⟨c :: v, w, hw, r, rfl, hr⟩
    · rintro ⟨v, w, hw, r, h, hr⟩
      cases v with
      | nil => exact Or.inl ⟨w, hw, r, h, hr⟩
      | cons d v => exact Or.inr ⟨v, w, hw, r, (List.cons_eq_cons.mp h).2, hr⟩

lemma isDeclaration_append_iff (hp : '?' ∉ p) : isDeclaration (p ++ '?' :: q) = true ↔
    (isDeclaration p = true ∧ '\n' ∉ q) ∨ isDeclaration q = true := by
  constructor
  · intro h
    obtain ⟨v, w, hw, r, h, hr⟩ := isDeclaration_iff.mp h
    rcases List.append_eq_append_iff.mp h with ⟨x, rfl, hx⟩ | ⟨x, rfl, hx⟩
    · -- The ending stands after the question mark, which it does not begin with.
      cases x with
      | nil =>
        obtain ⟨w', rfl⟩ := ending_eq_cons hw
        simp at hx
      | cons d x => exact Or.inr (isDeclaration_iff.mpr ⟨x, w, hw, r, (List.cons_eq_cons.mp hx).2, hr⟩)
    · -- It begins in the path and ends with it, since a question mark follows it.
      have hx' : '?' ∉ x := fun h => hp (by simp [h])
      refine Or.inl ?_
      obtain ⟨rfl, rfl⟩ : x = w ∧ r = '?' :: q := by
        rcases List.append_eq_append_iff.mp hx with ⟨y, rfl, rfl⟩ | ⟨y, rfl, hy⟩
        · cases y with
          | nil => simp
          | cons c y =>
            rcases hr with hr | ⟨q', hr, -⟩
            · cases hr
            · simp [(List.cons_eq_cons.mp hr).1] at hx'
        · cases y with
          | nil => simpa using hy.symm
          | cons c y =>
            obtain rfl := (List.cons_eq_cons.mp hy).1
            exact absurd (by simp) (questionMark_notMem hw)
      obtain ⟨q', hq', hbreak⟩ := hr.resolve_left (by simp)
      obtain rfl := (List.cons_eq_cons.mp hq').2
      exact ⟨isDeclaration_iff.mpr ⟨v, x, hw, [], by simp, Or.inl rfl⟩, hbreak⟩
  · rintro (⟨h, hq⟩ | h)
    · obtain ⟨v, w, hw, r, rfl, hr⟩ := isDeclaration_iff.mp h
      have hnil : r = [] := hr.resolve_right fun ⟨q', h, _⟩ => hp (by simp [h])
      subst hnil
      exact isDeclaration_iff.mpr ⟨v, w, hw, '?' :: q, by simp, Or.inr ⟨q, rfl, hq⟩⟩
    · obtain ⟨v, w, hw, r, rfl, hr⟩ := isDeclaration_iff.mp h
      exact isDeclaration_iff.mpr ⟨p ++ '?' :: v, w, hw, r, by simp, hr⟩

lemma isScript_append (u : Text) (h : isScript v = true) : isScript (u ++ v) = true := by
  induction u with
  | nil => exact h
  | cons c u ih => simp [isScript, ih]

lemma isScript_of_isDeclaration (hp : '?' ∉ p) (h : isDeclaration p = true) : isScript p = true := by
  obtain ⟨v, w, hw, r, rfl, hr⟩ := isDeclaration_iff.mp h
  have hnil : r = [] := hr.resolve_right fun ⟨q, h, _⟩ => hp (by simp [h])
  subst hnil
  have hending : ∀ w ∈ declarationEndings, isScript (w ++ []) = true := by decide
  exact isScript_append v (hending w hw)

/-- A query matters in two ways only: one that ends like a declaration file hides the module, and a
declaration file whose query has a line break is taken for a script. -/
theorem language?_append_query (hp : '?' ∉ p) (q : Text) : language? (p ++ '?' :: q) =
    if isDeclaration q = true then none
    else if isDeclaration p = true ∧ '\n' ∈ q then some .ecma
    else language? p := by
  have hwhole := isDeclaration_append_iff (q := q) hp
  rw [language?, language?, withoutQuery_append hp, withoutQuery_eq_self hp]
  by_cases hdeclares : isDeclaration p = true
  · have hscript := isScript_of_isDeclaration hp hdeclares
    by_cases hq : isDeclaration q = true <;> by_cases hbreak : '\n' ∈ q <;>
      simp [hwhole, hdeclares, hscript, hq, hbreak]
  · by_cases hq : isDeclaration q = true <;> simp [hwhole, hdeclares, hq]

theorem language?_append_query_plain : '?' ∉ "App.vue".toList ∧
    language? ("App.vue".toList ++ '?' :: "vue&lang.ts".toList) = some .vue := by
  have hp : '?' ∉ "App.vue".toList := by decide
  refine ⟨hp, ?_⟩
  rw [language?_append_query hp]
  decide +kernel

theorem exists_language?_query_ne : language? "a.ts".toList = some .ecma ∧
    language? ("a.ts".toList ++ '?' :: "b.d.ts".toList) = none ∧
    language? "a.d.ts".toList = none ∧
    language? ("a.d.ts".toList ++ '?' :: "x\ny".toList) = some .ecma := by
  decide +kernel

end MetaInline.Module
