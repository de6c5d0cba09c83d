import Mathlib
import MetaInline.Proofs.Analysis.Evaluation
import MetaInline.Proofs.Analysis.PlaceOrder

namespace MetaInline

namespace Script.Tree

def core (t : Tree) : Tree :=
  match t.unparenthesized with
  | .chain _ u => u
  | u => u

@[simp] lemma core_parens (s : Span) (t : Tree) : (parens s t).core = t.core := by
  simp [core, unparenthesized]

def argumentKind : Tree → String
  | .node (.spread _) _ _ => "SpreadElement"
  | t => t.unparenthesized.kindName

end Script.Tree

namespace Place

open Site Script.Tree
open Script (Tree)

lemma argument_eq (t : Tree) (n : ℕ) :
    argument t n = match t.literal? with
      | some v => .literal v
      | none => if isSite t.core then .site (n - 1) else .other t.argumentKind t.span := by
  cases hl : t.literal? with
  | some v => simp only [argument, hl]
  | none =>
    cases t with
    | node kind s ts =>
      cases kind <;>
        simp [argument, hl, core, unparenthesized, argumentKind, isSite, path?]
    | _ =>
      simp only [argument, hl, core, argumentKind]
      rfl

lemma ofTree_of_isSite {t : Tree} (h : isSite t = true) :
    ofTree .value t = inner ⟨t, false⟩ ++ [⟨t, false⟩] := by
  rcases isSite_iff.mp h with ⟨s, o, x, b, rfl, -⟩ | ⟨s, c, ts, as, b, rfl, -⟩
  · simp [ofTree, own, h, inner]
  · simp [ofTree, own, h, inner]

lemma ofTree_core {t : Tree} (h : isSite t.core = true) : ofTree .value t = ofTree .value t.core := by
  induction t using unparenthesized.induct with
  | case1 s t ih =>
    rw [core_parens] at h ⊢
    rw [ofTree, ih h]
  | case2 t hp =>
    cases t with
    | parens s t => exact absurd rfl (hp s t)
    | chain s t => rw [ofTree]; rfl
    | _ => rfl

lemma exists_ofTree_eq_concat {t : Tree} (h : isSite t.core = true) :
    ∃ front, ofTree .value t = front ++ [⟨t.core, false⟩] :=
  ⟨_, (ofTree_core h).trans (ofTree_of_isSite h)⟩

lemma length_arguments (first : ℕ) (as : List Tree) : (arguments first as).length = as.length := by
  induction as generalizing first with
  | nil => rfl
  | cons a as ih => simp [arguments, ih]

def countUpTo (first : ℕ) (as : List Tree) (j : ℕ) : ℕ :=
  first + (ofTrees (as.take (j + 1))).length

lemma getElem_arguments (first : ℕ) {as : List Tree} {j : ℕ} (hj : j < as.length) :
    (arguments first as).get ⟨j, by rwa [length_arguments]⟩ =
      argument as[j] (countUpTo first as j) := by
  induction as generalizing first j with
  | nil => simp at hj
  | cons a as ih =>
    cases j with
    | zero => simp [arguments, countUpTo, ofTrees]
    | succ j =>
      have := ih (first + (ofTree .value a).length) (by simpa using hj)
      rw [List.get_eq_getElem] at this
      simp only [arguments, List.get_eq_getElem, List.getElem_cons_succ, this, countUpTo]
      simp [ofTrees, Nat.add_assoc]

lemma ofTrees_append (as bs : List Tree) : ofTrees (as ++ bs) = ofTrees as ++ ofTrees bs := by
  induction as with
  | nil => simp [ofTrees]
  | cons a as ih => simp [ofTrees, ih]

lemma getElem?_countUpTo (before after : List Place) {as : List Tree} {j : ℕ} (hj : j < as.length)
    (h : isSite as[j].core = true) :
    countUpTo before.length as j ≤ (before ++ ofTrees as).length ∧ 0 < countUpTo before.length as j ∧
      (before ++ (ofTrees as ++ after))[countUpTo before.length as j - 1]? =
        some ⟨as[j].core, false⟩ := by
  obtain ⟨front, hf⟩ := exists_ofTree_eq_concat h
  have hsplit : as = as.take j ++ as[j] :: as.drop (j + 1) := by simp
  have htake : as.take (j + 1) = as.take j ++ [as[j]] := by simp
  have hall : ofTrees as =
      ofTrees (as.take j) ++ (front ++ ⟨as[j].core, false⟩ :: ofTrees (as.drop (j + 1))) := by
    conv_lhs => rw [hsplit]
    rw [ofTrees_append, ofTrees, hf]
    simp
  have hcount : countUpTo before.length as j =
      before.length + (ofTrees (as.take j)).length + front.length + 1 := by
    rw [countUpTo, htake, ofTrees_append, ofTrees, ofTrees, hf]
    simp only [List.append_nil, List.length_append, List.length_singleton]
    omega
  refine ⟨?_, by omega, ?_⟩
  · have hlength := congrArg List.length hall
    rw [List.length_append, List.length_append, List.length_cons] at hlength
    rw [hcount, List.length_append]
    omega
  · have hlist : before ++ (ofTrees as ++ after) = (before ++ ofTrees (as.take j) ++ front) ++
        ⟨as[j].core, false⟩ :: (ofTrees (as.drop (j + 1)) ++ after) := by
      rw [hall]
      simp
    have hindex : countUpTo before.length as j - 1 =
        (before ++ ofTrees (as.take j) ++ front).length := by
      simp only [hcount, List.length_append]
      omega
    rw [hlist, hindex, List.getElem?_append_right le_rfl]
    simp

theorem form_of_call {use : Use} {t : Tree} (ht : t.Ordered) {front back : List Place} {p : Place}
    (h : ofTree use t = front ++ p :: back) {s : Span} {c : Tree} {ts as : List Tree}
    {b : Bool} (hp : p.tree = .call s c ts as b) :
    ∃ first, p.form (front.length - p.inner.length) = .call (arguments first as) ∧
      ∀ j, (hj : j < as.length) → isSite as[j].core = true →
        countUpTo first as j - 1 < front.length ∧
          (ofTree use t)[countUpTo first as j - 1]? = some ⟨as[j].core, false⟩ := by
  obtain ⟨before, rfl, -⟩ := ofTree_eq_append ht h
  have hinner : p.inner = ofTrees as ++ ofTree (calleeUse c) c := by simp only [inner, hp]
  refine ⟨before.length, ?_, fun j hj hs => ?_⟩
  · simp [form, hp]
  · obtain ⟨hle, hpos, hget⟩ := getElem?_countUpTo before
      (ofTree (calleeUse c) c ++ p :: back) hj hs
    refine ⟨?_, ?_⟩
    · simp only [List.length_append] at hle
      simp only [hinner, List.length_append]
      omega
    · rw [h, hinner, ← hget]
      simp

end Place
end MetaInline
