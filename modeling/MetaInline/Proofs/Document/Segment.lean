import Mathlib
import MetaInline.Proofs.Document.Splicing

namespace MetaInline

open Text (From size)

inductive Segment where
  | kept (u : Text)
  | code (dialect : Script.Dialect) (allowReturn : Bool) (u : Text)

namespace Segment

def text : Segment → Text
  | kept u | code _ _ u => u

def printAll : List Segment → Text
  | [] => []
  | x :: xs => x.text ++ printAll xs

def regions : ℕ → List Segment → List Region
  | _, [] => []
  | offset, kept u :: xs => regions (offset + size u) xs
  | offset, code d a u :: xs => ⟨⟨offset, offset + size u⟩, d, a⟩ :: regions (offset + size u) xs

def recode (f : Region → Text) : ℕ → List Segment → List Segment
  | _, [] => []
  | offset, kept u :: xs => kept u :: recode f (offset + size u) xs
  | offset, code d a u :: xs =>
    code d a (f ⟨⟨offset, offset + size u⟩, d, a⟩) :: recode f (offset + size u) xs

inductive Becomes (P : Script.Dialect → Bool → Text → Prop) : Segment → Segment → Prop
  | kept (u : Text) : Becomes P (kept u) (kept u)
  | code {d : Script.Dialect} {a : Bool} (u : Text) {v : Text} (h : P d a v) :
      Becomes P (code d a u) (code d a v)

variable {xs ys : List Segment} {f : Region → Text} {document u v : Text} {offset offset' : ℕ}
  {P : Script.Dialect → Bool → Text → Prop}

@[simp] lemma text_kept (u : Text) : (kept u).text = u := rfl

@[simp] lemma text_code (d : Script.Dialect) (a : Bool) (u : Text) : (code d a u).text = u := rfl

@[simp] lemma printAll_nil : printAll [] = [] := rfl

@[simp] lemma printAll_cons (x : Segment) (xs : List Segment) :
    printAll (x :: xs) = x.text ++ printAll xs := rfl

@[simp] lemma printAll_append (xs ys : List Segment) :
    printAll (xs ++ ys) = printAll xs ++ printAll ys := by
  induction xs with
  | nil => rfl
  | cons x xs ih => rw [List.cons_append, printAll, printAll, ih, List.append_assoc]

@[simp] lemma regions_append (offset : ℕ) (xs ys : List Segment) :
    regions offset (xs ++ ys) = regions offset xs ++ regions (offset + size (printAll xs)) ys := by
  induction xs generalizing offset with
  | nil => rfl
  | cons x xs ih => cases x <;> simp [regions, ih, Nat.add_assoc]

lemma becomes_recode (h : ∀ r ∈ regions offset xs, P r.dialect r.allowReturn (f r)) :
    List.Forall₂ (Becomes P) xs (recode f offset xs) := by
  induction xs generalizing offset with
  | nil => exact .nil
  | cons x xs ih =>
    cases x with
    | kept u => exact .cons (.kept u) (ih h)
    | code d a u =>
      obtain ⟨hu, hxs⟩ := List.forall_mem_cons.mp h
      exact .cons (.code u hu) (ih hxs)

lemma from_of_head? {r : Region} (hfrom : From document offset (printAll xs))
    (hr : r ∈ (regions offset xs).head?) :
    offset ≤ r.span.start ∧ ∃ v, From document r.span.start v := by
  induction xs generalizing offset with
  | nil => cases hr
  | cons x xs ih =>
    cases x with
    | kept u =>
      obtain ⟨hle, hv⟩ := ih hfrom.drop hr
      exact ⟨by omega, hv⟩
    | code d a u =>
      cases hr
      exact ⟨le_rfl, _, hfrom⟩

lemma spliced_append {rs : List Region} (hfrom : From document offset (u ++ v))
    (hrs : ∀ r ∈ rs.head?, offset + size u ≤ r.span.start ∧ ∃ w, From document r.span.start w) :
    spliced document f offset rs = u ++ spliced document f (offset + size u) rs := by
  -- The same holds of the slices that the two sides begin with.
  have hslice {stop : ℕ} (hle : offset + size u ≤ stop) (hstop : ∃ w, From document stop w) :
      (Text.slice? document offset stop).getD [] =
        u ++ (Text.slice? document (offset + size u) stop).getD [] := by
    obtain ⟨x, w, rfl, hx, -⟩ := hfrom.drop.exists_append hle (Text.isBoundary_iff.mpr hstop)
    have htail : Text.slice? document (offset + size u) stop = some x :=
      Text.slice?_eq_some_iff.mpr ⟨hle, w, hfrom.drop, hx⟩
    have hall : Text.slice? document offset stop = some (u ++ x) := by
      refine Text.slice?_eq_some_iff.mpr ⟨by omega, w, ?_, by rw [Text.size_append]; omega⟩
      rwa [List.append_assoc]
    rw [htail, hall]
    rfl
  cases rs with
  | nil =>
    rw [spliced, spliced]
    refine hslice hfrom.drop.isBoundary.le_size ⟨[], ?_⟩
    exact ⟨document, by simp, rfl⟩
  | cons r rs =>
    obtain ⟨hle, hstart⟩ := hrs r rfl
    rw [spliced, spliced, hslice hle hstart, List.append_assoc]

lemma spliced_recode (hfrom : From document offset (printAll xs)) :
    spliced document f offset (regions offset xs) = printAll (recode f offset xs) := by
  induction xs generalizing offset with
  | nil =>
    have hslice : Text.slice? document offset (size document) = some [] :=
      Text.slice?_eq_some_iff.mpr ⟨hfrom.isBoundary.le_size, [], hfrom, hfrom.add_size⟩
    rw [regions, spliced, hslice]
    rfl
  | cons x xs ih =>
    cases x with
    | kept u =>
      have hall : From document offset (u ++ printAll xs) := hfrom
      have hrest : From document (offset + size u) (printAll xs) := hall.drop
      rw [regions, spliced_append hall fun r hr => from_of_head? hrest hr, ih hrest]
      rfl
    | code d a u =>
      have hrest : From document (offset + size u) (printAll xs) := hfrom.drop
      have hnone : Text.slice? document offset offset = some [] :=
        Text.slice?_eq_some_iff.mpr ⟨le_rfl, _, hfrom, rfl⟩
      rw [regions, spliced, hnone, ih hrest]
      rfl

lemma text_region (h : From document offset (u ++ v)) (d : Script.Dialect) (a : Bool) :
    Region.text ⟨⟨offset, offset + size u⟩, d, a⟩ document = u := by
  have hslice : Text.slice? document offset (offset + size u) = some u :=
    Text.slice?_eq_some_iff.mpr ⟨Nat.le_add_right .., v, h, rfl⟩
  rw [Region.text, hslice, Option.getD_some]

lemma map_regions_recode (hfrom : From document offset' (printAll (recode f offset xs))) :
    (regions offset' (recode f offset xs)).map (fun r => (r.text document, r.dialect, r.allowReturn)) =
      (regions offset xs).map fun r => (f r, r.dialect, r.allowReturn) := by
  induction xs generalizing offset offset' with
  | nil => rfl
  | cons x xs ih =>
    cases x with
    | kept u =>
      have hrest : From document (offset' + size u) (printAll (recode f (offset + size u) xs)) :=
        hfrom.drop
      exact ih hrest
    | code d a u =>
      set r : Region := ⟨⟨offset, offset + size u⟩, d, a⟩ with hr
      have htext := text_region (u := f r) hfrom d a
      have hafter : From document (offset' + size (f r)) (printAll (recode f (offset + size u) xs)) :=
        hfrom.drop
      have hrest := ih hafter
      rw [recode, regions, regions, List.map_cons, List.map_cons, ← hr, htext, hrest]

end Segment
end MetaInline
