import Mathlib
import MetaInline.Proofs.Document.BraceIndex
import MetaInline.Proofs.Document.Recovery

/-! The content of elements that is taken as it stands. The tag that opens such an element has a sign after
its name that ends the name; for the end of the content any name will do that begins with it. -/

namespace MetaInline

def sizeUntil {α : Type} (p : List α → Bool) (xs : List α) : ℕ :=
  (findFrom p xs).getD xs.length

section

variable {α : Type} {p q : List α → Bool} {xs : List α}

lemma sizeUntil_cons (p : List α → Bool) (x : α) (xs : List α) :
    sizeUntil p (x :: xs) = if p (x :: xs) then 0 else sizeUntil p xs + 1 := by
  rw [sizeUntil, sizeUntil]
  cases hp : p (x :: xs) with
  | true => rw [findFrom_of_pos hp, Option.getD_some, if_pos rfl]
  | false =>
    rw [findFrom_of_neg hp, if_neg Bool.false_ne_true]
    cases findFrom p xs <;> rfl

lemma sizeUntil_eq_iff (h : ∀ xs, p xs = true → q xs = true) : sizeUntil p xs = sizeUntil q xs ↔
    sizeUntil q xs = xs.length ∨ p (xs.drop (sizeUntil q xs)) = true := by
  induction xs with
  | nil => simp [sizeUntil, findFrom]
  | cons x xs ih =>
    rw [sizeUntil_cons, sizeUntil_cons]
    cases hq : q (x :: xs) with
    | true => cases hp : p (x :: xs) <;> simp [hp]
    | false =>
      have hp : p (x :: xs) = false := Bool.eq_false_iff.mpr fun hp => by simp [h _ hp] at hq
      simpa [hp] using ih

end

namespace Astro

namespace RawKind

def endsLike (kind : RawKind) (u : Text) : Bool :=
  (dropFrontNoCase? ('<' :: '/' :: kind.word) u).isSome

def ends (kind : RawKind) (u : Text) : Bool :=
  opens ('/' :: kind.word) u

variable {kind : RawKind} {u : Text}

lemma endsLike_of_ends (h : kind.ends u = true) : kind.endsLike u = true := by
  rw [ends, opens] at h
  rw [endsLike]
  split at h
  · next hd => rw [hd]; rfl
  · cases h

lemma findNoCase_eq (w : Char) (word u : Text) :
    findNoCase (w :: word) u = findFrom (fun u => (dropFrontNoCase? (w :: word) u).isSome) u := by
  induction u with
  | nil => rfl
  | cons c u ih => rw [findNoCase, findFrom, ih]

end RawKind

lemma rawElement_eq_sizeUntil (kind : RawKind) {p q : Place} (hq : q = p.move (tag p).1)
    (hopen : q.before.take 2 ≠ ['>', '/']) :
    let n := sizeUntil kind.endsLike q.rest
    rawElement kind.word kind.isCode p = ((tag p).1 + (n + sizePast ['>'] (q.rest.drop n)),
      (tag p).2 ++ if kind.isCode then codeOf script q.offset (q.rest.take n) else .empty) := by
  intro n
  have hfind : findNoCase ('<' :: '/' :: kind.word) q.rest = findFrom kind.endsLike q.rest :=
    RawKind.findNoCase_eq ..
  have hcode (n : ℕ) : (if kind.isCode then (tag p).2 ++ region script q n else (tag p).2) =
      (tag p).2 ++ if kind.isCode then codeOf script q.offset (q.rest.take n) else .empty := by
    cases kind.isCode
    · exact (Scan.append_empty _).symm
    · rfl
  rw [rawElement]
  simp only [← hq, if_neg hopen, hfind, hcode]
  rw [show n = (findFrom kind.endsLike q.rest).getD q.rest.length from rfl]
  cases findFrom kind.endsLike q.rest with
  | some k => simp only [Option.getD_some, Nat.add_assoc]
  | none =>
    have hpast : sizePast ['>'] [] = 0 := rfl
    simp only [Option.getD_none, List.drop_length, hpast, Nat.add_zero]

/-- After the tag that opens such an element the content goes up to the first place where an end tag stands
or anything that begins like one, and the scan goes on after the sign that ends that. This is the end tag
unless its name goes on. -/
theorem markup_rawContent (kind : RawKind) {p : Place} (h : opens kind.word p.rest = true)
    (hopen : (p.move (tag p).1).before.take 2 ≠ ['>', '/']) :
    let q := p.move (tag p).1
    let n := sizeUntil kind.endsLike q.rest
    p.markup = (tag p).2 ++ ((if kind.isCode then codeOf script q.offset (q.rest.take n) else .empty) ++
        (q.move (n + sizePast ['>'] (q.rest.drop n))).markup) ∧
      (sizeUntil kind.ends q.rest = n ↔ n = q.rest.length ∨ kind.ends (q.rest.drop n) = true) := by
  intro q n
  refine ⟨?_, sizeUntil_eq_iff fun u => RawKind.endsLike_of_ends⟩
  have hne : p.rest ≠ [] := by
    obtain ⟨w, v, hr, -⟩ := RawKind.exists_of_opens h
    simp [hr]
  rw [markup_cons hne, RawKind.item_eq h, rawElement_eq_sizeUntil kind rfl hopen, Scan.append_assoc,
    ← Place.move_move]

theorem markup_rawContent_upper :
    let p : Place := ⟨0, [], "<script>a</b></SCRIPT >{x}".toList⟩
    opens RawKind.script.word p.rest = true ∧ (p.move (tag p).1).before.take 2 ≠ ['>', '/'] ∧
      sizeUntil RawKind.script.ends (p.move (tag p).1).rest = 5 ∧
      p.markup.regions = [⟨⟨8, 13⟩, script, false⟩, ⟨⟨24, 25⟩, expression, false⟩] := by
  intro p
  have hopens : opens RawKind.script.word p.rest = true := by decide +kernel
  have hopen : (p.move (tag p).1).before.take 2 ≠ ['>', '/'] := by decide +kernel
  obtain ⟨hmarkup, hends⟩ := markup_rawContent .script hopens hopen
  refine ⟨hopens, hopen, hends.mpr (.inr (by decide +kernel)), ?_⟩
  rw [hmarkup]
  decide +kernel

theorem exists_rawContent_cut :
    let p : Place := ⟨0, [], "<script>x = \"</scripts>\"</script>".toList⟩
    let q : Place := ⟨0, [], "<script>x</script".toList⟩
    (opens RawKind.script.word p.rest = true ∧ (p.move (tag p).1).before.take 2 ≠ ['>', '/'] ∧
      sizeUntil RawKind.script.ends (p.move (tag p).1).rest = 16 ∧
      (scan p.rest).regions = [⟨⟨8, 13⟩, script, false⟩]) ∧
    opens RawKind.script.word q.rest = true ∧ (q.move (tag q).1).before.take 2 ≠ ['>', '/'] ∧
      sizeUntil RawKind.script.ends (q.move (tag q).1).rest = 9 ∧
      (scan q.rest).regions = [⟨⟨8, 9⟩, script, false⟩] := by
  decide +kernel

end Astro
end MetaInline
