import Mathlib
import MetaInline.Proofs.Literal.Readable
import MetaInline.Proofs.Text.Boundary
import MetaInline.Script.Tree

namespace MetaInline.Script.Tree

def parts : Tree → List Tree
  | literal .. | importMeta _ => []
  | member _ object _ _ => [object]
  | index _ object key _ => [object, key]
  | call _ callee types args _ => callee :: (types ++ args)
  | parens _ t | chain _ t | minus _ t => [t]
  | node _ _ ts => ts

def head? : Tree → Option Tree
  | member _ t _ _ | call _ t _ _ _ => some t
  | _ => none

@[simp, grind =] lemma span_literal (s : Span) (v : Literal) : (literal s v).span = s := rfl
@[simp, grind =] lemma span_importMeta (s : Span) : (importMeta s).span = s := rfl
@[simp, grind =] lemma span_member (s : Span) (t : Tree) (x : String) (o : Bool) :
    (member s t x o).span = s := rfl
@[simp, grind =] lemma span_index (s : Span) (t k : Tree) (o : Bool) : (index s t k o).span = s := rfl
@[simp, grind =] lemma span_call (s : Span) (t : Tree) (ts as : List Tree) (o : Bool) :
    (call s t ts as o).span = s := rfl
@[simp, grind =] lemma span_parens (s : Span) (t : Tree) : (parens s t).span = s := rfl
@[simp, grind =] lemma span_chain (s : Span) (t : Tree) : (chain s t).span = s := rfl
@[simp, grind =] lemma span_minus (s : Span) (t : Tree) : (minus s t).span = s := rfl
@[simp, grind =] lemma span_node (k : Kind) (s : Span) (ts : List Tree) : (node k s ts).span = s := rfl

def IsImportMeta (u : Text) (s : Span) : Prop :=
  ∃ gap gap', Text.slice? u s.start s.stop =
    some ("import".toList ++ (gap ++ '.' :: (gap' ++ "meta".toList)))

/-- The parts of every construct of the tree stand inside it, one after the other, and a member or
call begins with what it is taken of and reaches further. -/
inductive Ordered : Tree → Prop
  | intro {t : Tree} (le : t.span.start ≤ t.span.stop)
      (inside : ∀ c ∈ t.parts, t.span.covers c.span = true)
      (sorted : t.parts.Pairwise fun a b => a.span.stop ≤ b.span.start)
      (head : ∀ h, t.head? = some h → h.span.start = t.span.start ∧ h.span.stop < t.span.stop)
      (ordered : ∀ c ∈ t.parts, Ordered c) : Ordered t

namespace Ordered

variable {t : Tree}

lemma le (h : Ordered t) : t.span.start ≤ t.span.stop := by cases h; assumption

lemma inside (h : Ordered t) {c : Tree} (hc : c ∈ t.parts) : t.span.covers c.span = true := by
  cases h with | intro _ hi _ _ _ => exact hi c hc

lemma sorted (h : Ordered t) : t.parts.Pairwise fun a b => a.span.stop ≤ b.span.start := by
  cases h; assumption

lemma apart (h : Ordered t) : t.parts.Pairwise fun a b => a.span.Apart b.span :=
  h.sorted.imp Or.inl

lemma head (h : Ordered t) {a : Tree} (ha : t.head? = some a) :
    a.span.start = t.span.start ∧ a.span.stop < t.span.stop := by
  cases h with | intro _ _ _ hh _ => exact hh a ha

lemma of_mem (h : Ordered t) {c : Tree} (hc : c ∈ t.parts) : Ordered c := by
  cases h with | intro _ _ _ _ ho => exact ho c hc

lemma lt_of_head (h : Ordered t) {a : Tree} (ha : t.head? = some a) (hp : a ∈ t.parts) :
    t.span.start < t.span.stop := by
  have hh := h.head ha
  have hle := (h.of_mem hp).le
  omega

end Ordered

/-- The constructs of the tree stand in the text in order, from one boundary to another. A member or call
does not end in a line feed. Where `import.meta` stands it is spelled, and what stands as a literal can be
read. -/
inductive Nested (u : Text) : Tree → Prop
  | intro {t : Tree} (isIn : t.span.IsIn u)
      (inside : ∀ c ∈ t.parts, t.span.covers c.span = true)
      (sorted : t.parts.Pairwise fun a b => a.span.stop ≤ b.span.start)
      (head : ∀ h, t.head? = some h → h.span.start = t.span.start ∧ h.span.stop < t.span.stop)
      (inLine : t.head?.isSome = true → ¬ Text.IsAfterNewline u t.span.stop)
      (spelled : ∀ s, t = importMeta s → IsImportMeta u s)
      (readable : ∀ s v, t = literal s v → v.IsReadable)
      (nested : ∀ c ∈ t.parts, Nested u c) : Nested u t

namespace Nested

variable {u : Text} {t : Tree}

lemma isIn (h : Nested u t) : t.span.IsIn u := by cases h; assumption

lemma inside (h : Nested u t) {c : Tree} (hc : c ∈ t.parts) : t.span.covers c.span = true := by
  cases h with | intro _ hi _ _ _ _ _ _ => exact hi c hc

lemma sorted (h : Nested u t) : t.parts.Pairwise fun a b => a.span.stop ≤ b.span.start := by
  cases h; assumption

lemma inLine (h : Nested u t) (ht : t.head?.isSome = true) : ¬ Text.IsAfterNewline u t.span.stop := by
  cases h with | intro _ _ _ _ hl _ _ _ => exact hl ht

lemma spelled {s : Span} (h : Nested u (importMeta s)) : IsImportMeta u s := by
  cases h with | intro _ _ _ _ _ hs _ _ => exact hs s rfl

lemma readable {s : Span} {v : Literal} (h : Nested u (literal s v)) : v.IsReadable := by
  cases h with | intro _ _ _ _ _ _ hr _ => exact hr s v rfl

lemma of_mem (h : Nested u t) {c : Tree} (hc : c ∈ t.parts) : Nested u c := by
  cases h with | intro _ _ _ _ _ _ _ hn => exact hn c hc

lemma ordered (h : Nested u t) : t.Ordered := by
  induction h with
  | intro isIn inside sorted head _ _ _ _ ih => exact ⟨isIn.le, inside, sorted, head, ih⟩

end Nested

inductive Occurs (t : Tree) : Tree → Prop
  | refl : Occurs t t
  | part {u c : Tree} (h : c ∈ u.parts) (hc : Occurs t c) : Occurs t u

lemma Occurs.trans {r s t : Tree} (h : r.Occurs s) (h' : s.Occurs t) : r.Occurs t := by
  induction h' with
  | refl => exact h
  | part hp _ ih => exact .part hp ih

lemma Occurs.ordered {t r : Tree} (h : Occurs t r) (hr : Ordered r) :
    Ordered t ∧ r.span.covers t.span = true := by
  induction h with
  | refl => exact ⟨hr, by simp⟩
  | part hc _ ih =>
    obtain ⟨ht, hcov⟩ := ih (hr.of_mem hc)
    exact ⟨ht, Span.covers_trans (hr.inside hc) hcov⟩

lemma Occurs.nested {u : Text} {t r : Tree} (h : Occurs t r) (hr : Nested u r) :
    Nested u t ∧ r.span.covers t.span = true := by
  refine ⟨?_, (h.ordered hr.ordered).2⟩
  induction h with
  | refl => exact hr
  | part hc _ ih => exact ih (hr.of_mem hc)

end MetaInline.Script.Tree
