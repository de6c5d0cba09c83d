import Mathlib
import MetaInline.Proofs.Analysis.Coverage

namespace MetaInline

namespace Script.Tree

/-- The first construct is what the second one is taken of or what it calls, or begins that. -/
inductive Begins (a : Tree) : Tree → Prop
  | head {b : Tree} (h : b.head? = some a) : Begins a b
  | tail {b c : Tree} (hb : Begins a b) (h : c.head? = some b) : Begins a c

def root? : Tree → Option Span
  | importMeta s => some s
  | member _ o _ _ => root? o
  | call _ c _ _ _ => root? c
  | _ => none

variable {a b t : Tree} {r : Span}

lemma mem_parts_of_head? (h : b.head? = some a) : a ∈ b.parts := by
  cases b with
  | member s o x opt =>
    cases h
    simp [parts]
  | call s c ts as opt =>
    cases h
    simp [parts]
  | _ => cases h

lemma Begins.span_lt (h : Begins a b) (hb : b.Ordered) :
    a.span.start = b.span.start ∧ a.span.stop < b.span.stop := by
  induction h with
  | head h => exact hb.head h
  | tail _ h ih =>
    obtain ⟨hstart, hstop⟩ := hb.head h
    obtain ⟨hstart', hstop'⟩ := ih (hb.of_mem (mem_parts_of_head? h))
    exact ⟨hstart'.trans hstart, hstop'.trans hstop⟩

lemma start_of_root? (h : t.root? = some r) (ht : t.Ordered) : t.span.start = r.start := by
  induction t using root?.induct with
  | case1 s =>
    cases h
    rfl
  | case2 s o x opt ih =>
    exact (ht.head (a := o) rfl).1.symm.trans (ih h (ht.of_mem (by simp [parts])))
  | case3 s c ts as opt ih =>
    exact (ht.head (a := c) rfl).1.symm.trans (ih h (ht.of_mem (by simp [parts])))
  | case4 t h1 h2 h3 =>
    rw [root?] at h
    · cases h
    · exact h1
    · exact h2
    · exact h3

lemma exists_root?_of_names? {xs : List String} (h : Site.names? t = some xs) :
    ∃ r, t.root? = some r := by
  induction t using Site.names?.induct generalizing xs with
  | case1 s => exact ⟨s, rfl⟩
  | case2 s o x opt ih =>
    obtain ⟨ys, ho, -⟩ := Option.map_eq_some_iff.mp (Site.names?.eq_2 .. ▸ h)
    exact ih ho
  | case3 t h1 h2 => rw [Site.names?] at h <;> simp_all

lemma exists_root? (h : Site.isSite t = true) : ∃ r, t.root? = some r := by
  rcases Place.isSite_iff.mp h with ⟨s, o, x, opt, rfl, ho⟩ | ⟨s, c, ts, as, opt, rfl, hc⟩
  · obtain ⟨xs, ho⟩ := Option.isSome_iff_exists.mp ho
    obtain ⟨r, hr⟩ := exists_root?_of_names? ho
    exact ⟨r, hr⟩
  · obtain ⟨path, hpath⟩ := Option.isSome_iff_exists.mp hc
    obtain ⟨s', o, x, opt', xs, rfl, ho, -⟩ := Place.ofTree_callee hpath
    obtain ⟨r, hr⟩ := exists_root?_of_names? ho
    exact ⟨r, hr⟩

end Script.Tree

namespace Place

open Site Script.Tree
open Script (Tree)

lemma eq_or_begins_of_names? {o : Tree} {xs : List String} (h : names? o = some xs) {q : Place}
    (hq : q ∈ ofTree .object o) : q.tree = o ∨ q.tree.Begins o := by
  induction o using names?.induct generalizing xs with
  | case1 s => simp [ofTree] at hq
  | case2 s o x b ih =>
    obtain ⟨ys, ho, -⟩ := Option.map_eq_some_iff.mp (names?.eq_2 .. ▸ h)
    rw [ofTree] at hq
    rcases List.mem_append.mp hq with hq | hq
    · rcases ih ho hq with heq | hbegins
      · exact Or.inr (.head (heq ▸ rfl))
      · exact Or.inr (.tail hbegins rfl)
    · exact Or.inl (mem_own hq).1
  | case3 t h1 h2 => rw [names?] at h <;> simp_all

lemma begins_of_mem_inner {p q : Place} (hp : p.tree.Ordered) (hs : isSite p.tree = true)
    (hq : q ∈ p.inner) (hstart : q.span.start = p.span.start) : q.tree.Begins p.tree := by
  have htail {o b : Tree} (h : q.tree = o ∨ q.tree.Begins o) (hb : b.head? = some o) :
      q.tree.Begins b := by
    rcases h with heq | h
    · exact .head (heq ▸ hb)
    · exact .tail h hb
  obtain ⟨t, isObject⟩ := p
  rcases isSite_iff.mp hs with ⟨s, o, x, b, rfl, ho⟩ | ⟨s, c, ts, as, b, rfl, hc⟩
  · obtain ⟨xs, ho⟩ := Option.isSome_iff_exists.mp ho
    exact htail (eq_or_begins_of_names? ho (inner_member ▸ hq)) rfl
  · obtain ⟨path, hpath⟩ := Option.isSome_iff_exists.mp hc
    rcases List.mem_append.mp (inner_call ▸ hq) with hq | hq
    · -- An argument comes after what is called, which begins where the call does.
      obtain ⟨a, ha, hcov⟩ := covers_of_mem_ofTrees (fun a ha => ordered_arg hp ha) hq
      have hafter := (List.pairwise_cons.mp hp.sorted).1 a (by simp [ha])
      have hcallee := span_lt (hp.of_mem (c := c) (by simp [parts])) (isSite_of_path hc)
      have hhead := (hp.head (a := c) rfl).1
      have hle := (Span.covers_iff.mp hcov).1
      have hstart : q.span.start = s.start := hstart
      rw [span_call] at hhead
      omega
    · obtain ⟨s', o, x, b', xs, rfl, ho, -, hcallee⟩ := ofTree_callee hpath
      exact htail (Or.inr (htail (eq_or_begins_of_names? ho (hcallee ▸ hq)) rfl)) rfl

end Place

namespace Site

open Script (Tree)

def Begins (t : Tree) (s s' : Site) : Prop :=
  ∃ a b, a.Occurs t ∧ b.Occurs t ∧ a.span = s.span ∧ b.span = s'.span ∧ isSite a = true ∧
    isSite b = true ∧ a.Begins b

def RootedAt (t : Tree) (r : Span) (s : Site) : Prop :=
  ∃ a, a.Occurs t ∧ a.span = s.span ∧ isSite a = true ∧ a.root? = some r

variable {u : Text} {t : Tree} {s s' : Site}

lemma start_of_rootedAt (ht : t.Nested u) {r : Span} (h : s.RootedAt t r) : s.span.start = r.start := by
  obtain ⟨a, hocc, hspan, -, hroot⟩ := h
  exact hspan ▸ Script.Tree.start_of_root? hroot (hocc.ordered ht.ordered).1

lemma exists_rootedAt (hs : s ∈ ofTree t) : ∃ r, s.RootedAt t r := by
  obtain ⟨i, hi, rfl⟩ := exists_place hs
  obtain ⟨hocc, hsite⟩ := Place.mem_ofTree (List.getElem_mem hi)
  obtain ⟨r, hr⟩ := Script.Tree.exists_root? hsite
  exact ⟨r, _, hocc, rfl, hsite, hr⟩

lemma begins_iff (ht : t.Nested u) (hs : s ∈ ofTree t) (hs' : s' ∈ ofTree t) :
    s.Begins t s' ↔ s.span.start = s'.span.start ∧ s.span.stop < s'.span.stop := by
  constructor
  · rintro ⟨a, b, -, hb, ha, hb', -, -, h⟩
    rw [← ha, ← hb']
    exact h.span_lt (hb.ordered ht.ordered).1
  · rintro ⟨hstart, hstop⟩
    have hlt := (isIn_of_mem ht hs).2
    obtain ⟨i, hi, rfl⟩ := exists_place hs
    obtain ⟨j, hj, rfl⟩ := exists_place hs'
    obtain ⟨hocc, hsite⟩ := Place.mem_ofTree (List.getElem_mem hi)
    obtain ⟨hocc', hsite'⟩ := Place.mem_ofTree (List.getElem_mem hj)
    have hinner := mem_inner_of_within ht hi hj hlt
      (Span.within_of_covers (Span.covers_iff.mpr ⟨le_rfl, le_rfl⟩) hstart hstop)
    exact ⟨_, _, hocc, hocc', rfl, rfl, hsite, hsite',
      Place.begins_of_mem_inner (hocc'.ordered ht.ordered).1 hsite' hinner hstart⟩

lemma isLongest_iff (ht : t.Nested u) (hs : s ∈ ofTree t) :
    Evaluation.isLongest (ofTree t) s = true ↔ ∀ s' ∈ ofTree t, ¬ s.Begins t s' := by
  rw [Evaluation.isLongest, List.all_eq_true]
  refine forall₂_congr fun s' hs' => ?_
  rw [begins_iff ht hs hs', Bool.or_eq_true, bne_iff_ne, decide_eq_true_eq, not_and, not_lt,
    ← imp_iff_not_or]
  exact ⟨fun h heq => h heq.symm, fun h heq => h heq.symm⟩

end Site
end MetaInline
