import Mathlib
import MetaInline.Proofs.Analysis.Place
import MetaInline.Proofs.Script.Nesting

namespace MetaInline

namespace Span

lemma within_of_covers {r s t : Span} (h : s.covers r = true) (hstart : s.start = t.start)
    (hstop : s.stop < t.stop) : r.Within t := by
  rw [within_iff]
  simp only [covers_iff] at h ⊢
  omega

lemma within_of_apart {r s t : Span} (h : t.covers r = true) (hs : s.Apart r)
    (hstart : s.start = t.start) (hlt : s.start < s.stop) (hr : r.start < r.stop) : r.Within t := by
  rw [within_iff]
  simp only [covers_iff] at h ⊢
  rcases hs with hs | hs <;> omega

end Span

lemma append_eq_append_cons {α : Type*} {as bs front back : List α} {x : α}
    (h : as ++ bs = front ++ x :: back) :
    (∃ back', as = front ++ x :: back' ∧ back = back' ++ bs) ∨
      ∃ front', front = as ++ front' ∧ bs = front' ++ x :: back := by
  rcases List.append_eq_append_iff.mp h with ⟨ys, rfl, rfl⟩ | ⟨ys, rfl, hys⟩
  · exact Or.inr ⟨ys, rfl, rfl⟩
  · cases ys with
    | nil => exact Or.inr ⟨[], by simp, by simpa using hys.symm⟩
    | cons y ys =>
      obtain ⟨rfl, rfl⟩ := List.cons.inj hys
      exact Or.inl ⟨ys, rfl, rfl⟩

namespace Place

open Site Script.Tree
open Script (Tree)

abbrev span (p : Place) : Span := p.tree.span

lemma own_eq {use : Use} {t : Tree} (h : own use t ≠ []) :
    own use t = [⟨t, use = .object⟩] ∧ isSite t = true := by
  unfold own at h ⊢
  split at h
  · contradiction
  · split at h
    · next hs => simp [hs]
    · contradiction

lemma own_eq_append {use : Use} {t : Tree} {front back : List Place} {p : Place}
    (h : own use t = front ++ p :: back) :
    front = [] ∧ back = [] ∧ p.tree = t ∧ isSite p.tree = true := by
  obtain ⟨ho, hs⟩ := own_eq (h ▸ List.append_ne_nil_of_right_ne_nil front (List.cons_ne_nil p back))
  rw [ho] at h
  rcases List.singleton_eq_append_iff.mp h with ⟨rfl, h⟩ | ⟨-, h⟩
  · obtain ⟨rfl, rfl⟩ := List.cons.inj h
    exact ⟨rfl, rfl, rfl, hs⟩
  · cases h

lemma mem_own {use : Use} {t : Tree} {p : Place} (h : p ∈ own use t) :
    p.tree = t ∧ isSite p.tree = true := by
  obtain ⟨front, back, h⟩ := List.append_of_mem h
  exact (own_eq_append h).2.2

mutual

lemma mem_ofTree {use : Use} {t : Tree} {p : Place} (h : p ∈ ofTree use t) :
    p.tree.Occurs t ∧ isSite p.tree = true := by
  match t with
  | .literal .. | .importMeta _ => simp [ofTree] at h
  | .member span object name optional =>
    rw [ofTree] at h
    rcases List.mem_append.mp h with h | h
    · exact (mem_ofTree h).imp_left (.part (by simp [parts]))
    · obtain ⟨hp, hs⟩ := mem_own h
      exact ⟨hp ▸ .refl, hs⟩
  | .index _ object key _ =>
    rw [ofTree] at h
    rcases List.mem_append.mp h with h | h
    · exact (mem_ofTree h).imp_left (.part (by simp [parts]))
    · exact (mem_ofTree h).imp_left (.part (by simp [parts]))
  | .call span callee types args optional =>
    rw [ofTree] at h
    rcases List.mem_append.mp h with h | h
    · obtain ⟨a, ha, h⟩ := mem_ofTrees h
      exact h.imp_left (.part (by simp [parts, ha]))
    · rcases List.mem_append.mp h with h | h
      · exact (mem_ofTree h).imp_left (.part (by simp [parts]))
      · obtain ⟨hp, hs⟩ := mem_own h
        exact ⟨hp ▸ .refl, hs⟩
  | .parens _ inner | .chain _ inner | .minus _ inner =>
    rw [ofTree] at h
    exact (mem_ofTree h).imp_left (.part (by simp [parts]))
  | .node _ _ children =>
    rw [ofTree] at h
    obtain ⟨a, ha, h⟩ := mem_ofTrees h
    exact h.imp_left (.part (by simp [parts, ha]))

lemma mem_ofTrees {ts : List Tree} {p : Place} (h : p ∈ ofTrees ts) :
    ∃ t ∈ ts, p.tree.Occurs t ∧ isSite p.tree = true := by
  match ts with
  | [] => simp [ofTrees] at h
  | t :: ts =>
    rw [ofTrees] at h
    rcases List.mem_append.mp h with h | h
    · exact ⟨t, by simp, mem_ofTree h⟩
    · obtain ⟨a, ha, h'⟩ := mem_ofTrees h
      exact ⟨a, by simp [ha], h'⟩

end

lemma isSite_iff {t : Tree} : isSite t = true ↔
    (∃ s o x b, t = .member s o x b ∧ (names? o).isSome = true) ∨
      ∃ s c ts as b, t = .call s c ts as b ∧ (path? c).isSome = true := by
  cases t <;> simp [isSite, path?]

lemma isSite_of_path {t : Tree} (h : (path? t).isSome = true) : isSite t = true := by
  cases t <;> simp_all [isSite, path?]

lemma exists_head_of_isSite {t : Tree} (h : isSite t = true) : ∃ a, t.head? = some a ∧ a ∈ t.parts := by
  rcases isSite_iff.mp h with ⟨s, o, x, b, rfl, -⟩ | ⟨s, c, ts, as, b, rfl, -⟩
  · exact ⟨o, rfl, by simp [parts]⟩
  · exact ⟨c, rfl, by simp [parts]⟩

lemma span_lt {t : Tree} (ht : t.Ordered) (hs : isSite t = true) : t.span.start < t.span.stop := by
  obtain ⟨a, ha, hp⟩ := exists_head_of_isSite hs
  exact ht.lt_of_head ha hp

lemma ordered_of_mem {use : Use} {t : Tree} (ht : t.Ordered) {p : Place} (hp : p ∈ ofTree use t) :
    p.tree.Ordered ∧ t.span.covers p.span = true :=
  (mem_ofTree hp).1.ordered ht

lemma apart_of_mem {use use' : Use} {s t : Tree} {p q : Place} (hs : s.Ordered) (ht : t.Ordered)
    (h : s.span.Apart t.span) (hp : p ∈ ofTree use s) (hq : q ∈ ofTree use' t) :
    p.span.Apart q.span :=
  h.mono (ordered_of_mem hs hp).2 (ordered_of_mem ht hq).2

lemma apart_of_mem_ofTrees {use : Use} {s : Tree} {ts : List Tree} {p q : Place} (hs : s.Ordered)
    (ht : ∀ t ∈ ts, t.Ordered) (h : ∀ t ∈ ts, s.span.Apart t.span) (hp : p ∈ ofTree use s)
    (hq : q ∈ ofTrees ts) : p.span.Apart q.span := by
  obtain ⟨t, hm, ho, -⟩ := mem_ofTrees hq
  exact (h t hm).mono (ordered_of_mem hs hp).2 (ho.ordered (ht t hm)).2

lemma exists_before_append {as front' : List Place} {p : Place}
    (ha : ∀ q ∈ as, q.span.Apart p.span)
    (h : ∃ before, front' = before ++ p.inner ∧ ∀ q ∈ before, q.span.Apart p.span) :
    ∃ before, as ++ front' = before ++ p.inner ∧ ∀ q ∈ before, q.span.Apart p.span := by
  obtain ⟨before, rfl, hb⟩ := h
  refine ⟨as ++ before, by simp, fun q hq => ?_⟩
  exact (List.mem_append.mp hq).elim (ha q) (hb q)

mutual

theorem ofTree_eq_append {use : Use} {t : Tree} (ht : t.Ordered) {front back : List Place}
    {p : Place} (h : ofTree use t = front ++ p :: back) :
    ∃ before, front = before ++ p.inner ∧ ∀ q ∈ before, q.span.Apart p.span := by
  match t with
  | .literal .. | .importMeta _ => simp [ofTree] at h
  | .member span object name optional =>
    rw [ofTree] at h
    rcases append_eq_append_cons h with ⟨back', h', -⟩ | ⟨front', rfl, h'⟩
    · exact ofTree_eq_append (ht.of_mem (by simp [parts])) h'
    · obtain ⟨rfl, -, hp, -⟩ := own_eq_append h'
      exact ⟨[], by simp [inner, hp], by simp⟩
  | .index _ object key _ =>
    have ho : object.Ordered := ht.of_mem (by simp [parts])
    have hk : key.Ordered := ht.of_mem (by simp [parts])
    have hapart : object.span.Apart key.span := by simpa [parts] using ht.apart
    rw [ofTree] at h
    rcases append_eq_append_cons h with ⟨back', h', -⟩ | ⟨front', rfl, h'⟩
    · exact ofTree_eq_append ho h'
    · have hp : p ∈ ofTree .value key := by rw [h']; simp
      exact exists_before_append (fun q hq => apart_of_mem ho hk hapart hq hp)
        (ofTree_eq_append hk h')
  | .call span callee types args optional =>
    have hc : callee.Ordered := ht.of_mem (by simp [parts])
    have has : ∀ a ∈ args, a.Ordered := fun a ha => ht.of_mem (by simp [parts, ha])
    obtain ⟨hca, hap⟩ := List.pairwise_cons.mp ht.apart
    rw [ofTree] at h
    -- The place stands in an argument, in what is called, or is the call.
    rcases append_eq_append_cons h with ⟨back', h', -⟩ | ⟨front', rfl, h'⟩
    · exact ofTrees_eq_append has (List.pairwise_append.mp hap).2.1 h'
    · rcases append_eq_append_cons h' with ⟨back', hcal, -⟩ | ⟨front'', rfl, hown⟩
      · have hp : p ∈ ofTree (calleeUse callee) callee := by rw [hcal]; simp
        refine exists_before_append (fun q hq => ?_) (ofTree_eq_append hc hcal)
        exact (apart_of_mem_ofTrees hc has (fun a ha => hca a (by simp [ha])) hp hq).symm
      · obtain ⟨rfl, -, hp, -⟩ := own_eq_append hown
        exact ⟨[], by simp [inner, hp], by simp⟩
  | .parens _ inner | .chain _ inner | .minus _ inner =>
    rw [ofTree] at h
    exact ofTree_eq_append (ht.of_mem (by simp [parts])) h
  | .node _ _ children =>
    rw [ofTree] at h
    exact ofTrees_eq_append (fun c hc => ht.of_mem (by simpa [parts] using hc)) ht.apart h

theorem ofTrees_eq_append {ts : List Tree} (ht : ∀ t ∈ ts, t.Ordered)
    (ha : ts.Pairwise fun a b => a.span.Apart b.span) {front back : List Place}
    {p : Place} (h : ofTrees ts = front ++ p :: back) :
    ∃ before, front = before ++ p.inner ∧ ∀ q ∈ before, q.span.Apart p.span := by
  match ts with
  | [] => simp [ofTrees] at h
  | t :: ts =>
    obtain ⟨hts, ha⟩ := List.pairwise_cons.mp ha
    rw [ofTrees] at h
    rcases append_eq_append_cons h with ⟨back', h', -⟩ | ⟨front', rfl, h'⟩
    · exact ofTree_eq_append (ht t (by simp)) h'
    · have hts' : ∀ s ∈ ts, s.Ordered := fun s hs => ht s (by simp [hs])
      have hp : p ∈ ofTrees ts := by rw [h']; simp
      exact exists_before_append
        (fun q hq => apart_of_mem_ofTrees (ht t (by simp)) hts' hts hq hp)
        (ofTrees_eq_append hts' ha h')

end

lemma inner_member {s : Span} {o : Tree} {x : String} {b isObject : Bool} :
    inner ⟨.member s o x b, isObject⟩ = ofTree .object o := rfl

lemma inner_call {s : Span} {c : Tree} {ts as : List Tree} {b isObject : Bool} :
    inner ⟨.call s c ts as b, isObject⟩ = ofTrees as ++ ofTree (calleeUse c) c := rfl

lemma covers_of_mem_ofTrees {ts : List Tree} (ht : ∀ t ∈ ts, t.Ordered) {q : Place}
    (hq : q ∈ ofTrees ts) : ∃ t ∈ ts, t.span.covers q.span = true := by
  obtain ⟨t, hm, ho, -⟩ := mem_ofTrees hq
  exact ⟨t, hm, (ho.ordered (ht t hm)).2⟩

lemma ordered_arg {s : Span} {c : Tree} {ts as : List Tree} {b : Bool}
    (h : (Tree.call s c ts as b).Ordered) {a : Tree} (ha : a ∈ as) : a.Ordered :=
  h.of_mem (by simp [parts, ha])

lemma within_of_argument {s : Span} {c : Tree} {ts as : List Tree} {b : Bool}
    (h : (Tree.call s c ts as b).Ordered) (hc : (path? c).isSome = true) {a : Tree} (ha : a ∈ as)
    {r : Span} (hr : a.span.covers r = true) (hlt : r.start < r.stop) : r.Within s := by
  have hcallee : c.Ordered := h.of_mem (by simp [parts])
  have hin := h.inside (c := a) (by simp [parts, ha])
  have hapart := (List.pairwise_cons.mp h.apart).1 a (by simp [ha])
  exact Span.within_of_apart (Span.covers_trans hin hr) (hapart.mono (by simp) hr) (h.head rfl).1
    (span_lt hcallee (isSite_of_path hc)) hlt

theorem within_of_mem_inner {p q : Place} (hp : p.tree.Ordered) (hs : isSite p.tree = true)
    (hq : q ∈ p.inner) : q.span.Within p.span := by
  obtain ⟨t, isObject⟩ := p
  rcases isSite_iff.mp hs with ⟨s, o, x, b, rfl, -⟩ | ⟨s, c, ts, as, b, rfl, hc⟩
  · obtain ⟨hstart, hstop⟩ := hp.head rfl
    have hcov := (ordered_of_mem (hp.of_mem (by simp [parts])) (inner_member ▸ hq)).2
    exact Span.within_of_covers hcov hstart hstop
  · have hcall : c.Ordered := hp.of_mem (by simp [parts])
    obtain ⟨hstart, hstop⟩ := hp.head rfl
    rcases List.mem_append.mp (inner_call ▸ hq) with hq | hq
    · obtain ⟨a, ha, ho, hqs⟩ := mem_ofTrees hq
      obtain ⟨hqn, hcov⟩ := ho.ordered (ordered_arg hp ha)
      exact within_of_argument hp hc ha hcov (span_lt hqn hqs)
    · exact Span.within_of_covers (ordered_of_mem hcall hq).2 hstart hstop

theorem pairwise_ofTree {t : Tree} (ht : t.Ordered) (use : Use) :
    (ofTree use t).Pairwise fun q p =>
      q.span.Apart p.span ∨ (q ∈ p.inner ∧ q.span.Within p.span) := by
  rw [List.pairwise_iff_getElem]
  intro i j hi hj hij
  have hsplit : ofTree use t =
      (ofTree use t).take j ++ (ofTree use t)[j] :: (ofTree use t).drop (j + 1) := by simp
  obtain ⟨before, hb, hapart⟩ := ofTree_eq_append ht hsplit
  have hmem : (ofTree use t)[i] ∈ (ofTree use t).take j :=
    List.mem_take_iff_getElem.mpr ⟨i, by omega, rfl⟩
  obtain ⟨hocc, hs⟩ := mem_ofTree (List.getElem_mem hj)
  rw [hb] at hmem
  rcases List.mem_append.mp hmem with hq | hq
  · exact Or.inl (hapart _ hq)
  · exact Or.inr ⟨hq, within_of_mem_inner (hocc.ordered ht).1 hs hq⟩

theorem nodup_span {t : Tree} (ht : t.Ordered) (use : Use) : ((ofTree use t).map span).Nodup := by
  refine List.pairwise_map.mpr ((pairwise_ofTree ht use).imp_of_mem fun {q p} _ hp h heq => ?_)
  obtain ⟨hocc, hs⟩ := mem_ofTree hp
  have hlt := span_lt (hocc.ordered ht).1 hs
  rcases h with h | ⟨-, h⟩
  · rw [heq] at h
    exact (or_self_iff.mp h).not_gt hlt
  · exact h.2 heq

end Place
end MetaInline
