import Mathlib
import MetaInline.Proofs.Analysis.Collection

/-! A walk that knows the chains that are called by their ranges alone. It finds the same sites, since no
other chain has the range of one that is called. -/

namespace MetaInline

open Script.Tree
open Site (path? isSite)
open Script (Tree)

/-- What a walk has found: the path of each site, its range and whether it is a call; and the ranges of
the chains that are called. -/
structure Walk where
  found : List (String × Span × Bool)
  callees : List Span

namespace Walk

def add (w : Walk) (path : String) (span : Span) (isCall : Bool) : Walk :=
  { w with found := w.found ++ [(path, span, isCall)] }

def call (w : Walk) (callee : Span) : Walk :=
  { w with callees := callee :: w.callees }

mutual

def visit : Tree → Walk → Walk
  | .literal .., w | .importMeta _, w => w
  | .member span object name optional, w =>
    let w := visit object w
    if span ∈ w.callees then w
    else
      match path? (.member span object name optional) with
      | some path => w.add path span false
      | none => w
  | .index _ object key _, w => visit key (visit object w)
  | .call span callee _ args _, w =>
    let w := visitAll args w
    match path? callee with
    | some path => (visit callee (w.call callee.span)).add path span true
    | none => visit callee w
  | .parens _ inner, w | .chain _ inner, w => visit inner w
  | .minus _ operand, w => visit operand w
  | .node _ _ children, w => visitAll children w

def visitAll : List Tree → Walk → Walk
  | [], w => w
  | t :: ts, w => visitAll ts (visit t w)

end

def ofTree (t : Tree) : List (String × Span × Bool) :=
  (visit t ⟨[], []⟩).found

structure Knows (w : Walk) (called : Bool) (t : Tree) : Prop where
  only : ∀ x b, Visited x b t called → isSite x = true → x.isCall = false → x.span ∈ w.callees →
    x = t ∧ called = true
  called : called = true → isSite t = true → t.isCall = false → t.span ∈ w.callees

structure Passed (sites : List Tree) (ranges : List Span) (w w' : Walk) : Prop where
  found : w'.found = w.found ++ sites.map Place.entry
  mono : w.callees ⊆ w'.callees
  inside : ∀ r ∈ w'.callees, r ∈ w.callees ∨ r.start < r.stop ∧ ∃ s ∈ ranges, s.covers r = true

variable {w w' w'' : Walk} {t c : Tree} {called b : Bool} {xs ys : List Tree} {rs rs' : List Span}

lemma Passed.refl (w : Walk) : Passed [] rs w w :=
  ⟨by simp, fun _ h => h, fun _ h => Or.inl h⟩

lemma Passed.trans (h : Passed xs rs w w') (h' : Passed ys rs' w' w'') :
    Passed (xs ++ ys) (rs ++ rs') w w'' := by
  refine ⟨by simp [h'.found, h.found], fun r hr => h'.mono (h.mono hr), fun r hr => ?_⟩
  rcases h'.inside r hr with hr | ⟨hlt, s, hs, hcov⟩
  · exact (h.inside r hr).imp_right fun ⟨hlt, s, hs, hcov⟩ => ⟨hlt, s, by simp [hs], hcov⟩
  · exact Or.inr ⟨hlt, s, by simp [hs], hcov⟩

lemma Passed.cover (h : Passed xs rs w w') {s : Span} (hs : ∀ r ∈ rs, s.covers r = true) :
    Passed xs [s] w w' := by
  refine ⟨h.found, h.mono, fun r hr => (h.inside r hr).imp_right fun ⟨hlt, r', hr', hcov⟩ => ?_⟩
  exact ⟨hlt, s, by simp, Span.covers_trans (hs r' hr') hcov⟩

lemma Passed.add (h : Passed xs rs w w') (x : Tree) :
    Passed (xs ++ [x]) rs w (w'.add (Place.entry x).1 x.span x.isCall) :=
  ⟨by simp [Walk.add, h.found, Place.entry], h.mono, h.inside⟩

lemma Passed.call {s : Span} (hlt : s.start < s.stop) : Passed [] [s] w (w.call s) := by
  refine ⟨by simp [Walk.call], fun r hr => List.mem_cons_of_mem _ hr, fun r hr => ?_⟩
  rcases List.mem_cons.mp hr with rfl | hr
  · exact Or.inr ⟨hlt, r, by simp, by simp⟩
  · exact Or.inl hr

def Fresh (w : Walk) (called : Bool) (t : Tree) : Prop :=
  ∀ x b, Visited x b t called → isSite x = true → x.isCall = false → x.span ∉ w.callees

lemma Knows.fresh (h : Knows w called t) (hc : (c, b) ∈ t.visited) : Fresh w b c := by
  intro x b' hv hs hx hmem
  obtain ⟨rfl, -⟩ := h.only x b' (.part hc hv) hs hx hmem
  exact absurd hv.occurs.sizeOf_le (sizeOf_lt_of_mem_parts (mem_parts_of_visited hc)).not_ge

lemma Fresh.pass (h : Fresh w called t) (ht : t.Ordered) (hw : Passed xs rs w w')
    (hapart : ∀ r ∈ rs, r.Apart t.span) : Fresh w' called t := by
  intro x b hv hs hx hmem
  rcases hw.inside _ hmem with hmem | ⟨hlt, r, hr, hcov⟩
  · exact h x b hv hs hx hmem
  · exact absurd (hv.occurs.ordered ht).2 (Place.not_covers_of_apart (hapart r hr) hcov hlt)

lemma Fresh.knows (h : Fresh w called t)
    (ht : called = true → isSite t = true → t.isCall = false → False) : Knows w called t :=
  ⟨fun x b hv hs hx hmem => absurd hmem (h x b hv hs hx), fun hc hs hx => (ht hc hs hx).elim⟩

lemma Fresh.knows_call (h : Fresh w true t) (ht : t.Ordered) (hs : isSite t = true) :
    Knows (w.call t.span) true t := by
  refine ⟨fun x b hv hsx hx hmem => ?_, fun _ _ _ => by simp [Walk.call]⟩
  rcases List.mem_cons.mp hmem with hspan | hmem
  · cases hv with
    | refl => exact ⟨rfl, rfl⟩
    | part hc hv =>
      -- Inside the chain that is called all is shorter.
      have hcov := (hv.occurs.ordered (ht.of_mem (mem_parts_of_visited hc))).2
      exact absurd (hspan ▸ hcov) (Place.not_covers_of_isSite ht hs hc)
  · exact absurd hmem (h x b hv hsx hx)

lemma Knows.mem_callees_iff {s : Span} {o : Tree} {x : String} {opt : Bool}
    (h : Knows w called (.member s o x opt)) (ht : (Tree.member s o x opt).Ordered)
    (hs : isSite (.member s o x opt) = true) (hw : Passed xs [o.span] w w') :
    s ∈ w'.callees ↔ called = true := by
  refine ⟨fun hmem => ?_, fun hc => hw.mono (h.called hc hs rfl)⟩
  rcases hw.inside _ hmem with hmem | ⟨-, r, hr, hcov⟩
  · exact (h.only _ _ .refl hs rfl hmem).2
  · obtain rfl := List.mem_singleton.mp hr
    exact absurd hcov (Place.not_covers_of_isSite (b := false) ht hs (by simp [visited, parts]))

def Finds (t : Tree) : Prop :=
  ∀ w called, Knows w called t → Passed (Place.trees called t) [t.span] w (visit t w)

lemma visitAll_passed {ts : List Tree} (hts : ∀ t ∈ ts, t.Ordered) (ih : ∀ t ∈ ts, Finds t)
    (hapart : ts.Pairwise fun a b => a.span.Apart b.span) (h : ∀ t ∈ ts, Fresh w false t) :
    Passed (ts.flatMap (Place.trees false)) (ts.map Tree.span) w (visitAll ts w) := by
  induction ts generalizing w with
  | nil => exact .refl w
  | cons t ts ih' =>
    obtain ⟨hap, hapart⟩ := List.pairwise_cons.mp hapart
    have hfirst := ih t (by simp) w false ((h t (by simp)).knows (by simp))
    refine hfirst.trans (ih' (fun s hs => hts s (by simp [hs])) (fun s hs => ih s (by simp [hs]))
      hapart fun s hs => ?_)
    exact (h s (by simp [hs])).pass (hts s (by simp [hs])) hfirst (by simpa using hap s hs)

lemma finds_of_parts (ht : t.Ordered) (hvisited : t.visited = t.parts.map (·, false))
    (hs : isSite t = false) (hvisit : ∀ w, visit t w = visitAll t.parts w)
    (ih : ∀ c ∈ t.parts, Finds c) : Finds t := by
  intro w called h
  have hall := visitAll_passed (fun c hc => ht.of_mem hc) ih ht.apart
    fun c hc => h.fresh (by simp [hvisited, hc])
  have htrees : Place.trees called t = t.parts.flatMap (Place.trees false) := by
    simp [Place.trees_eq called t, hvisited, Place.ownTrees, hs, List.flatMap_map]
  rw [hvisit, htrees]
  refine hall.cover fun r hr => ?_
  obtain ⟨c, hc, rfl⟩ := List.mem_map.mp hr
  exact ht.inside hc

lemma finds_member {s : Span} {o : Tree} {x : String} {opt : Bool}
    (ht : (Tree.member s o x opt).Ordered) (ih : Finds o) : Finds (.member s o x opt) := by
  intro w called h
  have ho : (o, false) ∈ (Tree.member s o x opt).visited := by simp [visited, parts]
  have hpart := ih w false ((h.fresh ho).knows (by simp))
  have hin : ∀ r ∈ [o.span], s.covers r = true := by
    simpa using ht.inside (c := o) (by simp [parts])
  rw [Place.trees_eq, visit]
  cases hp : path? (.member s o x opt) with
  | none => simpa [visited, parts, Place.ownTrees, isSite, hp] using hpart.cover hin
  | some path =>
    have hs : isSite (.member s o x opt) = true := by simp [isSite, hp]
    have hiff := h.mem_callees_iff ht hs hpart
    cases called with
    | true =>
      have hmem := hiff.mpr rfl
      simpa [visited, parts, Place.ownTrees, hs, isCall, hmem] using hpart.cover hin
    | false =>
      have hmem : s ∉ (visit o w).callees := fun hmem => Bool.false_ne_true (hiff.mp hmem)
      have hentry : (Place.entry (.member s o x opt)).1 = path := by
        simp [Place.entry, Place.path, hp]
      simpa [visited, parts, Place.ownTrees, hs, isCall, hmem, hentry] using
        (hpart.cover hin).add (.member s o x opt)

lemma finds_call {s : Span} {types args : List Tree} {opt : Bool}
    (ht : (Tree.call s c types args opt).Ordered) (ihc : Finds c) (iha : ∀ a ∈ args, Finds a) :
    Finds (.call s c types args opt) := by
  intro w called h
  have hc := ht.of_mem (c := c) (by simp [parts])
  obtain ⟨hcap, hap⟩ := List.pairwise_cons.mp ht.apart
  have hargs := visitAll_passed (fun a ha => ht.of_mem (by simp [parts, ha])) iha
    (List.pairwise_append.mp hap).2.1 fun a ha => h.fresh (by simp [visited, ha])
  have hfresh : Fresh (visitAll args w) true c := by
    refine (h.fresh (by simp [visited])).pass hc hargs fun r hr => ?_
    obtain ⟨a, ha, rfl⟩ := List.mem_map.mp hr
    exact (hcap a (by simp [ha])).symm
  have hin : ∀ r ∈ args.map Tree.span ++ [c.span], s.covers r = true := by
    intro r hr
    rcases List.mem_append.mp hr with hr | hr
    · obtain ⟨a, ha, rfl⟩ := List.mem_map.mp hr
      exact ht.inside (by simp [parts, ha])
    · obtain rfl := List.mem_singleton.mp hr
      exact ht.inside (by simp [parts])
  rw [Place.trees_eq, visit]
  cases hp : path? c with
  | none =>
    have hknows := hfresh.knows fun _ hs hx => by
      rcases Place.isSite_iff.mp hs with ⟨_, _, _, _, rfl, ho⟩ | ⟨_, _, _, _, _, rfl, -⟩
      · simp_all [path?]
      · cases hx
    simpa [visited, Place.ownTrees, isSite, hp, List.flatMap_map] using
      (hargs.trans (ihc _ _ hknows)).cover hin
  | some path =>
    have hpath : (path? c).isSome = true := by simp [hp]
    have hlt := Place.span_lt hc (Place.isSite_of_path hpath)
    have hcallee := ihc _ true (hfresh.knows_call hc (Place.isSite_of_path hpath))
    have hentry : (Place.entry (.call s c types args opt)).1 = path := by
      simp [Place.entry, Place.path, hp]
    have hs : isSite (.call s c types args opt) = true := by simp [isSite, hp]
    have hall := ((hargs.trans (Passed.call hlt)).trans hcallee).cover (s := s) (by
      simpa using hin)
    simpa [visited, Place.ownTrees, hs, isCall, List.flatMap_map, hentry] using
      hall.add (.call s c types args opt)

theorem finds (ht : t.Ordered) : Finds t := by
  induction t using induction_parts with
  | _ t ih =>
    have ih' : ∀ c ∈ t.parts, Finds c := fun c hc => ih c hc (ht.of_mem hc)
    cases t with
    | member s o x opt => exact finds_member ht (ih' o (by simp [parts]))
    | call s c types args opt =>
      exact finds_call ht (ih' c (by simp [parts])) fun a ha => ih' a (by simp [parts, ha])
    | _ => exact finds_of_parts ht rfl rfl (fun w => by simp [visit, visitAll, parts]) ih'

theorem ofTree_eq (ht : t.Ordered) : ofTree t = (Site.ofTree t).map Site.entry := by
  have hw := finds ht ⟨[], []⟩ false ⟨by simp, by simp⟩
  rw [ofTree, hw.found, List.nil_append, Site.map_entry_ofTree]

end Walk

namespace Site

variable {t : Tree} {path : String} {span : Span}

structure Collects (t : Tree) (ss : List Site) : Prop where
  access : ∀ path span, (∃ s ∈ ss, s.path = path ∧ s.span = span ∧ s.form = .access) ↔
    ∃ xs object name optional, Visited (.member span object name optional) false t false ∧
      IsChain xs (.member span object name optional) ∧ path = Path.join xs
  call : ∀ path span, (∃ s ∈ ss, s.path = path ∧ s.span = span ∧ s.form ≠ .access) ↔
    ∃ xs callee types args optional called,
      Visited (.call span callee types args optional) called t false ∧
        IsChain xs callee ∧ xs ≠ [] ∧ path = Path.join xs
  once : (ss.map (·.span)).Nodup
  parts : ∀ x called, Visited x called t false →
    x.visited.Pairwise fun c d => Before ss c.1.span d.1.span
  own : ∀ x called, Visited x called t false → ∀ c ∈ x.visited, ∀ (i j : ℕ) (s s' : Site),
    ss[i]? = some s → ss[j]? = some s' → c.1.span.covers s.span = true → s'.span = x.span →
      isSite x = true → i < j

lemma exists_access_iff : (∃ s ∈ ofTree t, s.path = path ∧ s.span = span ∧ s.form = .access) ↔
    ∃ xs object name optional, Visited (.member span object name optional) false t false ∧
      IsChain xs (.member span object name optional) ∧ path = Path.join xs := by
  have hentry (s : Site) : s.entry = (path, span, false) ↔
      s.path = path ∧ s.span = span ∧ s.form = .access := by simp [entry, isCall]
  simp only [← hentry, exists_mem_iff, Place.mem_trees_iff]
  constructor
  · rintro ⟨x, ⟨hs, b, hv, hb⟩, hx⟩
    rcases Place.isSite_iff.mp hs with ⟨s, o, y, opt, rfl, -⟩ | ⟨s, c, ts, as, opt, rfl, -⟩
    · obtain ⟨p, hp⟩ := Option.isSome_iff_exists.mp hs
      obtain ⟨xs, hchain, -, rfl⟩ := path?_eq_some_iff.mp hp
      obtain ⟨rfl, rfl⟩ : Path.join xs = path ∧ s = span := by
        simpa [Place.entry, Place.path, hp, Script.Tree.isCall] using hx
      obtain rfl : b = false := by simpa [Script.Tree.isCall] using hb
      exact ⟨xs, o, y, opt, hv, hchain, rfl⟩
    · simp [Place.entry, Script.Tree.isCall] at hx
  · rintro ⟨xs, o, y, opt, hv, hchain, rfl⟩
    have hne : xs ≠ [] := by cases hchain; simp
    have hp := path?_eq_some_iff.mpr ⟨xs, hchain, hne, rfl⟩
    exact ⟨_, ⟨by simp [isSite, hp], false, hv, by simp⟩,
      by simp [Place.entry, Place.path, hp, Script.Tree.isCall]⟩

lemma exists_call_iff : (∃ s ∈ ofTree t, s.path = path ∧ s.span = span ∧ s.form ≠ .access) ↔
    ∃ xs callee types args optional called,
      Visited (.call span callee types args optional) called t false ∧
        IsChain xs callee ∧ xs ≠ [] ∧ path = Path.join xs := by
  have hentry (s : Site) : s.entry = (path, span, true) ↔
      s.path = path ∧ s.span = span ∧ s.form ≠ .access := by simp [entry, isCall]
  simp only [← hentry, exists_mem_iff, Place.mem_trees_iff]
  constructor
  · rintro ⟨x, ⟨hs, b, hv, -⟩, hx⟩
    rcases Place.isSite_iff.mp hs with ⟨s, o, y, opt, rfl, -⟩ | ⟨s, c, ts, as, opt, rfl, hc⟩
    · simp [Place.entry, Script.Tree.isCall] at hx
    · obtain ⟨p, hp⟩ := Option.isSome_iff_exists.mp hc
      obtain ⟨xs, hchain, hne, rfl⟩ := path?_eq_some_iff.mp hp
      obtain ⟨rfl, rfl⟩ : Path.join xs = path ∧ s = span := by
        simpa [Place.entry, Place.path, hp, Script.Tree.isCall] using hx
      exact ⟨xs, c, ts, as, opt, b, hv, hchain, hne, rfl⟩
  · rintro ⟨xs, c, ts, as, opt, b, hv, hchain, hne, rfl⟩
    have hp := path?_eq_some_iff.mpr ⟨xs, hchain, hne, rfl⟩
    exact ⟨_, ⟨by simp [isSite, hp], b, hv, fun _ => rfl⟩,
      by simp [Place.entry, Place.path, hp, Script.Tree.isCall]⟩

/-- The sites of a tree are the chains from `import.meta` that no call calls, and the calls of such
chains. Each is listed once, after those among its parts, and the ranges of the chains that are called
are enough to tell them from the others. -/
theorem collects_ofTree (ht : t.Ordered) :
    Collects t (ofTree t) ∧ Walk.ofTree t = (ofTree t).map entry :=
  ⟨{ access := fun _ _ => exists_access_iff
     call := fun _ _ => exists_call_iff
     once := nodup_span ht
     parts := fun _ _ hv => pairwise_before ht hv
     own := fun _ _ hv _ hc _ _ _ _ hi hj hcov hspan hs => lt_of_isSite ht hv hs hc hi hj hcov hspan },
   Walk.ofTree_eq ht⟩

theorem collects_ofTree_argument :
    ∃ t, Script.parse .standard false "import.meta.f(import.meta.a.b)".toList = some t ∧ t.Ordered ∧
      (ofTree t).map entry =
        [("a", ⟨14, 27⟩, false), ("a.b", ⟨14, 29⟩, false), ("f", ⟨0, 30⟩, true)] ∧
      Collects t (ofTree t) ∧ Walk.ofTree t = (ofTree t).map entry := by
  have hentries : (Script.parse .standard false "import.meta.f(import.meta.a.b)".toList).map
      (fun t => (ofTree t).map entry) =
        some [("a", ⟨14, 27⟩, false), ("a.b", ⟨14, 29⟩, false), ("f", ⟨0, 30⟩, true)] := by
    decide +kernel
  obtain ⟨t, ht, hentries⟩ := Option.map_eq_some_iff.mp hentries
  have ho := (Script.nested_of_parse ht).ordered
  exact ⟨t, ht, ho, hentries, collects_ofTree ho⟩

end Site
end MetaInline
