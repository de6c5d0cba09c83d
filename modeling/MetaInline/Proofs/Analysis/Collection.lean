import Mathlib
import MetaInline.Proofs.Analysis.Invocation

namespace MetaInline

namespace Script.Tree

def isCall : Tree → Bool
  | call .. => true
  | _ => false

def visited : Tree → List (Tree × Bool)
  | call _ callee _ args _ => args.map (·, false) ++ [(callee, true)]
  | t => t.parts.map (·, false)

/-- `x` is visited in `r`, and `called` tells whether a call calls it. -/
inductive Visited (x : Tree) (called : Bool) : Tree → Bool → Prop
  | refl : Visited x called x called
  | part {r c : Tree} {b b' : Bool} (hc : (c, b) ∈ r.visited) (h : Visited x called c b) :
      Visited x called r b'

inductive IsChain : List String → Tree → Prop
  | root (s : Span) : IsChain [] (importMeta s)
  | member {xs : List String} {o : Tree} (h : IsChain xs o) (s : Span) (x : String) (b : Bool) :
      IsChain (xs ++ [x]) (member s o x b)

variable {t x c : Tree} {b : Bool}

lemma mem_parts_of_visited (h : (c, b) ∈ t.visited) : c ∈ t.parts := by
  cases t with
  | call s callee types args o =>
    rcases List.mem_append.mp h with h | h
    · obtain ⟨a, ha, heq⟩ := List.mem_map.mp h
      cases heq
      simp [parts, ha]
    · cases List.mem_singleton.mp h
      simp [parts]
  | _ =>
    obtain ⟨a, ha, heq⟩ := List.mem_map.mp h
    cases heq
    exact ha

lemma sizeOf_lt_of_mem_parts (h : c ∈ t.parts) : sizeOf c < sizeOf t := by
  cases t with
  | call s callee types args o =>
    rw [call.sizeOf_spec]
    rcases List.mem_cons.mp h with rfl | h
    · omega
    · rcases List.mem_append.mp h with h | h
      · have := List.sizeOf_lt_of_mem h
        omega
      · have := List.sizeOf_lt_of_mem h
        omega
  | node k s ts =>
    have := List.sizeOf_lt_of_mem h
    rw [node.sizeOf_spec, parts] at *
    omega
  | _ => simp [parts] at h <;> grind

lemma Occurs.sizeOf_le (h : x.Occurs t) : sizeOf x ≤ sizeOf t := by
  induction h with
  | refl => exact le_rfl
  | part hc _ ih => exact ih.trans (sizeOf_lt_of_mem_parts hc).le

@[elab_as_elim]
theorem induction_parts {motive : Tree → Prop} (h : ∀ t, (∀ c ∈ t.parts, motive c) → motive t)
    (t : Tree) : motive t :=
  h t fun c hc =>
    have := sizeOf_lt_of_mem_parts hc
    induction_parts h c
termination_by sizeOf t

lemma Visited.occurs {b' : Bool} (h : Visited x b t b') : x.Occurs t := by
  induction h with
  | refl => exact .refl
  | part hc _ ih => exact .part (mem_parts_of_visited hc) ih

lemma isChain_iff {xs : List String} : IsChain xs t ↔ Site.names? t = some xs.reverse := by
  constructor
  · intro h
    induction h with
    | root s => rfl
    | member h s x b ih => simp [Site.names?, ih]
  · intro h
    induction t using Site.names?.induct generalizing xs with
    | case1 s =>
      obtain rfl : xs = [] := by simpa [Site.names?] using h
      exact .root s
    | case2 s o x b ih =>
      obtain ⟨ys, ho, hys⟩ := Option.map_eq_some_iff.mp (Site.names?.eq_2 .. ▸ h)
      obtain rfl : xs = ys.reverse ++ [x] := by simpa using (congrArg List.reverse hys).symm
      exact .member (ih (by simpa using ho)) s x b
    | case3 t h1 h2 => rw [Site.names?] at h <;> simp_all

lemma path?_eq_some_iff {path : String} : Site.path? t = some path ↔
    ∃ xs, IsChain xs t ∧ xs ≠ [] ∧ path = Path.join xs := by
  constructor
  · intro h
    cases t with
    | member s o x b =>
      obtain ⟨ys, ho, rfl⟩ := Option.map_eq_some_iff.mp h
      have hchain : IsChain ys.reverse o := isChain_iff.mpr (by simpa using ho)
      exact ⟨_, hchain.member s x b, by simp, by simp⟩
    | _ => cases h
  · rintro ⟨xs, hchain, hne, rfl⟩
    simpa using Place.path?_eq (isChain_iff.mp hchain) (by simpa using hne)

end Script.Tree

namespace Place

open Site Script.Tree
open Script (Tree)

def trees (called : Bool) (t : Tree) : List Tree :=
  (ofTree (if called then .callee else .value) t).map tree

def ownTrees (called : Bool) (t : Tree) : List Tree :=
  if isSite t && (!called || t.isCall) then [t] else []

lemma map_tree_value (t : Tree) : (ofTree .value t).map tree = trees false t := rfl

lemma map_tree_object (t : Tree) : (ofTree .object t).map tree = trees false t := by
  cases t with
  | member s o x b => by_cases h : isSite (.member s o x b) = true <;> simp [trees, ofTree, own, h]
  | call s c ts as b => by_cases h : isSite (.call s c ts as b) = true <;> simp [trees, ofTree, own, h]
  | _ => simp [trees, ofTree]

lemma map_tree_callee (c : Tree) : (ofTree (calleeUse c) c).map tree = trees true c := by
  unfold calleeUse trees
  split
  · rfl
  · next h =>
    cases c with
    | member s o x b => simp [ofTree, own, isSite, h]
    | call s c ts as b =>
      by_cases h : isSite (.call s c ts as b) = true <;> simp [ofTree, own, h]
    | _ => simp [ofTree]

lemma map_tree_ofTrees (ts : List Tree) : (ofTrees ts).map tree = ts.flatMap (trees false) := by
  induction ts with
  | nil => rfl
  | cons t ts ih => simp [ofTrees, ih, map_tree_value]

lemma trees_eq (called : Bool) (t : Tree) :
    trees called t = t.visited.flatMap (fun x => trees x.2 x.1) ++ ownTrees called t := by
  rw [trees]
  cases t with
  | member s o x b =>
    cases called <;> by_cases h : isSite (.member s o x b) = true <;>
      simp [ofTree, own, ownTrees, visited, parts, isCall, h, map_tree_object]
  | call s c ts as b =>
    cases called <;> by_cases h : isSite (.call s c ts as b) = true <;>
      simp [ofTree, own, ownTrees, visited, isCall, h, map_tree_callee, map_tree_ofTrees,
        List.flatMap_map]
  | _ =>
    simp [ofTree, ownTrees, visited, parts, isSite, path?, map_tree_object, map_tree_value,
      map_tree_ofTrees, List.flatMap_map]

lemma mem_ownTrees {called : Bool} {t x : Tree} : x ∈ ownTrees called t ↔
    x = t ∧ isSite x = true ∧ (called = true → x.isCall = true) := by
  unfold ownTrees
  constructor
  · split
    · next h =>
      intro hx
      obtain rfl := List.mem_singleton.mp hx
      cases called <;> simp_all
    · simp
  · rintro ⟨rfl, hs, hc⟩
    cases called <;> simp_all

lemma mem_trees_iff {called : Bool} {t x : Tree} : x ∈ trees called t ↔
    isSite x = true ∧ ∃ b, Visited x b t called ∧ (b = true → x.isCall = true) := by
  induction t using induction_parts generalizing called with
  | _ t ih =>
    rw [trees_eq, List.mem_append, mem_ownTrees, List.mem_flatMap]
    constructor
    · rintro (⟨⟨c, b⟩, hc, hx⟩ | ⟨rfl, hs, hown⟩)
      · obtain ⟨hs, b', hv, hb'⟩ := (ih c (mem_parts_of_visited hc)).mp hx
        exact ⟨hs, b', .part hc hv, hb'⟩
      · exact ⟨hs, called, .refl, hown⟩
    · rintro ⟨hs, b, hv, hb⟩
      cases hv with
      | refl => exact Or.inr ⟨rfl, hs, hb⟩
      | part hc hv => exact Or.inl ⟨_, hc, (ih _ (mem_parts_of_visited hc)).mpr ⟨hs, b, hv, hb⟩⟩

variable {t x : Tree} {called b : Bool}

lemma ordered_of_mem_trees (ht : t.Ordered) (h : x ∈ trees called t) :
    x.Ordered ∧ t.span.covers x.span = true ∧ x.span.start < x.span.stop := by
  obtain ⟨hs, b, hv, -⟩ := mem_trees_iff.mp h
  obtain ⟨hx, hcov⟩ := hv.occurs.ordered ht
  exact ⟨hx, hcov, span_lt hx hs⟩

lemma pairwise_visited (ht : t.Ordered) :
    t.visited.Pairwise fun x y => x.1.span.Apart y.1.span := by
  cases t with
  | call s c ts as o =>
    obtain ⟨hc, hparts⟩ := List.pairwise_cons.mp ht.apart
    have has := (List.pairwise_append.mp hparts).2.1
    refine List.pairwise_append.mpr ⟨List.pairwise_map.mpr has, by simp, fun x hx y hy => ?_⟩
    obtain ⟨a, ha, rfl⟩ := List.mem_map.mp hx
    obtain rfl := List.mem_singleton.mp hy
    exact (hc a (by simp [ha])).symm
  | _ => exact List.pairwise_map.mpr ht.apart

lemma not_covers_of_apart {r s s' : Span} (h : s.Apart s') (hr : s.covers r = true)
    (hlt : r.start < r.stop) : ¬ s'.covers r = true := by
  simp only [Span.covers_iff] at *
  rcases h with h | h <;> omega

lemma not_covers_of_isSite (ht : t.Ordered) (hs : isSite t = true) {c : Tree}
    (hc : (c, b) ∈ t.visited) : ¬ c.span.covers t.span = true := by
  intro hcov
  rcases isSite_iff.mp hs with ⟨s, o, y, b, rfl, -⟩ | ⟨s, f, ts, as, o, rfl, hf⟩
  · obtain rfl : c = o := by simpa [parts] using mem_parts_of_visited hc
    have hhead := ht.head rfl
    simp only [Span.covers_iff] at hcov
    omega
  · have hfn := span_lt (ht.of_mem (by simp [parts])) (isSite_of_path hf)
    have hin := ht.inside (c := f) (by simp [parts])
    rcases List.mem_append.mp hc with hc | hc
    · obtain ⟨a, ha, heq⟩ := List.mem_map.mp hc
      cases heq
      have hapart := (List.pairwise_cons.mp ht.apart).1 c (by simp [ha])
      exact not_covers_of_apart hapart (by simp) hfn (Span.covers_trans hcov hin)
    · cases List.mem_singleton.mp hc
      have hhead := ht.head rfl
      simp only [Span.covers_iff] at hcov
      omega

lemma exists_trees_eq_append (ht : t.Ordered) (hv : Visited x b t called) :
    ∃ front back, trees called t = front ++ (trees b x ++ back) ∧
      ∀ y ∈ front ++ back, ¬ x.span.covers y.span = true := by
  induction hv with
  | refl => exact ⟨[], [], by simp, by simp⟩
  | @part r c b' called hc hv ih =>
    have hcr := ht.of_mem (mem_parts_of_visited hc)
    obtain ⟨front, back, heq, hout⟩ := ih hcr
    have hcov := (hv.occurs.ordered hcr).2
    obtain ⟨pre, post, hsplit⟩ := List.append_of_mem hc
    have hapart := pairwise_visited ht
    rw [hsplit] at hapart
    obtain ⟨-, hpost, hpre⟩ := List.pairwise_append.mp hapart
    refine ⟨pre.flatMap (fun y => trees y.2 y.1) ++ front,
      back ++ (post.flatMap (fun y => trees y.2 y.1) ++ ownTrees called r), ?_, ?_⟩
    · rw [trees_eq, hsplit, List.flatMap_append, List.flatMap_cons, heq]
      simp
    · -- What is not in the part is in a part apart from it, or the construct itself.
      have hother {d : Tree × Bool} (hd : d ∈ r.visited) (h : d.1.span.Apart c.span) {y : Tree}
          (hy : y ∈ trees d.2 d.1) : ¬ x.span.covers y.span = true := by
        obtain ⟨-, hdy, hlt⟩ := ordered_of_mem_trees (ht.of_mem (mem_parts_of_visited hd)) hy
        exact fun h' => not_covers_of_apart h hdy hlt (Span.covers_trans hcov h')
      intro y hy
      simp only [List.mem_append, List.mem_flatMap] at hy
      rcases hy with (⟨d, hd, hy⟩ | hy) | hy | ⟨d, hd, hy⟩ | hy
      · exact hother (by simp [hsplit, hd]) (hpre d hd (c, b') (by simp)) hy
      · exact hout y (by simp [hy])
      · exact hout y (by simp [hy])
      · exact hother (by simp [hsplit, hd]) ((List.pairwise_cons.mp hpost).1 d hd).symm hy
      · obtain ⟨rfl, hs, -⟩ := mem_ownTrees.mp hy
        exact fun h => not_covers_of_isSite ht hs hc (Span.covers_trans hcov h)

def entry (t : Tree) : String × Span × Bool :=
  (path ⟨t, false⟩, t.span, t.isCall)

end Place

namespace Site

open Script.Tree
open Script (Tree)

def isCall (s : Site) : Bool :=
  s.form != .access

def entry (s : Site) : String × Span × Bool :=
  (s.path, s.span, s.isCall)

lemma map_entry_ofTree (t : Tree) : (ofTree t).map entry = (Place.trees false t).map Place.entry := by
  have hplace (p : Place) (n : ℕ) : (p.site n).entry = Place.entry p.tree := by
    obtain ⟨t, b⟩ := p
    cases t <;> simp [entry, Place.entry, Place.site, Place.form, Place.path, isCall,
      Script.Tree.isCall]
  rw [Place.ofTree_eq_mapIdx]
  exact List.ext_getElem (by simp [Place.trees]) fun i _ _ => by simp [hplace, Place.trees]

lemma exists_mem_iff {t : Tree} {e : String × Span × Bool} :
    (∃ s ∈ ofTree t, s.entry = e) ↔ ∃ x ∈ Place.trees false t, Place.entry x = e := by
  rw [← List.mem_map, ← List.mem_map, map_entry_ofTree]

lemma exists_getElem?_trees {t : Tree} {i : ℕ} {s : Site} (h : (ofTree t)[i]? = some s) :
    ∃ x, (Place.trees false t)[i]? = some x ∧ x.span = s.span := by
  have hi : ((ofTree t).map entry)[i]? = some s.entry := by rw [List.getElem?_map, h]; rfl
  rw [map_entry_ofTree, List.getElem?_map] at hi
  obtain ⟨x, hx, he⟩ := Option.map_eq_some_iff.mp hi
  exact ⟨x, hx, congrArg (·.2.1) he⟩

lemma lt_of_eq_append {α : Type*} {l front back : List α} (h : l = front ++ back) {P Q : α → Prop}
    (hback : ∀ x ∈ back, ¬ P x) (hfront : ∀ x ∈ front, ¬ Q x) {i j : ℕ} {x y : α}
    (hi : l[i]? = some x) (hj : l[j]? = some y) (hx : P x) (hy : Q y) : i < j := by
  subst h
  by_contra hij
  rcases lt_or_ge i front.length with hlt | hge
  · rw [List.getElem?_append_left (by omega)] at hj
    exact hfront y (List.mem_of_getElem? hj) hy
  · rw [List.getElem?_append_right hge] at hi
    exact hback x (List.mem_of_getElem? hi) hx

def Before (ss : List Site) (r r' : Span) : Prop :=
  ∀ (i j : ℕ) (s s' : Site), ss[i]? = some s → ss[j]? = some s' →
    r.covers s.span = true → r'.covers s'.span = true → i < j

variable {t x : Tree} {b : Bool}

lemma lt_of_trees_eq_append {front back : List Tree} (h : Place.trees false t = front ++ back)
    {P Q : Span → Prop} (hback : ∀ y ∈ back, ¬ P y.span) (hfront : ∀ y ∈ front, ¬ Q y.span)
    {i j : ℕ} {s s' : Site} (hi : (ofTree t)[i]? = some s) (hj : (ofTree t)[j]? = some s')
    (hs : P s.span) (hs' : Q s'.span) : i < j := by
  obtain ⟨y, hy, hys⟩ := exists_getElem?_trees hi
  obtain ⟨z, hz, hzs⟩ := exists_getElem?_trees hj
  exact lt_of_eq_append h hback hfront hy hz (hys ▸ hs) (hzs ▸ hs')

lemma before_of_visited (ht : t.Ordered) (hv : Visited x b t false)
    {pre post : List (Tree × Bool)} (h : x.visited = pre ++ post) {c d : Tree × Bool} (hc : c ∈ pre)
    (hd : d ∈ post) : Before (ofTree t) c.1.span d.1.span := by
  have hx := (hv.occurs.ordered ht).1
  have hpart {c : Tree × Bool} (hc : c ∈ pre ++ post) : c.1 ∈ x.parts :=
    mem_parts_of_visited (h ▸ hc)
  have hapart := List.pairwise_append.mp (h ▸ Place.pairwise_visited hx)
  obtain ⟨front, back, heq, hout⟩ := Place.exists_trees_eq_append ht hv
  have hall : Place.trees false t = (front ++ pre.flatMap fun y => Place.trees y.2 y.1) ++
      (post.flatMap (fun y => Place.trees y.2 y.1) ++ (Place.ownTrees b x ++ back)) := by
    rw [heq, Place.trees_eq b x, h]
    simp
  have hfar {e : Tree × Bool} (he : e ∈ pre ++ post) {y : Tree} (hy : y ∈ front ++ back) :
      ¬ e.1.span.covers y.span = true :=
    fun hcov => hout y hy (Span.covers_trans (hx.inside (hpart he)) hcov)
  have hnear {e e' : Tree × Bool} (he : e ∈ pre ++ post) (h : e.1.span.Apart e'.1.span) {y : Tree}
      (hy : y ∈ Place.trees e.2 e.1) : ¬ e'.1.span.covers y.span = true := by
    obtain ⟨-, hcov, hlt⟩ := Place.ordered_of_mem_trees (hx.of_mem (hpart he)) hy
    exact Place.not_covers_of_apart h hcov hlt
  refine fun i j s s' hi hj => lt_of_trees_eq_append hall (P := fun r => c.1.span.covers r = true)
    (Q := fun r => d.1.span.covers r = true) (fun y hy => ?_) (fun y hy => ?_) hi hj
  · simp only [List.mem_append, List.mem_flatMap] at hy
    rcases hy with ⟨e, he, hy⟩ | hy | hy
    · exact hnear (by simp [he]) (hapart.2.2 c hc e he).symm hy
    · obtain ⟨rfl, hs, -⟩ := Place.mem_ownTrees.mp hy
      exact Place.not_covers_of_isSite hx hs (b := c.2) (by simp [h, hc])
    · exact hfar (by simp [hc]) (by simp [hy])
  · simp only [List.mem_append, List.mem_flatMap] at hy
    rcases hy with hy | ⟨e, he, hy⟩
    · exact hfar (by simp [hd]) (by simp [hy])
    · exact hnear (by simp [he]) (hapart.2.2 e he d hd) hy

lemma pairwise_before (ht : t.Ordered) (hv : Visited x b t false) :
    x.visited.Pairwise fun c d => Before (ofTree t) c.1.span d.1.span := by
  rw [List.pairwise_iff_getElem]
  intro m n hm hn hmn
  have hsplit : x.visited = x.visited.take n ++ x.visited.drop n := by simp
  exact before_of_visited ht hv hsplit (List.mem_take_iff_getElem.mpr ⟨m, by omega, rfl⟩)
    (List.mem_drop_iff_getElem.mpr ⟨0, by omega, by simp⟩)

lemma lt_of_isSite (ht : t.Ordered) (hv : Visited x b t false) (hs : isSite x = true)
    {c : Tree × Bool} (hc : c ∈ x.visited) {i j : ℕ} {s s' : Site} (hi : (ofTree t)[i]? = some s)
    (hj : (ofTree t)[j]? = some s') (hcov : c.1.span.covers s.span = true)
    (hspan : s'.span = x.span) : i < j := by
  have hx := (hv.occurs.ordered ht).1
  obtain ⟨front, back, heq, hout⟩ := Place.exists_trees_eq_append ht hv
  have hall : Place.trees false t = (front ++ x.visited.flatMap fun y => Place.trees y.2 y.1) ++
      (Place.ownTrees b x ++ back) := by
    rw [heq, Place.trees_eq b x]
    simp
  have hin := hx.inside (mem_parts_of_visited hc)
  have hout' {y : Tree} (hy : y ∈ front ++ back) : ¬ c.1.span.covers y.span = true :=
    fun hcov => hout y hy (Span.covers_trans hin hcov)
  refine lt_of_trees_eq_append hall (P := fun r => c.1.span.covers r = true)
    (Q := fun r => r = x.span) (fun y hy => ?_) (fun y hy hyx => ?_) hi hj hcov hspan
  · rcases List.mem_append.mp hy with hy | hy
    · obtain ⟨rfl, -, -⟩ := Place.mem_ownTrees.mp hy
      exact Place.not_covers_of_isSite hx hs hc
    · exact hout' (by simp [hy])
  · rcases List.mem_append.mp hy with hy | hy
    · exact hout y (by simp [hy]) (by simp [hyx])
    · obtain ⟨d, hd, hy⟩ := List.mem_flatMap.mp hy
      obtain ⟨-, hdy, -⟩ := Place.ordered_of_mem_trees (hx.of_mem (mem_parts_of_visited hd)) hy
      exact Place.not_covers_of_isSite hx hs hd (hyx ▸ hdy)

end Site
end MetaInline
