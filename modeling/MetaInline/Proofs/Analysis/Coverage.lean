import Mathlib
import MetaInline.Proofs.Analysis.Chain
import MetaInline.Proofs.Analysis.Evaluation
import MetaInline.Proofs.Binding.Prefix
import MetaInline.Proofs.Edit.Outermost
import MetaInline.Proofs.Script.Program

namespace MetaInline

open Script (Tree)

namespace Evaluation

variable (table : BindingTable) (reportUnbound : Bool) (sites : Array Site)

def valued (ss : List Site) : List (Site × Literal) :=
  (ss.zip (run table reportUnbound sites ss).outcomes.toList).filterMap fun x => x.2.map (x.1, ·)

lemma valued_concat (ss : List Site) (s : Site) :
    valued table reportUnbound sites (ss ++ [s]) = valued table reportUnbound sites ss ++
      ((outcome table (run table reportUnbound sites ss) s).map (s, ·)).toList := by
  have hl : ss.length = (run table reportUnbound sites ss).outcomes.toList.length := by simp
  rw [valued, run_concat, visit_eq]
  simp only [Array.toList_push, List.zip_append hl, List.filterMap_append, valued]
  cases outcome table (run table reportUnbound sites ss) s <;> rfl

lemma edits_eq_valued (ss : List Site) :
    (run table reportUnbound sites ss).edits.reverse =
      (valued table reportUnbound sites ss).map fun x => editOf x.1 x.2 := by
  rw [edits_run, valued, List.map_filterMap]
  simp [Function.comp_def]

lemma valued_sublist (ss : List Site) :
    ((valued table reportUnbound sites ss).map (·.1)).Sublist ss := by
  induction ss using List.reverseRecOn with
  | nil => simp [valued]
  | append_singleton ss s ih =>
    rw [valued_concat, List.map_append]
    refine ih.append ?_
    cases outcome table (run table reportUnbound sites ss) s <;> simp

lemma isSome_of_outcome {e : Evaluation} {s : Site} {v : Literal} (h : outcome table e s = some v) :
    (table.get? s.path).isSome = true := by
  cases hp : table.get? s.path with
  | some x => rfl
  | none =>
    unfold outcome at h
    split at h <;> simp_all

lemma bound_of_mem_valued {ss : List Site} {x : Site × Literal}
    (h : x ∈ valued table reportUnbound sites ss) : (table.get? x.1.path).isSome = true := by
  induction ss using List.reverseRecOn with
  | nil => simp [valued] at h
  | append_singleton ss s ih =>
    rw [valued_concat] at h
    rcases List.mem_append.mp h with h | h
    · exact ih h
    · obtain ⟨v, hv, rfl⟩ := Option.map_eq_some_iff.mp (Option.mem_toList.mp h)
      exact isSome_of_outcome table hv

end Evaluation

namespace Site

lemma exists_place {t : Tree} {s : Site} (h : s ∈ ofTree t) :
    ∃ i, ∃ hi : i < (Place.ofTree .value t).length, s = (Place.ofTree .value t)[i].site i := by
  rw [Place.ofTree_eq_mapIdx] at h
  obtain ⟨i, hi, rfl⟩ := List.getElem_of_mem h
  exact ⟨i, by simpa using hi, by simp⟩

variable {u : Text} {t : Tree}

lemma isIn_of_mem (ht : t.Nested u) {s : Site} (h : s ∈ ofTree t) :
    s.span.IsIn u ∧ s.span.start < s.span.stop := by
  obtain ⟨i, hi, rfl⟩ := exists_place h
  obtain ⟨hocc, hs⟩ := Place.mem_ofTree (List.getElem_mem hi)
  have hn := (hocc.nested ht).1
  exact ⟨hn.isIn, Place.span_lt hn.ordered hs⟩

lemma pairwise_ofTree (ht : t.Nested u) :
    (ofTree t).Pairwise fun s s' => s.span.Apart s'.span ∨ s.span.Within s'.span := by
  rw [Place.ofTree_eq_mapIdx, List.pairwise_iff_getElem]
  intro i j hi hj hij
  simp only [List.length_mapIdx] at hi hj
  simp only [List.getElem_mapIdx]
  exact ((List.pairwise_iff_getElem.mp (Place.pairwise_ofTree ht.ordered .value)) i j hi hj hij).imp_right
    And.right

lemma apart_or_within_of_lt (ht : t.Nested u) {i j : ℕ} {s s' : Site} (hi : (ofTree t)[i]? = some s)
    (hj : (ofTree t)[j]? = some s') (h : i < j) : s.span.Apart s'.span ∨ s.span.Within s'.span := by
  obtain ⟨hi', rfl⟩ := List.getElem?_eq_some_iff.mp hi
  obtain ⟨hj', rfl⟩ := List.getElem?_eq_some_iff.mp hj
  exact List.pairwise_iff_getElem.mp (pairwise_ofTree ht) i j hi' hj' h

lemma mem_inner_of_within (ht : t.Nested u) {i j : ℕ} (hi : i < (Place.ofTree .value t).length)
    (hj : j < (Place.ofTree .value t).length)
    (hlt : (Place.ofTree .value t)[i].span.start < (Place.ofTree .value t)[i].span.stop)
    (h : (Place.ofTree .value t)[i].span.Within (Place.ofTree .value t)[j].span) :
    (Place.ofTree .value t)[i] ∈ (Place.ofTree .value t)[j].inner := by
  have hpair := List.pairwise_iff_getElem.mp (Place.pairwise_ofTree ht.ordered .value)
  rcases lt_trichotomy i j with hij | rfl | hji
  · rcases hpair i j hi hj hij with ha | ha
    · exact absurd ha (h.not_apart hlt)
    · exact ha.1
  · exact absurd h h.asymm
  · rcases hpair j i hj hi hji with ha | ha
    · exact absurd ha.symm (h.not_apart hlt)
    · exact absurd ha.2 h.asymm

lemma exists_argument_of_within (ht : t.Nested u) {c : Configuration} {table : BindingTable}
    (hb : BindingTable.build c = .ok table) {q p : Site} (hq : q ∈ ofTree t) (hp : p ∈ ofTree t)
    (hqb : (table.get? q.path).isSome = true) (hpb : (table.get? p.path).isSome = true)
    (h : q.span.Within p.span) : p.form ≠ .access ∧
    ∃ callee types args optional, (Tree.call p.span callee types args optional).Occurs t ∧
      path? callee = some p.path ∧ ∃ a ∈ args, a.span.covers q.span = true := by
  obtain ⟨i, hi, rfl⟩ := exists_place hq
  obtain ⟨j, hj, rfl⟩ := exists_place hp
  obtain ⟨hocc, hs⟩ := Place.mem_ofTree (List.getElem_mem hj)
  have hinner := mem_inner_of_within ht hi hj (isIn_of_mem ht hq).2 h
  rcases Place.path_or_argument_of_mem_inner hs hinner with ⟨w, hw⟩ | ⟨s, cl, ts, as, b, htree, hm⟩
  · -- Its path would begin that of the other one, and both are bound.
    have hnone := BindingTable.get?_eq_none_of_prefix hb hqb w
    have hsame : (Place.ofTree .value t)[i].path = ((Place.ofTree .value t)[i].site i).path := rfl
    rw [← hsame, ← hw] at hnone
    exact absurd hpb (by simp [Place.site, hnone])
  · rw [htree] at hocc hs
    have has := fun a ha => Place.ordered_arg (hocc.ordered ht.ordered).1 (a := a) ha
    obtain ⟨a, ha, hcov⟩ := Place.covers_of_mem_ofTrees has hm
    obtain ⟨path, hpath⟩ := Option.isSome_iff_exists.mp hs
    have hspan : ((Place.ofTree .value t)[j].site j).span = s := by simp [Place.site, htree]
    refine ⟨?_, cl, ts, as, b, hspan ▸ hocc, ?_, a, ha, hcov⟩
    · simp [Place.site, Place.form, htree]
    · simp [Place.site, Place.path, htree, hpath]

end Site

namespace Analysis

section Tree

variable {u : Text} {t : Tree} (ht : t.Nested u) (table : BindingTable) (reportUnbound : Bool)

def valuedOf (t : Tree) : List (Site × Literal) :=
  Evaluation.valued table reportUnbound (Site.ofTree t).toArray (Site.ofTree t)

lemma edits_ofSites (t : Tree) : (ofSites table reportUnbound (Site.ofTree t)).edits =
    Edit.outermost ((valuedOf table reportUnbound t).map fun x => Evaluation.editOf x.1 x.2) := by
  rw [valuedOf, ← Evaluation.edits_eq_valued]
  rfl

variable {table reportUnbound}

lemma mem_of_mem_valuedOf {x : Site × Literal} (h : x ∈ valuedOf table reportUnbound t) :
    x.1 ∈ Site.ofTree t :=
  (Evaluation.valued_sublist ..).subset (List.mem_map_of_mem h)

include ht

lemma pairwise_valuedOf : (valuedOf table reportUnbound t).Pairwise fun x y =>
    x.1.span.Apart y.1.span ∨ x.1.span.Within y.1.span :=
  List.pairwise_map.mp ((Site.pairwise_ofTree ht).sublist (Evaluation.valued_sublist ..))

lemma nodup_valuedOf : ((valuedOf table reportUnbound t).map (·.1.span)).Nodup := by
  refine List.pairwise_map.mpr ((pairwise_valuedOf ht).imp_of_mem fun {x y} hx _ h heq => ?_)
  have hlt := (Site.isIn_of_mem ht (mem_of_mem_valuedOf hx)).2
  rw [heq] at h hlt
  rcases h with h | h
  · rcases h with h | h <;> omega
  · exact h.asymm h

lemma edits_perm : (ofSites table reportUnbound (Site.ofTree t)).edits.Perm
    (((valuedOf table reportUnbound t).filter fun x =>
      ∀ y ∈ valuedOf table reportUnbound t, ¬ x.1.span.Within y.1.span).map
        fun x => Evaluation.editOf x.1 x.2) := by
  rw [edits_ofSites]
  refine (Edit.outermost_perm ?_).trans (List.Perm.of_eq ?_)
  · rw [List.map_map]
    exact nodup_valuedOf ht
  · rw [List.filter_map]
    refine congrArg _ (List.filter_congr fun x _ => ?_)
    exact decide_eq_decide.mpr List.forall_mem_map

lemma exists_of_mem_edits {e : Edit} (h : e ∈ (ofSites table reportUnbound (Site.ofTree t)).edits) :
    ∃ x ∈ valuedOf table reportUnbound t, e = Evaluation.editOf x.1 x.2 := by
  obtain ⟨x, hx, rfl⟩ := List.mem_map.mp ((edits_perm ht).subset h)
  exact ⟨x, (List.mem_filter.mp hx).1, rfl⟩

lemma isIn_of_mem_edits {e : Edit} (h : e ∈ (ofSites table reportUnbound (Site.ofTree t)).edits) :
    e.span.IsIn u ∧ e.span.start < e.span.stop := by
  obtain ⟨x, hx, rfl⟩ := exists_of_mem_edits ht h
  exact Site.isIn_of_mem ht (mem_of_mem_valuedOf hx)

lemma pairwise_edits : (ofSites table reportUnbound (Site.ofTree t)).edits.Pairwise
    fun a b => a.span.stop ≤ b.span.start := by
  rw [edits_ofSites]
  refine Edit.pairwise_stop_le_outermost (fun e he => ?_) fun a ha b hb => ?_
  · obtain ⟨x, hx, rfl⟩ := List.mem_map.mp he
    exact (Site.isIn_of_mem ht (mem_of_mem_valuedOf hx)).1.le
  · obtain ⟨x, hx, rfl⟩ := List.mem_map.mp ha
    obtain ⟨y, hy, rfl⟩ := List.mem_map.mp hb
    by_cases hxy : x = y
    · exact Or.inr (Or.inl (by simp [hxy]))
    · rcases pairwise_or_of_mem (pairwise_valuedOf ht) hx hy hxy with (h | h) | h | h
      · exact Or.inl h
      · exact Or.inr (Or.inr h.1)
      · exact Or.inl h.symm
      · exact Or.inr (Or.inl h.1)

lemma exists_call_of_within {c : Configuration} (hb : BindingTable.build c = .ok table)
    {x : Site × Literal} (hx : x ∈ valuedOf table reportUnbound t)
    (h : ∃ y ∈ valuedOf table reportUnbound t, x.1.span.Within y.1.span) :
    ∃ y ∈ valuedOf table reportUnbound t, Evaluation.editOf y.1 y.2 ∈
      (ofSites table reportUnbound (Site.ofTree t)).edits ∧
      ∃ callee types args optional, (Tree.call y.1.span callee types args optional).Occurs t ∧
        Site.path? callee = some y.1.path ∧ ∃ a ∈ args, a.span.covers x.1.span = true := by
  obtain ⟨z, hz, hxz⟩ := h
  have hmem := List.mem_map_of_mem (f := fun x => Evaluation.editOf x.1 x.2) hz
  obtain ⟨k, hk, hcov⟩ := Edit.exists_covers_outermost hmem
  obtain ⟨y, hy, rfl⟩ := List.mem_map.mp (Edit.mem_of_mem_outermost hk)
  refine ⟨y, hy, edits_ofSites table reportUnbound t ▸ hk, ?_⟩
  exact (Site.exists_argument_of_within ht hb (mem_of_mem_valuedOf hx) (mem_of_mem_valuedOf hy)
    (Evaluation.bound_of_mem_valued _ _ _ hx) (Evaluation.bound_of_mem_valued _ _ _ hy)
    (hxz.mono hcov)).2

end Tree

def sites (options : AnalysisOptions) (source : Text) : List Site :=
  if mentionsImportMeta source then
    ((Script.parse options.dialect options.allowReturn source).map Site.ofTree).getD []
  else []

lemma ofSites_nil (table : BindingTable) (reportUnbound : Bool) :
    ofSites table reportUnbound [] = empty := by
  simp [ofSites, Evaluation.finish, Evaluation.start, Edit.outermost, Edit.keepOuter, empty]

lemma analyze_eq_ofSites (table : BindingTable) {options : AnalysisOptions} {source : Text}
    (h : (Script.parse options.dialect options.allowReturn source).isSome = true) :
    analyze table options source = ofSites table options.reportUnbound (sites options source) := by
  obtain ⟨t, ht⟩ := Option.isSome_iff_exists.mp h
  cases hm : mentionsImportMeta source with
  | false => simp [analyze, sites, hm, ofSites_nil]
  | true => simp [analyze, sites, hm, ofScript, ht]

def valued (table : BindingTable) (options : AnalysisOptions) (source : Text) :
    List (Site × Literal) :=
  Evaluation.valued table options.reportUnbound (sites options source).toArray
    (sites options source)

lemma sites_eq {options : AnalysisOptions} {source : Text} {t : Tree}
    (ht : Script.parse options.dialect options.allowReturn source = some t) :
    sites options source = if mentionsImportMeta source then Site.ofTree t else [] := by
  rw [sites, ht]
  rfl

/-- The edits of a script are those of the sites that got literals and stand within no other such
site. They are in order, none is empty, and they stand between characters of the script. Each site
that got a literal and is not edited stands inside an argument of a call that is. -/
theorem edits_analyze {c : Configuration} {table : BindingTable} (hb : BindingTable.build c = .ok table)
    (options : AnalysisOptions) {source : Text} {t : Tree}
    (ht : Script.parse options.dialect options.allowReturn source = some t) :
    let edits := (analyze table options source).edits
    let found := valued table options source
    edits.Perm ((found.filter fun x => ∀ y ∈ found, ¬ x.1.span.Within y.1.span).map
        fun x => Evaluation.editOf x.1 x.2) ∧
      (found.map (·.1.span)).Nodup ∧
      edits.Pairwise (fun a b => a.span.stop ≤ b.span.start) ∧
      (∀ e ∈ edits, e.span.start < e.span.stop ∧ e.span.IsIn source) ∧
      ∀ x ∈ found, (∃ y ∈ found, x.1.span.Within y.1.span) →
        ∃ y ∈ found, Evaluation.editOf y.1 y.2 ∈ edits ∧
          ∃ callee types args optional, (Tree.call y.1.span callee types args optional).Occurs t ∧
            Site.path? callee = some y.1.path ∧ ∃ a ∈ args, a.span.covers x.1.span = true := by
  have hn := Script.nested_of_parse ht
  have hedits := analyze_eq_ofSites table (Option.isSome_iff_exists.mpr ⟨t, ht⟩)
  simp only [hedits, valued, sites_eq ht]
  split
  · refine ⟨edits_perm hn, nodup_valuedOf hn, pairwise_edits hn, fun e he => ?_, fun x hx hy => ?_⟩
    · exact (isIn_of_mem_edits hn he).symm
    · exact exists_call_of_within hn hb hx hy
  · simp [ofSites_nil, empty, Evaluation.valued]

theorem edits_analyze_argument :
    let r : Resolver := ⟨"f", false, fun _ _ => .ok (.literal (.bool true))⟩
    let table : BindingTable := ⟨[("a", .value (.literal .null)), ("f", .resolver r)]⟩
    let options : AnalysisOptions := ⟨.standard, false, false⟩
    let source := "import.meta.f(import.meta.a)".toList
    let found := valued table options source
    found.length = 2 ∧ (analyze table options source).edits.Perm
      ((found.filter fun x => ∀ y ∈ found, ¬ x.1.span.Within y.1.span).map
        fun x => Evaluation.editOf x.1 x.2) := by
  intro r table options source found
  have hb : BindingTable.build ⟨#[[("a", .literal .null), ("f", .resolver r)]], 0⟩ = .ok table := rfl
  have hparse : (Script.parse options.dialect options.allowReturn source).isSome = true := by
    decide +kernel
  obtain ⟨t, ht⟩ := Option.isSome_iff_exists.mp hparse
  exact ⟨by decide +kernel, (edits_analyze hb options ht).1⟩

theorem exists_edited_comment :
    let table : BindingTable := ⟨[("re", .value (.literal (.regexp ⟨"a", ""⟩)))]⟩
    let options : AnalysisOptions := ⟨.standard, false, false⟩
    let source := "x = 1/import.meta.re".toList
    let edited := Edit.applyAll source (analyze table options source).edits
    edited = "x = 1//a/".toList ∧
      (Script.parse .standard false source).map (·.span) = some ⟨0, 20⟩ ∧
      (Script.parse .standard false edited).map (·.span) = some ⟨0, 5⟩ := by
  refine ⟨?_, ?_, ?_⟩ <;> decide +kernel

end Analysis
end MetaInline
