import Mathlib
import MetaInline.Proofs.Analysis.Argument
import MetaInline.Proofs.Analysis.Coverage

namespace MetaInline

open Script (Tree)

namespace Site

variable {u : Text} {t : Tree}

lemma getElem?_ofTree (t : Tree) (k : ℕ) :
    (ofTree t)[k]? = (Place.ofTree .value t)[k]?.map fun p => p.site k := by
  rw [Place.ofTree_eq_mapIdx, List.getElem?_mapIdx]

/-- `x` is what stands as the argument `a` of a call that is site number `k`. If it is a site, it is
one that comes before the call. -/
def Stands (t : Tree) (k : ℕ) (x : Argument) (a : Tree) : Prop :=
  ∃ n, x = argument a n ∧ (isSite a.core = true → n - 1 < k ∧
    (ofTree t)[n - 1]? = some (Place.site ⟨a.core, false⟩ (n - 1)))

lemma exists_call (ht : t.Nested u) {k : ℕ} {s : Site} (hk : (ofTree t)[k]? = some s)
    {as : List Argument} (hf : s.form = .call as) :
    ∃ callee types args optional, (Tree.call s.span callee types args optional).Occurs t ∧
      path? callee = some s.path ∧ List.Forall₂ (Stands t k) as args := by
  rw [getElem?_ofTree] at hk
  obtain ⟨p, hp, rfl⟩ := Option.map_eq_some_iff.mp hk
  obtain ⟨hlt, hpk⟩ := List.getElem?_eq_some_iff.mp hp
  obtain ⟨hocc, hs⟩ := Place.mem_ofTree (List.mem_of_getElem? hp)
  have hsplit : Place.ofTree .value t =
      (Place.ofTree .value t).take k ++ p :: (Place.ofTree .value t).drop (k + 1) := by
    simp [← hpk]
  rcases Place.isSite_iff.mp hs with ⟨sp, o, x, b, htree, -⟩ | ⟨sp, c, ts, args, b, htree, hc⟩
  · simp [Place.site, Place.form, htree] at hf
  · obtain ⟨first, hfirst, hargs⟩ := Place.form_of_call ht.ordered hsplit htree
    obtain ⟨path, hpath⟩ := Option.isSome_iff_exists.mp hc
    have hlen : ((Place.ofTree .value t).take k).length = k := by
      rw [List.length_take]
      omega
    rw [hlen] at hfirst hargs
    obtain rfl : Place.arguments first args = as := SiteForm.call.inj (hfirst.symm.trans hf)
    refine ⟨c, ts, args, b, ?_, ?_, List.forall₂_iff_get.mpr ⟨?_, fun j hj hj' => ?_⟩⟩
    · simpa [Place.site, htree] using htree ▸ hocc
    · simp [Place.site, Place.path, htree, hpath]
    · exact Place.length_arguments first args
    · refine ⟨_, Place.getElem_arguments first hj', fun hsite => ?_⟩
      obtain ⟨hbefore, hget⟩ := hargs j hj' hsite
      exact ⟨hbefore, by rw [getElem?_ofTree, hget]; rfl⟩

lemma Stands.exists_site {k i : ℕ} {a : Tree} (h : Stands t k (.site i) a) :
    i < k ∧ ∃ s, (ofTree t)[i]? = some s ∧ s.span = a.core.span := by
  obtain ⟨n, hn, hsite⟩ := h
  rw [Place.argument_eq] at hn
  split at hn
  · cases hn
  · split at hn
    · next hs =>
      cases hn
      exact ⟨(hsite hs).1, _, (hsite hs).2, rfl⟩
    · cases hn

lemma refersBack (ht : t.Nested u) : Evaluation.RefersBack (ofTree t) := by
  intro k hk
  cases hf : (ofTree t)[k].form with
  | access => trivial
  | call as =>
    obtain ⟨_, _, args, _, -, -, hargs⟩ := exists_call ht (List.getElem?_eq_getElem hk) hf
    intro i hi
    obtain ⟨j, hj, hji⟩ := List.getElem_of_mem hi
    have hstands := (List.forall₂_iff_get.mp hargs).2 j hj (hargs.length_eq ▸ hj)
    rw [List.get_eq_getElem, hji] at hstands
    exact hstands.exists_site.1

lemma nodup_span (ht : t.Ordered) : ((ofTree t).map (·.span)).Nodup := by
  have hmap : (ofTree t).map (·.span) = (Place.ofTree .value t).map Place.span := by
    rw [Place.ofTree_eq_mapIdx]
    exact List.ext_getElem (by simp) fun i _ _ => by simp [Place.site]
  exact hmap ▸ Place.nodup_span ht .value

lemma eq_of_span_eq (ht : t.Ordered) {i j : ℕ} {s s' : Site} (hi : (ofTree t)[i]? = some s)
    (hj : (ofTree t)[j]? = some s') (h : s.span = s'.span) : i = j := by
  have hlt : i < ((ofTree t).map (·.span)).length := by
    simpa using (List.getElem?_eq_some_iff.mp hi).1
  refine (List.getElem?_inj hlt (nodup_span ht)).mp ?_
  simp [hi, hj, h]

lemma lt_of_within (ht : t.Nested u) {i k : ℕ} {s s' : Site} (hi : (ofTree t)[i]? = some s)
    (hk : (ofTree t)[k]? = some s') (h : s'.span.Within s.span) : k < i := by
  have hlt := (isIn_of_mem ht (List.mem_of_getElem? hk)).2
  rcases lt_trichotomy k i with hki | rfl | hik
  · exact hki
  · obtain rfl := Option.some.inj (hi.symm.trans hk)
    exact absurd h h.asymm
  · rcases apart_or_within_of_lt ht hi hk hik with ha | ha
    · exact absurd ha.symm (h.not_apart hlt)
    · exact absurd ha h.asymm

end Site

def Yields (ss : List Site) (outcomes : Array (Option Literal)) (a : Tree) (v : Literal) : Prop :=
  a.literal? = some v ∨ Site.isSite a.core = true ∧
    ∃ (k : ℕ) (s : Site), ss[k]? = some s ∧ s.span = a.core.span ∧ outcomes[k]? = some (some v)

def refusal (path : String) (j : ℕ) (a : Tree) : Diagnostic :=
  if Site.isSite a.core then (Problem.argumentNoLiteral path j a.core.kindName).report a.core.span
  else (Problem.argumentNoLiteral path j a.argumentKind).report a.span

namespace Site

variable {u : Text} {t : Tree}

lemma literal?_of_isSite_core {a : Tree} (h : isSite a.core = true) : a.literal? = none := by
  induction a using Script.Tree.unparenthesized.induct with
  | case1 s a ih =>
    rw [Script.Tree.core_parens] at h
    rw [Script.Tree.literal?, ih h]
  | case2 a hp =>
    cases a with
    | parens s a => exact absurd rfl (hp s a)
    | literal s v => cases h
    | minus s a => cases h
    | _ => rfl

lemma getD_eq_some_iff {α : Type*} {xs : Array (Option α)} {i : ℕ} {v : α} :
    xs.getD i none = some v ↔ xs[i]? = some (some v) := by
  rw [Array.getD_eq_getD_getElem?]
  cases xs[i]? <;> simp

lemma slot_eq_some_iff (ht : t.Nested u) {outcomes : Array (Option Literal)} {k : ℕ} {x : Argument}
    {a : Tree} (h : Stands t k x a) (v : Literal) :
    Evaluation.slot outcomes x = some v ↔ Yields (ofTree t) outcomes a v := by
  obtain ⟨n, rfl, hsite⟩ := h
  rw [Place.argument_eq]
  cases hl : a.literal? with
  | some w =>
    have hs : isSite a.core ≠ true := fun h => by simp [literal?_of_isSite_core h] at hl
    simp [Evaluation.slot, Yields, hl, hs]
  | none =>
    by_cases hs : isSite a.core = true
    · obtain ⟨-, hget⟩ := hsite hs
      simp only [hs, if_true, Evaluation.slot, Yields, hl, reduceCtorEq, false_or, true_and,
        getD_eq_some_iff]
      constructor
      · exact fun h => ⟨n - 1, _, hget, rfl, h⟩
      · rintro ⟨k', s', hk', hspan, h⟩
        exact eq_of_span_eq ht.ordered hk' hget hspan ▸ h
    · simp [Evaluation.slot, Yields, hl, hs]

lemma refusal_eq {outcomes : Array (Option Literal)} {k : ℕ} {x : Argument} {a : Tree}
    (h : Stands t k x a) (hx : Evaluation.slot outcomes x = none) :
    Evaluation.refusal (ofTree t).toArray x =
      if isSite a.core then (a.core.kindName, a.core.span) else (a.argumentKind, a.span) := by
  obtain ⟨n, rfl, hsite⟩ := h
  rw [Place.argument_eq] at hx ⊢
  cases hl : a.literal? with
  | some w => simp [hl, Evaluation.slot] at hx
  | none =>
    by_cases hs : isSite a.core = true
    · obtain ⟨-, hget⟩ := hsite hs
      simp only [hs, if_true, Evaluation.refusal, List.getElem?_toArray, hget]
      rcases Place.isSite_iff.mp hs with ⟨s, o, y, b, hc, -⟩ | ⟨s, c, ts, as, b, hc, -⟩
      · simp [hc, Place.site, Place.form, Script.Tree.kindName]
      · simp [hc, Place.site, Place.form, Script.Tree.kindName]
    · simp [hs, Evaluation.refusal]

lemma refusals_eq {outcomes : Array (Option Literal)} {k : ℕ} {as : List Argument}
    {args : List Tree} (h : List.Forall₂ (Stands t k) as args) (path : String) (index : ℕ) :
    Evaluation.refusals (ofTree t).toArray outcomes path index as =
      (((as.map (Evaluation.slot outcomes)).zip args).zipIdx index).filterMap fun x =>
        if x.1.1.isNone then some (refusal path x.2 x.1.2) else none := by
  induction h generalizing index with
  | nil => rfl
  | @cons x a as args hx _ ih =>
    cases hs : Evaluation.slot outcomes x with
    | some v => simp [Evaluation.refusals, hs, ih]
    | none =>
      have hrefusal := refusal_eq hx hs
      by_cases hsite : isSite a.core = true
      · rw [if_pos hsite] at hrefusal
        simp [Evaluation.refusals, hs, ih, hrefusal, refusal, hsite]
      · rw [if_neg hsite] at hrefusal
        simp [Evaluation.refusals, hs, ih, hrefusal, refusal, hsite]

end Site

namespace Analysis

open Evaluation

variable (table : BindingTable) (reportUnbound : Bool)

def outcomesOf (ss : List Site) : Array (Option Literal) :=
  (run table reportUnbound ss.toArray ss).outcomes

lemma invocations_ofSites {ss : List Site} (h : RefersBack ss) :
    (ofSites table reportUnbound ss).invocations =
      ss.filterMap (invocation? table (outcomesOf table reportUnbound ss)) :=
  history_run table reportUnbound _ h

lemma refusals_ofSites {ss : List Site} (h : RefersBack ss) :
    (ofSites table reportUnbound ss).diagnostics.filter isRefusal =
      ss.flatMap (siteRefusals table ss.toArray (outcomesOf table reportUnbound ss)) := by
  have hfinish : (ofSites table reportUnbound ss).diagnostics =
      ((run table reportUnbound ss.toArray ss).problems.reverse.filter
        fun x => x.1.all (isLongest ss)).map (·.2) := rfl
  rw [hfinish, List.filter_map, List.filter_filter]
  simp only [Bool.and_comm]
  rw [← List.filter_filter]
  simp only [Function.comp_def, refusals_run table reportUnbound _ h]
  simp [outcomesOf, List.filter_map, Function.comp_def]

variable {u : Text} {t : Tree} {table reportUnbound}

lemma call_spec (ht : t.Nested u) {i : ℕ} {s : Site} {r : Resolver}
    (hi : (Site.ofTree t)[i]? = some s) (hr : resolver? table s = some r) {ss : List Site}
    (hss : ss = Site.ofTree t) {outcomes : Array (Option Literal)} :
    ∃ callee types args optional, (Tree.call s.span callee types args optional).Occurs t ∧
      Site.path? callee = some s.path ∧ (slots outcomes s).length = args.length ∧
      (∀ j, (hj : j < args.length) → ∀ v,
        (slots outcomes s)[j]? = some (some v) ↔ Yields ss outcomes args[j] v) ∧
      siteRefusals table ss.toArray outcomes s =
        ((slots outcomes s).zip args).zipIdx.filterMap
          (fun x => if x.1.1.isNone then some (refusal s.path x.2 x.1.2) else none) ∧
      ∀ k s', ss[k]? = some s' → (∃ a ∈ args, a.span.covers s'.span = true) → k < i := by
  subst hss
  obtain ⟨as, hf⟩ : ∃ as, s.form = .call as := by
    cases hf : s.form with
    | access => simp [resolver?, hf] at hr
    | call as => exact ⟨as, rfl⟩
  obtain ⟨callee, types, args, optional, hocc, hpath, hargs⟩ := Site.exists_call ht hi hf
  have hslots : slots outcomes s = as.map (slot outcomes) := by simp only [slots, hf]
  refine ⟨callee, types, args, optional, hocc, hpath, ?_, fun j hj v => ?_, ?_, ?_⟩
  · rw [hslots, List.length_map, hargs.length_eq]
  · have hja : j < as.length := hargs.length_eq ▸ hj
    have hstands := (List.forall₂_iff_get.mp hargs).2 j hja hj
    rw [hslots, List.getElem?_map, List.getElem?_eq_getElem hja, Option.map_some,
      Option.some.injEq]
    exact Site.slot_eq_some_iff ht hstands v
  · simp only [siteRefusals, hf, hr, hslots]
    exact Site.refusals_eq hargs s.path 0
  · rintro k s' hk ⟨a, ha, hcov⟩
    have hcall := (hocc.nested ht).1
    refine Site.lt_of_within ht hi hk
      (Place.within_of_argument hcall.ordered (by simp [hpath]) ha hcov ?_)
    exact (Site.isIn_of_mem ht (List.mem_of_getElem? hk)).2

/-- Each call of a bound function is made once, in the order of the sites, and nothing else calls a
resolver. A call is given one value for each of its arguments: the literal that the argument is or
that the site that it is got, and none otherwise, which alone is reported. What stands in an argument
is called before. -/
theorem invocations_analyze (table : BindingTable) (options : AnalysisOptions) {source : Text}
    {t : Tree} (ht : Script.parse options.dialect options.allowReturn source = some t) :
    let ss := sites options source
    let outcomes := outcomesOf table options.reportUnbound ss
    (analyze table options source).invocations = ss.filterMap (invocation? table outcomes) ∧
      (analyze table options source).diagnostics.filter isRefusal =
        ss.flatMap (siteRefusals table ss.toArray outcomes) ∧
      ∀ (i : ℕ) s r, ss[i]? = some s → resolver? table s = some r →
        ∃ callee types args optional, (Tree.call s.span callee types args optional).Occurs t ∧
          Site.path? callee = some s.path ∧ (slots outcomes s).length = args.length ∧
          (∀ j, (hj : j < args.length) → ∀ v,
            (slots outcomes s)[j]? = some (some v) ↔ Yields ss outcomes args[j] v) ∧
          siteRefusals table ss.toArray outcomes s = ((slots outcomes s).zip args).zipIdx.filterMap
            (fun x => if x.1.1.isNone then some (refusal s.path x.2 x.1.2) else none) ∧
          ∀ (k : ℕ) (s' : Site), ss[k]? = some s' →
            (∃ a ∈ args, a.span.covers s'.span = true) → k < i := by
  have hn := Script.nested_of_parse ht
  have hsites := analyze_eq_ofSites table (Option.isSome_iff_exists.mpr ⟨t, ht⟩)
  simp only [hsites, sites_eq ht]
  split
  · exact ⟨invocations_ofSites table _ (Site.refersBack hn),
      refusals_ofSites table _ (Site.refersBack hn), fun i s r hi hr => call_spec hn hi hr rfl⟩
  · simp [ofSites_nil, empty]

theorem invocations_analyze_reported :
    let r : Resolver := ⟨"f", false, fun _ _ => .error (.crashed none)⟩
    let table : BindingTable := ⟨[("a", .value (.literal .null)), ("f", .resolver r)]⟩
    let options : AnalysisOptions := ⟨.standard, false, false⟩
    let source := "import.meta.f(import.meta.a, x)".toList
    let ss := sites options source
    let outcomes := outcomesOf table options.reportUnbound ss
    (analyze table options source).invocations = [⟨"f", [some .null, none]⟩] ∧
      ss.filterMap (invocation? table outcomes) = [⟨"f", [some .null, none]⟩] ∧
      (analyze table options source).diagnostics.filter isRefusal =
        ss.flatMap (siteRefusals table ss.toArray outcomes) := by
  intro r table options source ss outcomes
  have hparse : (Script.parse options.dialect options.allowReturn source).isSome = true := by
    decide +kernel
  obtain ⟨t, ht⟩ := Option.isSome_iff_exists.mp hparse
  have h := invocations_analyze table options ht
  have hcalls : (analyze table options source).invocations = [⟨"f", [some .null, none]⟩] := by
    decide +kernel
  exact ⟨hcalls, h.1.symm.trans hcalls, h.2.1⟩

end Analysis
end MetaInline
