import Mathlib
import MetaInline.Proofs.Analysis.Extension
import MetaInline.Proofs.Analysis.Invocation

namespace MetaInline

namespace Site

open Script (Tree)

variable {u : Text} {t : Tree} {s s' : Site}

lemma eq_or_begins (ht : t.Nested u) (hs : s ∈ ofTree t) (hs' : s' ∈ ofTree t) {r : Span}
    (hr : s.RootedAt t r) (hr' : s'.RootedAt t r) : s = s' ∨ s.Begins t s' ∨ s'.Begins t s := by
  have hstart := (start_of_rootedAt ht hr).trans (start_of_rootedAt ht hr').symm
  rcases lt_trichotomy s.span.stop s'.span.stop with hlt | hstop | hlt
  · exact Or.inr (Or.inl ((begins_iff ht hs hs').mpr ⟨hstart, hlt⟩))
  · obtain ⟨i, hi⟩ := List.getElem?_of_mem hs
    obtain ⟨j, hj⟩ := List.getElem?_of_mem hs'
    have hspan : s.span = s'.span := congrArg₂ Span.mk hstart hstop
    obtain rfl := eq_of_span_eq ht.ordered hi hj hspan
    exact Or.inl (Option.some.inj (hi.symm.trans hj))
  · exact Or.inr (Or.inr ((begins_iff ht hs' hs).mpr ⟨hstart.symm, hlt⟩))

end Site

namespace Evaluation

variable (table : BindingTable) (reportUnbound : Bool) (sites : Array Site)

def isUnbound (d : Diagnostic) : Bool :=
  d.code == "IM-UNRESOLVED"

def wanted : SiteForm → Wanted
  | .access => .property
  | .call _ => .method

def unbound (s : Site) : Diagnostic :=
  (Problem.unbound (wanted s.form) s.path).report s.span

lemma isUnbound_report (p : Problem) (span : Span) :
    isUnbound (p.report span) = match p with
      | .unbound .. => true
      | _ => false := by
  cases p <;> simp [isUnbound, Problem.report, Problem.code, Diagnostic.parseCode]

lemma not_isUnbound_of_isRefusal {d : Diagnostic} (h : isRefusal d = true) : isUnbound d = false := by
  simp_all [isUnbound, isRefusal]

lemma verdict_of_unbound {e : Evaluation} {s : Site} (h : table.get? s.path = none) :
    verdict table reportUnbound e s =
      if reportUnbound then some (some s, .unbound (wanted s.form) s.path) else none := by
  obtain ⟨path, span, _ | as, isObject⟩ := s
  · simp only [verdict, h, wanted]
  · simp only [verdict, h, wanted]

lemma verdict_of_bound {e : Evaluation} {s : Site} (h : table.get? s.path ≠ none)
    {x : Option Site × Problem} (hx : verdict table reportUnbound e s = some x) :
    x.1 = none ∧ ∀ span, isUnbound (x.2.report span) = false := by
  unfold verdict at hx
  split at hx
  · split at hx
    · cases hx
    · cases hx
      exact ⟨rfl, fun _ => isUnbound_report _ _⟩
  · cases hx
    exact ⟨rfl, fun _ => isUnbound_report _ _⟩
  · split at hx
    · split at hx
      · cases hx
      · cases hx
        exact ⟨rfl, fun _ => isUnbound_report _ _⟩
    · cases hx
      exact ⟨rfl, fun _ => isUnbound_report _ _⟩
  · cases hx
  · next hnone => exact absurd hnone h
  · next hnone => exact absurd hnone h

lemma not_isUnbound_of_mem_site {outcomes : Array (Option Literal)} {s : Site} {d : Diagnostic}
    (h : d ∈ siteRefusals table sites outcomes s) : isUnbound d = false :=
  not_isUnbound_of_isRefusal (isRefusal_of_mem_site table sites h)

lemma filter_isUnbound_told (e : Evaluation) (s : Site) :
    (told table reportUnbound sites e s).filter (fun x => isUnbound x.2) =
      if reportUnbound = true ∧ table.get? s.path = none then [(some s, unbound s)] else [] := by
  have hrefusals : ((siteRefusals table sites e.outcomes s).map ((none : Option Site), ·)).filter
      (fun x => isUnbound x.2) = [] := by
    refine List.filter_eq_nil_iff.mpr fun x hx => ?_
    obtain ⟨d, hd, rfl⟩ := List.mem_map.mp hx
    exact Bool.eq_false_iff.mp (not_isUnbound_of_mem_site table sites hd)
  rw [told, List.filter_append, hrefusals, List.nil_append]
  by_cases hpath : table.get? s.path = none
  · rw [verdict_of_unbound table reportUnbound hpath]
    cases reportUnbound with
    | false => simp
    | true => simp [hpath, unbound, isUnbound_report]
  · rw [if_neg fun h => hpath h.2]
    cases hv : verdict table reportUnbound e s with
    | none => rfl
    | some x => simp [(verdict_of_bound table reportUnbound hpath hv).2]

lemma eq_none_of_mem_told {e : Evaluation} {s : Site} {x : Option Site × Diagnostic}
    (h : x ∈ told table reportUnbound sites e s) (hx : isUnbound x.2 = false) : x.1 = none := by
  rcases List.mem_append.mp h with h | h
  · obtain ⟨d, -, rfl⟩ := List.mem_map.mp h
    rfl
  · obtain ⟨y, hy, rfl⟩ := Option.map_eq_some_iff.mp (Option.mem_toList.mp h)
    by_cases hpath : table.get? s.path = none
    · rw [verdict_of_unbound table reportUnbound hpath] at hy
      split at hy
      · cases hy
        simp [isUnbound_report] at hx
      · cases hy
    · exact (verdict_of_bound table reportUnbound hpath hy).1

lemma eq_none_of_mem_problems {ss : List Site} {x : Option Site × Diagnostic}
    (h : x ∈ (run table reportUnbound sites ss).problems) (hx : isUnbound x.2 = false) : x.1 = none := by
  obtain ⟨e, s, -, h⟩ := exists_told_of_mem_problems table reportUnbound sites h
  exact eq_none_of_mem_told table reportUnbound sites h hx

theorem unbound_run (ss : List Site) :
    (run table reportUnbound sites ss).problems.reverse.filter (fun x => isUnbound x.2) =
      (ss.filter fun s => reportUnbound && (table.get? s.path).isNone).map
        fun s => (some s, unbound s) := by
  induction ss using List.reverseRecOn with
  | nil => rfl
  | append_singleton ss s ih =>
    rw [run_concat, visit_eq]
    simp only [List.reverse_append, List.reverse_reverse, List.filter_append, ih, filter_isUnbound_told,
      List.map_append]
    by_cases h : reportUnbound = true ∧ table.get? s.path = none
    · simp [h]
    · rw [if_neg h]
      simp_all

end Evaluation

namespace Analysis

open Evaluation
open Script (Tree)

variable (table : BindingTable) (reportUnbound : Bool) (ss : List Site)

lemma diagnostics_ofSites : (ofSites table reportUnbound ss).diagnostics =
    ((run table reportUnbound ss.toArray ss).problems.reverse.filter
      fun x => x.1.all (isLongest ss)).map (·.2) := rfl

lemma unbound_ofSites : (ofSites table reportUnbound ss).diagnostics.filter isUnbound =
    (ss.filter fun s => isLongest ss s && (reportUnbound && (table.get? s.path).isNone)).map unbound := by
  rw [diagnostics_ofSites, List.filter_map, List.filter_comm]
  simp only [Function.comp_def, unbound_run]
  simp [List.filter_map, Function.comp_def, List.filter_filter]

lemma others_ofSites : (ofSites table reportUnbound ss).diagnostics.filter (!isUnbound ·) =
    ((run table reportUnbound ss.toArray ss).problems.reverse.map (·.2)).filter (!isUnbound ·) := by
  rw [diagnostics_ofSites, List.filter_map, List.filter_map, List.filter_filter]
  refine congrArg _ (List.filter_congr fun x hx => ?_)
  -- Every other report comes without its site, and is kept for that.
  cases hcode : isUnbound x.2 with
  | true => simp [hcode]
  | false =>
    have hnone := eq_none_of_mem_problems _ _ _ (List.mem_reverse.mp hx) hcode
    simp [hcode, hnone]

variable {options : AnalysisOptions} {source : Text} {t : Tree}

lemma mem_ofTree_of_mem_sites (ht : Script.parse options.dialect options.allowReturn source = some t)
    {s : Site} (hs : s ∈ sites options source) :
    sites options source = Site.ofTree t ∧ s ∈ Site.ofTree t := by
  rw [sites_eq ht] at hs ⊢
  split at hs
  · next hmentions => exact ⟨if_pos hmentions, hs⟩
  · cases hs

lemma isLongest_sites_iff (ht : Script.parse options.dialect options.allowReturn source = some t)
    {s : Site} (hs : s ∈ sites options source) :
    isLongest (sites options source) s = true ↔ ∀ s' ∈ sites options source, ¬ s.Begins t s' := by
  obtain ⟨hsites, hs⟩ := mem_ofTree_of_mem_sites ht hs
  rw [hsites]
  exact Site.isLongest_iff (Script.nested_of_parse ht) hs

open Classical in
/-- If it is asked for, each site that is not bound and begins no longer site is reported, in order, by
its range and path; else none is. No other report is left out for that. Each site begins with an
`import.meta`, and no two that are reported begin with the same. -/
theorem unbound_analyze (table : BindingTable) (options : AnalysisOptions) {source : Text} {t : Tree}
    (ht : Script.parse options.dialect options.allowReturn source = some t) :
    let ss := sites options source
    let told := (run table options.reportUnbound ss.toArray ss).problems.reverse.map (·.2)
    let found := (analyze table options source).diagnostics
    let outer := ss.filter fun s => table.get? s.path = none ∧ ∀ s' ∈ ss, ¬ s.Begins t s'
    (options.reportUnbound = true → found.filter isUnbound = outer.map unbound) ∧
      (options.reportUnbound = false → found.filter isUnbound = []) ∧
      found.filter (!isUnbound ·) = told.filter (!isUnbound ·) ∧
      (∀ s ∈ ss, ∃ r, s.RootedAt t r) ∧
      ∀ s ∈ outer, ∀ s' ∈ outer, ∀ r, s.RootedAt t r → s'.RootedAt t r → s = s' := by
  intro ss told found outer
  have hn := Script.nested_of_parse ht
  have hfound : found = (ofSites table options.reportUnbound ss).diagnostics :=
    congrArg diagnostics (analyze_eq_ofSites table (Option.isSome_iff_exists.mpr ⟨t, ht⟩))
  have hmem : ∀ s ∈ ss, s ∈ Site.ofTree t := fun s hs => (mem_ofTree_of_mem_sites ht hs).2
  refine ⟨fun hreport => ?_, fun hreport => ?_, ?_, fun s hs => Site.exists_rootedAt (hmem s hs), ?_⟩
  · rw [hfound, unbound_ofSites, hreport]
    refine congrArg _ (List.filter_congr fun s hs => ?_)
    rw [Bool.eq_iff_iff, Bool.and_eq_true, isLongest_sites_iff ht hs, decide_eq_true_eq, Bool.true_and,
      Option.isNone_iff_eq_none]
    exact and_comm
  · rw [hfound, unbound_ofSites, hreport]
    simp
  · rw [hfound, others_ofSites]
  · intro s hs s' hs' r hr hr'
    obtain ⟨hs, houter⟩ := List.mem_filter.mp hs
    obtain ⟨hs', houter'⟩ := List.mem_filter.mp hs'
    rcases Site.eq_or_begins hn (hmem s hs) (hmem s' hs') hr hr' with heq | hbegins | hbegins
    · exact heq
    · exact absurd hbegins ((of_decide_eq_true houter).2 s' hs')
    · exact absurd hbegins ((of_decide_eq_true houter').2 s hs)

open Classical in
theorem unbound_analyze_outermost :
    let table : BindingTable := ⟨[("foo", .value (.literal .null))]⟩
    let options : AnalysisOptions := ⟨.standard, true, false⟩
    let source := "import.meta.env.A; import.meta.hot.f(import.meta.foo)".toList
    let ss := sites options source
    let found := (analyze table options source).diagnostics
    (found.filter isUnbound).map (·.span) = [⟨0, 17⟩, ⟨19, 53⟩] ∧
      ∃ t, Script.parse options.dialect options.allowReturn source = some t ∧
        found.filter isUnbound =
          (ss.filter fun s => table.get? s.path = none ∧ ∀ s' ∈ ss, ¬ s.Begins t s').map unbound := by
  intro table options source ss found
  have hparse : (Script.parse options.dialect options.allowReturn source).isSome = true := by
    decide +kernel
  obtain ⟨t, ht⟩ := Option.isSome_iff_exists.mp hparse
  have hfound : (found.filter isUnbound).map (·.span) = [⟨0, 17⟩, ⟨19, 53⟩] := by
    decide +kernel
  exact ⟨hfound, t, ht, (unbound_analyze table options ht).1 rfl⟩

end Analysis
end MetaInline
