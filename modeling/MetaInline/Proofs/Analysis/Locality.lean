import Mathlib
import MetaInline.Proofs.Analysis.Invocation

namespace MetaInline

/-- Two entries that give the same: one value, or resolvers that reply alike to all arguments, whatever
was called before. -/
def Entry.Alike : Entry → Entry → Prop
  | .value v, .value w => v = w
  | .resolver r, .resolver r' =>
    ∀ history history' args, r.reply history args = r'.reply history' args
  | _, _ => False

def BindingTable.AgreeAt (T T' : BindingTable) (path : String) : Prop :=
  Option.Rel Entry.Alike (T.get? path) (T'.get? path)

lemma BindingTable.AgreeAt.cases {T T' : BindingTable} {path : String} (h : T.AgreeAt T' path) :
    (T.get? path = none ∧ T'.get? path = none) ∨
      (∃ v, T.get? path = some (.value v) ∧ T'.get? path = some (.value v)) ∨
      ∃ r r', T.get? path = some (.resolver r) ∧ T'.get? path = some (.resolver r') ∧
        ∀ history history' args, r.reply history args = r'.reply history' args := by
  unfold AgreeAt at h
  generalize T.get? path = x at h
  generalize T'.get? path = x' at h
  cases h with
  | none => exact .inl ⟨rfl, rfl⟩
  | @some x x' h =>
    cases x with
    | value v =>
      cases x' with
      | value w =>
        obtain rfl : v = w := h
        exact .inr (.inl ⟨v, rfl, rfl⟩)
      | resolver r' => exact h.elim
    | resolver r =>
      cases x' with
      | value w => exact h.elim
      | resolver r' => exact .inr (.inr ⟨r, r', rfl, rfl, h⟩)

open Script (Tree)

open Script.Tree in
lemma Script.Tree.core_occurs (t : Tree) : t.core.Occurs t := by
  induction t using unparenthesized.induct with
  | case1 s t ih => exact core_parens s t ▸ .part (by simp [parts]) ih
  | case2 t hp =>
    cases t with
    | parens s t => exact absurd rfl (hp s t)
    | chain s t => exact show t.Occurs (chain s t) from .part (by simp [parts]) .refl
    | _ => exact .refl

namespace Evaluation

variable {T T' : BindingTable}

lemma outcome_congr {e e' : Evaluation} {s : Site} (h : T.AgreeAt T' s.path)
    (hs : slots e.outcomes s = slots e'.outcomes s) : outcome T e s = outcome T' e' s := by
  obtain ⟨path, span, form, isObject⟩ := s
  rcases h.cases with ⟨hx, hx'⟩ | ⟨v, hx, hx'⟩ | ⟨r, r', hx, hx', hr⟩
  · cases form <;> simp only [outcome, hx, hx']
  · cases form <;> simp only [outcome, hx, hx']
  · cases form with
    | access => simp only [outcome, hx, hx']
    | call as =>
      have hslots : as.map (slot e.outcomes) = as.map (slot e'.outcomes) := hs
      simp only [outcome, hx, hx', hslots, hr e.history e'.history]

variable (table : BindingTable) (reportUnbound : Bool) (sites : Array Site)

lemma getElem?_outcomes_run (ss : List Site) (k : ℕ) :
    (run table reportUnbound sites ss).outcomes[k]? =
      ss[k]?.map (outcome table (run table reportUnbound sites (ss.take k))) := by
  induction ss using List.reverseRecOn with
  | nil => simp [start]
  | append_singleton ss s ih =>
    have hsize := size_outcomes_run table reportUnbound sites ss
    rw [run_concat, visit_eq]
    rcases lt_trichotomy k ss.length with hk | rfl | hk
    · rw [Array.getElem?_push_lt (hsize.symm ▸ hk), ← Array.getElem?_eq_getElem, ih,
        List.getElem?_append_left hk, List.take_append_of_le_length hk.le]
    · have hpush (xs : Array (Option Literal)) (x : Option Literal) (h : xs.size = ss.length) :
          (xs.push x)[ss.length]? = some x := by
        rw [← h, Array.getElem?_push_size]
      rw [hpush _ _ hsize]
      simp
    · rw [Array.getElem?_eq_none (by simp; omega), List.getElem?_eq_none (by simp; omega)]
      rfl

lemma getElem?_outcomes_take (ss : List Site) {i k : ℕ} (h : i < k) :
    (run table reportUnbound sites (ss.take k)).outcomes[i]? =
      (run table reportUnbound sites ss).outcomes[i]? := by
  rw [getElem?_outcomes_run, getElem?_outcomes_run, List.getElem?_take_of_lt h, List.take_take,
    min_eq_left h.le]

end Evaluation

namespace Analysis

open Evaluation Script.Tree

section Tree

variable {u : Text} {t : Tree} (ht : t.Nested u) {T T' : BindingTable} (reportUnbound : Bool)

include ht

lemma getElem?_outcomesOf_congr {k : ℕ} {s : Site} (hk : (Site.ofTree t)[k]? = some s)
    (h : ∀ s' ∈ Site.ofTree t, s.span.covers s'.span = true → T.AgreeAt T' s'.path) :
    (outcomesOf T reportUnbound (Site.ofTree t))[k]? =
      (outcomesOf T' reportUnbound (Site.ofTree t))[k]? := by
  -- The sites among the arguments of a call come before it and stand inside it.
  induction k using Nat.strong_induction_on generalizing s with
  | _ k ih =>
    have hmem := List.mem_of_getElem? hk
    rw [outcomesOf, outcomesOf, getElem?_outcomes_run, getElem?_outcomes_run, hk]
    refine congrArg some (outcome_congr (h s hmem (by simp)) ?_)
    cases hf : s.form with
    | access => simp only [slots, hf]
    | call as =>
      simp only [slots, hf]
      obtain ⟨callee, types, args, optional, hocc, hpath, hargs⟩ := Site.exists_call ht hk hf
      refine List.map_congr_left fun a ha => ?_
      obtain ⟨j, hj, rfl⟩ := List.getElem_of_mem ha
      have hj' : j < args.length := hargs.length_eq ▸ hj
      have hstands := (List.forall₂_iff_get.mp hargs).2 j hj hj'
      simp only [List.get_eq_getElem] at hstands
      generalize as[j] = x at hstands
      cases x with
      | literal v => rfl
      | other kind span => rfl
      | site i =>
        obtain ⟨hik, s', hi, hspan⟩ := hstands.exists_site
        have harg := (hocc.nested ht).1.inside (c := args[j]) (by simp [parts])
        have hcov : s.span.covers s'.span = true := by
          have hcore := ((core_occurs args[j]).nested ((hocc.nested ht).1.of_mem (by simp [parts]))).2
          exact hspan ▸ Span.covers_trans harg hcore
        have hvalue := ih i hik hi fun s'' hs'' hc => h s'' hs'' (Span.covers_trans hcov hc)
        simp only [slot, Array.getD_eq_getD_getElem?, getElem?_outcomes_take _ _ _ _ hik]
        exact congrArg (·.getD none) hvalue

lemma mem_valuedOf_iff {table : BindingTable} {k : ℕ} {s : Site} (hk : (Site.ofTree t)[k]? = some s)
    {v : Literal} : (s, v) ∈ valuedOf table reportUnbound t ↔
      (outcomesOf table reportUnbound (Site.ofTree t))[k]? = some (some v) := by
  set ss := Site.ofTree t
  rw [valuedOf, Evaluation.valued, List.mem_filterMap]
  constructor
  · rintro ⟨⟨s', o⟩, hm, hv⟩
    obtain ⟨w, rfl, hw⟩ := Option.map_eq_some_iff.mp hv
    cases hw
    obtain ⟨i, hi⟩ := List.mem_iff_getElem?.mp hm
    obtain ⟨hs, ho⟩ := List.getElem?_zip_eq_some.mp hi
    obtain rfl := Site.eq_of_span_eq ht.ordered hs hk rfl
    simpa [outcomesOf] using ho
  · intro h
    refine ⟨(s, some v), List.mem_iff_getElem?.mpr ⟨k, List.getElem?_zip_eq_some.mpr ⟨hk, ?_⟩⟩, rfl⟩
    simpa [outcomesOf] using h

variable {reportUnbound}

lemma mem_edits_of_mem {c : Configuration} (hT' : BindingTable.build c = .ok T') {k : ℕ} {s : Site}
    (hk : (Site.ofTree t)[k]? = some s)
    (hsame : (outcomesOf T reportUnbound (Site.ofTree t))[k]? =
      (outcomesOf T' reportUnbound (Site.ofTree t))[k]?)
    (hcalls : ∀ (i : ℕ) s', (Site.ofTree t)[i]? = some s' → s'.form ≠ .access →
      s'.span.covers s.span = true → (outcomesOf T reportUnbound (Site.ofTree t))[i]? =
        (outcomesOf T' reportUnbound (Site.ofTree t))[i]?)
    {e : Edit} (hspan : e.span = s.span)
    (he : e ∈ (ofSites T reportUnbound (Site.ofTree t)).edits) :
    e ∈ (ofSites T' reportUnbound (Site.ofTree t)).edits := by
  obtain ⟨⟨s₁, v⟩, hx, rfl⟩ := List.mem_map.mp ((edits_perm ht).subset he)
  obtain ⟨hx, hmax⟩ := List.mem_filter.mp hx
  have hs₁ := mem_of_mem_valuedOf hx
  obtain ⟨k₁, hk₁⟩ := List.mem_iff_getElem?.mp hs₁
  obtain rfl := Site.eq_of_span_eq ht.ordered hk₁ hk hspan
  obtain rfl := Option.some.inj (hk₁.symm.trans hk)
  have hx' : (s₁, v) ∈ valuedOf T' reportUnbound t :=
    (mem_valuedOf_iff ht reportUnbound hk).mpr
      (hsame ▸ (mem_valuedOf_iff ht reportUnbound hk).mp hx)
  refine (edits_perm ht).symm.subset (List.mem_map.mpr ⟨(s₁, v), ?_, rfl⟩)
  refine List.mem_filter.mpr ⟨hx', decide_eq_true fun y hy hw => ?_⟩
  have hy' := mem_of_mem_valuedOf hy
  obtain ⟨i, hi⟩ := List.mem_iff_getElem?.mp hy'
  have hform := (Site.exists_argument_of_within ht hT' hs₁ hy' (bound_of_mem_valued _ _ _ hx')
    (bound_of_mem_valued _ _ _ hy) hw).1
  have hvalue := hcalls i y.1 hi hform hw.1
  have hyT : y ∈ valuedOf T reportUnbound t :=
    (mem_valuedOf_iff ht reportUnbound hi).mpr
      (hvalue ▸ (mem_valuedOf_iff ht reportUnbound hi).mp hy)
  exact of_decide_eq_true hmax y hyT hw

end Tree

/-- The value of a site depends on the entries for the paths of the sites inside it, and on nothing
else. If two tables differ in the entry for one path, a site without a site of that path inside has
the same value, and it is edited under both or neither, unless it stands in a call with such a site
inside. -/
theorem outcomesOf_local {T T' : BindingTable} (options : AnalysisOptions) {source : Text} {t : Tree}
    (ht : Script.parse options.dialect options.allowReturn source = some t) :
    let ss := sites options source
    (∀ (k : ℕ) s, ss[k]? = some s →
        (∀ s' ∈ ss, s.span.covers s'.span = true → T.AgreeAt T' s'.path) →
        (outcomesOf T options.reportUnbound ss)[k]? = (outcomesOf T' options.reportUnbound ss)[k]?) ∧
      ∀ c c' path, BindingTable.build c = .ok T → BindingTable.build c' = .ok T' →
        (∀ q, q ≠ path → T.AgreeAt T' q) → ∀ (k : ℕ) s, ss[k]? = some s →
        (∀ s' ∈ ss, s.span.covers s'.span = true → s'.path ≠ path) →
        (outcomesOf T options.reportUnbound ss)[k]? = (outcomesOf T' options.reportUnbound ss)[k]? ∧
        ((∀ call ∈ ss, call.form ≠ .access → call.span.covers s.span = true →
            ∀ s' ∈ ss, call.span.covers s'.span = true → s'.path ≠ path) →
          ∀ e : Edit, e.span = s.span →
            (e ∈ (analyze T options source).edits ↔ e ∈ (analyze T' options source).edits)) := by
  have hn := Script.nested_of_parse ht
  have hread := Option.isSome_iff_exists.mpr ⟨t, ht⟩
  simp only [analyze_eq_ofSites T hread, analyze_eq_ofSites T' hread, sites_eq ht]
  split
  · have hlocal {k : ℕ} {s : Site} (hk : (Site.ofTree t)[k]? = some s)
        (h : ∀ s' ∈ Site.ofTree t, s.span.covers s'.span = true → T.AgreeAt T' s'.path) :=
      getElem?_outcomesOf_congr hn options.reportUnbound hk h
    refine ⟨fun k s hk h => hlocal hk h, fun c c' path hT hT' hagree k s hk hs => ?_⟩
    have hsame := hlocal hk fun s' hs' hc => hagree _ (hs s' hs' hc)
    refine ⟨hsame, fun hcalls e he => ?_⟩
    have hvalue (i : ℕ) (s' : Site) (hi : (Site.ofTree t)[i]? = some s') (hf : s'.form ≠ .access)
        (hc : s'.span.covers s.span = true) := hlocal hi fun s'' hs'' hc' =>
      hagree _ (hcalls s' (List.mem_of_getElem? hi) hf hc s'' hs'' hc')
    constructor
    · exact mem_edits_of_mem hn hT' hk hsame hvalue he
    · exact mem_edits_of_mem hn hT hk hsame.symm
        (fun i s' hi hf hc => (hvalue i s' hi hf hc).symm) he
  · simp

theorem outcomesOf_local_sibling :
    let T : BindingTable := ⟨[("a", .value (.literal .null)), ("b", .value (.literal .null))]⟩
    let T' : BindingTable := ⟨[("b", .value (.literal .null))]⟩
    let options : AnalysisOptions := ⟨.standard, false, false⟩
    let source := "[import.meta.a, import.meta.b]".toList
    ∀ e : Edit, e.span = ⟨16, 29⟩ →
      (e ∈ (analyze T options source).edits ↔ e ∈ (analyze T' options source).edits) := by
  intro T T' options source
  have hT : BindingTable.build ⟨#[[("a", .literal .null), ("b", .literal .null)]], 0⟩ = .ok T := rfl
  have hT' : BindingTable.build ⟨#[[("b", .literal .null)]], 0⟩ = .ok T' := rfl
  have hagree (q : String) (hq : q ≠ "a") : T.AgreeAt T' q := by
    by_cases hb : q = "b"
    · subst hb
      exact .some rfl
    · have hqa : (q == "a") = false := beq_false_of_ne hq
      have hqb : (q == "b") = false := beq_false_of_ne hb
      have hget : T.get? q = none := by simp [T, BindingTable.get?, List.lookup_cons, hqa, hqb]
      have hget' : T'.get? q = none := by simp [T', BindingTable.get?, List.lookup_cons, hqb]
      rw [BindingTable.AgreeAt, hget, hget']
      exact .none
  have hparse : (Script.parse options.dialect options.allowReturn source).isSome = true := by
    decide +kernel
  obtain ⟨t, ht⟩ := Option.isSome_iff_exists.mp hparse
  have hsite : (sites options source)[1]? = some ⟨"b", ⟨16, 29⟩, .access, false⟩ := by
    decide +kernel
  exact ((outcomesOf_local options ht).2 _ _ "a" hT hT' hagree 1 _ hsite (by decide +kernel)).2
    (by decide +kernel)

end Analysis
end MetaInline
