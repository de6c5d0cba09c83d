import Mathlib
import MetaInline.Module.Transformer
import MetaInline.Proofs.Analysis.Invocation
import MetaInline.Proofs.Document.ScriptElement
import MetaInline.Proofs.Text.Bytes

namespace MetaInline

variable {table : BindingTable} {target : Target}

namespace Target

def IsFree (target : Target) (table : BindingTable) : Prop :=
  ∀ name ∈ target.reserved, name ∉ table.entries.map (·.1)

end Target

structure ReservedNames.Lists (e : ReservedNames) (target : Target) (table : BindingTable) : Prop where
  nonempty : e.violations ≠ []
  environment : ∀ v ∈ e.violations, v.environment = target.environment
  perm : (e.violations.map (·.property)).Perm
    ((table.entries.map (·.1)).filter target.reserved.contains)
  sorted : (e.violations.map (·.property)).Pairwise fun a b =>
    Text.bytes a.toList ≤ Text.bytes b.toList

namespace BindingTable

lemma keys_perm (table : BindingTable) : table.keys.Perm (table.entries.map (·.1)) :=
  (List.mergeSort_perm ..).map _

lemma pairwise_keys (table : BindingTable) : table.keys.Pairwise (· ≤ ·) := by
  rw [keys, List.pairwise_map]
  refine (List.pairwise_mergeSort (fun a b c hab hbc => ?_) (fun a b => ?_) _).imp fun h =>
    of_decide_eq_true h
  · exact decide_eq_true ((of_decide_eq_true hab).trans (of_decide_eq_true hbc))
  · simpa using le_total a.1 b.1

lemma isSome_get?_iff_mem {path : String} :
    (table.get? path).isSome = true ↔ path ∈ table.entries.map (·.1) := by
  rw [get?, List.lookup_isSome_iff, List.mem_map]
  constructor
  · rintro ⟨e, he, hpath⟩
    exact ⟨e, he, (beq_iff_eq.mp hpath).symm⟩
  · rintro ⟨e, he, rfl⟩
    exact ⟨e, he, beq_self_eq_true _⟩

end BindingTable

namespace Target

def collisions (target : Target) (table : BindingTable) : List String :=
  table.keys.filter target.reserved.contains

lemma isFree_iff : target.IsFree table ↔ target.collisions table = [] := by
  rw [collisions, List.filter_eq_nil_iff, IsFree]
  constructor
  · intro h name hname hmem
    exact h name (List.contains_iff_mem.mp hmem) (table.keys_perm.subset hname)
  · intro h name hname hmem
    exact h name (table.keys_perm.symm.subset hmem) (List.contains_iff_mem.mpr hname)

lemma bytes_le_of_le {a b : String} (ha : a ∈ target.reserved) (hb : b ∈ target.reserved)
    (h : a ≤ b) : Text.bytes a.toList ≤ Text.bytes b.toList := by
  have hall : (all.all fun target => target.reserved.all fun a => target.reserved.all fun b =>
      !decide (a ≤ b) || decide (Text.bytes a.toList ≤ Text.bytes b.toList)) = true := by
    decide +kernel
  have hmem : target ∈ all := by cases target <;> decide
  have hab := List.all_eq_true.mp (List.all_eq_true.mp (List.all_eq_true.mp hall _ hmem) a ha) b hb
  simpa [h] using hab

lemma checkTable_eq (target : Target) (table : BindingTable) :
    target.checkTable table = if target.collisions table = [] then .ok ()
      else .error ⟨(target.collisions table).map fun p => ⟨target.environment, p⟩⟩ := by
  rw [checkTable, checkPaths, collisions]
  split
  · next h => rw [if_pos h]
  · next h => rw [if_neg h]

lemma checkTable_eq_ok_iff : target.checkTable table = .ok () ↔ target.IsFree table := by
  rw [isFree_iff, checkTable_eq]
  split <;> simp_all

lemma lists_of_checkTable {e : ReservedNames} (h : target.checkTable table = .error e) :
    e.Lists target table := by
  rw [checkTable_eq] at h
  split at h
  · cases h
  · next hne =>
    cases h
    have hproperty : ((target.collisions table).map
        fun p => (⟨target.environment, p⟩ : ReservedName)).map (·.property) =
          target.collisions table := by
      simp [Function.comp_def]
    constructor
    · simpa using hne
    · intro v hv
      obtain ⟨p, -, rfl⟩ := List.mem_map.mp hv
      rfl
    · rw [hproperty]
      exact table.keys_perm.filter _
    · rw [hproperty]
      refine (table.pairwise_keys.filter _).imp_of_mem fun {a b} ha hb hab => ?_
      exact bytes_le_of_le (List.contains_iff_mem.mp (List.mem_filter.mp ha).2)
        (List.contains_iff_mem.mp (List.mem_filter.mp hb).2) hab

end Target

namespace Options

def reservers (options : Options) : List Target :=
  .wintertc :: options.targets

end Options

namespace Transformer

variable {options : Options} {targets : List Target}

def checkAll (table : BindingTable) (targets : List Target) : Except SetupError Unit :=
  targets.forM fun target => (target.checkTable table).mapError .reserved

lemma checkAll_cons (table : BindingTable) (target : Target) (targets : List Target) :
    checkAll table (target :: targets) =
      (target.checkTable table).mapError .reserved >>= fun _ => checkAll table targets := rfl

lemma ofTable_eq (table : BindingTable) (options : Options) : ofTable table options = do
    checkAll table options.reservers
    let filter ← (Filter.ofPatterns options.includes options.excludes).mapError .pattern
    return ⟨table, filter, options⟩ := by
  rw [Options.reservers, checkAll_cons, ofTable]
  cases Target.wintertc.checkTable table <;> rfl

lemma checkAll_eq_ok_iff :
    checkAll table targets = .ok () ↔ ∀ target ∈ targets, target.IsFree table := by
  induction targets with
  | nil => simp [checkAll, List.forM]; rfl
  | cons target targets ih =>
    rw [checkAll_cons, List.forall_mem_cons, ← ih, ← Target.checkTable_eq_ok_iff]
    cases target.checkTable table with
    | error e => simp [Except.mapError, bind, Except.bind]
    | ok _ => simp [Except.mapError, bind, Except.bind]

lemma exists_of_checkAll {e : SetupError} (h : checkAll table targets = .error e) :
    ∃ before target after names, targets = before ++ target :: after ∧
      (∀ t ∈ before, t.IsFree table) ∧ e = .reserved names ∧ names.Lists target table := by
  induction targets with
  | nil => cases h
  | cons target targets ih =>
    rw [checkAll_cons] at h
    cases hcheck : target.checkTable table with
    | error names =>
      rw [hcheck] at h
      cases h
      exact ⟨[], target, targets, names, rfl, by simp, rfl, Target.lists_of_checkTable hcheck⟩
    | ok _ =>
      rw [hcheck] at h
      obtain ⟨before, t, after, names, rfl, hbefore, hrest⟩ := ih h
      refine ⟨target :: before, t, after, names, rfl, ?_, hrest⟩
      exact List.forall_mem_cons.mpr ⟨Target.checkTable_eq_ok_iff.mp hcheck, hbefore⟩

lemma ofTable_eq_ok {t : Transformer} (h : ofTable table options = .ok t) :
    (∀ target ∈ options.reservers, target.IsFree table) ∧ t.table = table ∧ t.options = options := by
  rw [ofTable_eq] at h
  cases hcheck : checkAll table options.reservers with
  | error e =>
    rw [hcheck] at h
    cases h
  | ok _ =>
    rw [hcheck] at h
    refine ⟨checkAll_eq_ok_iff.mp hcheck, ?_⟩
    cases hfilter : Filter.ofPatterns options.includes options.excludes with
    | error e =>
      rw [hfilter] at h
      cases h
    | ok filter =>
      rw [hfilter] at h
      cases h
      exact ⟨rfl, rfl⟩

lemma ofTable_eq_reserved_iff {names : ReservedNames} :
    ofTable table options = .error (.reserved names) ↔
      checkAll table options.reservers = .error (.reserved names) := by
  rw [ofTable_eq]
  cases checkAll table options.reservers with
  | error e => simp [bind, Except.bind]
  | ok _ =>
    cases Filter.ofPatterns options.includes options.excludes <;>
      simp [bind, Except.bind, Except.mapError, pure, Except.pure]

end Transformer

lemma Span.shift_injective (n : ℕ) : Function.Injective (Span.shift n) := by
  intro s t h
  rw [Span.shift, Span.shift, Span.mk.injEq, Nat.add_right_cancel_iff, Nat.add_right_cancel_iff] at h
  cases s
  cases t
  simpa using h

namespace Analysis

variable {options : AnalysisOptions} {source : Text}

lemma exists_of_mem_sites {s : Site} (h : s ∈ sites options source) :
    ∃ t, Script.parse options.dialect options.allowReturn source = some t ∧ s ∈ Site.ofTree t := by
  rw [sites] at h
  split at h
  · cases ht : Script.parse options.dialect options.allowReturn source with
    | none => simp [ht] at h
    | some t => exact ⟨t, rfl, by simpa [ht] using h⟩
  · cases h

lemma eq_of_mem_sites {s s' : Site} (h : s ∈ sites options source) (h' : s' ∈ sites options source)
    (hspan : s.span = s'.span) : s = s' := by
  obtain ⟨t, ht, hs⟩ := exists_of_mem_sites h
  obtain ⟨t', ht', hs'⟩ := exists_of_mem_sites h'
  obtain rfl := Option.some.inj (ht.symm.trans ht')
  obtain ⟨i, hi⟩ := List.mem_iff_getElem?.mp hs
  obtain ⟨j, hj⟩ := List.mem_iff_getElem?.mp hs'
  obtain rfl := Site.eq_of_span_eq (Script.nested_of_parse ht).ordered hi hj hspan
  exact Option.some.inj (hi.symm.trans hj)

lemma exists_site_of_mem_edits {e : Edit} (h : e ∈ (analyze table options source).edits) :
    ∃ s ∈ sites options source, e.span = s.span ∧ (table.get? s.path).isSome = true := by
  cases ht : Script.parse options.dialect options.allowReturn source with
  | none =>
    rw [edits_eq_nil_of_parse table ht] at h
    cases h
  | some t =>
    rw [analyze_eq_ofSites table (Option.isSome_iff_exists.mpr ⟨t, ht⟩), sites_eq ht] at h
    rw [sites_eq ht]
    split at h
    · next hmentions =>
      obtain ⟨x, hx, rfl⟩ := exists_of_mem_edits (Script.nested_of_parse ht) h
      rw [if_pos hmentions]
      exact ⟨x.1, mem_of_mem_valuedOf hx, rfl, Evaluation.bound_of_mem_valued _ _ _ hx⟩
    · simp [ofSites_nil, empty] at h

end Analysis

namespace Transformer

lemma regions_scan (language : Language) (id code : Text) :
    (∀ r ∈ (scan language id code).regions, r.span.IsIn code) ∧
      (scan language id code).regions.Pairwise fun a b => a.span.stop ≤ b.span.start := by
  have hcomponent := Component.fits_scan code
  have hastro := Astro.fits_scan code
  cases language with
  | ecma =>
    refine ⟨fun r hr => ?_, List.pairwise_singleton ..⟩
    obtain rfl := List.mem_singleton.mp hr
    exact ⟨Nat.zero_le _, Text.isBoundary_zero code, Text.isBoundary_size code⟩
  | vue => exact ⟨hcomponent.isIn, hcomponent.sorted⟩
  | svelte => exact ⟨hcomponent.isIn, hcomponent.sorted⟩
  | astro => exact ⟨hastro.isIn, hastro.sorted⟩

lemma eq_of_shift_eq {language : Language} {id code : Text} {options : AnalysisOptions} {r r' : Region}
    {s s' : Site} (hr : r ∈ (scan language id code).regions) (hr' : r' ∈ (scan language id code).regions)
    (hs : s ∈ Analysis.sites (r.options options) (r.text code))
    (hs' : s' ∈ Analysis.sites (r'.options options) (r'.text code))
    (hspan : s.span.shift r.span.start = s'.span.shift r'.span.start) : s = s' := by
  obtain ⟨hin, hpair⟩ := regions_scan language id code
  have hplace : ∀ {r : Region} {s : Site}, r ∈ (scan language id code).regions →
      s ∈ Analysis.sites (r.options options) (r.text code) →
        r.span.covers (s.span.shift r.span.start) = true ∧ s.span.start < s.span.stop := by
    intro r s hr hs
    obtain ⟨t, ht, hs⟩ := Analysis.exists_of_mem_sites hs
    obtain ⟨hsin, hlt⟩ := Site.isIn_of_mem (Script.nested_of_parse ht) hs
    exact ⟨(Region.isIn_shift (hin r hr) hsin).2, hlt⟩
  obtain ⟨hcovers, hlt⟩ := hplace hr hs
  obtain ⟨hcovers', -⟩ := hplace hr' hs'
  by_cases hne : r = r'
  · subst hne
    exact Analysis.eq_of_mem_sites hs hs' (Span.shift_injective _ hspan)
  · rw [← hspan] at hcovers'
    simp only [Span.covers_iff, Span.shift_start, Span.shift_stop] at hcovers hcovers'
    rcases pairwise_or_of_mem hpair hr hr' hne with h | h <;> omega

lemma exists_language_of_output {t : Transformer} {id : String} {code : Text} {out : Output}
    (h : (t.transform id code).output = some out) : ∃ language,
      Module.language? id.toList = some language ∧ out.code = String.ofList (Edit.applyAll code
        (Analysis.ofScan code (scan language id.toList code) t.table t.analysisOptions).edits) := by
  rw [transform] at h
  split at h
  · split at h
    · cases h
    · next language hlanguage =>
      cases h
      exact ⟨language, hlanguage, rfl⟩
  · cases h

lemma exists_site_of_mem_edits {language : Language} {id code : Text} {options : AnalysisOptions}
    {e : Edit} (h : e ∈ (Analysis.ofScan code (scan language id code) table options).edits) :
    ∃ r ∈ (scan language id code).regions, ∃ s ∈ Analysis.sites (r.options options) (r.text code),
      e.span = s.span.shift r.span.start ∧ s.path ∈ table.entries.map (·.1) := by
  obtain ⟨r, hr, calls, he⟩ := Analysis.exists_of_mem_edits_ofRegions h
  obtain ⟨e, hedit, rfl⟩ := List.mem_map.mp he
  obtain ⟨s, hs, hspan, hbound⟩ := Analysis.exists_site_of_mem_edits hedit
  rw [BindingTable.get?_after, Option.isSome_map] at hbound
  exact ⟨r, hr, s, hs, congrArg (Span.shift r.span.start) hspan,
    BindingTable.isSome_get?_iff_mem.mp hbound⟩

/-- The names of a target are refused, if one of them is bound, with all that are bound of the first such
target. A transformer of other bindings edits no site of such a name, in whatever module. -/
theorem ofTable_reserved (table : BindingTable) (options : Options) :
    ((∀ names, ofTable table options ≠ .error (.reserved names)) ↔
        ∀ target ∈ options.reservers, target.IsFree table) ∧
      (∀ names, ofTable table options = .error (.reserved names) →
        ∃ before target after, options.reservers = before ++ target :: after ∧
          (∀ t ∈ before, t.IsFree table) ∧ names.Lists target table) ∧
      ∀ t, ofTable table options = .ok t → ∀ id code out, (t.transform id code).output = some out →
        ∃ language, Module.language? id.toList = some language ∧
          let regions := (scan language id.toList code).regions
          let sites := fun r : Region => Analysis.sites (r.options t.analysisOptions) (r.text code)
          let analysis := Analysis.ofScan code (scan language id.toList code) t.table t.analysisOptions
          out.code = String.ofList (Edit.applyAll code analysis.edits) ∧
          ∀ e ∈ analysis.edits,
            (∃ r ∈ regions, ∃ s ∈ sites r, e.span = s.span.shift r.span.start) ∧
            ∀ r ∈ regions, ∀ s ∈ sites r, e.span = s.span.shift r.span.start →
              ∀ target ∈ options.reservers, s.path ∉ target.reserved := by
  refine ⟨⟨fun h => ?_, fun h names herror => ?_⟩, fun names herror => ?_,
    fun t ht id code out hout => ?_⟩
  · cases hcheck : checkAll table options.reservers with
    | ok _ => exact checkAll_eq_ok_iff.mp hcheck
    | error e =>
      obtain ⟨-, -, -, names, -, -, rfl, -⟩ := exists_of_checkAll hcheck
      exact absurd (ofTable_eq_reserved_iff.mpr hcheck) (h names)
  · have hcheck := ofTable_eq_reserved_iff.mp herror
    rw [checkAll_eq_ok_iff.mpr h] at hcheck
    cases hcheck
  · obtain ⟨before, target, after, names', hsplit, hbefore, heq, hlists⟩ :=
      exists_of_checkAll (ofTable_eq_reserved_iff.mp herror)
    cases heq
    exact ⟨before, target, after, hsplit, hbefore, hlists⟩
  · obtain ⟨hfree, htable, -⟩ := ofTable_eq_ok ht
    obtain ⟨language, hlanguage, hcode⟩ := exists_language_of_output hout
    refine ⟨language, hlanguage, hcode, fun e he => ?_⟩
    obtain ⟨r, hr, s, hs, hspan, hbound⟩ := exists_site_of_mem_edits he
    refine ⟨⟨r, hr, s, hs, hspan⟩, fun r' hr' s' hs' hspan' target htarget hname => ?_⟩
    obtain rfl := eq_of_shift_eq hr hr' hs hs' (hspan.symm.trans hspan')
    exact hfree target htarget _ hname (htable ▸ hbound)

theorem ofTable_reserved_nested :
    let table : BindingTable := ⟨[("env.a", .value (.literal .null))]⟩
    let options : Options := { Options.default with targets := [.vite] }
    let id := "a.js".toList
    let code := "import.meta.env.a".toList
    ∃ t out, ofTable table options = .ok t ∧ (t.transform "a.js" code).output = some out ∧
      out.code = "null" ∧ ∃ language, Module.language? id = some language ∧
        ∀ e ∈ (Analysis.ofScan code (scan language id code) t.table t.analysisOptions).edits,
          ∀ r ∈ (scan language id code).regions,
            ∀ s ∈ Analysis.sites (r.options t.analysisOptions) (r.text code),
              e.span = s.span.shift r.span.start → s.path ∉ Target.vite.reserved := by
  intro table options id code
  have hrun : ((ofTable table options).toOption.bind fun t =>
      (t.transform "a.js" code).output.map (·.code)) = some "null" := by
    decide +kernel
  obtain ⟨t, ht, hrun⟩ := Option.bind_eq_some_iff.mp hrun
  obtain ⟨out, hout, hcode⟩ := Option.map_eq_some_iff.mp hrun
  have hok : ofTable table options = .ok t := by
    cases h : ofTable table options with
    | error e => simp [h, Except.toOption] at ht
    | ok t' => simpa [h, Except.toOption] using ht
  obtain ⟨language, hlanguage, -, hedits⟩ := (ofTable_reserved table options).2.2 t hok _ _ _ hout
  refine ⟨t, out, hok, hout, hcode, language, hlanguage, fun e he r hr s hs hspan => ?_⟩
  exact (hedits e he).2 r hr s hs hspan .vite (by simp [options, Options.reservers])

end Transformer
end MetaInline
