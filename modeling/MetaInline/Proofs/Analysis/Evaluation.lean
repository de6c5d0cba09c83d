import Mathlib
import MetaInline.Analysis.Basic

/-! What an evaluation finds. The visit of a site adds one outcome, at most one edit and at most one
call of a resolver, and the values that a call is given are the outcomes of the sites before it. -/

namespace MetaInline

def SiteForm.RefersBelow (n : ℕ) : SiteForm → Prop
  | .access => True
  | .call as => ∀ i, .site i ∈ as → i < n

namespace Evaluation

variable (table : BindingTable) (reportUnbound : Bool) (sites : Array Site)

def slot (outcomes : Array (Option Literal)) : Argument → Option Literal
  | .literal v => some v
  | .site i => outcomes.getD i none
  | .other .. => none

def refusal : Argument → String × Span
  | .other kind span => (kind, span)
  | .site i =>
    match sites[i]? with
    | some ⟨_, span, .access, _⟩ => ("MemberExpression", span)
    | some ⟨_, span, .call _, _⟩ => ("CallExpression", span)
    | none => ("Expression", ⟨0, 0⟩)
  | .literal _ => ("Expression", ⟨0, 0⟩)

lemma argument_eq (e : Evaluation) (a : Argument) :
    e.argument sites a = match slot e.outcomes a with
      | some v => .ok v
      | none => .error (refusal sites a) := by
  cases a with
  | literal v => rfl
  | other kind span => rfl
  | site i =>
    cases ho : e.outcomes.getD i none with
    | some v => simp only [argument, slot, ho]
    | none =>
      cases hs : sites[i]? with
      | none => simp only [argument, slot, refusal, ho, hs]
      | some s => obtain ⟨_, _, _ | _, _⟩ := s <;> simp only [argument, slot, refusal, ho, hs]

def refusals (outcomes : Array (Option Literal)) (path : String) : ℕ → List Argument → List Diagnostic
  | _, [] => []
  | index, a :: as =>
    match slot outcomes a with
    | some _ => refusals outcomes path (index + 1) as
    | none => (Problem.argumentNoLiteral path index (refusal sites a).1).report (refusal sites a).2 ::
        refusals outcomes path (index + 1) as

def tellAll (e : Evaluation) (ds : List Diagnostic) : Evaluation :=
  { e with problems := (ds.map (none, ·)).reverse ++ e.problems }

@[simp] lemma tellAll_nil (e : Evaluation) : e.tellAll [] = e := rfl

lemma tellAll_cons (e : Evaluation) (span : Span) (p : Problem) (ds : List Diagnostic) :
    (e.tell span p).tellAll ds = e.tellAll (p.report span :: ds) := by
  simp [tellAll, tell]

lemma arguments_eq (path : String) (index : ℕ) (as : List Argument) (e : Evaluation) :
    arguments sites path index as e =
      (as.map (slot e.outcomes), e.tellAll (refusals sites e.outcomes path index as)) := by
  induction as generalizing index e with
  | nil => rfl
  | cons a as ih =>
    cases hs : slot e.outcomes a with
    | some v => simp only [arguments, argument_eq, hs, ih, refusals, List.map_cons]
    | none =>
      simp only [arguments, argument_eq, hs, ih, refusals, List.map_cons, tellAll_cons]
      rfl

def resolver? (site : Site) : Option Resolver :=
  match site.form, table.get? site.path with
  | .call _, some (.resolver r) => some r
  | _, _ => none

def slots (outcomes : Array (Option Literal)) (site : Site) : List (Option Literal) :=
  match site.form with
  | .access => []
  | .call as => as.map (slot outcomes)

def invocation? (outcomes : Array (Option Literal)) (site : Site) : Option Invocation :=
  (resolver? table site).map fun r => ⟨r.name, slots outcomes site⟩

def outcome (e : Evaluation) (site : Site) : Option Literal :=
  match site.form, table.get? site.path with
  | .access, some (.value value) => value.literal?
  | .call as, some (.resolver r) =>
    match r.reply e.history (as.map (slot e.outcomes)) with
    | .ok value => value.literal?
    | .error _ => none
  | _, _ => none

def editOf (site : Site) (v : Literal) : Edit :=
  ⟨site.span, String.ofList (replacement v site.isObject)⟩

def siteRefusals (outcomes : Array (Option Literal)) (site : Site) : List Diagnostic :=
  match site.form, resolver? table site with
  | .call as, some _ => refusals sites outcomes site.path 0 as
  | _, _ => []

/-- The report on a site itself: its value or reply is no literal, it stands for a function that is
not called, or it is not bound. -/
def verdict (e : Evaluation) (site : Site) : Option (Option Site × Problem) :=
  match site.form, table.get? site.path with
  | .access, some (.value value) =>
    if value.literal?.isSome then none
    else some (none, .boundToNoLiteral site.path value.typeName)
  | .access, some (.resolver _) => some (none, .notCalled site.path)
  | .call as, some (.resolver r) =>
    match r.reply e.history (as.map (slot e.outcomes)) with
    | .ok value =>
      if value.literal?.isSome then none
      else some (none, .returnedNoLiteral site.path value.typeName)
    | .error failure => some (none, .resolverFailed site.path failure.message)
  | .call _, some (.value _) => none
  | .access, none => if reportUnbound then some (some site, .unbound .property site.path) else none
  | .call _, none => if reportUnbound then some (some site, .unbound .method site.path) else none

def told (e : Evaluation) (site : Site) : List (Option Site × Diagnostic) :=
  (siteRefusals table sites e.outcomes site).map (none, ·) ++
    ((verdict table reportUnbound e site).map fun (s, p) => (s, p.report site.span)).toList

lemma record_eq (e : Evaluation) (site : Site) (value : Value) (p : Problem) :
    e.record site value p =
      ⟨e.outcomes.push value.literal?, (value.literal?.map (editOf site)).toList ++ e.edits,
        (if value.literal?.isSome then [] else [(none, p.report site.span)]) ++ e.problems,
        e.history⟩ := by
  cases h : value.literal? <;> simp [record, h, editOf, tell]

theorem visit_eq (e : Evaluation) (site : Site) :
    visit table reportUnbound sites e site =
      ⟨e.outcomes.push (outcome table e site),
        ((outcome table e site).map (editOf site)).toList ++ e.edits,
        (told table reportUnbound sites e site).reverse ++ e.problems,
        (invocation? table e.outcomes site).toList ++ e.history⟩ := by
  obtain ⟨path, span, form, isObject⟩ := site
  cases form with
  | access =>
    cases hp : table.get? path with
    | none =>
      cases reportUnbound <;>
        simp [visit, hp, outcome, told, siteRefusals, verdict, invocation?, resolver?, skip]
    | some entry =>
      cases entry with
      | value v =>
        cases hv : v.literal? <;>
          simp [visit, hp, outcome, told, siteRefusals, verdict, invocation?, resolver?, record_eq, hv]
      | resolver r =>
        simp [visit, hp, outcome, told, siteRefusals, verdict, invocation?, resolver?, skip, tell]
  | call as =>
    cases hp : table.get? path with
    | none =>
      cases reportUnbound <;>
        simp [visit, hp, outcome, told, siteRefusals, verdict, invocation?, resolver?, skip]
    | some entry =>
      cases entry with
      | value v =>
        simp [visit, hp, outcome, told, siteRefusals, verdict, invocation?, resolver?, skip]
      | resolver r =>
        cases hr : r.reply e.history (as.map (slot e.outcomes)) with
        | error failure =>
          simp [visit, hp, outcome, told, siteRefusals, verdict, invocation?, resolver?, slots,
            arguments_eq, call, tellAll, hr, skip, tell]
        | ok v =>
          cases hv : v.literal? <;>
            simp [visit, hp, outcome, told, siteRefusals, verdict, invocation?, resolver?, slots,
              arguments_eq, call, tellAll, hr, record_eq, hv]

def run (ss : List Site) : Evaluation :=
  ss.foldl (visit table reportUnbound sites) .start

@[simp] lemma run_nil : run table reportUnbound sites [] = .start := rfl

@[simp] lemma run_concat (ss : List Site) (s : Site) :
    run table reportUnbound sites (ss ++ [s]) =
      visit table reportUnbound sites (run table reportUnbound sites ss) s := by
  simp [run]

@[simp] lemma size_outcomes_run (ss : List Site) :
    (run table reportUnbound sites ss).outcomes.size = ss.length := by
  induction ss using List.reverseRecOn with
  | nil => rfl
  | append_singleton ss s ih => simp [visit_eq, ih]

theorem edits_run (ss : List Site) :
    (run table reportUnbound sites ss).edits.reverse =
      (ss.zip (run table reportUnbound sites ss).outcomes.toList).filterMap
        fun x => x.2.map (editOf x.1) := by
  induction ss using List.reverseRecOn with
  | nil => rfl
  | append_singleton ss s ih =>
    have hl : ss.length = (run table reportUnbound sites ss).outcomes.toList.length := by simp
    rw [run_concat, visit_eq]
    simp only [List.reverse_append, Array.toList_push, List.zip_append hl, List.filterMap_append, ih]
    cases outcome table (run table reportUnbound sites ss) s <;> rfl

lemma slot_push {outcomes : Array (Option Literal)} {a : Argument}
    (h : ∀ i, a = .site i → i < outcomes.size) (o : Option Literal) :
    slot (outcomes.push o) a = slot outcomes a := by
  cases a with
  | literal v => rfl
  | other kind span => rfl
  | site i => simp [slot, Array.getD_eq_getD_getElem?, Array.getElem?_push_lt (h i rfl), h i rfl]

lemma slots_push {outcomes : Array (Option Literal)} {s : Site}
    (h : s.form.RefersBelow outcomes.size) (o : Option Literal) :
    slots (outcomes.push o) s = slots outcomes s := by
  obtain ⟨_, _, _ | as, _⟩ := s
  · rfl
  · exact List.map_congr_left fun a ha => slot_push (fun i e => h i (e ▸ ha)) o

lemma refusals_push {outcomes : Array (Option Literal)} {path : String} {as : List Argument}
    (h : ∀ i, .site i ∈ as → i < outcomes.size) (o : Option Literal) (index : ℕ) :
    refusals sites (outcomes.push o) path index as = refusals sites outcomes path index as := by
  induction as generalizing index with
  | nil => rfl
  | cons a as ih =>
    have ha := slot_push (fun i e => h i (e ▸ List.mem_cons_self)) o
    have has := ih fun i hi => h i (List.mem_cons_of_mem _ hi)
    simp only [refusals, ha, has]

lemma siteRefusals_push {outcomes : Array (Option Literal)} {s : Site}
    (h : s.form.RefersBelow outcomes.size) (o : Option Literal) :
    siteRefusals table sites (outcomes.push o) s = siteRefusals table sites outcomes s := by
  obtain ⟨path, span, _ | as, isObject⟩ := s
  · rfl
  · cases hr : resolver? table ⟨path, span, .call as, isObject⟩ with
    | none => simp only [siteRefusals, hr]
    | some r => simp only [siteRefusals, hr, refusals_push sites h]

def RefersBack (ss : List Site) : Prop :=
  ∀ k (h : k < ss.length), ss[k].form.RefersBelow k

lemma RefersBack.of_concat {ss : List Site} {s : Site} (h : RefersBack (ss ++ [s])) :
    RefersBack ss ∧ s.form.RefersBelow ss.length := by
  constructor
  · intro k hk
    have := h k (by simp; omega)
    rwa [List.getElem_append_left hk] at this
  · have := h ss.length (by simp)
    simpa using this

lemma RefersBelow.mono {f : SiteForm} {m n : ℕ} (h : f.RefersBelow m) (hmn : m ≤ n) :
    f.RefersBelow n := by
  cases f with
  | access => trivial
  | call as => exact fun i hi => (h i hi).trans_le hmn

lemma RefersBack.mem {ss : List Site} (h : RefersBack ss) {s : Site} (hs : s ∈ ss) :
    s.form.RefersBelow ss.length := by
  obtain ⟨k, hk, rfl⟩ := List.getElem_of_mem hs
  exact RefersBelow.mono (h k hk) hk.le

theorem history_run {ss : List Site} (h : RefersBack ss) :
    (run table reportUnbound sites ss).history.reverse =
      ss.filterMap (invocation? table (run table reportUnbound sites ss).outcomes) := by
  induction ss using List.reverseRecOn with
  | nil => rfl
  | append_singleton ss s ih =>
    obtain ⟨hss, hs⟩ := RefersBack.of_concat h
    set e := run table reportUnbound sites ss with he
    have hsize : e.outcomes.size = ss.length := size_outcomes_run ..
    have hold : ss.filterMap (invocation? table (e.outcomes.push (outcome table e s))) =
        ss.filterMap (invocation? table e.outcomes) := by
      refine List.filterMap_congr fun s' hs' => ?_
      rw [invocation?, invocation?, slots_push (hsize ▸ hss.mem hs')]
    have hnew : invocation? table (e.outcomes.push (outcome table e s)) s =
        invocation? table e.outcomes s := by
      rw [invocation?, invocation?, slots_push (hsize ▸ hs)]
    rw [run_concat, visit_eq]
    simp only [← he, List.reverse_append, List.filterMap_append, hold, ih hss, List.filterMap_cons,
      List.filterMap_nil, hnew]
    cases invocation? table e.outcomes s <;> rfl

def isRefusal (d : Diagnostic) : Bool :=
  d.code == "IM-NON-LITERAL-ARG"

lemma isRefusal_report (p : Problem) (span : Span) :
    isRefusal (p.report span) = match p with
      | .argumentNoLiteral .. => true
      | _ => false := by
  cases p <;> simp [isRefusal, Problem.report, Problem.code, Diagnostic.parseCode]

lemma isRefusal_of_mem {outcomes : Array (Option Literal)} {path : String} {index : ℕ}
    {as : List Argument} {d : Diagnostic} (h : d ∈ refusals sites outcomes path index as) :
    isRefusal d = true := by
  induction as generalizing index with
  | nil => simp [refusals] at h
  | cons a as ih =>
    cases hs : slot outcomes a with
    | some v => exact ih (by simpa only [refusals, hs] using h)
    | none =>
      rw [refusals, hs] at h
      rcases List.mem_cons.mp h with rfl | h
      · simp [isRefusal_report]
      · exact ih h

lemma isRefusal_of_mem_site {outcomes : Array (Option Literal)} {s : Site} {d : Diagnostic}
    (h : d ∈ siteRefusals table sites outcomes s) : isRefusal d = true := by
  unfold siteRefusals at h
  split at h
  · exact isRefusal_of_mem sites h
  · simp at h

lemma not_isRefusal_verdict {e : Evaluation} {s : Site} {x : Option Site × Problem}
    (h : verdict table reportUnbound e s = some x) (span : Span) :
    isRefusal (x.2.report span) = false := by
  unfold verdict at h
  repeat' split at h
  all_goals cases h
  all_goals exact isRefusal_report _ _

lemma filter_told (e : Evaluation) (s : Site) :
    (told table reportUnbound sites e s).filter (fun x => isRefusal x.2) =
      (siteRefusals table sites e.outcomes s).map (none, ·) := by
  have hall : ∀ x ∈ (siteRefusals table sites e.outcomes s).map ((none : Option Site), ·),
      isRefusal x.2 = true := by
    rintro _ hx
    obtain ⟨d, hd, rfl⟩ := List.mem_map.mp hx
    exact isRefusal_of_mem_site table sites hd
  rw [told, List.filter_append, List.filter_eq_self.mpr hall]
  cases hv : verdict table reportUnbound e s with
  | none => simp
  | some x => simp [not_isRefusal_verdict table reportUnbound hv]

theorem refusals_run {ss : List Site} (h : RefersBack ss) :
    (run table reportUnbound sites ss).problems.reverse.filter (fun x => isRefusal x.2) =
      (ss.flatMap (siteRefusals table sites (run table reportUnbound sites ss).outcomes)).map
        (none, ·) := by
  induction ss using List.reverseRecOn with
  | nil => rfl
  | append_singleton ss s ih =>
    obtain ⟨hss, hs⟩ := RefersBack.of_concat h
    set e := run table reportUnbound sites ss with he
    have hsize : e.outcomes.size = ss.length := size_outcomes_run ..
    have hold : ss.flatMap (siteRefusals table sites (e.outcomes.push (outcome table e s))) =
        ss.flatMap (siteRefusals table sites e.outcomes) := by
      refine List.flatMap_congr fun s' hs' => ?_
      exact siteRefusals_push table sites (hsize ▸ hss.mem hs') _
    have hnew := siteRefusals_push table sites (hsize ▸ hs) (outcome table e s)
    rw [run_concat, visit_eq]
    simp only [← he, List.reverse_append, List.reverse_reverse, List.filter_append, ih hss,
      filter_told, List.flatMap_append, hold, List.flatMap_singleton, hnew, List.map_append]

lemma span_of_mem_refusals {outcomes : Array (Option Literal)} {path : String} {index : ℕ}
    {as : List Argument} {d : Diagnostic} (h : d ∈ refusals sites outcomes path index as) :
    ∃ a ∈ as, slot outcomes a = none ∧ d.span = (refusal sites a).2 := by
  induction as generalizing index with
  | nil => simp [refusals] at h
  | cons a as ih =>
    cases hs : slot outcomes a with
    | some v =>
      obtain ⟨b, hb, h'⟩ := ih (by simpa only [refusals, hs] using h)
      exact ⟨b, List.mem_cons_of_mem _ hb, h'⟩
    | none =>
      rw [refusals, hs] at h
      rcases List.mem_cons.mp h with rfl | h
      · exact ⟨a, List.mem_cons_self, hs, rfl⟩
      · obtain ⟨b, hb, h'⟩ := ih h
        exact ⟨b, List.mem_cons_of_mem _ hb, h'⟩

lemma exists_told_of_mem_problems {ss : List Site} {x : Option Site × Diagnostic}
    (h : x ∈ (run table reportUnbound sites ss).problems) :
    ∃ e, ∃ s ∈ ss, x ∈ told table reportUnbound sites e s := by
  induction ss using List.reverseRecOn with
  | nil => cases h
  | append_singleton ss s ih =>
    rw [run_concat, visit_eq] at h
    rcases List.mem_append.mp h with h | h
    · exact ⟨_, s, by simp, List.mem_reverse.mp h⟩
    · obtain ⟨e, s', hs', h'⟩ := ih h
      exact ⟨e, s', by simp [hs'], h'⟩

lemma span_of_mem_problems {ss : List Site} {x : Option Site × Diagnostic}
    (h : x ∈ (run table reportUnbound sites ss).problems) :
    ∃ s ∈ ss, x.2.span = s.span ∨ ∃ as, s.form = .call as ∧
      ∃ a ∈ as, (∀ v, a ≠ .literal v) ∧ x.2.span = (refusal sites a).2 := by
  obtain ⟨e, s, hs, h⟩ := exists_told_of_mem_problems table reportUnbound sites h
  refine ⟨s, hs, ?_⟩
  rcases List.mem_append.mp h with h | h
  · obtain ⟨d, hd, rfl⟩ := List.mem_map.mp h
    unfold siteRefusals at hd
    split at hd
    · next as _ hf _ =>
      obtain ⟨a, ha, hn, hspan⟩ := span_of_mem_refusals sites hd
      refine Or.inr ⟨as, hf, a, ha, ?_, hspan⟩
      rintro v rfl
      cases hn
    · cases hd
  · obtain ⟨y, -, rfl⟩ := Option.map_eq_some_iff.mp (Option.mem_toList.mp h)
    exact Or.inl rfl

lemma code_of_mem_told {e : Evaluation} {s : Site} {x : Option Site × Diagnostic}
    (h : x ∈ told table reportUnbound sites e s) : x.2.code ≠ Diagnostic.parseCode := by
  rcases List.mem_append.mp h with h | h
  · obtain ⟨d, hd, rfl⟩ := List.mem_map.mp h
    have hcode : d.code = "IM-NON-LITERAL-ARG" := eq_of_beq (isRefusal_of_mem_site table sites hd)
    simp [hcode, Diagnostic.parseCode]
  · obtain ⟨⟨o, p⟩, hp, rfl⟩ := Option.map_eq_some_iff.mp (Option.mem_toList.mp h)
    -- A site that is looked at is in a script that was read.
    unfold verdict at hp
    repeat' split at hp
    all_goals cases hp
    all_goals simp [Problem.report, Problem.code, Diagnostic.parseCode]

end Evaluation

lemma Analysis.hasParseError_ofSites (table : BindingTable) (reportUnbound : Bool) (ss : List Site) :
    (ofSites table reportUnbound ss).hasParseError = false := by
  refine List.any_eq_false.mpr fun d hd => ?_
  obtain ⟨x, hx, rfl⟩ := List.mem_map.mp hd
  obtain ⟨e, s, -, h⟩ := Evaluation.exists_told_of_mem_problems _ _ _
    (List.mem_reverse.mp (List.mem_filter.mp hx).1)
  exact Bool.eq_false_iff.mp (beq_eq_false_iff_ne.mpr (Evaluation.code_of_mem_told _ _ _ h))

end MetaInline
