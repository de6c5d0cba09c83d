import Mathlib
import MetaInline.Document.Region

namespace MetaInline

variable {calls : List Invocation} {table : BindingTable} {options : AnalysisOptions} {document : Text}
  {r q : Region} {rs : List Region}

namespace BindingTable

lemma get?_after (calls : List Invocation) (t : BindingTable) (path : String) :
    (t.after calls).get? path = (t.get? path).map (Entry.after calls) := by
  obtain ⟨entries⟩ := t
  induction entries with
  | nil => rfl
  | cons x entries ih =>
    obtain ⟨key, e⟩ := x
    simp only [get?, after, List.map_cons, List.lookup] at ih ⊢
    split
    · rfl
    · exact ih

def IsStateless (t : BindingTable) : Prop :=
  ∀ path r, (path, Entry.resolver r) ∈ t.entries →
    ∀ history args, r.reply history args = r.reply [] args

lemma after_of_isStateless (h : table.IsStateless) (calls : List Invocation) :
    table.after calls = table := by
  obtain ⟨entries⟩ := table
  have hentry : ∀ x ∈ entries, (x.1, x.2.after calls) = x := by
    rintro ⟨path, e⟩ hx
    cases e with
    | value v => rfl
    | resolver r =>
      have hreply : (fun history => r.reply (history ++ calls)) = r.reply := by
        funext history args
        rw [h path r hx, h path r hx history]
      rw [Entry.after, Resolver.after, hreply]
  exact congrArg mk ((List.map_congr_left hentry).trans (List.map_id _))

end BindingTable

namespace Analysis

def tableAt (table : BindingTable) (options : AnalysisOptions) (document : Text) (rs : List Region)
    (r : Region) : BindingTable :=
  table.after (ofRegions document table options (rs.takeWhile (· ≠ r))).invocations.reverse

/-- The analysis of one of the regions in its turn, by itself. -/
def inTurn (table : BindingTable) (options : AnalysisOptions) (document : Text) (rs : List Region)
    (r : Region) : Analysis :=
  analyze (tableAt table options document rs r) (r.options options) (r.text document)

lemma append_empty (a : Analysis) : a ++ empty = a := by
  obtain ⟨es, ds, cs⟩ := a
  change append _ _ = _
  simp [append, empty]

lemma analyze_eq_empty (table : BindingTable) (options : AnalysisOptions) {source : Text}
    (h : source = []) : analyze table options source = empty := by
  subst h
  rfl

lemma ofRegions_concat : ofRegions document table options (rs ++ [r]) =
    ofRegions document table options rs ++ ofRegion document
      (table.after (ofRegions document table options rs).invocations.reverse) options r := by
  rw [ofRegions, List.foldl_concat]
  rfl

lemma takeWhile_append_of_mem {p : Region → Bool} (hr : r ∈ rs) (hp : p r = false) :
    (rs ++ [q]).takeWhile p = rs.takeWhile p := by
  rw [List.takeWhile_append, if_neg fun hall => ?_]
  have hself := List.takeWhile_eq_self_iff.mp
    (List.IsPrefix.eq_of_length (List.takeWhile_prefix p) hall) r hr
  simp [hp] at hself

lemma inTurn_concat_of_mem (h : r ∈ rs) : inTurn table options document (rs ++ [q]) r =
    inTurn table options document rs r := by
  rw [inTurn, inTurn, tableAt, tableAt, takeWhile_append_of_mem h (by simp)]

lemma tableAt_concat_self (h : r ∉ rs) : tableAt table options document (rs ++ [r]) r =
    table.after (ofRegions document table options rs).invocations.reverse := by
  have hall : ∀ x ∈ rs, decide (x ≠ r) = true :=
    fun x hx => decide_eq_true fun heq => h (heq ▸ hx)
  rw [tableAt, List.takeWhile_append_of_pos hall]
  simp

lemma ofRegions_eq (h : rs.Pairwise fun a b => a = b → a.text document = []) :
    (ofRegions document table options rs).edits = rs.flatMap (fun r =>
        (inTurn table options document rs r).edits.map (·.shift r.span.start)) ∧
      (ofRegions document table options rs).diagnostics = rs.flatMap fun r =>
        (inTurn table options document rs r).diagnostics.map (·.shift r.span.start) := by
  induction rs using List.reverseRecOn with
  | nil => exact ⟨rfl, rfl⟩
  | append_singleton rs r ih =>
    obtain ⟨hrs, -, hr⟩ := List.pairwise_append.mp h
    obtain ⟨hedits, hdiagnostics⟩ := ih hrs
    have hlast : ofRegion document
        (table.after (ofRegions document table options rs).invocations.reverse) options r =
          (inTurn table options document (rs ++ [r]) r).shift r.span.start := by
      by_cases hmem : r ∈ rs
      · have htext := hr r hmem r (List.mem_singleton.mpr rfl) rfl
        rw [ofRegion, inTurn, analyze_eq_empty _ _ htext, analyze_eq_empty _ _ htext]
      · rw [ofRegion, inTurn, tableAt_concat_self hmem]
    have hturns : ∀ q ∈ rs, inTurn table options document (rs ++ [r]) q =
        inTurn table options document rs q := fun q => inTurn_concat_of_mem
    rw [ofRegions_concat, hlast, List.flatMap_append, List.flatMap_append, List.flatMap_singleton,
      List.flatMap_singleton]
    constructor
    · rw [List.flatMap_congr fun q hq => by rw [hturns q hq], ← hedits]
      rfl
    · rw [List.flatMap_congr fun q hq => by rw [hturns q hq], ← hdiagnostics]
      rfl

-- A resolver that counts its calls goes on counting in the next region.
example :
    let counter : Resolver := ⟨"f", false, fun history _ => .ok (.literal (.bigint history.length))⟩
    let rs : List Region := [⟨⟨0, 15⟩, .standard, false⟩, ⟨⟨15, 30⟩, .standard, false⟩]
    (ofRegions "import.meta.f()import.meta.f()".toList ⟨[("f", .resolver counter)]⟩
      ⟨.standard, false, false⟩ rs).edits = [⟨⟨0, 15⟩, "0n"⟩, ⟨⟨15, 30⟩, "1n"⟩] := by
  decide +kernel

lemma invocations_ofRegions_filter {p : Region → Bool} (h : ∀ r ∈ rs, p r = false →
      ∀ t, (analyze t (r.options options) (r.text document)).invocations = []) :
    (ofRegions document table options (rs.filter p)).invocations =
      (ofRegions document table options rs).invocations := by
  induction rs using List.reverseRecOn with
  | nil => rfl
  | append_singleton rs r ih =>
    have hrs := ih fun q hq => h q (List.mem_append_left _ hq)
    have hconcat (qs : List Region) : (ofRegions document table options (qs ++ [r])).invocations =
        (ofRegions document table options qs).invocations ++ (analyze
          (table.after (ofRegions document table options qs).invocations.reverse)
          (r.options options) (r.text document)).invocations := by
      rw [ofRegions_concat]
      rfl
    rw [List.filter_append, hconcat]
    cases hp : p r with
    | true => rw [List.filter_cons_of_pos hp, List.filter_nil, hconcat, hrs]
    | false =>
      have hnone : p r ≠ true := by simp [hp]
      rw [List.filter_cons_of_neg hnone, List.filter_nil, List.append_nil, hrs,
        h r (by simp) hp, List.append_nil]

lemma inTurn_filter (table : BindingTable) {p : Region → Bool} (h : ∀ r ∈ rs, p r = false →
      ∀ t, (analyze t (r.options options) (r.text document)).invocations = []) (hq : p q = true) :
    inTurn table options document (rs.filter p) q = inTurn table options document rs q := by
  have hstop : (fun a => !p a || decide (a ≠ q)) = fun a => decide (a ≠ q) := by
    funext a
    by_cases ha : a = q
    · simp [ha, hq]
    · simp [ha]
  rw [inTurn, inTurn, tableAt, tableAt, List.takeWhile_filter, hstop,
    invocations_ofRegions_filter fun r hr => h r (List.takeWhile_subset _ hr)]

lemma ofRegions_filter {p : Region → Bool} (h : ∀ r ∈ rs, p r = false → r.text document = []) :
    ofRegions document table options (rs.filter p) = ofRegions document table options rs := by
  induction rs using List.reverseRecOn with
  | nil => rfl
  | append_singleton rs r ih =>
    have hrs := ih fun q hq => h q (List.mem_append_left _ hq)
    rw [List.filter_append]
    cases hp : p r with
    | true =>
      rw [List.filter_cons_of_pos hp, List.filter_nil, ofRegions_concat, ofRegions_concat, hrs]
    | false =>
      have hnone : p r ≠ true := by simp [hp]
      rw [List.filter_cons_of_neg hnone, List.filter_nil, List.append_nil, ofRegions_concat, hrs,
        ofRegion, analyze_eq_empty _ _ (h r (by simp) hp)]
      exact (append_empty _).symm

lemma exists_of_mem_edits_ofRegions {e : Edit}
    (h : e ∈ (ofRegions document table options rs).edits) :
    ∃ r ∈ rs, ∃ calls, e ∈ (ofRegion document (table.after calls) options r).edits := by
  induction rs using List.reverseRecOn with
  | nil => cases h
  | append_singleton rs r ih =>
    rw [ofRegions_concat] at h
    rcases List.mem_append.mp h with h | h
    · obtain ⟨q, hq, hcalls⟩ := ih h
      exact ⟨q, List.mem_append_left _ hq, hcalls⟩
    · exact ⟨r, by simp, _, h⟩

end Analysis
end MetaInline
