import Mathlib
import MetaInline.Proofs.Analysis.Invocation

namespace MetaInline

open Script (Tree)

namespace Script.Tree

variable {u : Text} {t : Tree} {v : Literal}

end Script.Tree

namespace Evaluation

variable (table : BindingTable) (reportUnbound : Bool) (sites : Array Site)

lemma isValid_of_literal? {value : Value} {v : Literal} (h : value.literal? = some v) :
    v.isValid = true := by
  unfold Value.literal? at h
  split at h
  · split at h
    · next hv =>
      cases h
      exact hv
    · cases h
  · cases h

lemma isValid_of_outcome {e : Evaluation} {s : Site} {v : Literal}
    (h : outcome table e s = some v) : v.isValid = true := by
  unfold outcome at h
  split at h
  · exact isValid_of_literal? h
  · split at h
    · exact isValid_of_literal? h
    · cases h
  · cases h

lemma isValid_of_mem_outcomes {ss : List Site} {v : Literal}
    (h : some v ∈ (run table reportUnbound sites ss).outcomes) : v.isValid = true := by
  induction ss using List.reverseRecOn with
  | nil => simp [start] at h
  | append_singleton ss s ih =>
    rw [run_concat, visit_eq] at h
    rcases Array.mem_push.mp h with h | h
    · exact ih h
    · exact isValid_of_outcome table h.symm

end Evaluation

namespace Analysis

open Evaluation

end Analysis
end MetaInline
