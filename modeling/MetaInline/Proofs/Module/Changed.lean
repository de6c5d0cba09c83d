import Mathlib
import MetaInline.Proofs.Document.Splicing
import MetaInline.Proofs.Module.Reserved
import MetaInline.Proofs.Number.Digits

namespace MetaInline

open Text (From size)

namespace Site

open Script (Tree)

variable {u : Text} {t : Tree}

lemma from_of_names? (ht : t.Nested u) {xs : List String} (h : names? t = some xs) :
    ∃ rest, From u t.span.start ('i' :: rest) := by
  induction t using names?.induct generalizing xs with
  | case1 s =>
    obtain ⟨gap, gap', hslice⟩ := ht.spelled
    obtain ⟨-, w, hfrom, -⟩ := Text.slice?_eq_some_iff.mp hslice
    exact ⟨_, hfrom⟩
  | case2 s o x b ih =>
    obtain ⟨ys, ho, -⟩ := Option.map_eq_some_iff.mp (names?.eq_2 .. ▸ h)
    obtain ⟨rest, hrest⟩ := ih (ht.of_mem (by simp [Tree.parts])) ho
    rw [(ht.ordered.head (a := o) rfl).1] at hrest
    exact ⟨rest, hrest⟩
  | case3 t h1 h2 => rw [names?] at h <;> simp_all

lemma from_of_path? (ht : t.Nested u) (h : (path? t).isSome = true) :
    ∃ rest, From u t.span.start ('i' :: rest) := by
  cases t with
  | member s o x b =>
    obtain ⟨xs, ho⟩ : ∃ xs, names? o = some xs := by
      simpa [path?, Option.isSome_iff_exists] using h
    obtain ⟨rest, hrest⟩ := from_of_names? (ht.of_mem (by simp [Tree.parts])) ho
    rw [(ht.ordered.head (a := o) rfl).1] at hrest
    exact ⟨rest, hrest⟩
  | _ => cases h

lemma from_of_mem (ht : t.Nested u) {s : Site} (h : s ∈ ofTree t) :
    ∃ rest, From u s.span.start ('i' :: rest) := by
  obtain ⟨i, hi, rfl⟩ := exists_place h
  obtain ⟨hocc, hs⟩ := Place.mem_ofTree (List.getElem_mem hi)
  have hn := (hocc.nested ht).1
  show ∃ rest, From u (Place.ofTree .value t)[i].tree.span.start ('i' :: rest)
  rcases Place.isSite_iff.mp hs with ⟨s, o, x, b, htree, ho⟩ | ⟨s, c, ts, as, b, htree, hc⟩
  · have hpath : (path? (Place.ofTree .value t)[i].tree).isSome = true := by
      rw [htree]
      simpa [path?] using ho
    exact from_of_path? hn hpath
  · rw [htree] at hn ⊢
    obtain ⟨rest, hrest⟩ := from_of_path? (hn.of_mem (by simp [Tree.parts])) hc
    rw [(hn.ordered.head (a := c) rfl).1] at hrest
    exact ⟨rest, hrest⟩

end Site

def BeginsElse (v : Text) : Prop :=
  ∃ c rest, v = c :: rest ∧ c ≠ 'i'

lemma BeginsElse.cons {c : Char} (h : c ≠ 'i') (rest : Text) : BeginsElse (c :: rest) :=
  ⟨c, rest, rfl, h⟩

lemma BeginsElse.append {v : Text} (h : BeginsElse v) (w : Text) : BeginsElse (v ++ w) := by
  obtain ⟨c, rest, rfl, hc⟩ := h
  exact .cons hc (rest ++ w)

lemma beginsElse_take_digits (n : ℕ) {k : ℕ} (hk : 0 < k) :
    BeginsElse ((Decimal.digits n).take k) := by
  obtain ⟨c, rest, hdigits⟩ := List.exists_cons_of_length_pos (Decimal.length_digits_pos n)
  obtain ⟨k, rfl⟩ := Nat.exists_eq_succ_of_ne_zero hk.ne'
  have hc := Decimal.isDigits_digits n c (by simp [hdigits])
  rw [hdigits]
  exact .cons (ne_of_isDigit hc rfl) (rest.take k)

lemma beginsElse_digits (n : ℕ) : BeginsElse (Decimal.digits n) := by
  have h := beginsElse_take_digits n (Decimal.length_digits_pos n)
  rwa [List.take_length] at h

namespace Double

lemma beginsElse_positionalForm (d : Decimal) : BeginsElse (positionalForm d) := by
  simp only [positionalForm]
  split_ifs with he hplaces
  · exact (beginsElse_digits _).append _
  · exact (beginsElse_take_digits _ (by omega)).append _
  · exact .cons (by decide) _

lemma beginsElse_exponentForm (d : Decimal) : BeginsElse (exponentForm d) := by
  simp only [exponentForm, List.append_assoc]
  exact (beginsElse_take_digits _ Nat.one_pos).append _

lemma beginsElse_source (x : Double) : BeginsElse x.source := by
  simp only [source]
  split_ifs
  · exact .cons (by decide) _
  · exact .cons (by decide) _
  · exact .cons (by decide) _
  · exact beginsElse_positionalForm _
  · exact beginsElse_exponentForm _

end Double

lemma Literal.beginsElse_text (v : Literal) : BeginsElse v.text := by
  cases v with
  | null => exact .cons (by decide) _
  | bool b => cases b <;> exact .cons (by decide) _
  | number x => exact x.beginsElse_source
  | string s => exact .cons (by decide) _
  | bigint n =>
    simp only [text, bigintSource]
    split_ifs
    · exact .cons (by decide) _
    · exact (beginsElse_digits _).append _
  | regexp r => exact .cons (by decide) _

lemma Evaluation.beginsElse_replacement (v : Literal) (isObject : Bool) :
    BeginsElse (replacement v isObject) := by
  rw [replacement]
  split
  · exact .cons (by decide) _
  · exact v.beginsElse_text

namespace Edit

def Differs (source : Text) (e : Edit) : Prop :=
  (∃ rest, From source e.span.start ('i' :: rest)) ∧ BeginsElse e.text.toList

lemma splice_ne {source : Text} {e : Edit} {es : List Edit} (h : Fits 0 source (e :: es))
    (he : e.Differs source) : Editor.splice 0 source (e :: es) ≠ source := by
  obtain ⟨⟨rest, hfrom⟩, c, rest', htext, hc⟩ := he
  cases h with
  | @cons _ kept old after _ _ hs ht =>
    have hplace : From (kept ++ (old ++ after)) e.span.start (old ++ after) := hs ▸ (From.self _).drop
    have hsame := hfrom.unique hplace
    rw [splice_cons hs ht, htext, ← hsame]
    intro heq
    have hcons := List.append_cancel_left heq
    exact hc (List.cons.inj hcons).1

lemma applyAll_ne {source : Text} {es : List Edit} (h : InOrder es)
    (hin : ∀ e ∈ es, e.span.IsIn source) (hdiffers : ∀ e ∈ es, e.Differs source) (hne : es ≠ []) :
    applyAll source es ≠ source := by
  rw [applyAll_eq_splice (.refl es) h hin]
  have hfits : Fits 0 source es := .of_pairwise (.self source) (fun _ _ => Nat.zero_le _) hin h.2
  cases es with
  | nil => exact absurd rfl hne
  | cons e es => exact splice_ne hfits (hdiffers e (by simp))

end Edit

namespace Analysis

lemma differs_of_mem_edits {table : BindingTable} {options : AnalysisOptions} {source : Text}
    {e : Edit} (h : e ∈ (analyze table options source).edits) : e.Differs source := by
  cases ht : Script.parse options.dialect options.allowReturn source with
  | none =>
    rw [edits_eq_nil_of_parse table ht] at h
    cases h
  | some t =>
    have hn := Script.nested_of_parse ht
    rw [analyze, ofScript, ht] at h
    split at h
    · obtain ⟨x, hx, rfl⟩ := exists_of_mem_edits hn h
      refine ⟨Site.from_of_mem hn (mem_of_mem_valuedOf hx), ?_⟩
      rw [Evaluation.editOf, String.toList_ofList]
      exact Evaluation.beginsElse_replacement ..
    · cases h

lemma differs_shift {document : Text} {r : Region} (hr : r.span.IsIn document) {e : Edit}
    (h : e.Differs (r.text document)) : (e.shift r.span.start).Differs document := by
  obtain ⟨⟨rest, hfrom⟩, htext⟩ := h
  obtain ⟨after, hregion, -⟩ := Region.exists_from hr
  have hplace := hregion.trans (hfrom.append after)
  rw [Nat.add_comm] at hplace
  exact ⟨⟨rest ++ after, hplace⟩, htext⟩

end Analysis

namespace Transformer

lemma edits_ofScan (t : Transformer) (language : Language) (id code : Text) :
    let edits := (Analysis.ofScan code (scan language id code) t.table t.analysisOptions).edits
    Edit.InOrder edits ∧ (∀ e ∈ edits, e.span.IsIn code) ∧ ∀ e ∈ edits, e.Differs code := by
  obtain ⟨hin, hpair⟩ := regions_scan language id code
  set rs := (scan language id code).regions with hrs
  have hspec := fun r : Region => Analysis.analyze_isIn
    (Analysis.tableAt t.table t.analysisOptions code rs r) (r.options t.analysisOptions) (r.text code)
  have hdistinct := Analysis.text_eq_nil_of_apart hin (hpair.imp Or.inl)
  rw [(Analysis.ofScan_eq t.table t.analysisOptions hdistinct).1]
  refine ⟨Analysis.inOrder_flatMap hin hpair _ (fun r _ => (hspec r).1) fun r _ => (hspec r).2.1,
    fun e he => ?_, fun e he => ?_⟩
  · obtain ⟨r, hr, he⟩ := List.mem_flatMap.mp he
    obtain ⟨e, hedit, rfl⟩ := List.mem_map.mp he
    exact (Region.isIn_shift (hin r hr) ((hspec r).2.1 e hedit)).1
  · obtain ⟨r, hr, he⟩ := List.mem_flatMap.mp he
    obtain ⟨e, hedit, rfl⟩ := List.mem_map.mp he
    exact Analysis.differs_shift (hin r hr) (Analysis.differs_of_mem_edits hedit)

/-- The output of a module says that it has changed if and only if its code is another one, whatever is
bound and whatever the resolvers reply. -/
theorem changed_iff_code_ne {t : Transformer} {id : String} {code : Text} {out : Output}
    (h : (t.transform id code).output = some out) :
    out.changed = true ↔ out.code ≠ String.ofList code := by
  rw [transform] at h
  split at h
  · split at h
    · cases h
    · next language _ =>
      cases h
      obtain ⟨horder, hin, hdiffers⟩ := edits_ofScan t language id.toList code
      set edits := (Analysis.ofScan code (scan language id.toList code) t.table
        t.analysisOptions).edits
      show (!edits.isEmpty) = true ↔ String.ofList (Edit.applyAll code edits) ≠ String.ofList code
      by_cases hnone : edits = []
      · simp [hnone]
      · have hne := Edit.applyAll_ne horder hin hdiffers hnone
        have hcode : String.ofList (Edit.applyAll code edits) ≠ String.ofList code :=
          fun heq => hne (String.ofList_injective heq)
        simp [hnone, hcode]
  · cases h

theorem changed_iff_code_ne_bound :
    let table : BindingTable := ⟨[("a", .value (.literal .null))]⟩
    ∃ t out, ofTable table .default = .ok t ∧
      (t.transform "m.js" "import.meta.a".toList).output = some out ∧
      out.code = "null" ∧ out.changed = true := by
  intro table
  have hrun : ((ofTable table .default).toOption.bind fun t =>
      (t.transform "m.js" "import.meta.a".toList).output.map (·.code)) = some "null" := by
    decide +kernel
  obtain ⟨t, ht, hrun⟩ := Option.bind_eq_some_iff.mp hrun
  obtain ⟨out, hout, hcode⟩ := Option.map_eq_some_iff.mp hrun
  have hok : ofTable table .default = .ok t := by
    cases h : ofTable table .default with
    | error e => simp [h, Except.toOption] at ht
    | ok t' => simpa [h, Except.toOption] using ht
  have hne : out.code ≠ String.ofList "import.meta.a".toList := by
    rw [hcode]
    decide
  exact ⟨t, out, hok, hout, hcode, (changed_iff_code_ne hout).mpr hne⟩

end Transformer
end MetaInline
