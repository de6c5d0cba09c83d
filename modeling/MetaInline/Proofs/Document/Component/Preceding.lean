import Mathlib
import MetaInline.Proofs.Document.Component.Search
import MetaInline.Proofs.Document.Tag

namespace MetaInline

open Text (size)

def ScriptBlock.shift (n : ℕ) (b : ScriptBlock) : ScriptBlock :=
  { b with span := b.span.shift n }

namespace Component

variable {u v word : Text}

inductive Preceding
  | comment (u : Text) (isOpen : ¬ "-->".toList <:+: u) (noScript : ¬ Opens u)
  | markup (u : Text) (noComment : ¬ "<!--".toList <:+: u) (noScript : ¬ Opens u)
    (isClosed : ∀ a b, u = a ++ '<' :: b → '>' ∈ b)

namespace Preceding

def print : Preceding → Text
  | comment u _ _ => "<!--".toList ++ (u ++ "-->".toList)
  | markup u _ _ _ => u

def printAll (ps : List Preceding) : Text :=
  ps.flatMap print

end Preceding

lemma scripts_shift (n : ℕ) (v : Text) :
    scripts 0 n v = (scripts 0 0 v).map fun x => (x.1 + n, x.2.shift n) := by
  rw [scripts_eq_findAll, scripts_eq_findAll, ← Nat.zero_add n]
  refine findAll_shift (fun offset u => ?_) 0 0 v
  rw [scriptAt, scriptAt, Option.map_map]
  cases splitScript? u with
  | none => rfl
  | some e => simp [ScriptBlock.shift, Span.shift, Nat.add_right_comm _ n]

lemma comments_shift (n : ℕ) (v : Text) : comments 0 n v = (comments 0 0 v).map (Span.shift n) := by
  rw [comments_eq_findAll, comments_eq_findAll, ← Nat.zero_add n]
  refine findAll_shift (fun offset u => ?_) 0 0 v
  rw [commentAt, commentAt, Option.map_map]
  cases commentSize? u with
  | none => rfl
  | some m => simp [Span.shift, Nat.add_right_comm _ n]

lemma not_infix_append (h : ¬ word <:+: u) (hv : ∀ c ∈ word.getLast?, c ∉ v) :
    ¬ word <:+: u ++ v := by
  rintro ⟨x, y, hxy⟩
  rcases List.append_eq_append_iff.mp hxy with ⟨z, rfl, -⟩ | ⟨z, hz, rfl⟩
  · exact h ⟨x, z, rfl⟩
  · rcases List.eq_nil_or_concat z with rfl | ⟨z, d, rfl⟩
    · exact h ⟨x, [], by simpa using hz⟩
    · have hne : word ≠ [] := fun hnil => h (hnil ▸ List.nil_infix)
      have hlast := congrArg List.getLast? hz
      rw [List.getLast?_append_of_ne_nil _ hne] at hlast
      exact hv d (by simp [hlast]) (by simp)

lemma not_prefix_append {a b : Text} (hclosed : ∀ a b, u = a ++ '<' :: b → '>' ∈ b)
    (hword : ¬ '<' :: word <:+: u) (hgt : '>' ∉ word) (hab : u = a ++ b) (hb : b ≠ []) :
    ¬ '<' :: word <+: b ++ v := by
  rintro ⟨r, hr⟩
  rcases List.append_eq_append_iff.mp hr with ⟨x, rfl, -⟩ | ⟨x, hx, -⟩
  · exact hword ⟨a, x, by simp [hab]⟩
  · obtain ⟨d, b, rfl⟩ := List.exists_cons_of_ne_nil hb
    obtain ⟨rfl, rfl⟩ := List.cons_eq_cons.mp hx
    exact hgt (List.mem_append_left _ (hclosed a b hab))

lemma commentSize?_comment (h : ¬ "-->".toList <:+: u) (v : Text) :
    commentSize? ("<!--".toList ++ (u ++ ("-->".toList ++ v))) = some (4 + u.length + 3) := by
  have hcut : Text.cut? "-->".toList (u ++ ("-->".toList ++ v)) = some (u, "-->".toList ++ v) :=
    Text.cut?_eq (by decide) (not_infix_append h (by simp)) v
  rw [commentSize?, Text.dropFront?_append, Option.bind_eq_bind, Option.bind_some, hcut]
  rfl

lemma not_infix_comment {w : Text} (hw : Spells scriptWord w) (hscript : ¬ Opens u) :
    ¬ '<' :: w <:+: "<!--".toList ++ (u ++ "-->".toList) := by
  have hbang : ¬ '<' :: w <+: '<' :: '!' :: '-' :: '-' :: (u ++ "-->".toList) := by
    intro hpre
    cases w with
    | nil => cases hw
    | cons d w =>
      obtain ⟨-, hpre⟩ := List.cons_prefix_cons.mp hpre
      obtain ⟨rfl, -⟩ := List.cons_prefix_cons.mp hpre
      exact notMem_of_spells hw (by decide) List.mem_cons_self
  have hinner : ¬ '<' :: w <:+: u ++ "-->".toList := by
    refine not_infix_append (fun hin => hscript ⟨w, hw, hin⟩) fun d hd hmem => ?_
    have hsign : d = '-' ∨ d = '>' := by simpa using hmem
    have hd : d ∈ w := by
      rcases List.mem_cons.mp (List.mem_of_getLast? hd) with rfl | hd
      · simp at hsign
      · exact hd
    rcases hsign with rfl | rfl <;> exact notMem_of_spells hw (by decide) hd
  intro hin
  have hfront : "<!--".toList ++ (u ++ "-->".toList) =
      '<' :: '!' :: '-' :: '-' :: (u ++ "-->".toList) := rfl
  rw [hfront, List.infix_cons_iff] at hin
  simp only [List.infix_cons_iff] at hin
  rcases hin with hpre | hpre | hpre | hpre | hin
  · exact hbang hpre
  · cases (List.cons_prefix_cons.mp hpre).1
  · cases (List.cons_prefix_cons.mp hpre).1
  · cases (List.cons_prefix_cons.mp hpre).1
  · exact hinner hin

namespace Preceding

variable (p : Preceding)

lemma not_opensAt {a b : Text} (hab : p.print = a ++ b) (hb : b ≠ []) (v : Text) :
    ¬ OpensAt (b ++ v) := by
  rintro ⟨w, hw, hpre⟩
  have hgt : '>' ∉ w := notMem_of_spells hw (by decide)
  cases p with
  | markup u hcomment hscript hclosed =>
    exact not_prefix_append hclosed (fun hin => hscript ⟨w, hw, hin⟩) hgt hab hb hpre
  | comment u hopen hscript =>
    -- A comment ends in the sign that closes a tag.
    have hclosed : ∀ a b, "<!--".toList ++ (u ++ "-->".toList) = a ++ '<' :: b → '>' ∈ b := by
      intro a b h
      have hlast := congrArg List.getLast? h
      rw [List.getLast?_append_of_ne_nil _ (by simp), List.getLast?_append_of_ne_nil _ (by simp),
        List.getLast?_append_of_ne_nil _ (by simp)] at hlast
      cases b with
      | nil => cases hlast
      | cons d b =>
        rw [List.getLast?_cons_cons] at hlast
        exact List.mem_of_getLast? hlast.symm
    exact not_prefix_append hclosed (not_infix_comment hw hscript) hgt hab hb hpre

lemma scripts_print (offset : ℕ) (v : Text) :
    scripts 0 offset (p.print ++ v) = scripts 0 (offset + size p.print) v :=
  scripts_append offset fun _ _ hab hb => p.not_opensAt hab hb v

lemma exists_comments_print (v : Text) : ∃ hidden, (∀ s ∈ hidden, s.stop ≤ size p.print) ∧
    comments 0 0 (p.print ++ v) = hidden ++ comments 0 (size p.print) v := by
  cases p with
  | markup u hcomment hscript hclosed =>
    have happend := comments_append (u := u) (v := v) 0 fun a b hab hb =>
      not_prefix_append hclosed hcomment (by decide) hab hb
    exact ⟨[], by simp, by simpa [print] using happend⟩
  | comment u hopen hscript =>
    have hsize := commentSize?_comment hopen v
    have hsplit : (comment u hopen hscript).print ++ v =
        "<!--".toList ++ (u ++ ("-->".toList ++ v)) := by simp [print]
    obtain ⟨rest, hrest⟩ : ∃ rest, "<!--".toList ++ (u ++ ("-->".toList ++ v)) = '<' :: rest :=
      ⟨_, rfl⟩
    have hlength : 4 + u.length + 3 = (comment u hopen hscript).print.length := by
      simp [print]
      omega
    rw [hrest] at hsize hsplit
    refine ⟨[⟨0, size (comment u hopen hscript).print⟩], by simp, ?_⟩
    have htake : ('<' :: rest).take (4 + u.length + 3) = (comment u hopen hscript).print := by
      rw [hlength, ← hsplit, List.take_left]
    have hdrop : ('<' :: rest).drop (4 + u.length + 3) = v := by
      rw [hlength, ← hsplit, List.drop_left]
    have hpast := findAll_skip commentAt (4 + u.length + 3) 0 ('<' :: rest)
    rw [htake, hdrop, Nat.zero_add, ← comments_eq_findAll, ← comments_eq_findAll] at hpast
    rw [hsplit, comments, hsize]
    dsimp only
    rw [htake, ← hpast, Nat.zero_add]
    rfl

lemma scriptBlocks_moved (v : Text) :
    scriptBlocks (p.print ++ v) = (scriptBlocks v).map (ScriptBlock.shift (size p.print)) := by
  obtain ⟨hidden, hstop, hcomments⟩ := p.exists_comments_print v
  have hmoved := comments_shift (size p.print) v
  have hscripts := scripts_shift (size p.print) v
  have hkeep : ∀ x ∈ scripts 0 0 v, (!(hidden ++ (comments 0 0 v).map (Span.shift (size p.print))).any
      fun s => s.start ≤ x.1 + size p.print && x.1 + size p.print < s.stop) =
        !(comments 0 0 v).any fun s => s.start ≤ x.1 && x.1 < s.stop := by
    intro x _
    have hnone : (hidden.any fun s => s.start ≤ x.1 + size p.print && x.1 + size p.print < s.stop) =
        false := by
      rw [List.any_eq_false]
      intro s hs
      have := hstop s hs
      simp
      omega
    rw [List.any_append, hnone, Bool.false_or, List.any_map]
    simp [Span.shift, Function.comp_def]
  rw [scriptBlocks, hcomments, hmoved, p.scripts_print, Nat.zero_add, hscripts, List.filter_map,
    scriptBlocks, List.map_map, List.map_map]
  exact congrArg (List.map _) (List.filter_congr hkeep)

end Preceding

/-- Comments and other elements only move the blocks that follow. -/
theorem scriptBlocks_append (ps : List Preceding) (v : Text) :
    scriptBlocks (Preceding.printAll ps ++ v) =
      (scriptBlocks v).map (ScriptBlock.shift (size (Preceding.printAll ps))) := by
  induction ps with
  | nil => exact (List.map_id _).symm
  | cons p ps ih =>
    have hprint : Preceding.printAll (p :: ps) = p.print ++ Preceding.printAll ps := rfl
    rw [hprint, List.append_assoc, p.scriptBlocks_moved, ih, List.map_map]
    refine List.map_congr_left fun b _ => ?_
    simp [ScriptBlock.shift, Span.shift, Nat.add_comm, Nat.add_left_comm]

theorem exists_scriptBlocks_hidden :
    let inline := fun u => (scriptBlocks u).filter fun b => !b.isExternal
    let document := "<script>x</script>".toList
    inline document = [⟨⟨8, 9⟩, []⟩] ∧
      inline ("<!-- <script> -->".toList ++ document) = [] ∧
      inline ("<script src=\"a\" />".toList ++ document) = [] ∧
      inline ("<style>/* <script> */</style>".toList ++ document) = [⟨⟨18, 38⟩, []⟩] ∧
      inline ("<template><script>a</script></template>".toList ++ document) =
        [⟨⟨18, 19⟩, []⟩, ⟨⟨47, 48⟩, []⟩] := by
  decide +kernel

end Component
end MetaInline
