import Mathlib
import MetaInline.Proofs.Script.Grammar.Type
import MetaInline.Script.Grammar.Element

namespace MetaInline.Script.Grammar

open Parse
open Std.Internal.Do
open Source (text)

set_option mvcgen.warning false

variable [Source] {g : Rules} {c₀ : Cursor} (ctx : Context)

@[spec] lemma reads_tagWord : Reads tagWord c₀ fun _ c => c₀.lexeme.start < c.lastStop := by
  vcgen [tagWord] with finish -ring -linarith [Lexeme.Sound.hyphenated]

@[spec] lemma reads_tagName : Reads (tagName g) c₀ fun _ c => c₀.lexeme.start < c.lastStop := by
  vcgen [tagName, reads_iterate_true] with finish -ring -linarith

@[spec] lemma reads_openContainer (hg : g.Sound) {s : ℕ} (hs : s = c₀.lexeme.start)
    (mayBeEmpty : Bool) : Reads (openContainer g ctx s mayBeEmpty) c₀ fun t c =>
      t.Between c₀.lexeme.start c.lexeme.stop := by
  vcgen [openContainer] with finish -ring -linarith

@[spec] lemma reads_enterValue :
    Reads enterValue c₀ fun _ c => c.lastStop = c₀.lexeme.stop := by
  refine reads_iff.mpr ?_
  rintro h a c ⟨⟩
  have hvalue := h.attributeValue
  exact ⟨hvalue, h.lexeme.le.trans hvalue.stop_le, h.stop_le.trans h.lexeme.le, rfl⟩

@[spec] lemma reads_attributeValue (hg : g.Sound) : ReadsTree (attributeValue g ctx) c₀ := by
  vcgen [attributeValue] with finish -ring -linarith

@[spec] lemma reads_elementAttribute (hg : g.Sound) :
    ReadsTree (elementAttribute g ctx) c₀ := by
  vcgen [elementAttribute] with finish -ring -linarith

@[spec] lemma reads_childText : Reads childText c₀ fun ts c => c₀.lexeme.stop ≤ c.lexeme.start ∧
    Chained c₀.lexeme.stop c.lexeme.start ts.reverse := by
  vcgen [childText]
  all_goals
    next c h _ =>
      obtain ⟨rfl, h⟩ := h
      have hsign := h.elementText
      have hle : c.lexeme.stop ≤ c.lexeme.elementText.2.start := hsign.stop_le
      refine ⟨hsign, h.lexeme.le.trans hle, h.stop_le.trans h.lexeme.le, hle, ?_⟩
      grind -ring -linarith

@[spec] lemma reads_children (hg : g.Sound) : Reads (children g ctx) c₀ fun ts c =>
    c₀.lexeme.stop ≤ c.lexeme.start ∧ Chained c₀.lexeme.stop c.lexeme.start ts := by
  have hloop (c' : Cursor) (step : List Tree × Unit → Parse (Option (List Tree × Unit))) :=
    @reads_iterate _ _ c' step
      (fun x c => c₀.lexeme.stop ≤ c.lexeme.start ∧
        Chained c₀.lexeme.stop c.lexeme.start x.1.reverse)
      (fun x c => c₀.lexeme.stop ≤ c.lexeme.start ∧
        Chained c₀.lexeme.stop c.lexeme.start x.1.reverse)
  refine reads_of fun _ _ _ _ => ?_
  vcgen [children, hloop] with finish -ring -linarith

@[spec] lemma reads_closingTag (tag : String) :
    Reads (closingTag g tag) c₀ fun _ c => c₀.lexeme.stop ≤ c.lastStop := by
  vcgen [closingTag] with finish -ring -linarith

@[spec] lemma reads_element (hg : g.Sound) : Reads (element g ctx) c₀ fun t c =>
    t.Between c₀.lexeme.start c.lexeme.stop := by
  vcgen [element] with finish -ring -linarith

end MetaInline.Script.Grammar
