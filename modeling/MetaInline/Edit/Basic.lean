import MetaInline.Log
import MetaInline.Text.Basic

/-!
Edits of a text: ranges of bytes and what to put there. An `Editor` holds the edits of one text in
the order of their places, none overlapping another; a later edit drops those that it overlaps.
-/

namespace MetaInline

structure Edit where
  span : Span
  text : String
deriving DecidableEq

namespace Edit

def shift (n : Nat) (e : Edit) : Edit :=
  { e with span := e.span.shift n }

def isValid (source : Text) (e : Edit) : Bool :=
  e.span.start ≤ e.span.stop && decide (Text.IsBoundary source e.span.start) &&
    decide (Text.IsBoundary source e.span.stop)

def conflicts (a b : Edit) : Bool :=
  a.span.overlaps b.span || a.span == b.span

end Edit

structure Editor where
  source : Text
  edits : List Edit

namespace Editor

def ofText (source : Text) : Editor :=
  ⟨source, []⟩

def insert (e : Edit) : List Edit → List Edit
  | [] => [e]
  | a :: as =>
    if a.span.start < e.span.start ∨ (a.span.start = e.span.start ∧ a.span.stop ≤ e.span.stop) then
      a :: insert e as
    else e :: a :: as

/-- Adds an edit in place of those that it conflicts with. One that cannot be made is left out. -/
def overwrite (editor : Editor) (e : Edit) : Editor :=
  if e.isValid editor.source then
    { editor with edits := insert e (editor.edits.filter fun a => !a.conflicts e) }
  else editor

def skipped (editor : Editor) (e : Edit) : List LogLine :=
  if e.isValid editor.source then []
  else [⟨.warn, "Skipping edit with invalid range " ++ toString e.span.start ++ ".." ++
    toString e.span.stop⟩]

def hasChanged (editor : Editor) : Bool :=
  !editor.edits.isEmpty

def splice : Nat → Text → List Edit → Text
  | _, source, [] => source
  | pos, source, e :: es =>
    match Text.splitAt? (e.span.start - pos) source with
    | none => source
    | some (kept, rest) =>
      match Text.splitAt? (e.span.stop - e.span.start) rest with
      | none => kept ++ rest
      | some (_, rest) => kept ++ e.text.toList ++ splice e.span.stop rest es

def finish (editor : Editor) : Text :=
  splice 0 editor.source editor.edits

end Editor

namespace Edit

def ordered (es : List Edit) : List Edit :=
  es.mergeSort fun a b => a.span.start ≤ b.span.start

def applyAll (source : Text) (es : List Edit) : Text :=
  ((ordered es).foldl Editor.overwrite (.ofText source)).finish

def skippedAll (source : Text) (es : List Edit) : List LogLine :=
  (ordered es).flatMap (Editor.ofText source).skipped

/-- Keeps the edits whose ranges lie in no other's, given in the order in which an edit comes before
those inside it. -/
def keepOuter : Option Edit → List Edit → List Edit
  | _, [] => []
  | outer, e :: es =>
    if outer.any (·.span.covers e.span) then keepOuter outer es
    else e :: keepOuter (some e) es

def outermost (es : List Edit) : List Edit :=
  keepOuter none (es.mergeSort fun a b =>
    a.span.start < b.span.start || (a.span.start == b.span.start && b.span.stop ≤ a.span.stop))

end Edit
end MetaInline
