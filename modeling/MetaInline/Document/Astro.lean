import MetaInline.Document.Brace
import MetaInline.Document.Region
import MetaInline.Module.Id
import MetaInline.Unicode.Blank

/-!
Astro documents. Code stands in the frontmatter between two fences, in script elements, in braces
after an attribute's name and in braces in the text. Comments, style elements and quoted attributes
hold none. Other braces in tags are no expressions; they are told if they mention `import.meta`.
-/

namespace MetaInline.Astro

open Unicode (isBlank)

def script : Script.Dialect := Module.dialectOfLang (some "ts")

def expression : Script.Dialect := Module.dialectOfLang (some "tsx")

def splitFence : Text → Option (Text × Text)
  | [] => none
  | c :: cs =>
    match c, cs with
    | '\n', '-' :: '-' :: '-' :: rest =>
      if (rest.takeWhile (· ≠ '\n')).all isBlank then some (['\n'], rest)
      else (splitFence ('-' :: '-' :: '-' :: rest)).map fun (body, r) => ('\n' :: body, r)
    | c, cs => (splitFence cs).map fun (body, r) => (c :: body, r)

/-- The blanks in front of the first fence, the frontmatter, and the text after the second. -/
def frontmatter (document : Text) : Option (Text × Text × Text) := do
  let (blanks, rest) := document.span isBlank
  let rest ← Text.dropFront? "---".toList rest
  let (body, rest) ← splitFence rest
  return (blanks, body, rest)

def dropFrontNoCase? : Text → Text → Option Text
  | [], u => some u
  | _ :: _, [] => none
  | w :: word, c :: u => if w.toLower = c.toLower then dropFrontNoCase? word u else none

def findNoCase (word : Text) : Text → Option Nat
  | [] => if word = [] then some 0 else none
  | c :: u =>
    if (dropFrontNoCase? word (c :: u)).isSome then some 0 else (findNoCase word u).map (· + 1)

def sizePast (word u : Text) : Nat :=
  match Text.cut? word u with
  | some (before, _) => before.length + word.length
  | none => u.length

def isTagBlank (c : Char) : Bool :=
  c == ' ' || c == '\t' || c == '\n' || c == '\r' || c == '\x0c'

def opens (tag : Text) (u : Text) : Bool :=
  match dropFrontNoCase? ('<' :: tag) u with
  | some (c :: _) => c == '>' || c == '/' || c == ' ' || c == '\t' || c == '\n' || c == '\r'
  | _ => false

/-- A place in a document: the byte position, the characters before it, the last one first, and
those from it on. -/
structure Place where
  offset : Nat
  before : Text
  rest : Text

namespace Place

def move : Nat → Place → Place
  | 0, p => p
  | _ + 1, ⟨o, b, []⟩ => ⟨o, b, []⟩
  | n + 1, ⟨o, b, c :: cs⟩ => move n ⟨o + c.utf8Size, c :: b, cs⟩

end Place

def region (dialect : Script.Dialect) (p : Place) (n : Nat) : Scan :=
  let u := p.rest.take n
  if u.all isBlank then .empty
  else ⟨[⟨⟨p.offset, p.offset + Text.size u⟩, dialect, false⟩], []⟩

def braced (p : Place) (n : Nat) : Scan :=
  region expression (p.move 1) (n - 2)

def trim (u : Text) : Text :=
  ((u.dropWhile isBlank).reverse.dropWhile isBlank).reverse

def attributeBraces (tag : Text) (p : Place) (n : Nat) : Scan :=
  if (p.before.dropWhile isBlank).head? = some '=' then braced p n
  else
    let inner := (p.rest.take n).drop 1 |>.dropLast
    if Analysis.mentionsImportMeta inner then
      let form := if (Text.dropFront? "...".toList (inner.dropWhile isBlank)).isSome
        then .spread else .shorthand
      let span : Span := ⟨p.offset, p.offset + Text.size (p.rest.take n)⟩
      let problem := .attributeForm (String.ofList tag) form (String.ofList (trim inner))
      ⟨[], [Problem.report problem span]⟩
    else .empty

/-- The attributes of a tag from a place on: the number of characters up to the end of the tag, and
the expressions among them. The next `skip` characters have been accounted for. -/
def attributes (tag : Text) : (skip : Nat) → (offset : Nat) → (before : Text) → Text → Nat × Scan
  | _, _, _, [] => (0, .empty)
  | skip + 1, offset, before, c :: cs =>
    let (n, s) := attributes tag skip (offset + c.utf8Size) (c :: before) cs
    (n + 1, s)
  | 0, offset, before, c :: cs =>
    let p : Place := ⟨offset, before, c :: cs⟩
    let go (skip : Nat) (found : Scan) : Nat × Scan :=
      let (n, s) := attributes tag skip (offset + c.utf8Size) (c :: before) cs
      (n + 1, found ++ s)
    if c == '>' then (1, .empty)
    else if c == '"' || c == '\'' || c.toNat == 0x60 then
      go (sizePast [c] cs) .empty
    else if c == '{' then
      match Brace.size? Brace.Sign.ofChar (c :: cs) with
      | some n => go (n - 1) (attributeBraces tag p n)
      | none => go cs.length .empty
    else go 0 .empty

def tagName (u : Text) : Text × Nat :=
  let rest := u.drop 1
  let size := (rest.takeWhile fun c => !(isTagBlank c || c == '>' || c == '/' || c == '{')).length
  let size := if size < rest.length then max size 1 else size
  ((rest.take size).dropWhile (· == '/'), size + 1)

def tag (p : Place) : Nat × Scan :=
  let (name, size) := tagName p.rest
  let q := p.move size
  let (n, s) := attributes name 0 q.offset q.before q.rest
  (size + n, s)

def rawElement (name : Text) (isCode : Bool) (p : Place) : Nat × Scan :=
  let (n, s) := tag p
  let q := p.move n
  if q.before.take 2 = ['>', '/'] then (n, s)
  else
    match findNoCase ('<' :: '/' :: name) q.rest with
    | some size =>
      (n + size + sizePast ['>'] (q.rest.drop size),
        if isCode then s ++ region script q size else s)
    | none =>
      (n + q.rest.length, if isCode then s ++ region script q q.rest.length else s)

def item (p : Place) : Nat × Scan :=
  match p.rest with
  | [] => (0, .empty)
  | c :: cs =>
    if (Text.dropFront? "<!--".toList p.rest).isSome then (sizePast "-->".toList p.rest, .empty)
    else if opens "script".toList p.rest then rawElement "script".toList true p
    else if opens "style".toList p.rest then rawElement "style".toList false p
    else if c == '<' && cs.head?.any (fun d => Unicode.isAsciiLetter d || d == '/') then tag p
    else if c == '{' then
      match Brace.size? Brace.Sign.ofChar p.rest with
      | some n => (n, braced p n)
      | none => (p.rest.length, .empty)
    else (1, .empty)

/-- The code of a text from a place on. The next `skip` characters have been accounted for. -/
def markup : (skip : Nat) → (offset : Nat) → (before : Text) → Text → Scan
  | _, _, _, [] => .empty
  | skip + 1, offset, before, c :: cs => markup skip (offset + c.utf8Size) (c :: before) cs
  | 0, offset, before, c :: cs =>
    let (n, found) := item ⟨offset, before, c :: cs⟩
    found ++ markup (n - 1) (offset + c.utf8Size) (c :: before) cs

def scan (document : Text) : Scan :=
  match frontmatter document with
  | some (blanks, body, rest) =>
    let start := Text.size blanks + 3
    let stop := start + Text.size body
    let before := document.take (document.length - rest.length)
    Scan.mk [⟨⟨start, stop⟩, script, true⟩] [] ++ markup 0 (stop + 3) before.reverse rest
  | none => markup 0 0 [] document

end MetaInline.Astro
