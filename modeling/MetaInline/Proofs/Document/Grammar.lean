import Mathlib
import MetaInline.Document.Astro

namespace MetaInline.Astro

open Text (size)
open Unicode (isBlank isAsciiLetter isAsciiDigit)

def isNameChar (c : Char) : Bool :=
  isAsciiLetter c || isAsciiDigit c || c == '-' || c == '_' || c == ':' || c == '.'

structure Name where
  text : Text
  nonempty : text ≠ []
  chars : ∀ c ∈ text, isNameChar c = true

def codeOf (dialect : Script.Dialect) (offset : ℕ) (u : Text) : Scan :=
  if u.all isBlank then .empty else ⟨[⟨⟨offset, offset + size u⟩, dialect, false⟩], []⟩

structure Expression where
  text : Text
  closed : Brace.size? Brace.Sign.ofChar ('{' :: (text ++ ['}'])) = some (text.length + 2)

namespace Expression

def print (e : Expression) : Text :=
  '{' :: (e.text ++ ['}'])

def code (offset : ℕ) (e : Expression) : Scan :=
  codeOf expression (offset + 1) e.text

def report (tag : Text) (offset : ℕ) (e : Expression) : Scan :=
  if Analysis.mentionsImportMeta e.text then
    let form := if "...".toList <+: e.text.dropWhile isBlank then .spread else .shorthand
    let problem := .attributeForm (String.ofList tag) form (String.ofList (trim e.text))
    ⟨[], [Problem.report problem ⟨offset, offset + size e.print⟩]⟩
  else .empty

end Expression

inductive Attribute where
  | bare (name : Name)
  | quoted (name : Name) (value : Text) (h : '"' ∉ value)
  | assigned (name : Name) (e : Expression)
  | braced (e : Expression)

namespace Attribute

def print : Attribute → Text
  | bare name => name.text
  | quoted name value _ => name.text ++ '=' :: '"' :: (value ++ ['"'])
  | assigned name e => name.text ++ '=' :: e.print
  | braced e => e.print

def code (tag : Text) (offset : ℕ) : Attribute → Scan
  | bare _ | quoted .. => .empty
  | assigned name e => e.code (offset + size name.text + 1)
  | braced e => e.report tag offset

def printAll (as : List Attribute) : Text :=
  as.flatMap fun a => ' ' :: a.print

def codeAll (tag : Text) : ℕ → List Attribute → Scan
  | _, [] => .empty
  | offset, a :: as => a.code tag (offset + 1) ++ codeAll tag (offset + 1 + size a.print) as

end Attribute

inductive RawKind where
  | script
  | style

def RawKind.word : RawKind → Text
  | script => "script".toList
  | style => "style".toList

def RawKind.isCode : RawKind → Bool
  | script => true
  | style => false

inductive TagForm where
  | opening
  | closing
  | selfClosing

structure Tag where
  form : TagForm
  name : Name
  isLetter : name.text.head?.any isAsciiLetter = true
  attributes : List Attribute
  notRaw : form ≠ .closing → ∀ kind : RawKind, name.text.map Char.toLower ≠ kind.word

namespace Tag

def print (t : Tag) : Text :=
  match t.form with
  | .opening => '<' :: (t.name.text ++ (Attribute.printAll t.attributes ++ ['>']))
  | .closing => '<' :: '/' :: (t.name.text ++ (Attribute.printAll t.attributes ++ ['>']))
  | .selfClosing => '<' :: (t.name.text ++ (Attribute.printAll t.attributes ++ ['/', '>']))

def code (offset : ℕ) (t : Tag) : Scan :=
  match t.form with
  | .opening | .selfClosing =>
    Attribute.codeAll t.name.text (offset + 1 + size t.name.text) t.attributes
  | .closing => Attribute.codeAll [] (offset + 2 + size t.name.text) t.attributes

end Tag

structure RawElement where
  kind : RawKind
  name : Text
  isName : name.map Char.toLower = kind.word
  attributes : List Attribute
  body : Text
  isOpen : ¬ ('<' :: '/' :: kind.word) <:+: body.map Char.toLower
  endName : Text
  isEndName : endName.map Char.toLower = kind.word
  blanks : Text
  isBlank : ∀ c ∈ blanks, Unicode.isBlank c = true

namespace RawElement

def opening (r : RawElement) : Text :=
  '<' :: (r.name ++ (Attribute.printAll r.attributes ++ ['>']))

def ending (r : RawElement) : Text :=
  '<' :: '/' :: (r.endName ++ (r.blanks ++ ['>']))

def print (r : RawElement) : Text :=
  r.opening ++ (r.body ++ r.ending)

def code (offset : ℕ) (r : RawElement) : Scan :=
  Attribute.codeAll r.name (offset + 1 + size r.name) r.attributes ++
    match r.kind with
    | .script => codeOf Astro.script (offset + size r.opening) r.body
    | .style => .empty

end RawElement

inductive Node where
  | text (u : Text) (h : ∀ c ∈ u, c ≠ '<' ∧ c ≠ '{')
  | comment (u : Text) (h : ¬ "-->".toList <:+: "<!--".toList ++ (u ++ "--".toList))
  | tag (t : Tag)
  | raw (r : RawElement)
  | expression (e : Expression)

namespace Node

def print : Node → Text
  | text u _ => u
  | comment u _ => "<!--".toList ++ (u ++ "-->".toList)
  | tag t => t.print
  | raw r => r.print
  | expression e => e.print

def code (offset : ℕ) : Node → Scan
  | text .. | comment .. => .empty
  | tag t => t.code offset
  | raw r => r.code offset
  | expression e => e.code offset

def printAll (nodes : List Node) : Text :=
  nodes.flatMap print

def codeAll : ℕ → List Node → Scan
  | _, [] => .empty
  | offset, n :: ns => n.code offset ++ codeAll (offset + size n.print) ns

end Node

def isFence (line : Text) : Bool :=
  (Text.dropFront? "---".toList line).any (·.all isBlank)

structure Frontmatter where
  body : Text
  noFence : ∀ line ∈ (body.splitOn '\n').tail, isFence line = false
  blanks : Text
  isBlank : ∀ c ∈ blanks, Unicode.isBlank c = true ∧ c ≠ '\n'

namespace Frontmatter

def print (f : Frontmatter) : Text :=
  "---".toList ++ (f.body ++ '\n' :: ("---".toList ++ f.blanks))

def code (f : Frontmatter) : Scan :=
  ⟨[⟨⟨3, 3 + size f.body + 1⟩, script, true⟩], []⟩

end Frontmatter

inductive Document where
  | plain (nodes : List Node) (h : ¬ "---".toList <+: (Node.printAll nodes).dropWhile isBlank)
  | fenced (front : Frontmatter) (nodes : Option (List Node))

namespace Document

def print : Document → Text
  | plain nodes _ => Node.printAll nodes
  | fenced front none => front.print
  | fenced front (some nodes) => front.print ++ '\n' :: Node.printAll nodes

def code : Document → Scan
  | plain nodes _ => Node.codeAll 0 nodes
  | fenced front none => front.code
  | fenced front (some nodes) => front.code ++ Node.codeAll (size front.print + 1) nodes

end Document

end MetaInline.Astro
