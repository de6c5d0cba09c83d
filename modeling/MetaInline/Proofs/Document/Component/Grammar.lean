import Mathlib
import MetaInline.Document.Component

namespace MetaInline.Component

open Text (size)
open Unicode (isBlank)

/-- The character is a small letter or its capital; the long s is an s. -/
def IsCaseOf (letter c : Char) : Prop :=
  c = letter ∨ c = letter.toUpper ∨ letter = 's' ∧ c = '\u017f'

def Spells (word u : Text) : Prop :=
  List.Forall₂ IsCaseOf word u

def scriptWord : Text := "script".toList

def Opens (u : Text) : Prop :=
  ∃ w, Spells scriptWord w ∧ '<' :: w <:+: u

def Closes (u : Text) : Prop :=
  ∃ w blanks, Spells scriptWord w ∧ (∀ c ∈ blanks, isBlank c = true) ∧
    '<' :: '/' :: (w ++ (blanks ++ ['>'])) <:+: u

structure Attribute where
  name : Text
  nonempty : name ≠ []
  chars : ∀ c ∈ name,
    ('a' ≤ c ∧ c ≤ 'z') ∨ ('0' ≤ c ∧ c ≤ '9') ∨ c = ':' ∨ c = '@' ∨ c = '-'
  value : Option Text
  unquoted : ∀ v ∈ value, '"' ∉ v

namespace Attribute

def print (a : Attribute) : Text :=
  ' ' :: (a.name ++ match a.value with
    | none => []
    | some v => '=' :: '"' :: (v ++ ['"']))

def meaning (a : Attribute) : Text :=
  a.value.getD "true".toList

end Attribute

structure ScriptElement where
  attributes : List Attribute
  distinct : (attributes.map Attribute.name).Nodup
  body : Text
  isOpen : ¬ Closes body

namespace ScriptElement

def opening (e : ScriptElement) : Text :=
  '<' :: (scriptWord ++ (e.attributes.flatMap Attribute.print ++ ['>']))

def closing : Text :=
  '<' :: '/' :: (scriptWord ++ ['>'])

def print (e : ScriptElement) : Text :=
  e.opening ++ (e.body ++ closing)

def bodySpan (offset : ℕ) (e : ScriptElement) : Span :=
  ⟨offset + size e.opening, offset + size e.opening + size e.body⟩

def block (offset : ℕ) (e : ScriptElement) : ScriptBlock :=
  ⟨e.bodySpan offset, e.attributes.map fun a => (String.ofList a.name, String.ofList a.meaning)⟩

def isCode (e : ScriptElement) : Bool :=
  (e.attributes.all fun a => a.name != "src".toList || a.meaning.all isBlank) && !e.body.all isBlank

def hasMarkup (e : ScriptElement) : Bool :=
  e.attributes.any fun a => a.name == "lang".toList &&
    ["tsx".toList, "jsx".toList].contains (a.meaning.map Char.toLower)

def region (offset : ℕ) (e : ScriptElement) : Region :=
  ⟨e.bodySpan offset, ⟨true, e.hasMarkup, .module, false⟩, false⟩

end ScriptElement

structure Gap where
  text : Text
  noScript : ¬ Opens text

abbrev Parts := List (ScriptElement × Gap)

namespace Parts

def print (parts : Parts) : Text :=
  parts.flatMap fun (e, gap) => e.print ++ gap.text

def placed : ℕ → Parts → List (ℕ × ScriptElement)
  | _, [] => []
  | offset, (e, gap) :: parts => (offset, e) :: placed (offset + size e.print + size gap.text) parts

end Parts

structure Document where
  front : Gap
  parts : Parts
  noComment : ¬ "<!--".toList <:+: front.text ++ parts.print

namespace Document

def print (d : Document) : Text :=
  d.front.text ++ d.parts.print

def elements (d : Document) : List (ℕ × ScriptElement) :=
  d.parts.placed (size d.front.text)

def blocks (d : Document) : List ScriptBlock :=
  d.elements.map fun (offset, e) => e.block offset

def code (d : Document) : Scan :=
  ⟨(d.elements.filter fun (_, e) => e.isCode).map fun (offset, e) => e.region offset, []⟩

end Document

end MetaInline.Component
