import MetaInline.Document.Region
import MetaInline.Module.Id
import MetaInline.Unicode.Blank
import MetaInline.Unicode.Word

/-!
Components in one file. Their code stands in script elements; comments hold none. Tags are
recognised in letters of either case, where the long s counts as an s and the Kelvin sign as a k.
-/

namespace MetaInline

structure ScriptBlock where
  span : Span
  attributes : List (String × String)
deriving DecidableEq

namespace ScriptBlock

def lang? (b : ScriptBlock) : Option String :=
  b.attributes.lookup "lang"

def isExternal (b : ScriptBlock) : Bool :=
  match b.attributes.lookup "src" with
  | some src => !src.toList.all Unicode.isBlank
  | none => false

end ScriptBlock

namespace Component

open Unicode (isBlank isAsciiLetter isAsciiDigit isWord)

def commentSize? (u : Text) : Option Nat := do
  let rest ← Text.dropFront? "<!--".toList u
  let (before, _) ← Text.cut? "-->".toList rest
  return 4 + before.length + 3

def comments : (skip : Nat) → (offset : Nat) → Text → List Span
  | _, _, [] => []
  | skip + 1, offset, c :: cs => comments skip (offset + c.utf8Size) cs
  | 0, offset, c :: cs =>
    match commentSize? (c :: cs) with
    | some n =>
      ⟨offset, offset + Text.size ((c :: cs).take n)⟩ :: comments (n - 1) (offset + c.utf8Size) cs
    | none => comments 0 (offset + c.utf8Size) cs

def isLetter (letter c : Char) : Bool :=
  c == letter || (c.toNat + 32 == letter.toNat) || (letter == 's' && c == '\u017f')

def dropWord? : Text → Text → Option Text
  | [], u => some u
  | _ :: _, [] => none
  | w :: word, c :: u => if isLetter w c then dropWord? word u else none

def splitTag : (quote : Option Char) → Text → Option (Text × Text)
  | _, [] => none
  | some q, c :: cs =>
    (splitTag (if c = q then none else some q) cs).map fun (a, rest) => (c :: a, rest)
  | none, c :: cs =>
    if c = '>' then some ([], cs)
    else
      (splitTag (if c = '"' ∨ c = '\'' then some c else none) cs).map fun (a, rest) =>
        (c :: a, rest)

def dropClosing? (u : Text) : Option Text := do
  let rest ← Text.dropFront? "</".toList u
  let rest ← dropWord? "script".toList rest
  match rest.dropWhile isBlank with
  | '>' :: rest => return rest
  | _ => none

def splitContent : Text → Option (Text × Text)
  | [] => none
  | c :: cs =>
    match dropClosing? (c :: cs) with
    | some rest => some ([], rest)
    | none => (splitContent cs).map fun (body, rest) => (c :: body, rest)

structure Element where
  tagLength : Nat
  attributes : Text
  body : Text
  rest : Text

def splitScript? (u : Text) : Option Element := do
  let rest ← Text.dropFront? ['<'] u
  let rest ← dropWord? "script".toList rest
  guard (!rest.head?.any isWord)
  let (attributes, rest) ← splitTag none rest
  let tagLength := u.length - rest.length
  let (body, rest) ← splitContent rest
  return ⟨tagLength, attributes, body, rest⟩

def isNameChar (c : Char) : Bool :=
  isAsciiLetter c || isAsciiDigit c || c == ':' || c == '@' || c == '-' || c == '\u017f' ||
    c == '\u212a'

def valueAt? (u : Text) : Option (Text × Nat) :=
  let plain :=
    let v := u.takeWhile fun c => c != '>' && !isBlank c
    if v = [] then none else some (v, v.length)
  match u with
  | c :: cs =>
    if c = '"' ∨ c = '\'' then
      let v := cs.takeWhile (· ≠ c)
      if v.length < cs.length then some (v, v.length + 2) else plain
    else plain
  | [] => none

def assigned? (u : Text) : Option (Text × Nat) :=
  let blanks := u.takeWhile isBlank
  match u.drop blanks.length with
  | '=' :: rest =>
    let more := rest.takeWhile isBlank
    (valueAt? (rest.drop more.length)).map fun (v, n) => (v, blanks.length + 1 + more.length + n)
  | _ => none

def setAttribute (name value : String) : List (String × String) → List (String × String)
  | [] => [(name, value)]
  | (n, v) :: as => if n = name then (n, value) :: as else (n, v) :: setAttribute name value as

/-- The attributes of a text in order. One without a value has the value `true`. The next `skip`
characters have been accounted for. -/
def readAttributes : (skip : Nat) → List (String × String) → Text → List (String × String)
  | _, found, [] => found
  | skip + 1, found, _ :: cs => readAttributes skip found cs
  | 0, found, c :: cs =>
    if isNameChar c then
      let name := (c :: cs).takeWhile isNameChar
      let (value, n) := (assigned? ((c :: cs).drop name.length)).getD ("true".toList, 0)
      readAttributes (name.length + n - 1)
        (setAttribute (String.ofList (name.map Char.toLower)) (String.ofList value) found) cs
    else readAttributes 0 found cs

def scripts : (skip : Nat) → (offset : Nat) → Text → List (Nat × ScriptBlock)
  | _, _, [] => []
  | skip + 1, offset, c :: cs => scripts skip (offset + c.utf8Size) cs
  | 0, offset, c :: cs =>
    match splitScript? (c :: cs) with
    | some e =>
      let start := offset + Text.size ((c :: cs).take e.tagLength)
      (offset, ⟨⟨start, start + Text.size e.body⟩, readAttributes 0 [] e.attributes⟩) ::
        scripts (cs.length - e.rest.length) (offset + c.utf8Size) cs
    | none => scripts 0 (offset + c.utf8Size) cs

def scriptBlocks (document : Text) : List ScriptBlock :=
  let hidden := comments 0 0 document
  ((scripts 0 0 document).filter fun (offset, _) =>
    !hidden.any fun s => s.start ≤ offset && offset < s.stop).map (·.2)

def scan (document : Text) : Scan :=
  let blocks := (scriptBlocks document).filter fun b =>
    !b.isExternal && !((Text.slice? document b.span.start b.span.stop).getD []).all isBlank
  ⟨blocks.map fun b => ⟨b.span, Module.dialectOfLang b.lang?, false⟩, []⟩

end Component
end MetaInline
