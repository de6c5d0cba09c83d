import MetaInline.Literal.Numeric
import MetaInline.Pattern.Basic
import MetaInline.Text.Basic
import MetaInline.Unicode.Blank
import MetaInline.Unicode.CaseFold
import MetaInline.Unicode.Word

/-!
Reading patterns. There is no looking around and there are no references to groups; a brace begins
a count, and a letter or digit after a backslash must have a meaning.
-/

namespace MetaInline.Pattern

abbrev Chars := Char → Bool

structure Flags where
  ignoreCase : Bool
  multiLine : Bool
  dotAll : Bool
  unicode : Bool
  crlf : Bool
  verbose : Bool
deriving DecidableEq

namespace Flags

def initial : Flags := ⟨false, false, false, true, false, false⟩

def set? (f : Flags) (c : Char) (on : Bool) : Option Flags :=
  match c with
  | 'i' => some { f with ignoreCase := on }
  | 'm' => some { f with multiLine := on }
  | 's' => some { f with dotAll := on }
  | 'u' => some { f with unicode := on }
  | 'R' => some { f with crlf := on }
  | 'x' => some { f with verbose := on }
  | 'U' => some f
  | _ => none

end Flags

def folded (f : Flags) (s : Chars) : Chars :=
  if f.ignoreCase then fun c => (Unicode.caseVariants c).any s else s

def digits (f : Flags) : Chars :=
  if f.unicode then Unicode.isDigit else Unicode.isAsciiDigit

def wordChars (f : Flags) : Chars :=
  if f.unicode then Unicode.isWord else fun c => c.toNat < 128 && Unicode.isWord c

def blanks (f : Flags) : Chars :=
  if f.unicode then Unicode.isBlank else fun c => c.toNat < 128 && Unicode.isBlank c

def letterClass? (f : Flags) (c : Char) : Option Chars :=
  match c with
  | 'd' => some (digits f)
  | 'D' => some fun c => !digits f c
  | 's' => some (blanks f)
  | 'S' => some fun c => !blanks f c
  | 'w' => some (wordChars f)
  | 'W' => some fun c => !wordChars f c
  | _ => none

def namedClasses : List (Text × Chars) := [
  ("alnum".toList, fun c => Unicode.isAsciiLetter c || Unicode.isAsciiDigit c),
  ("alpha".toList, Unicode.isAsciiLetter),
  ("ascii".toList, fun c => c.toNat < 128),
  ("blank".toList, fun c => c == ' ' || c == '\t'),
  ("cntrl".toList, fun c => c.toNat < 32 || c.toNat == 127),
  ("digit".toList, Unicode.isAsciiDigit),
  ("graph".toList, fun c => 33 ≤ c.toNat && c.toNat ≤ 126),
  ("lower".toList, fun c => 'a' ≤ c && c ≤ 'z'),
  ("print".toList, fun c => 32 ≤ c.toNat && c.toNat ≤ 126),
  ("punct".toList, fun c => 33 ≤ c.toNat && c.toNat ≤ 126 &&
    !(Unicode.isAsciiLetter c || Unicode.isAsciiDigit c)),
  ("space".toList, fun c => c == ' ' || (9 ≤ c.toNat && c.toNat ≤ 13)),
  ("upper".toList, fun c => 'A' ≤ c && c ≤ 'Z'),
  ("word".toList, fun c => Unicode.isAsciiLetter c || Unicode.isAsciiDigit c || c == '_'),
  ("xdigit".toList, fun c => Unicode.isAsciiDigit c || ('a' ≤ c && c ≤ 'f') ||
    ('A' ≤ c && c ≤ 'F'))]

def readNamedClass? (cs : Text) : Option (Chars × Text) := do
  let cs ← Text.dropFront? "[:".toList cs
  let (negated, cs) := match cs with
    | '^' :: cs => (true, cs)
    | cs => (false, cs)
  let (name, rest) := cs.span (· != ':')
  let rest ← Text.dropFront? ":]".toList rest
  let s ← namedClasses.lookup name
  return (if negated then fun c => !s c else s, rest)

def isMeta (c : Char) : Bool :=
  "\\.+*?()|[]\x7b\x7d^$#&-~".toList.contains c

def isEscapable (c : Char) : Bool :=
  isMeta c || (c.toNat < 128 && !Unicode.isAsciiLetter c && !Unicode.isAsciiDigit c &&
    c != '<' && c != '>')

def hexChar? (ds : Text) : Option Char := do
  let n ← Numeric.ofDigits? 16 ds
  if n.isValidChar then return Char.ofNat n else none

def readHex? (width : Nat) (cs : Text) : Option (Char × Text) :=
  match cs with
  | '{' :: cs =>
    let (ds, rest) := cs.span (· != '}')
    match rest with
    | '}' :: rest => (hexChar? ds).map (·, rest)
    | _ => none
  | cs => if cs.length < width then none else (hexChar? (cs.take width)).map (·, cs.drop width)

inductive Escape where
  | char (c : Char)
  | set (s : Chars)
  | boundary (b : Boundary)

def namedBoundary? (name : Text) : Option Boundary :=
  [("start".toList, Boundary.wordStart), ("end".toList, .wordEnd),
    ("start-half".toList, .wordStartHalf), ("end-half".toList, .wordEndHalf)].lookup name

def readBoundary? (cs : Text) : Option (Escape × Text) :=
  match cs with
  | '{' :: c :: cs' =>
    if Unicode.isAsciiLetter c || c == '-' then
      let (name, rest) := (c :: cs').span (· != '}')
      match rest with
      | '}' :: rest => (namedBoundary? name).map (.boundary ·, rest)
      | _ => none
    else some (.boundary .word, cs)
  | ['{'] => none
  | cs => some (.boundary .word, cs)

def readEscape? (f : Flags) (cs : Text) : Option (Escape × Text) :=
  match cs with
  | [] => none
  | c :: cs =>
    match letterClass? f c with
    | some s => some (.set s, cs)
    | none =>
      if isEscapable c then some (.char c, cs)
      else
        match c with
        | 'x' => (readHex? 2 cs).map fun (c, rest) => (.char c, rest)
        | 'u' => (readHex? 4 cs).map fun (c, rest) => (.char c, rest)
        | 'U' => (readHex? 8 cs).map fun (c, rest) => (.char c, rest)
        | 'a' => some (.char '\x07', cs)
        | 'f' => some (.char '\x0c', cs)
        | 't' => some (.char '\t', cs)
        | 'n' => some (.char '\n', cs)
        | 'r' => some (.char '\r', cs)
        | 'v' => some (.char '\x0b', cs)
        | 'A' => some (.boundary .textStart, cs)
        | 'z' => some (.boundary .textEnd, cs)
        | 'b' => readBoundary? cs
        | 'B' => some (.boundary .notWord, cs)
        | '<' => some (.boundary .wordStart, cs)
        | '>' => some (.boundary .wordEnd, cs)
        | _ => none

def readItem? (f : Flags) (cs : Text) : Option ((Char ⊕ Chars) × Text) :=
  match cs with
  | [] => none
  | '\\' :: cs =>
    match readEscape? f cs with
    | some (.char c, rest) => some (.inl c, rest)
    | some (.set s, rest) => some (.inr s, rest)
    | _ => none
  | c :: cs => some (.inl c, cs)

def readRange? (f : Flags) (cs : Text) : Option (Chars × Text) := do
  let (x, cs) ← readItem? f cs
  let single : Chars := match x with
    | .inl c => (· == c)
    | .inr s => s
  match cs with
  | '-' :: ']' :: _ | '-' :: '-' :: _ => return (single, cs)
  | '-' :: cs =>
    let (y, rest) ← readItem? f cs
    match x, y with
    | .inl a, .inl b => if a ≤ b then return (fun c => a ≤ c && c ≤ b, rest) else none
    | _, _ => none
  | cs => return (single, cs)

def combine : Char → Chars → Chars → Chars
  | '&', s, t => fun c => s c && t c
  | '-', s, t => fun c => s c && !t c
  | _, s, t => fun c => s c != t c

/-- The rest of a class after its opening bracket: `left` is what stands before the last operator,
`items` what stands after it. -/
def readClass? (f : Flags) : (limit : Nat) → (left : Option (Char × Chars)) → (items : Chars) →
    Text → Option (Chars × Text)
  | 0, _, _, _ => none
  | n + 1, left, items, cs =>
    let all := match left with
      | some (op, s) => combine op s (folded f items)
      | none => folded f items
    let add (s : Chars) : Chars := fun c => items c || s c
    let range := (readRange? f cs).bind fun (s, rest) => readClass? f n left (add s) rest
    match cs with
    | [] => none
    | ']' :: cs => some (all, cs)
    | '[' :: cs' =>
      match readNamedClass? cs with
      | some (s, rest) => readClass? f n left (add s) rest
      | none =>
        (openClass? f n cs').bind fun (s, rest) => readClass? f n left (add s) rest
    | '&' :: '&' :: cs => readClass? f n (some ('&', all)) (fun _ => false) cs
    | '-' :: '-' :: cs => readClass? f n (some ('-', all)) (fun _ => false) cs
    | '~' :: '~' :: cs => readClass? f n (some ('~', all)) (fun _ => false) cs
    | c :: cs =>
      if f.verbose && Unicode.isBlank c then readClass? f n left items cs else range
where
  openClass? (f : Flags) : Nat → Text → Option (Chars × Text)
  | 0, _ => none
  | n + 1, cs =>
    let (negated, cs) := match cs with
      | '^' :: cs => (true, cs)
      | cs => (false, cs)
    let (hyphens, cs) := cs.span (· == '-')
    let (first, cs) : Chars × Text := match hyphens, cs with
      | [], ']' :: cs => ((· == ']'), cs)
      | [], cs => (fun _ => false, cs)
      | _, cs => ((· == '-'), cs)
    (readClass? f n none first cs).map fun (s, rest) =>
      (if negated then fun c => !s c else s, rest)

def readFlags? : (on : Bool) → (last : Option Char) → Flags → Text → Option (Flags × Bool × Text)
  | _, _, _, [] => none
  | on, last, f, c :: cs =>
    if c = ')' then if last = some '-' then none else some (f, false, cs)
    else if c = ':' then if last = some '-' then none else some (f, true, cs)
    else if c = '-' then if on then readFlags? false (some '-') f cs else none
    else (f.set? c on).bind fun f => readFlags? on (some c) f cs

def distinctFlags (cs : Text) : Bool :=
  decide ((cs.takeWhile fun c => c != ')' && c != ':').Nodup)

def readNumber? (cs : Text) : Option (Nat × Text) :=
  let cs := cs.dropWhile Unicode.isBlank
  let (ds, rest) := cs.span Unicode.isAsciiDigit
  let n := ds.foldl (fun n c => 10 * n + (c.toNat - '0'.toNat)) 0
  if ds = [] ∨ Nat.pow 2 32 ≤ n then none else some (n, rest.dropWhile Unicode.isBlank)

def readCount? (cs : Text) : Option (Nat × Option Nat × Text) := do
  let (least, cs) ← readNumber? cs
  match cs with
  | '}' :: cs => return (least, some least, cs)
  | ',' :: cs =>
    match cs.dropWhile Unicode.isBlank with
    | '}' :: cs => return (least, none, cs)
    | cs =>
      let (most, cs) ← readNumber? cs
      match cs with
      | '}' :: cs => if least ≤ most then return (least, some most, cs) else none
      | _ => none
  | _ => none

/-- A repetition may be marked to prefer few. That does not matter for whether there is a match. -/
def skipLazy : Text → Text
  | '?' :: cs => cs
  | cs => cs

def isGroupNameStart (c : Char) : Bool :=
  c == '_' || (Unicode.isIdStart c && c != '$')

def isGroupNamePart (c : Char) : Bool :=
  c == '_' || c == '.' || c == '[' || c == ']' || (Unicode.isIdPart c && c != '$')

def readGroupName? (names : List Text) (cs : Text) : Option (Text × Text) := do
  let (name, rest) := cs.span (· != '>')
  let rest ← Text.dropFront? ['>'] rest
  match name with
  | c :: more =>
    guard (isGroupNameStart c ∧ more.all isGroupNamePart ∧ !names.contains name)
    return (name, rest)
  | [] => none

/-- What is read so far inside a group: the alternatives before, the parts of the present one, the
last of which may be repeated, the names of groups, and the flags. -/
structure Progress where
  before : Option Pattern
  parts : Pattern
  last : Option Pattern
  names : List Text
  flags : Flags

namespace Progress

def start (names : List Text) (f : Flags) : Progress := ⟨none, .empty, none, names, f⟩

def sequence (p : Progress) : Pattern :=
  match p.last with
  | some q => .seq p.parts q
  | none => p.parts

def add (p : Progress) (q : Pattern) : Progress :=
  { p with parts := p.sequence, last := some q }

def close (p : Progress) : Progress :=
  { p with parts := p.sequence, last := none }

def finish (p : Progress) : Pattern :=
  match p.before with
  | some q => .alt q p.sequence
  | none => p.sequence

def alternative (p : Progress) : Progress :=
  { p with before := some p.finish, parts := .empty, last := none }

def repeated? (p : Progress) (least : Nat) (most : Option Nat) : Option Progress :=
  p.last.map fun q => { p with last := some (.times q least most) }

end Progress

def dot (f : Flags) : Chars := fun c =>
  f.dotAll || !(c == '\n' || (f.crlf && c == '\r'))

def literal (f : Flags) (c : Char) : Pattern :=
  .char (folded f (· == c))

def readAll? : (limit : Nat) → Progress → Text → Option (Pattern × List Text × Text)
  | 0, _, _ => none
  | n + 1, p, cs =>
    let f := p.flags
    let go (p : Progress) (cs : Text) := readAll? n p cs
    let group (f' : Flags) (names : List Text) (cs : Text) := do
      let (q, names, rest) ← readAll? n (.start names f') cs
      match rest with
      | ')' :: rest => readAll? n { p.add q with names := names } rest
      | _ => none
    match cs with
    | [] => some (p.finish, p.names, [])
    | ')' :: cs => some (p.finish, p.names, ')' :: cs)
    | '|' :: cs => go p.alternative cs
    | '*' :: cs => (p.repeated? 0 none).bind (go · (skipLazy cs))
    | '+' :: cs => (p.repeated? 1 none).bind (go · (skipLazy cs))
    | '?' :: cs => (p.repeated? 0 (some 1)).bind (go · (skipLazy cs))
    | '{' :: cs => do
      let (least, most, cs) ← readCount? cs
      let p ← p.repeated? least most
      go p (skipLazy cs)
    | '.' :: cs => go (p.add (.char (dot f))) cs
    | '^' :: cs => go (p.add (.boundary (if f.multiLine then .lineStart f.crlf else .textStart))) cs
    | '$' :: cs => go (p.add (.boundary (if f.multiLine then .lineEnd f.crlf else .textEnd))) cs
    | '[' :: cs => (readClass?.openClass? f n cs).bind fun (s, rest) => go (p.add (.char s)) rest
    | '\\' :: cs =>
      (readEscape? f cs).bind fun (e, rest) =>
        match e with
        | .char c => go (p.add (literal f c)) rest
        | .set s => go (p.add (.char s)) rest
        | .boundary b => go (p.add (.boundary b)) rest
    | '(' :: '?' :: cs =>
      match cs with
      | 'P' :: '<' :: cs =>
        (readGroupName? p.names cs).bind fun (name, rest) => group f (name :: p.names) rest
      | '<' :: cs =>
        (readGroupName? p.names cs).bind fun (name, rest) => group f (name :: p.names) rest
      | cs => do
        guard (distinctFlags cs)
        let (f', opens, rest) ← readFlags? true none f cs
        if opens then group f' p.names rest
        else
          guard (cs.head? ≠ some ')')
          go { p.close with flags := f' } rest
    | '(' :: cs => group f p.names cs
    | c :: cs =>
      if f.verbose && Unicode.isBlank c then go p cs
      else if f.verbose && c == '#' then go p (cs.dropWhile (· != '\n'))
      else go (p.add (literal f c)) cs

def maxWeight : Nat := 300000

def parse? (cs : Text) : Option Pattern := do
  let (p, _, rest) ← readAll? (2 * cs.length + 2) (.start [] .initial) cs
  guard (rest = [])
  guard (p.weight ≤ maxWeight)
  return p

end MetaInline.Pattern
