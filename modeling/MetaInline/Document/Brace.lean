/-!
The end of an expression in braces. The scanner looks only at the signs that open and close strings,
templates, comments and braces; it works on any characters that have such signs among them.
-/

namespace MetaInline.Brace

inductive Sign where
  | backslash
  | quote (double : Bool)
  | backtick
  | dollar
  | lbrace
  | rbrace
  | slash
  | star
  | newline
  | other
deriving DecidableEq

def Sign.ofCode (n : Nat) : Sign :=
  if n = 0x5c then .backslash
  else if n = 0x22 then .quote true
  else if n = 0x27 then .quote false
  else if n = 0x60 then .backtick
  else if n = 0x24 then .dollar
  else if n = 0x7b then .lbrace
  else if n = 0x7d then .rbrace
  else if n = 0x2f then .slash
  else if n = 0x2a then .star
  else if n = 0x0a then .newline
  else .other

def Sign.ofChar (c : Char) : Sign :=
  Sign.ofCode c.toNat

def Sign.ofByte (b : UInt8) : Sign :=
  Sign.ofCode b.toNat

inductive Mode where
  | code
  | string (double : Bool)
  | lineComment
  | blockComment
deriving DecidableEq

/-- The number of braces open, and for each template open the number of braces open around it. -/
structure State where
  mode : Mode
  depth : Nat
  templates : List Nat
deriving DecidableEq

namespace State

def inTemplate (s : State) : Bool :=
  s.templates.head? == some s.depth

end State

inductive Move where
  | one (s : State)
  | two (s : State)
  | closes
  | fails

/-- What the scanner does at `x` where `next` comes after it, if anything does. A backslash hides the
sign after it everywhere but in comments. -/
def move (s : State) (x : Sign) (next : Option Sign) : Move :=
  match s.mode with
  | .lineComment => .one (if x = .newline then { s with mode := .code } else s)
  | .blockComment =>
    if x = .star ∧ next = some .slash then .two { s with mode := .code } else .one s
  | .string double =>
    if x = .backslash then if next.isSome then .two s else .fails
    else .one (if x = .quote double then { s with mode := .code } else s)
  | .code =>
    if x = .backslash then if next.isSome then .two s else .fails
    else if s.inTemplate then
      if x = .dollar ∧ next = some .lbrace then .two { s with depth := s.depth + 1 }
      else .one (if x = .backtick then { s with templates := s.templates.tail } else s)
    else
      match x with
      | .quote double => .one { s with mode := .string double }
      | .backtick => .one { s with templates := s.depth :: s.templates }
      | .slash =>
        if next = some .star then .two { s with mode := .blockComment }
        else if next = some .slash then .two { s with mode := .lineComment }
        else .one s
      | .lbrace => .one { s with depth := s.depth + 1 }
      | .rbrace =>
        match s.depth with
        | 0 => .fails
        | 1 => .closes
        | depth + 2 => .one { s with depth := depth + 1 }
      | _ => .one s

def scan : State → Nat → List Sign → Option Nat
  | _, _, [] => none
  | s, n, x :: xs =>
    match move s x xs.head?, xs with
    | .one s, xs => scan s (n + 1) xs
    | .two s, _ :: xs => scan s (n + 2) xs
    | .two _, [] => none
    | .closes, _ => some (n + 1)
    | .fails, _ => none

def size? {α : Type} (sign : α → Sign) (cs : List α) : Option Nat :=
  scan ⟨.code, 0, []⟩ 0 (cs.map sign)

end MetaInline.Brace
