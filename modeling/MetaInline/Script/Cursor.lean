import MetaInline.Script.Lexer
import MetaInline.Script.Tree

/-!
Reading a token stream. A `Parse` reads tokens from a cursor or fails; what it has read when it
fails is forgotten, so alternatives can be tried one after the other.
-/

namespace MetaInline.Script

/-- The current token, the end of the token before it, and the places of the defaults that stand in
object literals and are right only if the literal turns out to be a pattern. -/
structure Cursor where
  lexeme : Lexeme
  lastStop : Nat
  markup : Bool
  pendingDefaults : List Nat

abbrev Parse := StateT Cursor Option

namespace Parse

variable {α β : Type}

def lexeme : Parse Lexeme := do
  return (← get).lexeme

def token : Parse Token := do
  return (← get).lexeme.token

def advance : Parse Unit :=
  modify fun c => { c with lexeme := c.lexeme.next c.markup, lastStop := c.lexeme.stop }

def reread (f : Lexeme → Lexeme) : Parse Unit :=
  modify fun c => { c with lexeme := f c.lexeme }

def peek : Parse Lexeme := do
  let c ← get
  return c.lexeme.next c.markup

def check (b : Bool) : Parse Unit :=
  if b then pure () else failure

def isAt (p : Punct) : Parse Bool := do
  return (← token) == .punct p

def isAtDone : Parse Bool := do
  return (← token) == .done

def keywordOf : Token → Option Keyword
  | .word _ k false => k
  | _ => none

def isAtWord (k : Keyword) : Parse Bool := do
  return keywordOf (← token) == some k

def accept (p : Punct) : Parse Bool := do
  if ← isAt p then
    advance
    return true
  else return false

def acceptWord (k : Keyword) : Parse Bool := do
  if ← isAtWord k then
    advance
    return true
  else return false

def expect (p : Punct) : Parse Unit := do
  check (← accept p)

def expectWord (k : Keyword) : Parse Unit := do
  check (← acceptWord k)

def newlineBefore : Parse Bool := do
  return (← get).lexeme.newline

def position : Parse Nat := do
  return (← get).lexeme.start

def spanFrom (start : Nat) : Parse Span := do
  return ⟨start, (← get).lastStop⟩

def lookAhead (p : Parse α) : Parse α := fun c =>
  (p c).map fun (a, _) => (a, c)

def attempt (p : Parse α) : Parse (Option α) := fun c =>
  match p c with
  | some (a, c') => some (some a, c')
  | none => some (none, c)

def iterate (step : α → Parse (Option α)) : Nat → α → Parse α
  | 0, _ => failure
  | n + 1, a => fun c =>
    match step a c with
    | none => none
    | some (none, c) => some (a, c)
    | some (some a, c) => iterate step n a c

def many (n : Nat) (item : Parse (Option α)) : Parse (List α) := do
  let xs ← iterate (fun xs => do return (← item).map (· :: xs)) n []
  return xs.reverse

def commaList (n : Nat) (close : Punct) (item : Parse α) : Parse (List α) := do
  let (xs, _) ← iterate (fun (xs, more) => do
    if ← accept close then return none
    check more
    let x ← item
    let more ← accept .comma
    if more then return some (x :: xs, true)
    check (← isAt close)
    return some (x :: xs, false)) n ([], true)
  return xs.reverse

def commaSeparated (n : Nat) (item : Parse α) : Parse (List α) := do
  let x ← item
  let xs ← many n do
    if ← accept .comma then return some (← item) else return none
  return x :: xs

def semicolon : Parse Unit := do
  unless ← accept .semicolon do
    check ((← newlineBefore) || (← isAt .rbrace) || (← isAtDone))

def finish (start : Nat) (kind : Kind) (children : List Tree) : Parse Tree := do
  return .node kind (← spanFrom start) children

end Parse

structure Context where
  typescript : Bool
  jsx : Bool
  allowIn : Bool
  allowAwait : Bool
  allowYield : Bool
  allowReturn : Bool
  /-- A bracket begins an index, and not the name of the next class member. -/
  allowIndex : Bool
  allowCondition : Bool
  ambient : Bool

namespace Context

def inside (ctx : Context) : Context :=
  { ctx with allowIn := true, allowIndex := true, allowCondition := true }

def callable (ctx : Context) (isAsync isGenerator : Bool) : Context :=
  { ctx.inside with allowAwait := isAsync, allowYield := isGenerator, allowReturn := true }

end Context

inductive Goal where
  | expression
  /-- An expression without commas. `typed` tells whether a colon after the parameters of an arrow
  function may begin its type. -/
  | assignment (typed : Bool)
  | binary (level : Nat)
  | unary
  | callable
  | member
  | statement (nested : Bool)
  | pattern
  | type
  | typeOperand
  | element

/-- How the constructs are read that contain themselves, and how many repetitions are enough for
the text. -/
structure Rules where
  limit : Nat
  read : Goal → Context → Parse Tree

namespace Rules

def expression (g : Rules) (ctx : Context) : Parse Tree := g.read .expression ctx

def assignment (g : Rules) (ctx : Context) : Parse Tree := g.read (.assignment true) ctx

def type (g : Rules) (ctx : Context) : Parse Tree := g.read .type ctx

def statement (g : Rules) (ctx : Context) : Parse Tree := g.read (.statement false) ctx

def pattern (g : Rules) (ctx : Context) : Parse Tree := g.read .pattern ctx

end Rules

def isName (ctx : Context) : Token → Bool
  | .word _ none _ => true
  | .word _ (some k) _ =>
    !k.isReserved && !(k == .kwAwait && ctx.allowAwait) && !(k == .kwYield && ctx.allowYield)
  | _ => false

def isWord : Token → Bool
  | .word .. => true
  | _ => false

def beginsPropertyName : Token → Bool
  | .word .. | .string _ | .number _ | .bigint _ | .hidden _ | .punct .lbracket => true
  | _ => false

def name (ctx : Context) : Parse Tree := do
  let s ← Parse.position
  let t ← Parse.token
  match t with
  | .word x _ _ =>
    Parse.check (isName ctx t)
    Parse.advance
    Parse.finish s (.identifier x) []
  | _ => failure

def word : Parse Tree := do
  let s ← Parse.position
  match ← Parse.token with
  | .word x _ _ =>
    Parse.advance
    Parse.finish s (.identifier x) []
  | _ => failure

def propertyName (g : Rules) (ctx : Context) : Parse Tree := do
  let s ← Parse.position
  match ← Parse.token with
  | .word x _ _ =>
    Parse.advance
    Parse.finish s (.identifier x) []
  | .string x =>
    Parse.advance
    return .literal (← Parse.spanFrom s) (.string x)
  | .number x =>
    Parse.advance
    return .literal (← Parse.spanFrom s) (.number x)
  | .bigint x =>
    Parse.advance
    return .literal (← Parse.spanFrom s) (.bigint x)
  | .hidden x =>
    Parse.advance
    Parse.finish s (.hiddenName x) []
  | .punct .lbracket =>
    Parse.advance
    let e ← g.assignment ctx.inside
    Parse.expect .rbracket
    Parse.finish s .computedName [e]
  | _ => failure

def isAtAccessor : Parse Bool := do
  return ((← Parse.isAtWord .kwGet) || (← Parse.isAtWord .kwSet)) &&
    beginsPropertyName (← Parse.peek).token

def acceptModifier (k : Keyword) : Parse Bool := do
  if ← Parse.isAtWord k then
    let next ← Parse.peek
    if !next.newline && (beginsPropertyName next.token || next.token == .punct .star) then
      Parse.advance
      return true
  return false

end MetaInline.Script
