import MetaInline.Script.Grammar.Type

namespace MetaInline.Script.Grammar

open Parse

def tagWord : Parse String := do
  reread Lexeme.hyphenated
  match ← token with
  | .word x _ false =>
    advance
    return x
  | _ => failure

def tagName (g : Rules) : Parse String := do
  let x ← tagWord
  if ← accept .colon then
    let y ← tagWord
    return x ++ ":" ++ y
  else
    iterate (fun x => do
      if ← accept .dot then
        let y ← tagWord
        return some (x ++ "." ++ y)
      else return none) g.limit x

def openContainer (g : Rules) (ctx : Context) (s : Nat) (mayBeEmpty : Bool) : Parse Tree := do
  expect .lbrace
  if mayBeEmpty && (← isAt .rbrace) then
    return .node .container ⟨s, (← lexeme).stop⟩ []
  let isSpread ← if mayBeEmpty then accept .ellipsis else pure false
  let e ← g.assignment ctx.inside
  check (← isAt .rbrace)
  return .node (if isSpread then .spread false else .container) ⟨s, (← lexeme).stop⟩ [e]

def enterValue : Parse Unit :=
  modify fun c => { c with lexeme := c.lexeme.attributeValue, lastStop := c.lexeme.stop }

def attributeValue (g : Rules) (ctx : Context) : Parse Tree := do
  let s ← position
  match ← token with
  | .string x =>
    advance
    return .literal (← spanFrom s) (.string x)
  | .punct .lbrace =>
    let e ← openContainer g ctx s false
    advance
    return e
  | .punct .less =>
    let e ← g.read .element ctx
    advance
    return e
  | _ => failure

def elementAttribute (g : Rules) (ctx : Context) : Parse Tree := do
  let s ← position
  if ← accept .lbrace then
    expect .ellipsis
    let e ← g.assignment ctx.inside
    expect .rbrace
    finish s (.spread false) [e]
  else
    let _ ← tagWord
    if ← accept .colon then
      let _ ← tagWord
    if ← isAt .assign then
      enterValue
      finish s .tagAttribute [← attributeValue g ctx]
    else finish s .tagAttribute []

def childText : Parse (List Tree) := do
  let c ← get
  let (text, sign) := c.lexeme.elementText
  set { c with lexeme := sign, lastStop := c.lexeme.stop }
  if text.isEmpty then return []
  else return [.node .elementText ⟨c.lexeme.stop, sign.start⟩ []]

def children (g : Rules) (ctx : Context) : Parse (List Tree) := do
  let first ← childText
  let (xs, _) ← iterate (fun (xs, _) => do
    let s ← position
    match ← token with
    | .punct .lbrace =>
      let e ← openContainer g ctx s true
      let ys ← childText
      return some (ys ++ e :: xs, ())
    | .punct .less =>
      if (← peek).token == .punct .slash then return none
      let e ← g.read .element ctx
      let ys ← childText
      return some (ys ++ e :: xs, ())
    | _ => failure) g.limit (first, ())
  return xs.reverse

def closingTag (g : Rules) (tag : String) : Parse Unit := do
  expect .less
  expect .slash
  let found ← if ← isAt .greater then pure "" else tagName g
  check (found == tag)
  check (← isAt .greater)

/-- An element, up to its last sign, which is left to be read. -/
def element (g : Rules) (ctx : Context) : Parse Tree := do
  let s ← position
  let ctx := ctx.inside
  expect .less
  if ← isAt .greater then
    let cs ← children g ctx
    closingTag g ""
    return .node .element ⟨s, (← lexeme).stop⟩ cs
  else
    let p ← position
    let tag ← tagName g
    let x ← finish p (.elementName tag) []
    let ts ← if ctx.typescript && (← isAt .less) then typeArguments g ctx else pure []
    let attributes ← many g.limit do
      if (← isAt .greater) || (← isAt .slash) then return none
      return some (← elementAttribute g ctx)
    if ← accept .slash then
      check (← isAt .greater)
      return .node .element ⟨s, (← lexeme).stop⟩ (x :: ts ++ attributes)
    else
      let cs ← children g ctx
      closingTag g tag
      return .node .element ⟨s, (← lexeme).stop⟩ (x :: ts ++ attributes ++ cs)

end MetaInline.Script.Grammar
