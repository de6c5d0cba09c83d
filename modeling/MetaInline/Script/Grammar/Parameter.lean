import MetaInline.Script.Cursor

namespace MetaInline.Script.Grammar

open Parse

def patternElement (g : Rules) (ctx : Context) : Parse Tree := do
  let s ← position
  let p ← g.pattern ctx
  if ← accept .assign then
    let e ← g.assignment ctx.inside
    finish s .withDefault [p, e]
  else return p

def restElement (target : Parse Tree) : Parse Tree := do
  let s ← position
  expect .ellipsis
  let p ← target
  finish s .rest [p]

/-- Items with commas between them up to `close`, of which only the last may begin with dots, and
then without a comma after it. -/
def restList (n : Nat) (close : Punct) (item rest : Parse Tree) : Parse (List Tree) := do
  let (xs, _) ← iterate (fun (xs, more) => do
    if ← accept close then return none
    check more
    if ← isAt .ellipsis then
      let x ← rest
      check (← isAt close)
      return some (x :: xs, false)
    let x ← item
    let more ← accept .comma
    unless more do check (← isAt close)
    return some (x :: xs, more)) n ([], true)
  return xs.reverse

def hole : Parse Tree := do
  let p ← position
  return .node .hole ⟨p, p⟩ []

def arrayPattern (g : Rules) (ctx : Context) : Parse Tree := do
  let s ← position
  expect .lbracket
  let items ← restList g.limit .rbracket (do
    if ← isAt .comma then hole else patternElement g ctx)
    (restElement (g.pattern ctx))
  finish s .arrayPattern items

def propertyPattern (g : Rules) (ctx : Context) : Parse Tree := do
  let s ← position
  let isShort := isName ctx (← token)
  let key ← propertyName g ctx
  if ← accept .colon then
    let p ← patternElement g ctx
    finish s (.property false) [key, p]
  else
    check isShort
    if ← accept .assign then
      let e ← g.assignment ctx.inside
      finish s (.property true) [key, e]
    else finish s (.property true) [key]

def objectPattern (g : Rules) (ctx : Context) : Parse Tree := do
  let s ← position
  expect .lbrace
  let items ← restList g.limit .rbrace (propertyPattern g ctx) (restElement (name ctx))
  finish s .objectPattern items

def pattern (g : Rules) (ctx : Context) : Parse Tree := do
  match ← token with
  | .punct .lbracket => arrayPattern g ctx
  | .punct .lbrace => objectPattern g ctx
  | _ => name ctx

def annotation (g : Rules) (ctx : Context) : Parse (List Tree) := do
  if ctx.typescript then
    if ← accept .colon then return [← g.type ctx.inside]
  return []

def returnType (g : Rules) (ctx : Context) : Parse Tree := do
  let s ← position
  let subject (l : Lexeme) := isName ctx l.token || keywordOf l.token == some .kwThis
  let next ← peek
  if (← isAtWord .kwAsserts) && subject next && !next.newline then
    advance
    let x ← word
    if ← acceptWord .kwIs then finish s .type [x, ← g.type ctx]
    else finish s .type [x]
  else if subject (← lexeme) && keywordOf next.token == some .kwIs && !next.newline then
    let x ← word
    advance
    finish s .type [x, ← g.type ctx]
  else g.type ctx

def returnAnnotation (g : Rules) (ctx : Context) : Parse (List Tree) := do
  if ctx.typescript then
    if ← accept .colon then return [← returnType g ctx.inside]
  return []

def typeParameter (g : Rules) (ctx : Context) : Parse Tree := do
  let s ← position
  let _ ← many g.limit do
    let k := keywordOf (← token)
    if k == some .kwConst || k == some .kwIn || k == some .kwOut then
      if isWord (← peek).token && keywordOf (← peek).token != some .kwExtends then
        advance
        return some ()
    return none
  let x ← name ctx
  let bound ← if ← acceptWord .kwExtends then pure [← g.type ctx] else pure []
  let preset ← if ← accept .assign then pure [← g.type ctx] else pure []
  finish s .type (x :: bound ++ preset)

def typeParameters (g : Rules) (ctx : Context) : Parse (List Tree) := do
  if ctx.typescript then
    if ← accept .less then
      let xs ← commaList g.limit .greater (typeParameter g ctx.inside)
      check !xs.isEmpty
      return xs
  return []

def typeArguments (g : Rules) (ctx : Context) : Parse (List Tree) := do
  reread Lexeme.split
  expect .less
  let xs ← commaList g.limit .greater (g.type ctx.inside)
  check !xs.isEmpty
  return xs

def typeArgumentsHere (g : Rules) (ctx : Context) : Parse (List Tree) := do
  if ctx.typescript && !(← newlineBefore) && ((← isAt .less) || (← isAt .shiftLeft)) then
    typeArguments g ctx
  else return []

def decorators (g : Rules) (ctx : Context) : Parse (List Tree) :=
  many g.limit do
    let s ← position
    if ← accept .atSign then
      let e ← g.read .callable { ctx.inside with allowIndex := false }
      return some (← finish s .decorator [e])
    else return none

def isParameterModifier (k : Keyword) : Bool :=
  [.kwPublic, .kwPrivate, .kwProtected, .kwReadonly, .kwOverride].contains k

def followsModifier (l : Lexeme) : Bool :=
  !l.newline &&
    (beginsPropertyName l.token || l.token == .punct .lbrace || l.token == .punct .ellipsis)

def isAccessModifier (k : Keyword) : Bool :=
  [.kwPublic, .kwPrivate, .kwProtected].contains k

def excludes (k j : Keyword) : Bool :=
  k == j || (isAccessModifier k && isAccessModifier j)

def parameterModifiers (g : Rules) (ctx : Context) : Parse Unit := do
  if ctx.typescript then
    let _ ← iterate (fun seen => do
      match keywordOf (← token) with
      | some k =>
        if isParameterModifier k && followsModifier (← peek) then
          check (!seen.any (excludes k))
          advance
          return some (k :: seen)
        return none
      | none => return none) g.limit []

def parameter (g : Rules) (ctx : Context) : Parse Tree := do
  let s ← position
  let ds ← decorators g ctx
  parameterModifiers g ctx
  let p ← if ctx.typescript && (← isAtWord .kwThis) then word else g.pattern ctx
  if ctx.typescript then
    let _ ← accept .question
  let t ← annotation g ctx
  let preset ← if ← accept .assign then pure [← g.assignment ctx.inside] else pure []
  finish s .parameter (ds ++ p :: t ++ preset)

def restParameter (g : Rules) (ctx : Context) : Parse Tree := do
  let s ← position
  expect .ellipsis
  let p ← g.pattern ctx
  let t ← annotation g ctx
  finish s .rest (p :: t)

def parameters (g : Rules) (ctx : Context) : Parse (List Tree) := do
  expect .lparen
  restList g.limit .rparen (parameter g ctx) (restParameter g ctx)

end MetaInline.Script.Grammar
