import MetaInline.Script.Grammar.Parameter

namespace MetaInline.Script.Grammar

open Parse

def startsParameters (g : Rules) (ctx : Context) : Parse Bool :=
  lookAhead do
    advance
    if (← isAt .rparen) || (← isAt .ellipsis) then return true
    parameterModifiers g ctx
    let t ← token
    if isName ctx t || keywordOf t == some .kwThis then advance
    else if t == .punct .lbracket || t == .punct .lbrace then
      if (← attempt (g.pattern ctx)).isNone then return false
    else return false
    match ← token with
    | .punct .colon | .punct .comma | .punct .question | .punct .assign => return true
    | .punct .rparen =>
      advance
      isAt .arrow
    | _ => return false

def startsFunctionType (g : Rules) (ctx : Context) : Parse Bool := do
  let t ← token
  if t == .punct .less then return true
  else if t == .punct .lparen then startsParameters g ctx
  else if keywordOf t == some .kwNew then return true
  else return keywordOf t == some .kwAbstract && keywordOf (← peek).token == some .kwNew

def functionType (g : Rules) (ctx : Context) : Parse Tree := do
  let s ← position
  let _ ← acceptWord .kwAbstract
  let _ ← acceptWord .kwNew
  let ts ← typeParameters g ctx
  let ps ← parameters g ctx.inside
  expect .arrow
  let r ← returnType g ctx
  finish s .type (ts ++ ps ++ [r])

def qualifiedName (g : Rules) (first : Parse Tree) : Parse (List Tree) := do
  let x ← first
  let xs ← many g.limit do
    if ← accept .dot then
      match ← token with
      | .hidden y =>
        let s ← position
        advance
        return some (← finish s (.hiddenName y) [])
      | _ => return some (← word)
    else return none
  return x :: xs

def typeReference (g : Rules) (ctx : Context) : Parse Tree := do
  let s ← position
  let xs ← qualifiedName g (name { ctx with allowAwait := false, allowYield := false })
  let ts ← typeArgumentsHere g ctx
  finish s .type (xs ++ ts)

def importType (g : Rules) (ctx : Context) : Parse Tree := do
  let s ← position
  expectWord .kwImport
  expect .lparen
  let t ← g.type ctx.inside
  let attributes ← if ← accept .comma then
      if ← isAt .rparen then pure []
      else
        let e ← g.assignment ctx.inside
        let _ ← accept .comma
        pure [e]
    else pure []
  expect .rparen
  let xs ← if ← isAt .dot then
      advance
      qualifiedName g word
    else pure []
  let ts ← typeArgumentsHere g ctx
  finish s .type (t :: attributes ++ xs ++ ts)

def typeQuery (g : Rules) (ctx : Context) : Parse Tree := do
  let s ← position
  expectWord .kwTypeof
  if ← isAtWord .kwImport then
    let t ← importType g ctx
    finish s .type [t]
  else
    let xs ← qualifiedName g do
      if ← isAtWord .kwThis then word else name ctx
    let ts ← typeArgumentsHere g ctx
    finish s .type (xs ++ ts)

def startsIndexSignature (ctx : Context) : Parse Bool :=
  lookAhead do
    if !(← accept .lbracket) then return false
    if !isName ctx (← token) then return false
    advance
    match ← token with
    | .punct .colon | .punct .comma => return true
    | .punct .question =>
      advance
      return (← isAt .colon) || (← isAt .comma) || (← isAt .rbracket)
    | _ => return false

def indexSignature (g : Rules) (ctx : Context) : Parse Tree := do
  let s ← position
  expect .lbracket
  let ps ← commaList g.limit .rbracket (do
    let p ← position
    let x ← name ctx
    let t ← annotation g ctx
    finish p .parameter (x :: t))
  let t ← annotation g ctx
  finish s .type (ps ++ t)

def memberEnd : Parse Unit := do
  unless ← accept .comma do semicolon

def signature (g : Rules) (ctx : Context) : Parse (List Tree) := do
  let ts ← typeParameters g ctx
  let ps ← parameters g ctx
  let r ← returnAnnotation g ctx
  return ts ++ ps ++ r

def typeMember (g : Rules) (ctx : Context) : Parse Tree := do
  let s ← position
  let next ← peek
  let opensSignature (t : Token) : Bool := t == .punct .lparen || t == .punct .less
  if opensSignature (← token) then
    let cs ← signature g ctx
    memberEnd
    finish s .type cs
  else if (← isAtWord .kwNew) && opensSignature next.token then
    advance
    let cs ← signature g ctx
    memberEnd
    finish s .type cs
  else
    let _ ← acceptModifier .kwReadonly
    if ← startsIndexSignature ctx then
      let t ← indexSignature g ctx
      memberEnd
      return t
    if ← isAtAccessor then advance
    let key ← propertyName g ctx
    let _ ← accept .question
    let cs ← if opensSignature (← token) then signature g ctx else annotation g ctx
    memberEnd
    finish s .type (key :: cs)

def typeMembers (g : Rules) (ctx : Context) : Parse (List Tree) := do
  expect .lbrace
  let ctx := ctx.inside
  many g.limit do
    if ← accept .rbrace then return none
    return some (← typeMember g ctx)

def startsMappedType : Parse Bool :=
  lookAhead do
    if !(← accept .lbrace) then return false
    if (← accept .plus) || (← accept .minus) then return ← isAtWord .kwReadonly
    let _ ← acceptModifier .kwReadonly
    if !(← accept .lbracket) then return false
    if !isWord (← token) then return false
    advance
    isAtWord .kwIn

def mappedType (g : Rules) (ctx : Context) : Parse Tree := do
  let s ← position
  expect .lbrace
  if (← accept .plus) || (← accept .minus) then expectWord .kwReadonly
  else
    let _ ← acceptWord .kwReadonly
  expect .lbracket
  let x ← word
  expectWord .kwIn
  let keys ← g.type ctx
  let renamed ← if ← acceptWord .kwAs then pure [← g.type ctx] else pure []
  expect .rbracket
  if (← accept .plus) || (← accept .minus) then expect .question
  else
    let _ ← accept .question
  let t ← annotation g ctx
  let _ ← accept .semicolon
  expect .rbrace
  finish s .type (x :: keys :: renamed ++ t)

def tupleElement (g : Rules) (ctx : Context) : Parse Tree := do
  let s ← position
  let _ ← accept .ellipsis
  let isNamed ← lookAhead do
    if !isWord (← token) then return false
    advance
    let _ ← accept .question
    isAt .colon
  if isNamed then
    let x ← word
    let _ ← accept .question
    expect .colon
    let t ← g.type ctx
    finish s .type [x, t]
  else
    let t ← g.type ctx
    let _ ← accept .question
    finish s .type [t]

def tupleType (g : Rules) (ctx : Context) : Parse Tree := do
  let s ← position
  expect .lbracket
  let ts ← commaList g.limit .rbracket (tupleElement g ctx.inside)
  finish s .type ts

def templateType (g : Rules) (ctx : Context) : Parse Tree := do
  let s ← position
  let ts ← many g.limit do
    match ← token with
    | .template cooked closed =>
      check cooked.isSome
      advance
      if closed then return none
      let t ← g.type ctx.inside
      check (← isAt .rbrace)
      reread Lexeme.templateRest
      return some t
    | _ => failure
  finish s .type ts

def simpleType (g : Rules) (ctx : Context) : Parse Tree := do
  let s ← position
  match ← token with
  | .word _ k escaped =>
    match if escaped then none else k with
    | some .kwTypeof => typeQuery g ctx
    | some .kwImport => importType g ctx
    | some .kwVoid | some .kwNull | some .kwTrue | some .kwFalse | some .kwThis =>
      let x ← word
      finish s .type [x]
    | _ => typeReference g ctx
  | .string _ | .number _ | .bigint _ =>
    advance
    finish s .type []
  | .punct .minus =>
    advance
    match ← token with
    | .number _ | .bigint _ =>
      advance
      finish s .type []
    | _ => failure
  | .template .. => templateType g ctx
  | .punct .lbrace =>
    if ← startsMappedType then mappedType g ctx.inside
    else finish s .type (← typeMembers g ctx)
  | .punct .lbracket => tupleType g ctx
  | .punct .lparen =>
    advance
    let t ← g.type ctx.inside
    expect .rparen
    finish s .type [t]
  | .punct .question | .punct .bang =>
    advance
    let t ← g.read .typeOperand ctx
    finish s .type [t]
  | _ => failure

def followsOptionalType : Token → Bool
  | .punct .comma | .punct .rparen | .punct .rbracket | .punct .rbrace | .punct .greater
  | .punct .assign | .punct .semicolon | .done => true
  | _ => false

def suffixedType (g : Rules) (ctx : Context) : Parse Tree := do
  let s ← position
  let t ← simpleType g ctx
  iterate (fun t => do
    if ← newlineBefore then return none
    match ← token with
    | .punct .lbracket =>
      advance
      if ← accept .rbracket then return some (← finish s .type [t])
      let i ← g.type ctx.inside
      expect .rbracket
      return some (← finish s .type [t, i])
    | .punct .bang =>
      advance
      return some (← finish s .type [t])
    | .punct .question =>
      if followsOptionalType (← peek).token then
        advance
        return some (← finish s .type [t])
      return none
    | _ => return none) g.limit t

/-- The bound after a name to be inferred, unless it is the condition of a conditional type. -/
def inferredBound (g : Rules) (ctx : Context) : Parse Tree := do
  expectWord .kwExtends
  let t ← g.type { ctx with allowCondition := false }
  check (!ctx.allowCondition || !(← isAt .question))
  return t

def typeOperand (g : Rules) (ctx : Context) : Parse Tree := do
  let s ← position
  match keywordOf (← token) with
  | some .kwKeyof | some .kwUnique | some .kwReadonly =>
    advance
    let t ← g.read .typeOperand ctx
    finish s .type [t]
  | some .kwInfer =>
    advance
    let x ← name ctx
    let bound ← attempt (inferredBound g ctx)
    finish s .type (x :: bound.toList)
  | _ => suffixedType g ctx

def joinedTypes (g : Rules) (op : Punct) (item : Parse Tree) : Parse Tree := do
  let s ← position
  let _ ← accept op
  let t ← item
  let ts ← many g.limit do
    if ← accept op then return some (← item) else return none
  if ts.isEmpty then return t else finish s .type (t :: ts)

def type (g : Rules) (ctx : Context) : Parse Tree := do
  let s ← position
  if ← startsFunctionType g ctx then functionType g ctx
  else
    let t ← joinedTypes g .bar (joinedTypes g .amp (g.read .typeOperand ctx))
    if ctx.allowCondition && !(← newlineBefore) && (← isAtWord .kwExtends) then
      advance
      let bound ← g.type { ctx with allowCondition := false }
      expect .question
      let yes ← g.type ctx
      expect .colon
      let no ← g.type ctx
      finish s .type [t, bound, yes, no]
    else return t

end MetaInline.Script.Grammar
