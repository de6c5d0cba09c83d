import MetaInline.Script.Grammar.Expression

namespace MetaInline.Script.Grammar

open Parse

def isDestructuring : Tree → Bool
  | .node .arrayPattern _ _ | .node .objectPattern _ _ => true
  | _ => false

def declarator (g : Rules) (ctx : Context) (constant inHead : Bool) : Parse Tree := do
  let s ← position
  let p ← g.pattern ctx
  if ctx.typescript && !isDestructuring p && !(← newlineBefore) then
    let _ ← accept .bang
  let t ← annotation g ctx
  if ← accept .assign then
    let e ← g.assignment ctx
    finish s .declarator (p :: t ++ [e])
  else
    check (inHead || ctx.ambient || !(constant || isDestructuring p))
    finish s .declarator (p :: t)

def declarators (g : Rules) (ctx : Context) (s : Nat) (word : String) (inHead : Bool) :
    Parse Tree := do
  let constant := word != "var" && word != "let"
  let ds ← commaSeparated g.limit (declarator g ctx constant inHead)
  finish s (.declaration word) ds

/-- The word that begins a declaration of variables here, with the number of its tokens. In the head
of a loop `using of` begins a loop over the members of something. -/
def variableWord? (ctx : Context) (inHead : Bool) : Parse (Option (String × Nat)) := do
  let next ← peek
  let isBound := isName ctx next.token
  match keywordOf (← token) with
  | some .kwVar => return some ("var", 1)
  | some .kwConst => return some ("const", 1)
  | some .kwLet =>
    if isBound || next.token == .punct .lbracket || next.token == .punct .lbrace then
      return some ("let", 1)
    else return none
  | some .kwUsing =>
    if isBound && !next.newline && !(inHead && keywordOf next.token == some .kwOf) then
      return some ("using", 1)
    else return none
  | some .kwAwait =>
    let isUsing ← lookAhead do
      advance
      if (← newlineBefore) || !(← isAtWord .kwUsing) then return false
      let next ← peek
      return isName ctx next.token && !next.newline
    if isUsing && ctx.allowAwait then return some ("await using", 2) else return none
  | _ => return none

def variableStatement (g : Rules) (ctx : Context) (word : String) (size : Nat) : Parse Tree := do
  let s ← position
  advance
  if size = 2 then advance
  let t ← declarators g ctx s word false
  semicolon
  match t with
  | .node k _ ts => finish s k ts
  | t => return t

def condition (g : Rules) (ctx : Context) : Parse Tree := do
  expect .lparen
  let e ← g.expression ctx.inside
  expect .rparen
  return e

def nested (g : Rules) (ctx : Context) : Parse Tree :=
  g.read (.statement true) ctx

def ifStatement (g : Rules) (ctx : Context) : Parse Tree := do
  let s ← position
  advance
  let e ← condition g ctx
  let yes ← nested g ctx
  if ← acceptWord .kwElse then
    let no ← nested g ctx
    finish s .ifStatement [e, yes, no]
  else finish s .ifStatement [e, yes]

def doStatement (g : Rules) (ctx : Context) : Parse Tree := do
  let s ← position
  advance
  let b ← nested g ctx
  expectWord .kwWhile
  let e ← condition g ctx
  let _ ← accept .semicolon
  finish s .doWhile [b, e]

def whileStatement (g : Rules) (ctx : Context) (kind : Kind) : Parse Tree := do
  let s ← position
  advance
  let e ← condition g ctx
  let b ← nested g ctx
  finish s kind [e, b]

def overRest (g : Rules) (ctx : Context) (s : Nat) (left : Tree) (awaits : Bool) : Parse Tree := do
  let overKeys ← isAtWord .kwIn
  check !(awaits && overKeys)
  advance
  let e ← if overKeys then g.expression ctx.inside else g.assignment ctx.inside
  expect .rparen
  let b ← nested g ctx
  finish s (if overKeys then .forIn else .forOf) [left, e, b]

def steppedRest (g : Rules) (ctx : Context) (s : Nat) (first : List Tree) : Parse Tree := do
  expect .semicolon
  let test ← if ← isAt .semicolon then pure [] else pure [← g.expression ctx.inside]
  expect .semicolon
  let step ← if ← isAt .rparen then pure [] else pure [← g.expression ctx.inside]
  expect .rparen
  let b ← nested g ctx
  finish s .forStatement (first ++ test ++ step ++ [b])

def isAtOver : Parse Bool := do
  return (← isAtWord .kwIn) || (← isAtWord .kwOf)

def forStatement (g : Rules) (ctx : Context) : Parse Tree := do
  let s ← position
  advance
  let awaits ← if ctx.allowAwait then acceptWord .kwAwait else pure false
  expect .lparen
  let head := { ctx.inside with allowIn := false }
  if ← isAt .semicolon then
    check !awaits
    steppedRest g ctx s []
  else
    match ← variableWord? ctx true with
    | some (word, size) =>
      let p ← position
      advance
      if size = 2 then advance
      let t ← declarators g head p word true
      if ← isAtOver then
        check (size = 1 && word != "using" || !(← isAtWord .kwIn))
        overRest g ctx s t awaits
      else
        check (!awaits && word != "await using")
        match t with
        | .node _ _ ds =>
          check (ds.all fun
            | .node .declarator _ [d] => word != "const" && !isDestructuring d
            | _ => true)
        | _ => pure ()
        steppedRest g ctx s [t]
    | none =>
      let next ← peek
      let isAsyncOf := (← isAtWord .kwAsync) && keywordOf next.token == some .kwOf
      let isArrow ← lookAhead do
        advance
        advance
        isAt .arrow
      check (!isAsyncOf || awaits || isArrow)
      let e ← g.expression head
      if ← isAtOver then
        settle e
        overRest g ctx s e awaits
      else
        check !awaits
        steppedRest g ctx s [e]

def jumpStatement (ctx : Context) (word : String) : Parse Tree := do
  let s ← position
  advance
  let label ← if !(← newlineBefore) && isName ctx (← token) then pure [← name ctx] else pure []
  semicolon
  finish s (.jump word) label

def returnStatement (g : Rules) (ctx : Context) : Parse Tree := do
  let s ← position
  check ctx.allowReturn
  advance
  let isEmpty := (← newlineBefore) || (← isAt .semicolon) || (← isAt .rbrace) || (← isAtDone)
  let e ← if isEmpty then pure [] else pure [← g.expression ctx.inside]
  semicolon
  finish s (.jump "return") e

def throwStatement (g : Rules) (ctx : Context) : Parse Tree := do
  let s ← position
  advance
  check !(← newlineBefore)
  let e ← g.expression ctx.inside
  semicolon
  finish s (.jump "throw") [e]

def switchCase (g : Rules) (ctx : Context) : Parse Tree := do
  let s ← position
  let test ← if ← acceptWord .kwDefault then pure [] else
      expectWord .kwCase
      pure [← g.expression ctx.inside]
  expect .colon
  let xs ← many g.limit do
    if (← isAtWord .kwCase) || (← isAtWord .kwDefault) || (← isAt .rbrace) then return none
    return some (← g.statement ctx.inside)
  finish s .switchCase (test ++ xs)

def switchStatement (g : Rules) (ctx : Context) : Parse Tree := do
  let s ← position
  advance
  let e ← condition g ctx
  expect .lbrace
  let cs ← many g.limit do
    if ← accept .rbrace then return none
    return some (← switchCase g ctx)
  finish s .switch (e :: cs)

def catchClause (g : Rules) (ctx : Context) : Parse Tree := do
  let s ← position
  expectWord .kwCatch
  let p ← if ← accept .lparen then
      let p ← g.pattern ctx.inside
      let t ← annotation g ctx
      expect .rparen
      pure (p :: t)
    else pure []
  let b ← block g ctx
  finish s .catchClause (p ++ [b])

def tryStatement (g : Rules) (ctx : Context) : Parse Tree := do
  let s ← position
  advance
  let b ← block g ctx
  let c ← if ← isAtWord .kwCatch then pure [← catchClause g ctx] else pure []
  let f ← if ← acceptWord .kwFinally then pure [← block g ctx] else pure []
  check (!(c.isEmpty && f.isEmpty))
  finish s .tryStatement (b :: c ++ f)

def expressionStatement (g : Rules) (ctx : Context) : Parse Tree := do
  let s ← position
  let e ← g.expression ctx.inside
  semicolon
  finish s .expressionStatement [e]

def typeAlias (g : Rules) (ctx : Context) : Parse Tree := do
  let s ← position
  expectWord .kwType
  let x ← name ctx
  let ts ← typeParameters g ctx
  expect .assign
  let t ← g.type ctx.inside
  semicolon
  finish s .typeAlias (x :: ts ++ [t])

def interface (g : Rules) (ctx : Context) : Parse Tree := do
  let s ← position
  expectWord .kwInterface
  let x ← name ctx
  let ts ← typeParameters g ctx
  let bases ← if ← acceptWord .kwExtends then
      commaSeparated g.limit do
        let s ← position
        let e ← g.read .callable ctx.inside
        let ts ← typeArgumentsHere g ctx
        if ts.isEmpty then return e else finish s .type (e :: ts)
    else pure []
  let ms ← typeMembers g ctx
  finish s .interface (x :: ts ++ bases ++ ms)

def enumMember (g : Rules) (ctx : Context) : Parse Tree := do
  let s ← position
  let key ← propertyName g ctx
  match key with
  | .node (.identifier _) _ _ | .literal _ (.string _) => pure ()
  | .node .computedName _ [.literal _ (.string _)] => pure ()
  | _ => failure
  let e ← if ← accept .assign then pure [← g.assignment ctx] else pure []
  finish s .enumMember (key :: e)

def enumDeclaration (g : Rules) (ctx : Context) : Parse Tree := do
  let s ← position
  let _ ← acceptWord .kwConst
  expectWord .kwEnum
  let x ← name ctx
  expect .lbrace
  let ms ← commaList g.limit .rbrace (enumMember g ctx.inside)
  finish s .enum (x :: ms)

def namespaceDeclaration (g : Rules) (ctx : Context) : Parse Tree := do
  let s ← position
  let ctx := { ctx with allowReturn := false }
  if ← isAtWord .kwGlobal then
    let x ← word
    let b ← block g ctx
    finish s .namespaceBlock [x, b]
  else
    advance
    match ← token with
    | .string x =>
      let p ← position
      advance
      let key := .literal (← spanFrom p) (.string x)
      if ← isAt .lbrace then
        let b ← block g ctx
        finish s .namespaceBlock [key, b]
      else
        semicolon
        finish s .namespaceBlock [key]
    | _ =>
      let xs ← qualifiedName g (name ctx)
      let b ← block g ctx
      finish s .namespaceBlock (xs ++ [b])

def startsTypeDeclaration (ctx : Context) : Parse Bool := do
  if !ctx.typescript then return false
  let next ← peek
  let isNamed := isName ctx next.token && !next.newline
  match keywordOf (← token) with
  | some .kwEnum => return true
  | some .kwConst => return keywordOf next.token == some .kwEnum
  | some .kwType | some .kwInterface => return isNamed
  | some .kwNamespace => return isNamed
  | some .kwModule =>
    return isNamed || (!next.newline && match next.token with | .string _ => true | _ => false)
  | some .kwGlobal => return next.token == .punct .lbrace
  | some .kwAbstract => return keywordOf next.token == some .kwClass && !next.newline
  | some .kwDeclare =>
    return !next.newline && match keywordOf next.token with
      | some .kwVar | some .kwLet | some .kwConst | some .kwFunction | some .kwAsync
      | some .kwClass | some .kwEnum | some .kwAbstract | some .kwInterface | some .kwType
      | some .kwNamespace | some .kwModule | some .kwGlobal | some .kwImport | some .kwUsing => true
      | _ => false
  | _ => return false

end MetaInline.Script.Grammar
