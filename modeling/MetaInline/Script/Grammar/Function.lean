import MetaInline.Script.Grammar.Type

namespace MetaInline.Script.Grammar

open Parse

def block (g : Rules) (ctx : Context) : Parse Tree := do
  let s ← position
  expect .lbrace
  let xs ← many g.limit do
    if ← accept .rbrace then return none
    return some (← g.statement ctx.inside)
  finish s .block xs

def functionBody (g : Rules) (ctx : Context) (declares : Bool) : Parse (List Tree) := do
  if (← isAt .lbrace) || !(declares && ctx.typescript) then return [← block g ctx]
  else
    semicolon
    return []

def callable (g : Rules) (ctx : Context) (isAsync isGenerator declares : Bool) :
    Parse (List Tree) := do
  let ctx := ctx.callable isAsync isGenerator
  let ts ← typeParameters g ctx
  let ps ← parameters g ctx
  let r ← returnAnnotation g ctx
  let b ← functionBody g ctx declares
  return ts ++ ps ++ r ++ b

def isAtAsyncFunction : Parse Bool := do
  let next ← peek
  return (← isAtWord .kwAsync) && keywordOf next.token == some .kwFunction && !next.newline

def functionExpression (g : Rules) (ctx : Context) : Parse Tree := do
  let s ← position
  let isAsync ← acceptWord .kwAsync
  expectWord .kwFunction
  let isGenerator ← accept .star
  let inner := ctx.callable isAsync isGenerator
  let x ← if isName inner (← token) then pure [← name inner] else pure []
  let cs ← callable g ctx isAsync isGenerator false
  finish s (.function isAsync isGenerator) (x ++ cs)

def functionDeclaration (g : Rules) (ctx : Context) (named : Bool) : Parse Tree := do
  let s ← position
  let isAsync ← acceptWord .kwAsync
  expectWord .kwFunction
  let isGenerator ← accept .star
  let x ← if named || isName ctx (← token) then pure [← name ctx] else pure []
  let cs ← callable g ctx isAsync isGenerator true
  finish s (.function isAsync isGenerator) (x ++ cs)

def accessorBody (g : Rules) (ctx : Context) (writes declares : Bool) : Parse (List Tree) := do
  let ctx := ctx.callable false false
  let ts ← typeParameters g ctx
  let ps ← parameters g ctx
  match ps with
  | [] => check !writes
  | [.node .rest _ _] => failure
  | [_] => check writes
  | _ => failure
  let r ← returnAnnotation g ctx
  let b ← functionBody g ctx declares
  return ts ++ ps ++ r ++ b

def isMemberModifier (ctx : Context) (k : Keyword) : Bool :=
  [.kwStatic, .kwAccessor].contains k ||
    ctx.typescript && [.kwAbstract, .kwDeclare, .kwOverride, .kwPrivate, .kwProtected, .kwPublic,
      .kwReadonly].contains k

/-- The modifiers before a class member, the last one first. After `static` that word is a name. -/
def memberModifiers (g : Rules) (ctx : Context) : Parse (List Keyword) :=
  iterate (fun seen => do
    match keywordOf (← token) with
    | some k =>
      let next ← peek
      let follows := beginsPropertyName next.token || next.token == .punct .star
      let isName := k == .kwStatic && seen.contains k
      if isMemberModifier ctx k && follows && (k == .kwStatic || !next.newline) && !isName then
        check (!seen.any (excludes k))
        advance
        return some (k :: seen)
      return none
    | none => return none) g.limit []

inductive MemberForm where
  | method
  | otherMethod
  | field
deriving DecidableEq

def keyText? : Tree → Option String
  | .node (.identifier x) _ _ => some x
  | .literal _ (.string x) => some x
  | _ => none

def mayBeNamed (form : MemberForm) (isStatic : Bool) (key : Tree) : Bool :=
  match key with
  | .node (.hiddenName x) _ _ => x != "constructor"
  | key =>
    if keyText? key == some "constructor" then
      form == .method || (form == .otherMethod && isStatic)
    else keyText? key != some "prototype" || !isStatic

def fieldContext (ctx : Context) : Context :=
  { ctx.inside with allowAwait := false, allowYield := false }

def methodOrField (g : Rules) (ctx : Context) (s : Nat) (ds : List Tree) (modifiers : List Keyword)
    (isAsync : Bool) : Parse Tree := do
  let isStatic := modifiers.contains .kwStatic
  let isGenerator ← accept .star
  let key ← propertyName g ctx
  if ctx.typescript then
    unless ← accept .question do
      let _ ← accept .bang
  if isGenerator || isAsync || (← isAt .lparen) || (← isAt .less) then
    let form := if isGenerator || isAsync then .otherMethod else .method
    check (mayBeNamed form isStatic key && !modifiers.contains .kwAccessor)
    let cs ← callable g ctx isAsync isGenerator true
    finish s .method (ds ++ key :: cs)
  else
    check (mayBeNamed .field isStatic key)
    let t ← annotation g ctx
    let e ← if ← accept .assign then pure [← g.assignment (fieldContext ctx)] else pure []
    semicolon
    finish s .field (ds ++ key :: t ++ e)

def classMember (g : Rules) (ctx : Context) : Parse Tree := do
  let s ← position
  let ds ← decorators g ctx
  if (← isAtWord .kwStatic) && (← peek).token == .punct .lbrace then
    advance
    let b ← block g { ctx with allowAwait := true, allowYield := false, allowReturn := false }
    finish s .staticBlock [b]
  else
    let modifiers ← memberModifiers g ctx
    if ← acceptModifier .kwAsync then methodOrField g ctx s ds modifiers true
    else if ← isAtAccessor then
      let writes ← isAtWord .kwSet
      advance
      let key ← propertyName g ctx
      check (mayBeNamed .otherMethod (modifiers.contains .kwStatic) key &&
        !modifiers.contains .kwAccessor)
      let cs ← accessorBody g ctx writes true
      finish s .accessor (ds ++ key :: cs)
    else if ctx.typescript && (← startsIndexSignature ctx) then
      let t ← indexSignature g ctx
      memberEnd
      return t
    else methodOrField g ctx s ds modifiers false

def classBody (g : Rules) (ctx : Context) : Parse Tree := do
  let s ← position
  expect .lbrace
  let xs ← many g.limit do
    if ← accept .rbrace then return none
    if ← isAt .semicolon then
      let s ← position
      advance
      return some (← finish s .empty [])
    return some (← classMember g ctx.inside)
  finish s .classBody xs

def heritage (g : Rules) (ctx : Context) : Parse (List Tree) := do
  let base ← if ← acceptWord .kwExtends then
      let e ← g.read .callable ctx.inside
      let ts ← if ctx.typescript && (← isAt .less) then typeArguments g ctx else pure []
      pure (e :: ts)
    else pure []
  let faces ← if ctx.typescript && (← isAtWord .kwImplements) then
      advance
      commaSeparated g.limit (typeReference g ctx)
    else pure []
  return base ++ faces

def classAfter (g : Rules) (ctx : Context) (s : Nat) (ds : List Tree) (named : Bool) :
    Parse Tree := do
  expectWord .kwClass
  let isFace := keywordOf (← token) == some .kwImplements && isWord (← peek).token
  let x ← if named || (isName ctx (← token) && !(ctx.typescript && isFace)) then
      pure [← name ctx]
    else pure []
  let className := match x with
    | [.node (.identifier y) _ _] => y
    | _ => ""
  let ts ← typeParameters g ctx
  let hs ← heritage g ctx
  let b ← classBody g { ctx with ambient := false }
  finish s (.classDefinition className) (ds ++ x ++ ts ++ hs ++ [b])

def classExpression (g : Rules) (ctx : Context) : Parse Tree := do
  let s ← position
  let ds ← decorators g ctx
  classAfter g ctx s ds false

end MetaInline.Script.Grammar
