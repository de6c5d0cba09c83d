import MetaInline.Script.Grammar.Statement

namespace MetaInline.Script.Grammar

open Parse

def moduleName : Parse Tree := do
  let s ← position
  match ← token with
  | .string x =>
    advance
    return .literal (← spanFrom s) (.string x)
  | _ => failure

def exportedName : Parse Tree := do
  if isWord (← token) then word else moduleName

def importAttributes (g : Rules) : Parse (List Tree) := do
  let isHere := (← isAtWord .kwWith) || ((← isAtWord .kwAssert) && !(← newlineBefore))
  if isHere then
    advance
    expect .lbrace
    commaList g.limit .rbrace do
      let s ← position
      let key ← exportedName
      expect .colon
      let v ← moduleName
      finish s (.property false) [key, v]
  else return []

def fromClause (g : Rules) : Parse (List Tree) := do
  expectWord .kwFrom
  let m ← moduleName
  let as ← importAttributes g
  semicolon
  return m :: as

def isTypeMark (ctx : Context) : Parse Bool := do
  if !(ctx.typescript && (← isAtWord .kwType)) then return false
  lookAhead do
    advance
    if !(← isAtWord .kwAs) then
      return match ← token with
        | .word .. | .string _ => true
        | _ => false
    advance
    if ← acceptWord .kwAs then return isWord (← token)
    return !isWord (← token)

def nameText : Tree → String
  | .node (.identifier x) _ _ => x
  | .literal _ (.string x) => x
  | _ => ""

def importSpecifier (ctx : Context) : Parse Tree := do
  let s ← position
  if ← isTypeMark ctx then advance
  let isLocal := isName ctx (← token)
  let x ← exportedName
  if ← acceptWord .kwAs then
    let y ← name ctx
    finish s .specifier [x, y]
  else
    check isLocal
    finish s .specifier [x]

def importNames (g : Rules) (ctx : Context) : Parse (List Tree) := do
  if ← accept .star then
    expectWord .kwAs
    return [← name ctx]
  else
    expect .lbrace
    commaList g.limit .rbrace (importSpecifier ctx)

def importMark (ctx : Context) : Parse Unit := do
  let isMark ← lookAhead do
    let k := keywordOf (← token)
    advance
    let t ← token
    let fromNext := keywordOf (← peek).token == some .kwFrom
    let equalsNext := (← peek).token == .punct .assign
    let isNamed := isName ctx t && (keywordOf t != some .kwFrom || fromNext)
    match k with
    | some .kwType =>
      return ctx.typescript && (t == .punct .lbrace || t == .punct .star || isNamed ||
        (isName ctx t && equalsNext))
    | some .kwDefer => return t == .punct .star
    | some .kwSource => return isNamed
    | _ => return false
  if isMark then advance

def importEquals (g : Rules) (ctx : Context) (s : Nat) (x : Tree) : Parse Tree := do
  if (← isAtWord .kwRequire) && (← peek).token == .punct .lparen then
    advance
    advance
    let m ← moduleName
    expect .rparen
    semicolon
    finish s .importDeclaration [x, m]
  else
    let ys ← qualifiedName g (name ctx)
    semicolon
    finish s .importDeclaration (x :: ys)

def importAlias (g : Rules) (ctx : Context) : Parse Tree := do
  let s ← position
  expectWord .kwImport
  importMark ctx
  let x ← name ctx
  expect .assign
  importEquals g ctx s x

def importDeclaration (g : Rules) (ctx : Context) : Parse Tree := do
  let s ← position
  expectWord .kwImport
  match ← token with
  | .string _ =>
    let m ← moduleName
    let as ← importAttributes g
    semicolon
    finish s .importDeclaration (m :: as)
  | _ =>
    importMark ctx
    let x ← if isName ctx (← token) then pure [← name ctx] else pure []
    match x with
    | [y] =>
      if ctx.typescript && (← isAt .assign) then
        advance
        importEquals g ctx s y
      else
        let ys ← if ← accept .comma then importNames g ctx else pure []
        let m ← fromClause g
        finish s .importDeclaration (x ++ ys ++ m)
    | _ =>
      let ys ← importNames g ctx
      let m ← fromClause g
      finish s .importDeclaration (ys ++ m)

mutual

def boundNames : Tree → List String
  | .node (.identifier x) _ _ => [x]
  | .node .arrayPattern _ ts | .node .objectPattern _ ts => boundNamesList ts
  | .node .withDefault _ (t :: _) | .node .rest _ (t :: _) | .node .declarator _ (t :: _) =>
    boundNames t
  | .node (.property true) _ (t :: _) => boundNames t
  | .node (.property false) _ [_, t] => boundNames t
  | .node (.declaration _) _ ts => boundNamesList ts
  | .node (.function _ _) _ (t :: _) => boundNames t
  | .node (.classDefinition x) _ _ => [x]
  | _ => []

def boundNamesList : List Tree → List String
  | [] => []
  | t :: ts => boundNames t ++ boundNamesList ts

end

def classDeclaration (g : Rules) (ctx : Context) (s : Nat) (ds : List Tree) (named : Bool) :
    Parse Tree := do
  if ctx.typescript then
    let _ ← acceptWord .kwAbstract
  classAfter g ctx s ds named

def typeDeclaration (g : Rules) (ctx : Context) : Parse Tree := do
  match keywordOf (← token) with
  | some .kwType => typeAlias g ctx
  | some .kwInterface => interface g ctx
  | some .kwEnum | some .kwConst => enumDeclaration g ctx
  | some .kwNamespace | some .kwModule | some .kwGlobal => namespaceDeclaration g ctx
  | some .kwAbstract => classDeclaration g ctx (← position) [] true
  | _ => failure

def plainDeclaration (g : Rules) (ctx : Context) : Parse Tree := do
  if ← startsTypeDeclaration ctx then typeDeclaration g ctx
  else
    match ← variableWord? ctx false with
    | some (word, size) => variableStatement g ctx word size
    | none =>
      match keywordOf (← token) with
      | some .kwFunction => functionDeclaration g ctx true
      | some .kwClass => classDeclaration g ctx (← position) [] true
      | some .kwImport => importAlias g ctx
      | _ =>
        check (← isAtAsyncFunction)
        functionDeclaration g ctx true

def declaration (g : Rules) (ctx : Context) : Parse Tree := do
  if (← isAtWord .kwDeclare) && (← startsTypeDeclaration ctx) then
    advance
    plainDeclaration g { ctx with ambient := true }
  else if ← isAt .atSign then
    let s ← position
    let ds ← decorators g ctx
    classDeclaration g ctx s ds true
  else plainDeclaration g ctx

def exportSpecifier (ctx : Context) : Parse (Tree × Bool) := do
  let s ← position
  if ← isTypeMark ctx then advance
  let isLocal := isName ctx (← token)
  let x ← exportedName
  if ← acceptWord .kwAs then
    let y ← exportedName
    return (← finish s .specifier [x, y], isLocal)
  else return (← finish s .specifier [x], isLocal)

def specifierName : Tree → String
  | .node .specifier _ ts => ts.getLast?.elim "" nameText
  | _ => ""

def exportDefault (g : Rules) (ctx : Context) : Parse Tree := do
  let p ← position
  let next ← peek
  if (← isAtWord .kwFunction) || (← isAtAsyncFunction) then functionDeclaration g ctx false
  else if (← isAtWord .kwClass) || (← isAt .atSign) then
    let ds ← decorators g ctx
    classDeclaration g ctx p ds false
  else if ctx.typescript && (← isAtWord .kwAbstract) && keywordOf next.token == some .kwClass
      && !next.newline then
    classDeclaration g ctx p [] false
  else if ctx.typescript && (← isAtWord .kwInterface) && isName ctx next.token && !next.newline then
    interface g ctx
  else
    let e ← g.assignment ctx.inside
    semicolon
    return e

def startsPlainClass (ctx : Context) : Parse Bool :=
  lookAhead do
    let _ ← acceptWord .kwDefault
    if ctx.typescript then
      let _ ← acceptWord .kwDeclare
      let _ ← acceptWord .kwAbstract
    isAtWord .kwClass

def exportAfter (g : Rules) (ctx : Context) (s : Nat) (ds : List Tree) : Parse Tree := do
  expectWord .kwExport
  check (ds.isEmpty || (← startsPlainClass ctx))
  if ctx.typescript && (← isAtWord .kwType) then
    let next ← peek
    if next.token == .punct .lbrace || next.token == .punct .star then advance
  match ← token with
  | .punct .assign =>
    check ctx.typescript
    advance
    let e ← g.expression ctx.inside
    semicolon
    finish s (.exportDeclaration []) [e]
  | .punct .star =>
    advance
    let x ← if ← acceptWord .kwAs then pure [← exportedName] else pure []
    let m ← fromClause g
    finish s (.exportDeclaration (x.map nameText)) (x ++ m)
  | .punct .lbrace =>
    advance
    let xs ← commaList g.limit .rbrace (exportSpecifier ctx)
    let names := xs.map fun x => specifierName x.1
    if ← isAtWord .kwFrom then
      let m ← fromClause g
      finish s (.exportDeclaration names) (xs.map (·.1) ++ m)
    else
      check (xs.all (·.2))
      semicolon
      finish s (.exportDeclaration names) (xs.map (·.1))
  | t =>
    match keywordOf t with
    | some .kwDefault =>
      advance
      let e ← exportDefault g ctx
      finish s (.exportDeclaration ["default"]) (ds ++ [e])
    | some .kwAs =>
      check ctx.typescript
      advance
      expectWord .kwNamespace
      let x ← name ctx
      semicolon
      finish s (.exportDeclaration []) [x]
    | some .kwImport =>
      check ctx.typescript
      let d ← importAlias g ctx
      finish s (.exportDeclaration []) [d]
    | _ =>
      let d ← declaration g ctx
      finish s (.exportDeclaration (boundNames d)) (ds ++ [d])

def labeled (g : Rules) (ctx : Context) : Parse Tree := do
  let s ← position
  let x ← name ctx
  expect .colon
  let b ← nested g ctx
  finish s .labeled [x, b]

def wordStatement (g : Rules) (ctx : Context) (isNested : Bool) : Parse Tree := do
  let t ← token
  let next ← peek
  if isName ctx t && next.token == .punct .colon then labeled g ctx
  else if ← isAtAsyncFunction then
    check !isNested
    functionDeclaration g ctx true
  else if ← startsTypeDeclaration ctx then declaration g ctx
  else
    match ← variableWord? ctx false with
    | some (word, size) =>
      if isNested && word == "let" && next.token != .punct .lbracket then expressionStatement g ctx
      else
        check (!isNested || word == "var")
        variableStatement g ctx word size
    | none => expressionStatement g ctx

def statement (g : Rules) (ctx : Context) (isNested : Bool) : Parse Tree := do
  let s ← position
  let t ← token
  let next ← peek
  match t with
  | .punct .lbrace => block g ctx
  | .punct .semicolon =>
    advance
    finish s .empty []
  | .punct .atSign =>
    check !isNested
    let ds ← decorators g ctx
    if ← isAtWord .kwExport then exportAfter g ctx s ds else classDeclaration g ctx s ds true
  | .word _ k escaped =>
    match if escaped then none else k with
    | some .kwIf => ifStatement g ctx
    | some .kwDo => doStatement g ctx
    | some .kwWhile => whileStatement g ctx .whileStatement
    | some .kwWith => whileStatement g ctx .withStatement
    | some .kwFor => forStatement g ctx
    | some .kwContinue => jumpStatement ctx "continue"
    | some .kwBreak => jumpStatement ctx "break"
    | some .kwReturn => returnStatement g ctx
    | some .kwSwitch => switchStatement g ctx
    | some .kwThrow => throwStatement g ctx
    | some .kwTry => tryStatement g ctx
    | some .kwDebugger =>
      advance
      semicolon
      finish s .debugger []
    | some .kwFunction =>
      check !(isNested && next.token == .punct .star)
      functionDeclaration g ctx true
    | some .kwClass =>
      check !isNested
      classDeclaration g ctx s [] true
    | some .kwImport =>
      if next.token == .punct .dot || next.token == .punct .lparen then expressionStatement g ctx
      else importDeclaration g ctx
    | some .kwExport => exportAfter g ctx s []
    | _ => wordStatement g ctx isNested
  | _ => expressionStatement g ctx

end MetaInline.Script.Grammar
