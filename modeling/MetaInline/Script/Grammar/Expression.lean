import MetaInline.Script.Grammar.Element
import MetaInline.Script.Grammar.Function

namespace MetaInline.Script.Grammar

open Parse

def isReference : Tree → Bool
  | .member .. | .index .. => true
  | .node (.identifier _) _ _ | .node (.hiddenMember _) _ _ => true
  | .parens _ t => isReference t
  | .node (.typeCast false) _ (t :: _) | .node (.typeCast true) _ [_, t] => isReference t
  | .node .nonNull _ (t :: _) => isReference t
  | _ => false

mutual

def isTarget : Tree → Bool
  | .node .array _ ts => areElementTargets ts
  | .node .object _ ts => arePropertyTargets ts
  | .member .. | .index .. => true
  | .node (.identifier _) _ _ | .node (.hiddenMember _) _ _ => true
  | .parens _ t => isReference t
  | .node (.typeCast false) _ (t :: _) | .node (.typeCast true) _ [_, t] => isReference t
  | .node .nonNull _ (t :: _) => isReference t
  | _ => false

def areElementTargets : List Tree → Bool
  | [] => true
  | [.node (.spread false) _ [t]] => isTarget t
  | .node .hole _ _ :: ts => areElementTargets ts
  | .node (.assignment .assign) _ (t :: _) :: ts => isTarget t && areElementTargets ts
  | t :: ts => isTarget t && areElementTargets ts

def arePropertyTargets : List Tree → Bool
  | [] => true
  | [.node (.spread false) _ [t]] => isReference t
  | .node (.property true) _ _ :: ts => arePropertyTargets ts
  | .node (.property false) _ [_, .node (.assignment .assign) _ (t :: _)] :: ts =>
    isTarget t && arePropertyTargets ts
  | .node (.property false) _ [_, t] :: ts => isTarget t && arePropertyTargets ts
  | _ => false

end

mutual

def settledDefaults : Tree → List Nat
  | .node .array _ ts | .node .object _ ts => settledDefaultsList ts
  | .node (.spread _) _ ts => settledDefaultsList ts
  | .node (.assignment .assign) _ (t :: _) => settledDefaults t
  | .node (.property true) s [_, _] => [s.start]
  | .node (.property false) _ [_, t] => settledDefaults t
  | _ => []

def settledDefaultsList : List Tree → List Nat
  | [] => []
  | t :: ts => settledDefaults t ++ settledDefaultsList ts

end

def settle (t : Tree) : Parse Unit := do
  check (isTarget t)
  let settled := settledDefaults t
  modify fun c => { c with pendingDefaults := c.pendingDefaults.filter (!settled.contains ·) }

def templateParts (g : Rules) (ctx : Context) (tagged : Bool) : Parse (List Tree) := do
  let (ts, _) ← iterate (fun (ts, more) => do
    if !more then return none
    let s ← position
    match ← token with
    | .template cooked closed =>
      check (tagged || cooked.isSome)
      advance
      let piece := .literal (← spanFrom s) (.string (cooked.getD ""))
      if closed then return some (piece :: ts, false)
      let e ← g.expression ctx.inside
      check (← isAt .rbrace)
      reread Lexeme.templateRest
      return some (e :: piece :: ts, true)
    | _ => failure) g.limit ([], true)
  return ts.reverse

def template (g : Rules) (ctx : Context) : Parse Tree := do
  let s ← position
  match ← templateParts g ctx false with
  | [t] => return t
  | ts => finish s .template ts

def spreadOr (g : Rules) (ctx : Context) : Parse Tree := do
  let s ← position
  if ← accept .ellipsis then
    let e ← g.assignment ctx
    finish s (.spread (← isAt .comma)) [e]
  else g.assignment ctx

def array (g : Rules) (ctx : Context) : Parse Tree := do
  let s ← position
  expect .lbracket
  let ts ← commaList g.limit .rbracket do
    if ← isAt .comma then hole else spreadOr g ctx.inside
  finish s .array ts

/-- Notes a default that is right only if the literal around it turns out to be a pattern. -/
def noteDefault (place : Nat) : Parse Unit :=
  modify fun c => { c with pendingDefaults := place :: c.pendingDefaults }

def shorthandProperty (g : Rules) (ctx : Context) (s : Nat) (key : Tree) : Parse Tree := do
  if ← accept .assign then
    let e ← g.assignment ctx
    noteDefault s
    finish s (.property true) [key, e]
  else finish s (.property true) [key]

def objectMember (g : Rules) (ctx : Context) : Parse Tree := do
  let s ← position
  if ← accept .ellipsis then
    let e ← g.assignment ctx
    finish s (.spread (← isAt .comma)) [e]
  else
    let isAsync ← acceptModifier .kwAsync
    if !isAsync && (← isAtAccessor) then
      let writes ← isAtWord .kwSet
      advance
      let key ← propertyName g ctx
      let cs ← accessorBody g ctx writes false
      finish s .accessor (key :: cs)
    else
      let isGenerator ← accept .star
      let isShort := isName ctx (← token)
      check (!(match ← token with | .hidden _ => true | _ => false))
      let key ← propertyName g ctx
      if isAsync || isGenerator || (← isAt .lparen) || (← isAt .less) then
        let cs ← callable g ctx isAsync isGenerator false
        finish s .method (key :: cs)
      else if ← accept .colon then
        let e ← g.assignment ctx
        finish s (.property false) [key, e]
      else
        check isShort
        shorthandProperty g ctx s key

def object (g : Rules) (ctx : Context) : Parse Tree := do
  let s ← position
  expect .lbrace
  let ts ← commaList g.limit .rbrace (objectMember g ctx.inside)
  finish s .object ts

def leaf (f : Span → Tree) : Parse Tree := do
  let s ← position
  advance
  return f (← spanFrom s)

def primary (g : Rules) (ctx : Context) : Parse Tree := do
  let s ← position
  match ← token with
  | .word x k escaped =>
    match if escaped then none else k with
    | some .kwThis => leaf fun sp => .node .this sp []
    | some .kwNull => leaf fun sp => .literal sp .null
    | some .kwTrue => leaf fun sp => .literal sp (.bool true)
    | some .kwFalse => leaf fun sp => .literal sp (.bool false)
    | some .kwFunction => functionExpression g ctx
    | some .kwClass => classExpression g ctx
    | _ =>
      if ← isAtAsyncFunction then functionExpression g ctx
      else
        check (isName ctx (← token))
        leaf fun sp => .node (.identifier x) sp []
  | .string x => leaf fun sp => .literal sp (.string x)
  | .number x => leaf fun sp => .literal sp (.number x)
  | .bigint x => leaf fun sp => .literal sp (.bigint x)
  | .template .. => template g ctx
  | .punct .slash | .punct .slashAssign =>
    reread Lexeme.regexp
    match ← token with
    | .regexp r => leaf fun sp => .literal sp (.regexp r)
    | _ => failure
  | .punct .lparen =>
    advance
    let e ← g.expression ctx.inside
    expect .rparen
    return .parens (← spanFrom s) e
  | .punct .lbracket => array g ctx
  | .punct .lbrace => object g ctx
  | .punct .atSign => classExpression g ctx
  | _ => failure

def arguments (g : Rules) (ctx : Context) : Parse (List Tree) := do
  expect .lparen
  commaList g.limit .rparen (spreadOr g ctx.inside)

def importArguments (g : Rules) (ctx : Context) (s : Nat) : Parse Tree := do
  expect .lparen
  let e ← g.assignment ctx.inside
  let options ← if ← accept .comma then
      if ← isAt .rparen then pure []
      else
        let o ← g.assignment ctx.inside
        let _ ← accept .comma
        pure [o]
    else pure []
  expect .rparen
  finish s .importCall (e :: options)

def importExpression (g : Rules) (ctx : Context) : Parse Tree := do
  let s ← position
  expectWord .kwImport
  if ← accept .dot then
    if ← isAtWord .kwMeta then
      advance
      return .importMeta (← spanFrom s)
    else
      check ((← isAtWord .kwSource) || (← isAtWord .kwDefer))
      advance
      importArguments g ctx s
  else importArguments g ctx s

def beginsTemplate : Token → Bool
  | .template .. => true
  | _ => false

def bindingLevel? (ctx : Context) (t : Token) : Option Nat :=
  match t with
  | .punct p =>
    match p with
    | .coalesce => some 1
    | .orOr => some 2
    | .andAnd => some 3
    | .bar => some 4
    | .caret => some 5
    | .amp => some 6
    | .eqEq | .notEq | .eqEqEq | .notEqEq => some 7
    | .less | .greater | .lessEq | .greaterEq => some 8
    | .shiftLeft | .shiftRight | .shiftRightZero => some 9
    | .plus | .minus => some 10
    | .star | .slash | .percent => some 11
    | .starStar => some 12
    | _ => none
  | t =>
    match keywordOf t with
    | some .kwInstanceof => some 8
    | some .kwIn => if ctx.allowIn then some 8 else none
    | some .kwAs | some .kwSatisfies => if ctx.typescript then some 8 else none
    | _ => none

def beginsExpression (ctx : Context) : Token → Bool
  | .number _ | .bigint _ | .string _ | .template .. | .regexp _ | .hidden _ => true
  | .punct p =>
    [.lparen, .lbracket, .lbrace, .slash, .slashAssign, .plus, .minus, .tilde, .bang, .plusPlus,
      .minusMinus, .less, .atSign].contains p
  | .word x k escaped =>
    match if escaped then none else k with
    | some .kwThis | some .kwSuper | some .kwNull | some .kwTrue | some .kwFalse
    | some .kwFunction | some .kwClass | some .kwNew | some .kwDelete | some .kwTypeof
    | some .kwVoid | some .kwAwait | some .kwYield | some .kwImport => true
    | _ => isName ctx (.word x k escaped)
  | _ => false

def followsTypes (ctx : Context) (l : Lexeme) : Bool :=
  match l.token with
  | .punct .lparen | .template .. => true
  | .punct .less | .punct .greater | .punct .plus | .punct .minus => false
  | t => l.newline || (bindingLevel? ctx t).isSome || !beginsExpression ctx t

/-- Types between angle brackets after an expression. A closing bracket right before an equals sign
is a comparison with it. -/
def expressionTypes (g : Rules) (ctx : Context) : Parse (List Tree) := do
  let ts ← typeArguments g ctx
  let c ← get
  let isEquals := [.assign, .eqEq, .eqEqEq, .arrow].any (c.lexeme.token == .punct ·)
  check !(isEquals && c.lexeme.start == c.lastStop)
  check (followsTypes ctx c.lexeme)
  return ts

/-- What follows an expression: the parts of a chain that have been read, and whether one of them is
optional. -/
abbrev Link := Tree × Bool

def dotted (s : Nat) (t : Tree) (optional : Bool) : Parse Tree := do
  match ← token with
  | .word x _ _ =>
    advance
    return .member (← spanFrom s) t x optional
  | .hidden x =>
    advance
    finish s (.hiddenMember x) [t]
  | _ => failure

def indexed (g : Rules) (ctx : Context) (s : Nat) (t : Tree) (optional : Bool) : Parse Tree := do
  expect .lbracket
  let i ← g.expression ctx.inside
  expect .rbracket
  return .index (← spanFrom s) t i optional

def tagged (g : Rules) (ctx : Context) (s : Nat) (t : Tree) (types : List Tree) : Parse Tree := do
  let parts ← templateParts g ctx true
  finish s .taggedTemplate (t :: types ++ parts)

def called (g : Rules) (ctx : Context) (s : Nat) (t : Tree) (types : List Tree) (optional : Bool) :
    Parse Tree := do
  let as ← arguments g ctx
  return .call (← spanFrom s) t types as optional

def optionalLink (g : Rules) (ctx : Context) (s : Nat) (t : Tree) : Parse Tree := do
  match ← token with
  | .punct .lbracket => indexed g ctx s t true
  | .punct .lparen => called g ctx s t [] true
  | .punct .less | .punct .shiftLeft =>
    check ctx.typescript
    let types ← typeArguments g ctx
    called g ctx s t types true
  | _ => dotted s t true

def link (g : Rules) (ctx : Context) (calls : Bool) (s : Nat) : Link → Parse (Option Link)
  | (t, optional) => do
    match ← token with
    | .punct .dot =>
      advance
      return some (← dotted s t false, optional)
    | .punct .questionDot =>
      check calls
      advance
      return some (← optionalLink g ctx s t, true)
    | .punct .lbracket =>
      if ctx.allowIndex then return some (← indexed g ctx s t false, optional) else return none
    | .punct .lparen =>
      if calls then return some (← called g ctx s t [] false, optional) else return none
    | .template .. =>
      check !optional
      return some (← tagged g ctx s t [], false)
    | .punct .bang =>
      if ctx.typescript && !(← newlineBefore) then
        advance
        return some (← finish s .nonNull [t], optional)
      else return none
    | .punct .less | .punct .shiftLeft =>
      if !ctx.typescript then return none
      match ← attempt (expressionTypes g ctx) with
      | some types =>
        if calls && (← isAt .lparen) then
          return some (← called g ctx s t types false, optional)
        else if beginsTemplate (← token) then
          check !optional
          return some (← tagged g ctx s t types, false)
        else return some (← finish s .instantiation (t :: types), optional)
      | none => return none
    | _ => return none

def base (g : Rules) (ctx : Context) : Parse Tree := do
  let s ← position
  match keywordOf (← token) with
  | some .kwNew =>
    advance
    if ← accept .dot then
      expectWord .kwTarget
      finish s .newTarget []
    else
      check (!((← isAtWord .kwImport) && (← peek).token != .punct .dot))
      let callee ← g.read .member ctx
      check (!(← isAt .questionDot))
      let as ← if ← isAt .lparen then arguments g ctx else pure []
      finish s .new (callee :: as)
  | some .kwSuper =>
    advance
    check ((← isAt .dot) || (← isAt .lparen) || (← isAt .lbracket))
    finish s .super []
  | some .kwImport => importExpression g ctx
  | _ => primary g ctx

def memberExpression (g : Rules) (ctx : Context) : Parse Tree := do
  let s ← position
  let t ← base g ctx
  let (t, _) ← iterate (link g ctx false s) g.limit (t, false)
  return t

def callExpression (g : Rules) (ctx : Context) : Parse Tree := do
  let s ← position
  let t ← base g ctx
  let (t, optional) ← iterate (link g ctx true s) g.limit (t, false)
  if optional then return .chain t.span t else return t

def isUnaryOperator (t : Token) : Bool :=
  match t with
  | .punct .plus | .punct .bang | .punct .tilde => true
  | t =>
    match keywordOf t with
    | some .kwDelete | some .kwVoid | some .kwTypeof => true
    | _ => false

def castType (g : Rules) (ctx : Context) : Parse Tree := do
  if ← isAtWord .kwConst then word else g.type ctx

def unary (g : Rules) (ctx : Context) : Parse Tree := do
  let s ← position
  let t ← token
  if isUnaryOperator t then
    advance
    let e ← g.read .unary ctx
    finish s (.unary t) [e]
  else
    match t with
    | .punct .minus =>
      advance
      let e ← g.read .unary ctx
      return .minus (← spanFrom s) e
    | .punct .plusPlus | .punct .minusMinus =>
      let op := if t == .punct .plusPlus then .plusPlus else .minusMinus
      advance
      let e ← g.read .unary ctx
      check (isReference e)
      finish s (.update true op) [e]
    | .punct .less =>
      if ctx.jsx then
        let e ← g.read .element ctx
        advance
        return e
      else
        check ctx.typescript
        advance
        let ty ← castType g ctx.inside
        expect .greater
        let e ← g.read .unary ctx
        finish s (.typeCast true) [ty, e]
    | _ =>
      if ctx.allowAwait && (← isAtWord .kwAwait) then
        advance
        let e ← g.read .unary ctx
        finish s .await [e]
      else
        let e ← callExpression g ctx
        let step ← token
        if (step == .punct .plusPlus || step == .punct .minusMinus) && !(← newlineBefore) then
          check (isReference e)
          advance
          finish s (.update false (if step == .punct .plusPlus then .plusPlus else .minusMinus)) [e]
        else return e

def isUnary : Tree → Bool
  | .minus .. | .node (.unary _) _ _ | .node .await _ _ => true
  | _ => false

def mixes (op : Punct) : Tree → Bool
  | .node (.logical p) _ _ => (op == .coalesce) != (p == .coalesce)
  | _ => false

def logicalOperator? (t : Token) : Option Punct :=
  match t with
  | .punct .coalesce => some .coalesce
  | .punct .orOr => some .orOr
  | .punct .andAnd => some .andAnd
  | _ => none

def operation (g : Rules) (ctx : Context) (level s : Nat) (t : Tree) : Parse (Option Tree) := do
  let plain ← get
  reread Lexeme.joined
  let op ← token
  match bindingLevel? ctx op with
  | none =>
    set plain
    return none
  | some l =>
    if l ≤ level then
      set plain
      return none
    else if keywordOf op == some .kwAs || keywordOf op == some .kwSatisfies then
      if ← newlineBefore then return none
      advance
      let ty ← castType g ctx
      return some (← finish s (.typeCast false) [t, ty])
    else
      advance
      if op == .punct .starStar then check !(isUnary t)
      let r ← g.read (.binary (if op == .punct .starStar then l - 1 else l)) ctx
      match logicalOperator? op with
      | some p =>
        check (!mixes p t && !mixes p r)
        return some (← finish s (.logical p) [t, r])
      | none => return some (← finish s (.binary op) [t, r])

def binary (g : Rules) (ctx : Context) (level : Nat) : Parse Tree := do
  let s ← position
  let t ← match ← token with
    | .hidden x =>
      check (ctx.allowIn && level < 8)
      advance
      let key ← finish s (.hiddenName x) []
      expectWord .kwIn
      let e ← g.read (.binary 8) ctx
      finish s .hiddenIn [key, e]
    | _ => g.read .unary ctx
  iterate (operation g ctx level s) g.limit t

inductive Outlook where
  | yes
  | no
  | maybe

def isLiteral (t : Token) : Bool :=
  match t with
  | .number _ | .bigint _ | .string _ | .regexp _ => true
  | t => [some .kwTrue, some .kwFalse, some .kwNull].contains (keywordOf t)

def parenthesisOutlook (ctx : Context) : Parse Outlook := do
  advance
  let t ← token
  match t with
  | .punct .rparen =>
    advance
    if (← isAt .arrow) || (← isAt .colon) || (← isAt .lbrace) then return .yes else return .no
  | .punct .lbracket | .punct .lbrace => return .maybe
  | .punct .ellipsis =>
    advance
    match ← token with
    | .word _ none _ => return .yes
    | t => return if isLiteral t then .no else .maybe
  | .punct .atSign => return .maybe
  | _ =>
    let isModifier := match keywordOf t with
      | some k => isParameterModifier k
      | none => false
    let next ← peek
    if ctx.typescript && isModifier && isName ctx next.token then
      return if keywordOf next.token == some .kwAs then .no else .yes
    if !isName ctx t && keywordOf t != some .kwThis then return .no
    advance
    match ← token with
    | .punct .colon => return if ctx.typescript then .yes else .no
    | .punct .question =>
      advance
      match ← token with
      | .punct .colon | .punct .comma | .punct .assign | .punct .rparen =>
        return if ctx.typescript then .yes else .no
      | _ => return .no
    | .punct .comma | .punct .assign | .punct .rparen => return .maybe
    | _ => return .no

def typeParametersOutlook (ctx : Context) : Parse Outlook := do
  advance
  if !isName ctx (← token) && !(← isAtWord .kwConst) then return .no
  if ctx.jsx then
    let _ ← acceptWord .kwConst
    advance
    if ← isAtWord .kwExtends then
      match (← peek).token with
      | .punct .assign | .punct .greater | .punct .slash => return .no
      | _ => return .yes
    else if (← isAt .comma) || (← isAt .assign) then return .yes
    else return .no
  else return .maybe

def arrowOutlook (ctx : Context) : Parse Outlook :=
  lookAhead do
    if ← isAtWord .kwAsync then
      advance
      if ← newlineBefore then return .no
    match ← token with
    | .punct .lparen => parenthesisOutlook ctx
    | .punct .less => if ctx.typescript then typeParametersOutlook ctx else return .no
    | _ => return .no

def arrowBody (g : Rules) (ctx : Context) (isAsync typed : Bool) : Parse Tree := do
  let inner := { ctx with allowAwait := isAsync, allowYield := false }
  if ← isAt .lbrace then block g { inner with allowReturn := true }
  else g.read (.assignment typed) inner

def arrow : Parse Unit := do
  check (!(← newlineBefore))
  expect .arrow

def isThisParameter : Tree → Bool
  | .node .parameter _ ts => ts.any fun
    | .node (.identifier x) _ _ => x == "this"
    | _ => false
  | _ => false

def arrowFunction (g : Rules) (ctx : Context) (typed : Bool) : Parse Tree := do
  let s ← position
  let isAsync ← acceptWord .kwAsync
  let outer := { ctx.inside with allowAwait := isAsync || ctx.allowAwait }
  let ts ← typeParameters g outer
  let ps ← parameters g outer
  check (!ps.any isThisParameter)
  let r ← returnAnnotation g outer
  arrow
  let b ← arrowBody g ctx isAsync typed
  check (typed || r.isEmpty || (← isAt .colon))
  finish s (.arrow isAsync) (ts ++ ps ++ r ++ [b])

def arrowFunction? (g : Rules) (ctx : Context) (typed : Bool) : Parse (Option Tree) := do
  match ← arrowOutlook ctx with
  | .yes => return some (← arrowFunction g ctx true)
  | .maybe => attempt (arrowFunction g ctx typed)
  | .no => return none

def asyncArrowFunction? (g : Rules) (ctx : Context) (typed : Bool) : Parse (Option Tree) := do
  let isOne ← lookAhead do
    if !(← acceptWord .kwAsync) then return false
    if (← newlineBefore) || !isName ctx (← token) then return false
    advance
    return (← isAt .arrow) && !(← newlineBefore)
  if isOne then
    let s ← position
    advance
    let x ← name { ctx with allowAwait := true }
    arrow
    let b ← arrowBody g ctx true typed
    return some (← finish s (.arrow true) [x, b])
  else return none

def isAssignment : Punct → Bool
  | .assign | .plusAssign | .minusAssign | .starAssign | .starStarAssign | .slashAssign
  | .percentAssign | .shiftLeftAssign | .shiftRightAssign | .shiftRightZeroAssign | .ampAssign
  | .barAssign | .caretAssign | .andAssign | .orAssign | .coalesceAssign => true
  | _ => false

def yieldExpression (g : Rules) (ctx : Context) : Parse Tree := do
  let s ← position
  advance
  let isEmpty ← (do
    if ← newlineBefore then return true
    match ← token with
    | .done | .punct .rbrace | .punct .rbracket | .punct .rparen | .punct .colon | .punct .comma
    | .punct .semicolon => return true
    | _ => isAtWord .kwIn)
  if isEmpty then finish s .yield []
  else
    let _ ← accept .star
    let e ← g.assignment ctx
    finish s .yield [e]

def assignmentRest (g : Rules) (ctx : Context) (typed : Bool) (s : Nat) (t : Tree) :
    Parse Tree := do
  match t with
  | .node (.identifier _) _ _ =>
    if (← isAt .arrow) && !(← newlineBefore) then
      advance
      let b ← arrowBody g ctx false typed
      return ← finish s (.arrow false) [t, b]
  | _ => pure ()
  let plain ← get
  reread Lexeme.joined
  match ← token with
  | .punct .question =>
    advance
    let yes ← g.read (.assignment false) { ctx with allowIn := true }
    expect .colon
    let no ← g.read (.assignment typed) ctx
    finish s .conditional [t, yes, no]
  | .punct op =>
    if isAssignment op then
      if op == .assign then settle t else check (isReference t)
      advance
      let e ← g.read (.assignment typed) ctx
      finish s (.assignment op) [t, e]
    else
      set plain
      return t
  | _ => return t

def assignment (g : Rules) (ctx : Context) (typed : Bool) : Parse Tree := do
  let s ← position
  if ctx.allowYield && (← isAtWord .kwYield) then yieldExpression g ctx
  else
    match ← arrowFunction? g ctx typed with
    | some t => return t
    | none =>
      match ← asyncArrowFunction? g ctx typed with
      | some t => return t
      | none =>
        let t ← g.read (.binary 0) ctx
        assignmentRest g ctx typed s t

def expression (g : Rules) (ctx : Context) : Parse Tree := do
  let s ← position
  let ts ← commaSeparated g.limit (g.assignment ctx)
  match ts with
  | [t] => return t
  | ts => finish s .sequence ts

end MetaInline.Script.Grammar
