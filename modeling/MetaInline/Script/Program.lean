import MetaInline.Script.Grammar.Module

namespace MetaInline.Script

inductive Loading where
  | module
  | commonjs
  | either
deriving DecidableEq

structure Dialect where
  typescript : Bool
  jsx : Bool
  loading : Loading
  declaration : Bool
deriving DecidableEq

namespace Dialect

def standard : Dialect := ⟨true, true, .module, false⟩

def context (dialect : Dialect) (allowReturn isModule : Bool) : Context :=
  { typescript := dialect.typescript
    jsx := dialect.jsx
    allowIn := true
    allowAwait := isModule
    allowYield := false
    allowReturn := allowReturn
    allowIndex := true
    allowCondition := true
    ambient := dialect.declaration }

end Dialect

namespace Grammar

def construct (g : Rules) : Goal → Context → Parse Tree
  | .expression, ctx => expression g ctx
  | .assignment typed, ctx => assignment g ctx typed
  | .binary level, ctx => binary g ctx level
  | .unary, ctx => unary g ctx
  | .callable, ctx => callExpression g ctx
  | .member, ctx => memberExpression g ctx
  | .statement isNested, ctx => statement g ctx isNested
  | .pattern, ctx => pattern g ctx
  | .type, ctx => type g ctx
  | .typeOperand, ctx => typeOperand g ctx
  | .element, ctx => element g ctx

def rules : Nat → Rules
  | 0 => ⟨0, fun _ _ => failure⟩
  | n + 1 => ⟨n + 1, fun goal ctx => construct (rules n) goal ctx⟩

/-- A depth that no text of the given length exceeds: between two constructs around the same place,
of which the inner one is not the only part of the outer one, there is a token. -/
def depth (cs : Text) : Nat :=
  16 * (cs.length + 4)

def skipInterpreter : Text → Nat × Text
  | '#' :: '!' :: cs =>
    let (line, rest) := cs.span (!isLineBreak ·)
    (2 + Text.size line, rest)
  | cs => (0, cs)

def program (g : Rules) (ctx : Context) : Parse Tree := do
  let xs ← Parse.many g.limit do
    if ← Parse.isAtDone then return none
    return some (← g.statement ctx)
  Parse.check (← get).pendingDefaults.isEmpty
  Parse.finish 0 .program xs

def exportedNames : Tree → List String
  | .node .program _ ts => ts.flatMap fun
    | .node (.exportDeclaration names) _ _ => names
    | _ => []
  | _ => []

mutual

def isModular : Tree → Bool
  | .importMeta _ => true
  | .literal _ _ => false
  | .member _ t _ _ => isModular t
  | .index _ t i _ => isModular t || isModular i
  | .call _ t ts as _ => isModular t || isModularList ts || isModularList as
  | .parens _ t => isModular t
  | .chain _ t => isModular t
  | .minus _ t => isModular t
  | .node .importDeclaration _ _ => true
  | .node (.exportDeclaration _) _ _ => true
  | .node _ _ ts => isModularList ts

def isModularList : List Tree → Bool
  | [] => false
  | t :: ts => isModular t || isModularList ts

end

def front (isModule : Bool) (cs : Text) : Cursor :=
  let (pos, rest) := skipInterpreter cs
  ⟨Lexeme.first (!isModule) true pos rest, 0, !isModule, []⟩

def parseAs (dialect : Dialect) (allowReturn isModule : Bool) (cs : Text) : Option Tree := do
  let (t, _) ← program (rules (depth cs)) (dialect.context allowReturn isModule) (front isModule cs)
  guard (dialect.typescript ∨ (exportedNames t).Nodup)
  return t

end Grammar

/-- The program that a text is in a dialect; nothing if it is none. A script that may be either is a
module if it says something that only modules say. -/
def parse (dialect : Dialect) (allowReturn : Bool) (cs : Text) : Option Tree :=
  match dialect.loading with
  | .module => Grammar.parseAs dialect allowReturn true cs
  | .commonjs => Grammar.parseAs dialect true false cs
  | .either =>
    let asModule := Grammar.parseAs dialect allowReturn true cs
    if asModule.any Grammar.isModular then asModule
    else
      let asScript := Grammar.parseAs dialect allowReturn false cs
      if asScript.any Grammar.isModular then none else asScript

end MetaInline.Script
