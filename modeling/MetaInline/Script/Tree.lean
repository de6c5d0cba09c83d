import MetaInline.Script.Token
import MetaInline.Text.Span

/-!
Syntax trees of scripts. The forms that a chain of properties of `import.meta` can be made of, and
the forms that read as literals, have constructors of their own; every other construct is a `node`
with its children in the order in which they stand.
-/

namespace MetaInline.Script

inductive Kind where
  -- expressions
  | identifier (name : String) | this | super | newTarget | importCall
  | template | taggedTemplate | array | hole | spread (comma : Bool)
  | object | computedName | property (shorthand : Bool) | accessor
  | function (isAsync isGenerator : Bool) | arrow (isAsync : Bool) | classDefinition (name : String)
  | new | unary (op : Token) | update (isPrefixed : Bool) (op : Punct) | await | yield
  | hiddenMember (name : String) | hiddenName (name : String) | hiddenIn
  | binary (op : Token) | logical (op : Punct) | conditional | assignment (op : Punct) | sequence
  | typeCast (isPrefixed : Bool) | nonNull | instantiation
  | element | elementName (name : String) | tagAttribute | container | elementText
  -- patterns and parameters
  | arrayPattern | objectPattern | withDefault | rest | parameter | decorator
  -- statements and declarations
  | program | block | empty | expressionStatement | declaration (word : String) | declarator
  | ifStatement | forStatement | forIn | forOf | whileStatement | doWhile | jump (word : String)
  | switch | switchCase | tryStatement | catchClause | withStatement | labeled | debugger
  | importDeclaration | exportDeclaration (names : List String) | specifier
  | method | field | staticBlock | classBody
  | typeAlias | interface | enum | enumMember | namespaceBlock
  -- types
  | type
deriving DecidableEq

inductive Tree where
  | literal (span : Span) (value : Literal)
  | importMeta (span : Span)
  | member (span : Span) (object : Tree) (name : String) (optional : Bool)
  | index (span : Span) (object key : Tree) (optional : Bool)
  | call (span : Span) (callee : Tree) (typeArgs args : List Tree) (optional : Bool)
  | parens (span : Span) (inner : Tree)
  /-- A whole chain of members and calls one of which is optional. -/
  | chain (span : Span) (inner : Tree)
  | minus (span : Span) (operand : Tree)
  | node (kind : Kind) (span : Span) (children : List Tree)

namespace Tree

def span : Tree → Span
  | literal s _ | importMeta s | member s _ _ _ | index s _ _ _ | call s _ _ _ _ | parens s _
  | chain s _ | minus s _ | node _ s _ => s

def unparenthesized : Tree → Tree
  | parens _ inner => inner.unparenthesized
  | t => t

def literal? : Tree → Option Literal
  | literal _ v => some v
  | parens _ inner => inner.literal?
  | minus _ operand =>
    match operand.literal? with
    | some (.number x) => some (.number (-x))
    | some (.bigint n) => some (.bigint (-n))
    | _ => none
  | _ => none

def kindName : Tree → String
  | importMeta _ => "MetaProperty"
  | member .. | index .. => "MemberExpression"
  | call .. => "CallExpression"
  | minus .. => "UnaryExpression"
  | node kind _ _ =>
    match kind with
    | .identifier _ => "Identifier"
    | .hiddenMember _ => "MemberExpression"
    | .new => "NewExpression"
    | .template => "TemplateLiteral"
    | .taggedTemplate => "TaggedTemplateExpression"
    | .array => "ArrayExpression"
    | .object => "ObjectExpression"
    | .arrow _ => "ArrowFunctionExpression"
    | .function _ _ => "FunctionExpression"
    | .binary _ => "BinaryExpression"
    | .logical _ => "LogicalExpression"
    | .unary _ => "UnaryExpression"
    | .conditional => "ConditionalExpression"
    | .await => "AwaitExpression"
    | .this => "ThisExpression"
    | .newTarget => "MetaProperty"
    | _ => "Expression"
  | _ => "Expression"

end Tree
end MetaInline.Script
