import MetaInline.Json.Basic
import MetaInline.Text.Span

namespace MetaInline

inductive Severity where
  | error
  | warning
deriving DecidableEq

structure Diagnostic where
  severity : Severity
  code : String
  span : Span
  message : String
  facts : Option Json

namespace Diagnostic

def isError (d : Diagnostic) : Bool :=
  d.severity == .error

def shift (n : Nat) (d : Diagnostic) : Diagnostic :=
  { d with span := d.span.shift n }

def parseCode : String := "IM-PARSE"

end Diagnostic

inductive Wanted where
  | property
  | method
deriving DecidableEq

def Wanted.name : Wanted → String
  | .property => "property"
  | .method => "method"

inductive AttributeForm where
  | spread
  | shorthand
deriving DecidableEq

def AttributeForm.name : AttributeForm → String
  | .spread => "spread"
  | .shorthand => "shorthand"

inductive Problem where
  | unreadable
  | boundToNoLiteral (path typeName : String)
  | argumentNoLiteral (path : String) (index : Nat) (kind : String)
  | returnedNoLiteral (path typeName : String)
  | resolverFailed (path reason : String)
  | notCalled (path : String)
  | unbound (wanted : Wanted) (path : String)
  | attributeForm (tag : String) (form : AttributeForm) (inner : String)
deriving DecidableEq

namespace Problem

def severity : Problem → Severity
  | .unreadable | .boundToNoLiteral .. | .returnedNoLiteral .. | .resolverFailed .. => .error
  | .argumentNoLiteral .. | .notCalled _ | .unbound .. | .attributeForm .. => .warning

def code : Problem → String
  | .unreadable => Diagnostic.parseCode
  | .boundToNoLiteral .. => "IM-NON-LITERAL-VALUE"
  | .argumentNoLiteral .. => "IM-NON-LITERAL-ARG"
  | .returnedNoLiteral .. => "IM-NON-LITERAL-RETURN"
  | .resolverFailed .. => "IM-RESOLVER-FAILED"
  | .notCalled _ => "IM-UNCALLED-FUNCTION"
  | .unbound .. => "IM-UNRESOLVED"
  | .attributeForm .. => "IM-UNSUPPORTED-SYNTAX"

def message : Problem → String
  | .unreadable => "Failed to parse source"
  | .boundToNoLiteral path _ => "Value for import.meta." ++ path ++ " is not a valid literal"
  | .argumentNoLiteral path index _ =>
    "Argument at index " ++ toString index ++ " of method import.meta." ++ path ++
      "() is not a literal"
  | .returnedNoLiteral path _ =>
    "Return value of method import.meta." ++ path ++ "() is not a valid literal"
  | .resolverFailed path reason =>
    "Failed to execute method import.meta." ++ path ++ "(): " ++ reason
  | .notCalled path =>
    "import.meta." ++ path ++ " is bound to a function and is only replaced when called"
  | .unbound wanted path => "No binding for " ++ wanted.name ++ " import.meta." ++ path
  | .attributeForm tag form inner =>
    "<" ++ tag ++ ">: Skipping unsupported attribute syntax: " ++ form.name ++
      " for \"" ++ inner ++ "\""

def facts : Problem → Option Json
  | .unreadable => none
  | .boundToNoLiteral path typeName =>
    some (.ofFields [("accessPath", .string path), ("valueType", .string typeName)])
  | .argumentNoLiteral path index kind =>
    some (.ofFields [("method", .string path), ("argumentIndex", .int index),
      ("argumentType", .string kind)])
  | .returnedNoLiteral path typeName =>
    some (.ofFields [("method", .string path), ("returnType", .string typeName)])
  | .resolverFailed path reason =>
    some (.ofFields [("method", .string path), ("error", .string reason)])
  | .notCalled path | .unbound _ path => some (.ofFields [("accessPath", .string path)])
  | .attributeForm tag form _ =>
    some (.ofFields [("tag", .string tag), ("kind", .string form.name)])

def report (p : Problem) (span : Span) : Diagnostic :=
  ⟨p.severity, p.code, span, p.message, p.facts⟩

end Problem
end MetaInline
