import MetaInline.Json.Basic

/-!
Bindings as users give them: objects with named entries, which hold literals, lists, resolvers or
objects. Objects are known by number, so that one may stand in several places, even in itself.
-/

namespace MetaInline

structure Invocation where
  resolver : String
  arguments : List (Option Literal)
deriving DecidableEq

inductive ResolverFailure where
  | reported (message : String)
  | crashed (text : Option String)
deriving DecidableEq

def ResolverFailure.message : ResolverFailure → String
  | .reported message => message
  | .crashed (some text) => "resolver panicked: " ++ text
  | .crashed none => "resolver panicked"

/-- A function that gives the value of a call. Its reply may depend on the calls made before, the last
one first. -/
structure Resolver where
  name : String
  isAsync : Bool
  reply : List Invocation → List (Option Literal) → Except ResolverFailure Value

def Resolver.after (calls : List Invocation) (r : Resolver) : Resolver :=
  { r with reply := fun history => r.reply (history ++ calls) }

inductive Binding where
  | literal (v : Literal)
  | list (items : List Binding)
  | resolver (r : Resolver)
  | object (id : Nat)
  | unsupported (typeName : String)

namespace Binding

def typeName : Binding → String
  | .literal v => v.typeName
  | .list _ => "array"
  | .resolver _ => "function"
  | .object _ => "object"
  | .unsupported typeName => typeName

end Binding

structure Configuration where
  objects : Array (List (String × Binding))
  root : Nat

namespace Configuration

def entries (c : Configuration) (id : Nat) : List (String × Binding) :=
  c.objects.getD id []

mutual

def ofJson : Json → Array (List (String × Binding)) →
    Binding × Array (List (String × Binding))
  | .null, os => (.literal .null, os)
  | .bool b, os => (.literal (.bool b), os)
  | .int n, os =>
    let x := Double.ofNat n.natAbs
    (.literal (.number (if n < 0 then -x else x)), os)
  | .float x, os => (.literal (.number x), os)
  | .string s, os => (.literal (.string s), os)
  | .array items, os =>
    let (bs, os) := ofItems items os
    (.list bs, os)
  | .object fields, os =>
    let (es, os) := ofFields fields os
    (.object os.size, os.push es)

def ofItems : List Json → Array (List (String × Binding)) →
    List Binding × Array (List (String × Binding))
  | [], os => ([], os)
  | v :: vs, os =>
    let (b, os) := ofJson v os
    let (bs, os) := ofItems vs os
    (b :: bs, os)

def ofField : String × Json → Array (List (String × Binding)) →
    (String × Binding) × Array (List (String × Binding))
  | (k, v), os =>
    let (b, os) := ofJson v os
    ((k, b), os)

def ofFields : List (String × Json) → Array (List (String × Binding)) →
    List (String × Binding) × Array (List (String × Binding))
  | [], os => ([], os)
  | f :: fs, os =>
    let (e, os) := ofField f os
    let (es, os) := ofFields fs os
    (e :: es, os)

end

end Configuration
end MetaInline
