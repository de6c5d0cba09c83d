import MetaInline.Binding.Basic

namespace MetaInline

inductive BindingError where
  | invalidKey (path key : String)
  | duplicateKey (path : String)
  | cycle (path : String)
  | unsupportedValue (path typeName : String)
deriving DecidableEq

namespace BindingError

def message : BindingError → String
  | .invalidKey path key =>
    "invalid binding key " ++ String.ofList (Quoted.display key.toList) ++ " at \x60" ++ path ++
      "\x60: keys must be non-empty and must not contain '.'"
  | .duplicateKey path => "duplicate binding key \x60" ++ path ++ "\x60"
  | .cycle path => "cyclic binding object detected at \x60" ++ path ++ "\x60"
  | .unsupportedValue path typeName =>
    "unsupported binding value at \x60" ++ path ++ "\x60: " ++ typeName ++
      " is neither a literal, a literal array, nor a function"

end BindingError

inductive Entry where
  | value (v : Value)
  | resolver (r : Resolver)

def Entry.after (calls : List Invocation) : Entry → Entry
  | .value v => .value v
  | .resolver r => .resolver (r.after calls)

namespace Path

def separator : Char := '.'

def join (keys : List String) : String :=
  String.intercalate "." keys

def isKey (key : String) : Bool :=
  !key.toList.isEmpty && !key.toList.contains separator

end Path

/-- Entries in the order in which the configuration has them. -/
structure BindingTable where
  entries : List (String × Entry)

namespace BindingTable

def get? (t : BindingTable) (path : String) : Option Entry :=
  t.entries.lookup path

def sorted (t : BindingTable) : List (String × Entry) :=
  t.entries.mergeSort fun a b => a.1 ≤ b.1

def keys (t : BindingTable) : List String :=
  t.sorted.map (·.1)

def size (t : BindingTable) : Nat :=
  t.entries.length

def isEmpty (t : BindingTable) : Bool :=
  t.entries.isEmpty

def after (calls : List Invocation) (t : BindingTable) : BindingTable :=
  ⟨t.entries.map fun (path, e) => (path, e.after calls)⟩

def listLiterals (path : String) : List Binding → Except BindingError (List Literal)
  | [] => .ok []
  | b :: bs =>
    let refused := .error (.unsupportedValue path ("array containing " ++ b.typeName))
    match b with
    | .literal v => if v.isValid then (listLiterals path bs).map (v :: ·) else refused
    | _ => refused

def leaf (path : String) (b : Binding) : Except BindingError Entry :=
  let refused := .error (.unsupportedValue path b.typeName)
  match b with
  | .literal v => if v.isValid then .ok (.value (.literal v)) else refused
  | .resolver r => .ok (.resolver r)
  | .list items => (listLiterals path items).map fun vs => .value (.list vs)
  | _ => refused

/-- The entries below a path, where `child` gives those of the objects among them. `seen` are the
keys of the same object before. -/
def flattenEntries (child : List String → Nat → Except BindingError (List (String × Entry)))
    (path seen : List String) : List (String × Binding) →
    Except BindingError (List (String × Entry))
  | [] => .ok []
  | (key, b) :: rest => do
    let here := path ++ [key]
    if !Path.isKey key then throw (.invalidKey (Path.join here) key)
    if seen.contains key then throw (.duplicateKey (Path.join here))
    let first ← match b with
      | .object id => child here id
      | b => (leaf (Path.join here) b).map fun e => [(Path.join here, e)]
    let more ← flattenEntries child path (key :: seen) rest
    return first ++ more

/-- The entries below an object that stands at `path` in the objects `ancestors`. More than `depth`
objects inside one another are a cycle if there are no more than that. -/
def flatten (c : Configuration) : (depth : Nat) → (ancestors : List Nat) → (path : List String) →
    Nat → Except BindingError (List (String × Entry))
  | 0, _, path, _ => .error (.cycle (Path.join path))
  | depth + 1, ancestors, path, id =>
    if ancestors.contains id then .error (.cycle (Path.join path))
    else flattenEntries (flatten c depth (id :: ancestors)) path [] (c.entries id)

def build (c : Configuration) : Except BindingError BindingTable :=
  (flatten c (c.objects.size + 2) [] [] c.root).map BindingTable.mk

def ofJson (v : Json) : Except BindingError BindingTable :=
  match Configuration.ofJson v #[] with
  | (.object id, os) => build ⟨os, id⟩
  | (b, _) => .error (.unsupportedValue "<root>" b.typeName)

end BindingTable
end MetaInline
