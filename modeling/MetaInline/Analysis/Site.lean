import MetaInline.Binding.Table
import MetaInline.Script.Tree

/-!
Sites: the places of a script where `import.meta` is read along a chain of names, or where such a
chain is called. They are listed in the order in which they are given values: the sites of a call's
arguments, those of its callee, then the call.
-/

namespace MetaInline

open Script (Tree)

inductive Argument where
  | literal (v : Literal)
  /-- The site of this number, which comes before the call. -/
  | site (index : Nat)
  | other (kind : String) (span : Span)
deriving DecidableEq

inductive SiteForm where
  | access
  | call (arguments : List Argument)
deriving DecidableEq

structure Site where
  path : String
  span : Span
  form : SiteForm
  isObject : Bool
deriving DecidableEq

namespace Site

/-- The names of a chain that begins at `import.meta`, the last one first. -/
def names? : Tree → Option (List String)
  | .importMeta _ => some []
  | .member _ object name _ => (names? object).map (name :: ·)
  | _ => none

def path? : Tree → Option String
  | .member _ object name _ => (names? object).map fun xs => Path.join (name :: xs).reverse
  | _ => none

def isSite : Tree → Bool
  | .call _ callee _ _ _ => (path? callee).isSome
  | t => (path? t).isSome

inductive Use where
  | value
  | callee
  | object
deriving DecidableEq

/-- The argument that an expression is whose sites are the last of `count` sites. -/
def argument (t : Tree) (count : Nat) : Argument :=
  match t.literal? with
  | some v => .literal v
  | none =>
    let inner := t.unparenthesized
    let core := match inner with
      | .chain _ u => u
      | u => u
    match t with
    | .node (.spread _) span _ => .other "SpreadElement" span
    | _ => if isSite core then .site (count - 1) else .other inner.kindName t.span

mutual

def collect (use : Use) : Tree → Array Site → Array Site
  | .literal .., found => found
  | .importMeta _, found => found
  | .member span object name _, found =>
    let found := collect .object object found
    match use, path? (.member span object name false) with
    | .callee, _ | _, none => found
    | _, some path => found.push ⟨path, span, .access, use = .object⟩
  | .index _ object key _, found => collect .value key (collect .object object found)
  | .call span callee _ args _, found =>
    let (arguments, found) := collectArguments args found
    match path? callee with
    | some path =>
      (collect .callee callee found).push ⟨path, span, .call arguments, use = .object⟩
    | none => collect .value callee found
  | .parens _ inner, found => collect .value inner found
  | .chain _ inner, found => collect .value inner found
  | .minus _ operand, found => collect .value operand found
  | .node _ _ children, found => collectAll children found

def collectAll : List Tree → Array Site → Array Site
  | [], found => found
  | t :: ts, found => collectAll ts (collect .value t found)

def collectArguments : List Tree → Array Site → List Argument × Array Site
  | [], found => ([], found)
  | t :: ts, found =>
    let found := collect .value t found
    let (arguments, found') := collectArguments ts found
    (argument t found.size :: arguments, found')

end

def ofTree (t : Tree) : List Site :=
  (collect .value t #[]).toList

end Site
end MetaInline
