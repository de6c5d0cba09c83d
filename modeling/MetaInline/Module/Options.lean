import MetaInline.Json.Raw
import MetaInline.Module.Reserved

/-!
Options of the transformation of modules, and how they are read. Options stand in an object, each at
most once, or in an array in the order of their declaration; what is missing has its default. Other
fields of an object are not looked at.
-/

namespace MetaInline

inductive Enforce where
  | pre
  | post
deriving DecidableEq

namespace Enforce

def name : Enforce → String
  | .pre => "pre"
  | .post => "post"

def ofName? (s : String) : Option Enforce :=
  [pre, post].find? (·.name == s)

end Enforce

structure Options where
  includes : List String
  excludes : List String
  enforce : Enforce
  reportUnresolved : Bool
  targets : List Target
deriving DecidableEq

namespace Options

def defaultInclude : List String :=
  ["\\.[cm]?[jt]sx?(\\?.*)?$", "\\.vue(\\?.*)?$", "\\.svelte(\\?.*)?$", "\\.astro(\\?.*)?$"]

def defaultExclude : List String :=
  ["[\\\\/]node_modules[\\\\/]"]

def default : Options :=
  ⟨defaultInclude, defaultExclude, .pre, false, []⟩

def readBool? : Raw → Option Bool
  | .bool b => some b
  | _ => none

def readString? : Raw → Option String
  | .string s => s
  | _ => none

def readList? {α : Type} (item : Raw → Option α) : Raw → Option (List α)
  | .array items => items.mapM item
  | _ => none

/-- A choice is written as its name, or as an object with nothing under that name. -/
def readChoice? {α : Type} (ofName? : String → Option α) : Raw → Option α
  | .string s => s.bind ofName?
  | .object [(key, .null)] => key.bind ofName?
  | _ => none

structure Field where
  name : String
  set? : Raw → Options → Option Options

def fields : List Field := [
  ⟨"include", fun v o => (readList? readString? v).map fun x => { o with includes := x }⟩,
  ⟨"exclude", fun v o => (readList? readString? v).map fun x => { o with excludes := x }⟩,
  ⟨"enforce", fun v o => (readChoice? Enforce.ofName? v).map fun x => { o with enforce := x }⟩,
  ⟨"reportUnresolved", fun v o => (readBool? v).map fun x => { o with reportUnresolved := x }⟩,
  ⟨"targets", fun v o =>
    (readList? (readChoice? Target.ofName?) v).map fun x => { o with targets := x }⟩]

def ofFields? : (seen : List String) → List (Option String × Raw) → Options → Option Options
  | _, [], o => some o
  | _, (none, _) :: _, _ => none
  | seen, (some key, v) :: rest, o =>
    match fields.find? (·.name == key) with
    | none => ofFields? seen rest o
    | some f =>
      if seen.contains key then none
      else (f.set? v o).bind fun o => ofFields? (key :: seen) rest o

def ofItems? : List Field → List Raw → Options → Option Options
  | _, [], o => some o
  | [], _ :: _, _ => none
  | f :: fs, v :: vs, o => (f.set? v o).bind fun o => ofItems? fs vs o

def parse? (cs : Text) : Option Options :=
  match Raw.parse cs with
  | some (.object fs) => ofFields? [] fs default
  | some (.array vs) => ofItems? fields vs default
  | _ => none

end Options
end MetaInline
