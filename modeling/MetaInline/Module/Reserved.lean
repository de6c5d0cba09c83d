import MetaInline.Binding.Table

namespace MetaInline

inductive Target where
  | wintertc
  | vite
  | farm
  | rolldown
  | rollup
  | rspack
  | webpack
  | esbuild
deriving DecidableEq

structure ReservedName where
  environment : String
  property : String
deriving DecidableEq

def ReservedName.message (r : ReservedName) : String :=
  "The property name \"import.meta." ++ r.property ++ "\" is reserved by " ++ r.environment ++
    " and cannot be used."

structure ReservedNames where
  violations : List ReservedName
deriving DecidableEq

def ReservedNames.message (e : ReservedNames) : String :=
  "Reserved property names found." ++
    String.join (e.violations.map fun v => "\n  - " ++ v.message)

namespace Target

def all : List Target :=
  [.wintertc, .vite, .farm, .rolldown, .rollup, .rspack, .webpack, .esbuild]

def name : Target → String
  | .wintertc => "wintertc"
  | .vite => "vite"
  | .farm => "farm"
  | .rolldown => "rolldown"
  | .rollup => "rollup"
  | .rspack => "rspack"
  | .webpack => "webpack"
  | .esbuild => "esbuild"

def ofName? (s : String) : Option Target :=
  all.find? (·.name == s)

def environment : Target → String
  | .wintertc => "WinterTC"
  | .vite => "Vite"
  | .farm => "Farm"
  | .rolldown => "Rolldown"
  | .rollup => "Rollup"
  | .rspack => "RsPack"
  | .webpack => "Webpack"
  | .esbuild => "esbuild"

def reserved : Target → List String
  | .wintertc => ["url", "resolve", "main", "dirname", "filename", "dir", "file", "path"]
  | .vite | .farm => ["hot", "env", "glob"]
  | .rolldown => ["browserBuild"]
  | .rspack | .webpack => ["webpack", "webpackHot", "webpackContext"]
  | .rollup | .esbuild => []

def checkPaths (t : Target) (paths : List String) : Except ReservedNames Unit :=
  match paths.filter t.reserved.contains with
  | [] => .ok ()
  | found => .error ⟨found.map fun p => ⟨t.environment, p⟩⟩

def checkTable (t : Target) (table : BindingTable) : Except ReservedNames Unit :=
  t.checkPaths table.keys

end Target
end MetaInline
