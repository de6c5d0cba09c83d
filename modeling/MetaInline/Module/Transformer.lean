import MetaInline.Document.Astro
import MetaInline.Document.Component
import MetaInline.Module.Filter

namespace MetaInline

inductive SetupError where
  | binding (e : BindingError)
  | reserved (e : ReservedNames)
  | pattern (e : InvalidPattern)
  | unreadable
deriving DecidableEq

def SetupError.message : SetupError → String
  | .binding e => e.message
  | .reserved e => e.message
  | .pattern e => e.message
  | .unreadable => "invalid configuration"

structure Transformer where
  table : BindingTable
  filter : Filter
  options : Options

structure Output where
  code : String
  changed : Bool
  diagnostics : List Diagnostic

structure Outcome where
  output : Option Output
  log : List LogLine
  invocations : List Invocation

namespace Transformer

def ofTable (table : BindingTable) (options : Options) : Except SetupError Transformer := do
  (Target.wintertc.checkTable table).mapError .reserved
  options.targets.forM fun t => (t.checkTable table).mapError .reserved
  let filter ← (Filter.ofPatterns options.includes options.excludes).mapError .pattern
  return ⟨table, filter, options⟩

def ofConfiguration (c : Configuration) (options : Options) : Except SetupError Transformer := do
  let table ← (BindingTable.build c).mapError .binding
  ofTable table options

def readBindings (text : Text) : Except SetupError Json :=
  match Json.parse text with
  | some v => .ok v
  | none => .error .unreadable

def readOptions (text : Option Text) : Except SetupError Options :=
  match text with
  | none => .ok .default
  | some text =>
    match Options.parse? text with
    | some o => .ok o
    | none => .error .unreadable

def ofTexts (bindings : Text) (options : Option Text) : Except SetupError Transformer := do
  let v ← readBindings bindings
  let o ← readOptions options
  let table ← (BindingTable.ofJson v).mapError .binding
  ofTable table o

def setupLog (t : Transformer) : List LogLine :=
  [⟨.debug, "binding table ready: " ++ toString t.table.size ++ " access path(s)"⟩]

def checkTarget (t : Transformer) (target : Target) : Except ReservedNames Unit :=
  target.checkTable t.table

def considers (t : Transformer) (id code : Text) : Bool :=
  !t.table.isEmpty && Analysis.mentionsImportMeta code && t.filter.accepts id

def scan (language : Language) (id code : Text) : Scan :=
  match language with
  | .ecma => ⟨[⟨⟨0, Text.size code⟩, Module.dialectOfId id, false⟩], []⟩
  | .vue | .svelte => Component.scan code
  | .astro => Astro.scan code

def analysisOptions (t : Transformer) : AnalysisOptions :=
  ⟨.standard, t.options.reportUnresolved, false⟩

def finish (id : String) (code : Text) (a : Analysis) : Outcome :=
  let changed := !a.edits.isEmpty
  let log := Diagnostic.logLines id a.diagnostics ++
    (if changed then [] else [⟨.trace, id ++ ": nothing to replace"⟩]) ++
    Edit.skippedAll code a.edits
  ⟨some ⟨String.ofList (Edit.applyAll code a.edits), changed, a.diagnostics⟩, log, a.invocations⟩

def transform (t : Transformer) (id : String) (code : Text) : Outcome :=
  if t.considers id.toList code then
    match Module.language? id.toList with
    | none => ⟨none, [⟨.trace, "skipping " ++ id ++ ": unsupported module type"⟩], []⟩
    | some language =>
      finish id code (Analysis.ofScan code (scan language id.toList code) t.table t.analysisOptions)
  else ⟨none, [], []⟩

end Transformer
end MetaInline
