import MetaInline.Diagnostic

namespace MetaInline

inductive Level where
  | error
  | warn
  | debug
  | trace
deriving DecidableEq

structure LogLine where
  level : Level
  message : String
deriving DecidableEq

namespace Diagnostic

def logLine (id : String) (d : Diagnostic) : LogLine :=
  let place := "(" ++ toString d.span.start ++ ".." ++ toString d.span.stop ++ ")"
  let facts := match d.facts with
    | some v => ": " ++ v.compress
    | none => ""
  ⟨if d.isError then .error else .warn,
    "[" ++ d.code ++ "] " ++ id ++ " " ++ place ++ " " ++ d.message ++ facts⟩

def logLines (id : String) (ds : List Diagnostic) : List LogLine :=
  (ds.mergeSort fun a b => a.span.start ≤ b.span.start).map (logLine id)

end Diagnostic
end MetaInline
