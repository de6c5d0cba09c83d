import MetaInline.Module.Options
import MetaInline.Pattern.Parser

namespace MetaInline

structure InvalidPattern where
  pattern : String
deriving DecidableEq

def InvalidPattern.message (e : InvalidPattern) : String :=
  "invalid filter pattern " ++ String.ofList (Quoted.display e.pattern.toList)

structure Filter where
  includes : List Pattern
  excludes : List Pattern

namespace Filter

def readPattern (s : String) : Except InvalidPattern Pattern :=
  match Pattern.parse? s.toList with
  | some p => .ok p
  | none => .error ⟨s⟩

def ofPatterns (includes excludes : List String) : Except InvalidPattern Filter := do
  let is ← includes.mapM readPattern
  let es ← excludes.mapM readPattern
  return ⟨is, es⟩

def accepts (f : Filter) (id : Text) : Bool :=
  f.includes.any (·.isFoundIn Unicode.isWord id) && !f.excludes.any (·.isFoundIn Unicode.isWord id)

end Filter
end MetaInline
