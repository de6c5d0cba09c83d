import MetaInline.Text.Basic

namespace MetaInline

structure RegExp where
  pattern : String
  flags : String
deriving DecidableEq

namespace RegExp

def knownFlags : Text :=
  ['d', 'g', 'i', 'm', 's', 'u', 'v', 'y']

def validFlags (flags : Text) : Bool :=
  flags.all knownFlags.contains && decide flags.Nodup && !(flags.contains 'u' && flags.contains 'v')

def hasValidFlags (r : RegExp) : Bool :=
  validFlags r.flags.toList

def nameBreak : Char → Text
  | '\n' => ['n']
  | '\r' => ['r']
  | '\u2028' => "u2028".toList
  | '\u2029' => "u2029".toList
  | c => [c]

def isBreak (c : Char) : Bool :=
  c == '\n' || c == '\r' || c == '\u2028' || c == '\u2029'

def escapeFrom (inClass : Bool) : Text → Text
  | [] => []
  | ['\\'] => ['\\', '\\']
  | '\\' :: c :: cs => '\\' :: nameBreak c ++ escapeFrom inClass cs
  | c :: cs =>
    if c = '[' then c :: escapeFrom true cs
    else if c = ']' then c :: escapeFrom false cs
    else if c = '/' ∧ inClass = false then '\\' :: c :: escapeFrom inClass cs
    else if isBreak c then '\\' :: nameBreak c ++ escapeFrom inClass cs
    else c :: escapeFrom inClass cs

/-- A body as it is written. An empty body would begin a comment and is written as an empty
group. -/
def escape : Text → Text
  | [] => "(?:)".toList
  | c :: cs => escapeFrom false (c :: cs)

def source (r : RegExp) : Text :=
  '/' :: escape r.pattern.toList ++ '/' :: r.flags.toList

/-- The body and flags of a literal: the flags follow its last slash. -/
def ofSource? : Text → Option RegExp
  | '/' :: cs =>
    let flags := (cs.reverse.takeWhile (· ≠ '/')).reverse
    let body := (cs.reverse.dropWhile (· ≠ '/')).reverse
    if body = [] then none
    else some ⟨String.ofList body.dropLast, String.ofList flags⟩
  | _ => none

end RegExp
end MetaInline
