import MetaInline.Literal.Basic

namespace MetaInline.Script

/-- Words with a meaning of their own. The first 36 are never names. -/
inductive Keyword where
  | kwBreak | kwCase | kwCatch | kwClass | kwConst | kwContinue | kwDebugger | kwDefault
  | kwDelete | kwDo | kwElse | kwEnum | kwExport | kwExtends | kwFalse | kwFinally | kwFor
  | kwFunction | kwIf | kwImport | kwIn | kwInstanceof | kwNew | kwNull | kwReturn | kwSuper
  | kwSwitch | kwThis | kwThrow | kwTrue | kwTry | kwTypeof | kwVar | kwVoid | kwWhile | kwWith
  | kwAbstract | kwAccessor | kwAs | kwAssert | kwAsserts | kwAsync | kwAwait | kwDeclare | kwDefer
  | kwFrom | kwGet | kwGlobal | kwImplements | kwInfer | kwInterface | kwIs | kwKeyof | kwLet
  | kwMeta | kwModule | kwNamespace | kwOf | kwOut | kwOverride | kwPrivate | kwProtected
  | kwPublic | kwReadonly | kwRequire | kwSatisfies | kwSet | kwSource | kwStatic | kwTarget
  | kwType | kwUnique | kwUsing | kwYield
deriving DecidableEq

namespace Keyword

def spellings : List (Text × Keyword) := [
  ("break".toList, .kwBreak),
  ("case".toList, .kwCase),
  ("catch".toList, .kwCatch),
  ("class".toList, .kwClass),
  ("const".toList, .kwConst),
  ("continue".toList, .kwContinue),
  ("debugger".toList, .kwDebugger),
  ("default".toList, .kwDefault),
  ("delete".toList, .kwDelete),
  ("do".toList, .kwDo),
  ("else".toList, .kwElse),
  ("enum".toList, .kwEnum),
  ("export".toList, .kwExport),
  ("extends".toList, .kwExtends),
  ("false".toList, .kwFalse),
  ("finally".toList, .kwFinally),
  ("for".toList, .kwFor),
  ("function".toList, .kwFunction),
  ("if".toList, .kwIf),
  ("import".toList, .kwImport),
  ("in".toList, .kwIn),
  ("instanceof".toList, .kwInstanceof),
  ("new".toList, .kwNew),
  ("null".toList, .kwNull),
  ("return".toList, .kwReturn),
  ("super".toList, .kwSuper),
  ("switch".toList, .kwSwitch),
  ("this".toList, .kwThis),
  ("throw".toList, .kwThrow),
  ("true".toList, .kwTrue),
  ("try".toList, .kwTry),
  ("typeof".toList, .kwTypeof),
  ("var".toList, .kwVar),
  ("void".toList, .kwVoid),
  ("while".toList, .kwWhile),
  ("with".toList, .kwWith),
  ("abstract".toList, .kwAbstract),
  ("accessor".toList, .kwAccessor),
  ("as".toList, .kwAs),
  ("assert".toList, .kwAssert),
  ("asserts".toList, .kwAsserts),
  ("async".toList, .kwAsync),
  ("await".toList, .kwAwait),
  ("declare".toList, .kwDeclare),
  ("defer".toList, .kwDefer),
  ("from".toList, .kwFrom),
  ("get".toList, .kwGet),
  ("global".toList, .kwGlobal),
  ("implements".toList, .kwImplements),
  ("infer".toList, .kwInfer),
  ("interface".toList, .kwInterface),
  ("is".toList, .kwIs),
  ("keyof".toList, .kwKeyof),
  ("let".toList, .kwLet),
  ("meta".toList, .kwMeta),
  ("module".toList, .kwModule),
  ("namespace".toList, .kwNamespace),
  ("of".toList, .kwOf),
  ("out".toList, .kwOut),
  ("override".toList, .kwOverride),
  ("private".toList, .kwPrivate),
  ("protected".toList, .kwProtected),
  ("public".toList, .kwPublic),
  ("readonly".toList, .kwReadonly),
  ("require".toList, .kwRequire),
  ("satisfies".toList, .kwSatisfies),
  ("set".toList, .kwSet),
  ("source".toList, .kwSource),
  ("static".toList, .kwStatic),
  ("target".toList, .kwTarget),
  ("type".toList, .kwType),
  ("unique".toList, .kwUnique),
  ("using".toList, .kwUsing),
  ("yield".toList, .kwYield)]

def ofText? (word : Text) : Option Keyword :=
  spellings.lookup word

def isReserved : Keyword → Bool
  | .kwBreak | .kwCase | .kwCatch | .kwClass | .kwConst | .kwContinue | .kwDebugger | .kwDefault
  | .kwDelete | .kwDo | .kwElse | .kwEnum | .kwExport | .kwExtends | .kwFalse | .kwFinally | .kwFor
  | .kwFunction | .kwIf | .kwImport | .kwIn | .kwInstanceof | .kwNew | .kwNull | .kwReturn
  | .kwSuper | .kwSwitch | .kwThis | .kwThrow | .kwTrue | .kwTry | .kwTypeof | .kwVar | .kwVoid
  | .kwWhile | .kwWith => true
  | _ => false

end Keyword

inductive Punct where
  | lbrace | rbrace | lparen | rparen | lbracket | rbracket | dot | ellipsis | semicolon | comma
  | colon | question | questionDot | arrow | atSign
  | less | lessEq | greater | greaterEq | eqEq | notEq | eqEqEq | notEqEq
  | plus | minus | star | starStar | slash | percent | plusPlus | minusMinus
  | shiftLeft | shiftRight | shiftRightZero | amp | bar | caret | bang | tilde
  | andAnd | orOr | coalesce
  | assign | plusAssign | minusAssign | starAssign | starStarAssign | slashAssign | percentAssign
  | shiftLeftAssign | shiftRightAssign | shiftRightZeroAssign | ampAssign | barAssign | caretAssign
  | andAssign | orAssign | coalesceAssign
deriving DecidableEq

namespace Punct

/-- The punctuators that are read wherever they stand, the longer before the shorter. After a
greater-than sign reading stops: it may close a list of types, and is joined to what follows only
where an operator can stand. -/
def spellings : List (Text × Punct) := [
  (">".toList, .greater),
  ("**=".toList, .starStarAssign), ("===".toList, .eqEqEq), ("!==".toList, .notEqEq),
  ("<<=".toList, .shiftLeftAssign), ("...".toList, .ellipsis), ("&&=".toList, .andAssign),
  ("||=".toList, .orAssign), ("??=".toList, .coalesceAssign),
  ("=>".toList, .arrow), ("==".toList, .eqEq), ("!=".toList, .notEq), ("<=".toList, .lessEq),
  ("<<".toList, .shiftLeft), ("**".toList, .starStar), ("++".toList, .plusPlus),
  ("--".toList, .minusMinus), ("&&".toList, .andAnd), ("||".toList, .orOr),
  ("??".toList, .coalesce), ("?.".toList, .questionDot), ("+=".toList, .plusAssign),
  ("-=".toList, .minusAssign), ("*=".toList, .starAssign), ("/=".toList, .slashAssign),
  ("%=".toList, .percentAssign), ("&=".toList, .ampAssign), ("|=".toList, .barAssign),
  ("^=".toList, .caretAssign),
  (['{'], .lbrace), (['}'], .rbrace), ("(".toList, .lparen), (")".toList, .rparen),
  ("[".toList, .lbracket), ("]".toList, .rbracket), (".".toList, .dot), (";".toList, .semicolon),
  (",".toList, .comma), (":".toList, .colon), ("?".toList, .question), ("@".toList, .atSign),
  ("<".toList, .less), ("+".toList, .plus), ("-".toList, .minus), ("*".toList, .star),
  ("/".toList, .slash), ("%".toList, .percent), ("&".toList, .amp), ("|".toList, .bar),
  ("^".toList, .caret), ("!".toList, .bang), ("~".toList, .tilde), ("=".toList, .assign)]

def greaterTails : List (Text × Punct) := [
  (">>=".toList, .shiftRightZeroAssign), (">>".toList, .shiftRightZero),
  (">=".toList, .shiftRightAssign), (">".toList, .shiftRight), ("=".toList, .greaterEq)]

def read? (table : List (Text × Punct)) (cs : Text) : Option (Punct × Text × Text) :=
  table.findSome? fun (word, p) => (Text.dropFront? word cs).map fun rest => (p, word, rest)

end Punct

inductive Token where
  | done
  | word (name : String) (keyword : Option Keyword) (escaped : Bool)
  | hidden (name : String)
  | punct (p : Punct)
  | number (x : Double)
  | bigint (n : Int)
  | string (s : String)
  | template (cooked : Option String) (closed : Bool)
  | regexp (r : RegExp)
  | malformed
deriving DecidableEq

end MetaInline.Script
