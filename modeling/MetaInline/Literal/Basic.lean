import MetaInline.Literal.RegExp
import MetaInline.Number.Shortest
import MetaInline.Text.Quoted

namespace MetaInline

inductive Literal where
  | null
  | bool (b : Bool)
  | number (x : Double)
  | string (s : String)
  | bigint (n : Int)
  | regexp (r : RegExp)
deriving DecidableEq

inductive Value where
  | literal (v : Literal)
  | list (vs : List Literal)
  | undefined
deriving DecidableEq

structure InvalidLiteral where
  typeName : String
deriving DecidableEq

def InvalidLiteral.message (e : InvalidLiteral) : String :=
  "value is not a valid literal: " ++ e.typeName

namespace Double

def exponentForm (d : Decimal) : Text :=
  let ds := Decimal.digits d.coefficient
  let e := d.exponent + (ds.length - 1 : Nat)
  let power := (if e < 0 then ['-'] else []) ++ Decimal.digits e.natAbs
  ds.take 1 ++ (if ds.length = 1 then [] else '.' :: ds.drop 1) ++ 'e' :: power

def positionalForm (d : Decimal) : Text :=
  let ds := Decimal.digits d.coefficient
  if 0 ≤ d.exponent then ds ++ List.replicate d.exponent.toNat '0'
  else
    let places := (-d.exponent).toNat
    if places < ds.length then
      ds.take (ds.length - places) ++ '.' :: ds.drop (ds.length - places)
    else '0' :: '.' :: List.replicate (places - ds.length) '0' ++ ds

def isPositional (x : Double) : Bool :=
  (nearest false 1 (Nat.pow 10 6)).magnitude ≤ x.magnitude &&
    x.magnitude < (nearest false (Nat.pow 10 21) 1).magnitude

/-- The literal of a finite number. Zero is written without its sign. -/
def source (x : Double) : Text :=
  if x.isZero then ['0']
  else
    let d := x.shortest true
    let text := if x.isPositional then positionalForm d else exponentForm d
    if x.negative then '-' :: text else text

end Double

namespace Literal

def isValid : Literal → Bool
  | .number x => x.isFinite
  | .regexp r => r.hasValidFlags
  | _ => true

def typeName : Literal → String
  | .null => "null"
  | .bool _ => "boolean"
  | .number x => if x.isNaN then "NaN" else if x.isInfinite then "Infinity" else "number"
  | .string _ => "string"
  | .bigint _ => "bigint"
  | .regexp r => if r.hasValidFlags then "RegExp" else "RegExp with invalid flags"

def bigintSource (n : Int) : Text :=
  (if n < 0 then ['-'] else []) ++ Decimal.digits n.natAbs ++ ['n']

def text : Literal → Text
  | .null => "null".toList
  | .bool b => if b then "true".toList else "false".toList
  | .number x => x.source
  | .string s => Quoted.data s.toList
  | .bigint n => bigintSource n
  | .regexp r => r.source

def source (v : Literal) : Except InvalidLiteral Text :=
  if v.isValid then .ok v.text else .error ⟨v.typeName⟩

end Literal

namespace Value

def literal? : Value → Option Literal
  | .literal v => if v.isValid then some v else none
  | _ => none

def isLiteral (v : Value) : Bool :=
  v.literal?.isSome

def typeName : Value → String
  | .literal v => v.typeName
  | .list _ => "array"
  | .undefined => "undefined"

def source : Value → Except InvalidLiteral Text
  | .literal v => v.source
  | v => .error ⟨v.typeName⟩

end Value
end MetaInline
