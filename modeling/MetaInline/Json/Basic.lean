import MetaInline.Literal.Basic

namespace MetaInline

inductive Json where
  | null
  | bool (b : Bool)
  | int (n : Int)
  | float (x : Double)
  | string (s : String)
  | array (items : List Json)
  /-- Fields in the order of their names, without repetition. -/
  | object (fields : List (String × Json))

namespace Json

def insertField (key : String) (v : Json) : List (String × Json) → List (String × Json)
  | [] => [(key, v)]
  | (k, w) :: fields =>
    if key < k then (key, v) :: (k, w) :: fields
    else if key = k then (key, v) :: fields
    else (k, w) :: insertField key v fields

def ofFields (fields : List (String × Json)) : Json :=
  .object (fields.foldl (fun sorted (k, v) => insertField k v sorted) [])

/-- A float in its shortest digits: in full from `10 ^ (-5)` up to `10 ^ 16`, always with a point or
an exponent. -/
def floatText (x : Double) : Text :=
  let sign := if x.negative then ['-'] else []
  if x.isZero then sign ++ "0.0".toList
  else
    let d := x.shortest false
    let size : Int := d.exponent + (Decimal.digits d.coefficient).length
    if -5 < size ∧ size ≤ 16 then
      let text := Double.positionalForm d
      sign ++ text ++ (if text.contains '.' then [] else ".0".toList)
    else sign ++ Double.exponentForm d

def intText (n : Int) : Text :=
  (if n < 0 then ['-'] else []) ++ Decimal.digits n.natAbs

mutual

def text : Json → Text
  | .null => "null".toList
  | .bool b => if b then "true".toList else "false".toList
  | .int n => intText n
  | .float x => floatText x
  | .string s => Quoted.data s.toList
  | .array items => '[' :: itemsText items ++ [']']
  | .object fields => '{' :: fieldsText fields ++ ['}']

def itemsText : List Json → Text
  | [] => []
  | [v] => text v
  | v :: vs => text v ++ ',' :: itemsText vs

def fieldText : String × Json → Text
  | (k, v) => Quoted.data k.toList ++ ':' :: text v

def fieldsText : List (String × Json) → Text
  | [] => []
  | [f] => fieldText f
  | f :: fs => fieldText f ++ ',' :: fieldsText fs

end

def compress (v : Json) : String :=
  String.ofList v.text

def field? (key : String) : Json → Option Json
  | .object fields => fields.lookup key
  | _ => none

end Json
end MetaInline
