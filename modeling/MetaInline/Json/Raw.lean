import MetaInline.Json.Basic
import MetaInline.Literal.Numeric

/-!
Reading the data format, in two steps. `Raw` holds what the grammar tells apart: numbers as they
are written, strings that may hold surrogates without partner, and fields as often as they occur.
`Raw.toJson?` is the strict reading of that.
-/

namespace MetaInline

inductive Raw where
  | null
  | bool (b : Bool)
  | number (text : Text)
  /-- A string; nothing if a surrogate in it has no partner. -/
  | string (s : Option String)
  | array (items : List Raw)
  | object (fields : List (Option String × Raw))

namespace Raw

def escapeCode? (c : Char) : Option Nat :=
  if c = '"' ∨ c = '\\' ∨ c = '/' then some c.toNat
  else if c = 'b' then some 8
  else if c = 'f' then some 12
  else if c = 'n' then some 10
  else if c = 'r' then some 13
  else if c = 't' then some 9
  else none

def readCodes : List Nat → Text → Option (List Nat × Text)
  | _, [] => none
  | acc, '\\' :: cs =>
    match cs with
    | 'u' :: c₁ :: c₂ :: c₃ :: c₄ :: cs =>
      (Numeric.ofDigits? 16 [c₁, c₂, c₃, c₄]).bind fun n => readCodes (n :: acc) cs
    | c :: cs => (escapeCode? c).bind fun n => readCodes (n :: acc) cs
    | [] => none
  | acc, c :: cs =>
    if c = '"' then some (acc.reverse, cs)
    else if c.toNat < 0x20 then none
    else readCodes (c.toNat :: acc) cs

def textOfCodes? : List Nat → Option Text
  | [] => some []
  | [n] => if n.isValidChar then some [Char.ofNat n] else none
  | h :: l :: cs =>
    if 0xd800 ≤ h ∧ h < 0xdc00 ∧ 0xdc00 ≤ l ∧ l < 0xe000 then
      (textOfCodes? cs).map (Char.ofNat (0x10000 + (h - 0xd800) * 0x400 + (l - 0xdc00)) :: ·)
    else if h.isValidChar then (textOfCodes? (l :: cs)).map (Char.ofNat h :: ·)
    else none

def readString (cs : Text) : Option (Option String × Text) := do
  let (codes, rest) ← readCodes [] cs
  return ((textOfCodes? codes).map String.ofList, rest)

def isDigit (c : Char) : Bool :=
  '0' ≤ c && c ≤ '9'

def readDigits (cs : Text) : Option (Text × Text) :=
  let (ds, rest) := cs.span isDigit
  if ds.isEmpty then none else some (ds, rest)

def readFraction (cs : Text) : Option (Text × Text) :=
  match cs with
  | '.' :: cs => (readDigits cs).map fun (ds, rest) => ('.' :: ds, rest)
  | cs => some ([], cs)

def readExponent (cs : Text) : Option (Text × Text) :=
  match cs with
  | [] => some ([], [])
  | e :: cs' =>
    if e = 'e' ∨ e = 'E' then
      match cs' with
      | '+' :: cs => (readDigits cs).map fun (ds, rest) => ('e' :: ds, rest)
      | '-' :: cs => (readDigits cs).map fun (ds, rest) => ('e' :: '-' :: ds, rest)
      | cs => (readDigits cs).map fun (ds, rest) => ('e' :: ds, rest)
    else some ([], e :: cs')

def readNumber (cs : Text) : Option (Text × Text) := do
  let (sign, cs) := match cs with
    | '-' :: cs => (['-'], cs)
    | cs => ([], cs)
  let (whole, cs) ← readDigits cs
  guard (whole.head? ≠ some '0' ∨ whole = ['0'])
  let (fraction, cs) ← readFraction cs
  let (power, cs) ← readExponent cs
  return (sign ++ whole ++ fraction ++ power, cs)

def isSpace (c : Char) : Bool :=
  c == ' ' || c == '\n' || c == '\t' || c == '\r'

def skipSpace (cs : Text) : Text :=
  cs.dropWhile isSpace

mutual

def readValue : Nat → Text → Option (Raw × Text)
  | 0, _ => none
  | n + 1, cs =>
    match skipSpace cs with
    | '"' :: cs => (readString cs).map fun (s, rest) => (.string s, rest)
    | '[' :: cs =>
      match skipSpace cs with
      | ']' :: cs => some (.array [], cs)
      | cs => (readItems n cs).map fun (vs, rest) => (.array vs, rest)
    | '{' :: cs =>
      match skipSpace cs with
      | '}' :: cs => some (.object [], cs)
      | cs => (readFields n cs).map fun (fs, rest) => (.object fs, rest)
    | 'n' :: 'u' :: 'l' :: 'l' :: cs => some (.null, cs)
    | 't' :: 'r' :: 'u' :: 'e' :: cs => some (.bool true, cs)
    | 'f' :: 'a' :: 'l' :: 's' :: 'e' :: cs => some (.bool false, cs)
    | cs => (readNumber cs).map fun (text, rest) => (.number text, rest)

def readItems : Nat → Text → Option (List Raw × Text)
  | 0, _ => none
  | n + 1, cs => do
    let (v, cs) ← readValue n cs
    match skipSpace cs with
    | ',' :: cs =>
      let (vs, rest) ← readItems n cs
      return (v :: vs, rest)
    | ']' :: cs => return ([v], cs)
    | _ => none

def readFields : Nat → Text → Option (List (Option String × Raw) × Text)
  | 0, _ => none
  | n + 1, cs => do
    match skipSpace cs with
    | '"' :: cs =>
      let (key, cs) ← readString cs
      match skipSpace cs with
      | ':' :: cs =>
        let (v, cs) ← readValue n cs
        match skipSpace cs with
        | ',' :: cs =>
          let (fs, rest) ← readFields n cs
          return ((key, v) :: fs, rest)
        | '}' :: cs => return ([(key, v)], cs)
        | _ => none
      | _ => none
    | _ => none

end

def parse (cs : Text) : Option Raw := do
  let (v, rest) ← readValue (2 * cs.length + 2) cs
  guard (skipSpace rest = [])
  return v

mutual

def depth : Raw → Nat
  | .array items => depthOfItems items + 1
  | .object fields => depthOfFields fields + 1
  | _ => 0

def depthOfItems : List Raw → Nat
  | [] => 0
  | v :: vs => max (depth v) (depthOfItems vs)

def depthOfField : Option String × Raw → Nat
  | (_, v) => depth v

def depthOfFields : List (Option String × Raw) → Nat
  | [] => 0
  | f :: fs => max (depthOfField f) (depthOfFields fs)

end

def wordMax : Nat := Nat.pow 2 64 - 1

/-- A significand with the digits that still fit into 64 bits, and the number of the others. -/
def significand (start : Nat) (ds : Text) : Nat × Nat :=
  ds.foldl (fun (m, dropped) c =>
    let m' := 10 * m + Decimal.digitValue c
    if dropped = 0 ∧ m' ≤ wordMax then (m', 0) else (m, dropped + 1)) (start, 0)

def scaleBy (x : Double) (e : Int) : Double :=
  let p := Decimal.toDouble false ⟨1, e.natAbs⟩
  let (m, up, down) := (x.significand, Nat.pow 2 x.power.toNat, Nat.pow 2 (-x.power).toNat)
  let (n, up', down') := (p.significand, Nat.pow 2 p.power.toNat, Nat.pow 2 (-p.power).toNat)
  if x.isZero then x
  else if 0 ≤ e then .nearest x.negative (m * up * (n * up')) (down * down')
  else .nearest x.negative (m * up * down') (down * (n * up'))

/-- A significand times a power of ten, rounded once as a significand and once more in each scaling;
nothing if it is out of range. -/
def scaled? (negative : Bool) (m : Nat) (e : Int) : Option Double :=
  let sign (x : Double) : Double := if negative then -x else x
  let x := Double.ofNat m
  if m = 0 then some (.zero negative)
  else if 308 < e then none
  else if 0 ≤ e then
    let y := scaleBy x e
    if y.isInfinite then none else some (sign y)
  else if -308 ≤ e then some (sign (scaleBy x e))
  else if -616 ≤ e then some (sign (scaleBy (scaleBy x (-308)) (e + 308)))
  else some (.zero negative)

def number? (cs : Text) : Option Json :=
  let (negative, cs) := match cs with
    | '-' :: cs => (true, cs)
    | cs => (false, cs)
  let (whole, cs) := cs.span isDigit
  let (m, dropped) := significand 0 whole
  let (fraction, power) := match cs with
    | '.' :: cs => cs.span isDigit
    | cs => ([], cs)
  if fraction = [] ∧ power = [] ∧ dropped = 0 then
    if !negative then some (.int m)
    else if m = 0 ∨ Nat.pow 2 63 < m then some (.float (-Double.ofNat m))
    else some (.int (-m))
  else
    let (m, ignored) := significand m fraction
    let e : Int := dropped - (fraction.length - ignored : Nat) + Numeric.exponent (power.drop 1)
    (scaled? negative m e).map .float

mutual

def toJson? : Raw → Option Json
  | .null => some .null
  | .bool b => some (.bool b)
  | .number text => number? text
  | .string s => s.map .string
  | .array items => (itemsToJson? items).map .array
  | .object fields => (fieldsToJson? fields).map Json.ofFields

def itemsToJson? : List Raw → Option (List Json)
  | [] => some []
  | v :: vs =>
    match toJson? v, itemsToJson? vs with
    | some w, some ws => some (w :: ws)
    | _, _ => none

def fieldToJson? : Option String × Raw → Option (String × Json)
  | (key, v) =>
    match key, toJson? v with
    | some k, some w => some (k, w)
    | _, _ => none

def fieldsToJson? : List (Option String × Raw) → Option (List (String × Json))
  | [] => some []
  | f :: fs =>
    match fieldToJson? f, fieldsToJson? fs with
    | some g, some gs => some (g :: gs)
    | _, _ => none

end

def maxDepth : Nat := 127

end Raw

def Json.parse (cs : Text) : Option Json := do
  let raw ← Raw.parse cs
  guard (raw.depth ≤ Raw.maxDepth)
  raw.toJson?

end MetaInline
