import MetaInline.Number.Decimal

/-!
The numbers that numeric literals denote, read from their texts: digits in radix ten, or after
`0x`, `0o` or `0b` in radix sixteen, eight or two; low lines between digits separate them and mean
nothing; an `n` at the end marks an integer of unbounded size.
-/

namespace MetaInline.Numeric

def radixOf? (c : Char) : Option Nat :=
  if c = 'x' ∨ c = 'X' then some 16
  else if c = 'o' ∨ c = 'O' then some 8
  else if c = 'b' ∨ c = 'B' then some 2
  else none

def digitValue? (radix : Nat) (c : Char) : Option Nat :=
  let n :=
    if '0' ≤ c ∧ c ≤ '9' then c.toNat - '0'.toNat
    else if 'a' ≤ c ∧ c ≤ 'z' then c.toNat - 'a'.toNat + 10
    else if 'A' ≤ c ∧ c ≤ 'Z' then c.toNat - 'A'.toNat + 10
    else radix
  if n < radix then some n else none

def isDigit (radix : Nat) (c : Char) : Bool :=
  (digitValue? radix c).isSome

def ofDigits? (radix : Nat) (cs : List Char) : Option Nat :=
  if cs = [] then none
  else cs.foldlM (fun n c => (digitValue? radix c).map (radix * n + ·)) 0

def withoutSeparators (cs : List Char) : List Char :=
  cs.filter (· ≠ '_')

def integer? (raw : List Char) : Option Nat := do
  guard (raw.getLast? = some 'n')
  match withoutSeparators raw.dropLast with
  | '0' :: c :: cs =>
    match radixOf? c with
    | some radix => ofDigits? radix cs
    | none => ofDigits? 10 ('0' :: c :: cs)
  | cs => ofDigits? 10 cs

def exponent : List Char → Int
  | '-' :: cs => -Decimal.ofDigits cs
  | '+' :: cs => Decimal.ofDigits cs
  | cs => Decimal.ofDigits cs

def decimal (cs : List Char) : Decimal :=
  let (whole, cs) := cs.span (isDigit 10)
  let (fraction, cs) := match cs with
    | '.' :: cs => cs.span (isDigit 10)
    | cs => ([], cs)
  .ofParts whole fraction (exponent (cs.drop 1))

/-- The number of a literal. Octal digits after a leading zero are read in radix eight. -/
def number (raw : List Char) : Double :=
  match withoutSeparators raw with
  | '0' :: c :: cs =>
    match radixOf? c with
    | some radix => .ofNat ((ofDigits? radix cs).getD 0)
    | none =>
      if (c :: cs).all (isDigit 8) then .ofNat ((ofDigits? 8 (c :: cs)).getD 0)
      else (decimal ('0' :: c :: cs)).toDouble false
  | cs => (decimal cs).toDouble false

end MetaInline.Numeric
