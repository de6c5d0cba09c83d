import MetaInline.Literal.Numeric
import MetaInline.Script.Token
import MetaInline.Unicode.Identifier

/-!
Reading tokens. A lexeme is a token with its place: the text from its first character on, the text
after it, and whether a line break stands before it. How a slash, a brace or a sign is to be read
depends on the grammar, which asks for another reading (`Lexeme.regexp`, `Lexeme.templateRest`, …)
where it expects one.
-/

namespace MetaInline.Script

def isLineBreak (c : Char) : Bool :=
  c == '\n' || c == '\r' || c == '\u2028' || c == '\u2029'

def isSpace (c : Char) : Bool :=
  let n := c.toNat
  n == 0x20 || n == 9 || n == 11 || n == 12 || n == 0xa0 || n == 0xfeff || n == 0x85 ||
    n == 0x1680 || (0x2000 ≤ n && n ≤ 0x200b) || n == 0x202f || n == 0x205f || n == 0x3000

structure Lexeme where
  token : Token
  start : Nat
  here : Text
  stop : Nat
  rest : Text
  newline : Bool

inductive Trivia where
  | plain
  | line
  | block

/-- What precedes the next token: was there a line break, and where does the token start? Nothing
is returned for a comment without end. With `markup`, the marks of HTML comments begin comments
that end with the line. -/
def skipTrivia (markup : Bool) : Trivia → Bool → Nat → Text → Option (Bool × Nat × Text)
  | .block, _, _, [] => none
  | _, nl, pos, [] => some (nl, pos, [])
  | .line, nl, pos, c :: cs =>
    if isLineBreak c then skipTrivia markup .plain true (pos + c.utf8Size) cs
    else skipTrivia markup .line nl (pos + c.utf8Size) cs
  | .block, nl, pos, c :: cs =>
    match c, cs with
    | '*', '/' :: cs => skipTrivia markup .plain nl (pos + 2) cs
    | c, cs => skipTrivia markup .block (nl || isLineBreak c) (pos + c.utf8Size) cs
  | .plain, nl, pos, c :: cs =>
    if isLineBreak c then skipTrivia markup .plain true (pos + c.utf8Size) cs
    else if isSpace c then skipTrivia markup .plain nl (pos + c.utf8Size) cs
    else
      match c, cs with
      | '/', '/' :: cs => skipTrivia markup .line nl (pos + 2) cs
      | '/', '*' :: cs => skipTrivia markup .block nl (pos + 2) cs
      | '<', '!' :: '-' :: '-' :: cs =>
        if markup then skipTrivia markup .line nl (pos + 4) cs
        else some (nl, pos, '<' :: '!' :: '-' :: '-' :: cs)
      -- The mark that closes a comment begins one at the beginning of a line.
      | '-', '-' :: '>' :: cs =>
        if markup && nl then skipTrivia markup .line nl (pos + 3) cs
        else some (nl, pos, '-' :: '-' :: '>' :: cs)
      | c, cs => some (nl, pos, c :: cs)

def isOctal (c : Char) : Bool :=
  '0' ≤ c && c ≤ '7'

def letterEscape (c : Char) : Nat :=
  match c with
  | 'n' => 10
  | 't' => 9
  | 'b' => 8
  | 'v' => 11
  | 'f' => 12
  | 'r' => 13
  | c => c.toNat

/-- The codes of a quoted text, surrogates by themselves, and nothing if an escape is malformed.
`braced` holds the number of an escape in braces that has begun. In a template octal escapes are
malformed and a line break is one line feed. -/
def cook (template : Bool) : (braced : Option (Option Nat)) → List Nat → Text → Option (List Nat)
  | none, acc, [] => some acc.reverse
  | some _, _, [] => none
  | some n, acc, c :: cs =>
    if c = '}' then n.bind fun n => cook template none (n :: acc) cs
    else
      (Numeric.digitValue? 16 c).bind fun d =>
        let n := 16 * n.getD 0 + d
        if n ≤ 0x10ffff then cook template (some (some n)) acc cs else none
  | none, acc, '\\' :: cs =>
    match cs with
    | 'u' :: '{' :: cs => cook template (some none) acc cs
    | 'u' :: c₁ :: c₂ :: c₃ :: c₄ :: cs =>
      (Numeric.ofDigits? 16 [c₁, c₂, c₃, c₄]).bind fun n => cook template none (n :: acc) cs
    | 'x' :: c₁ :: c₂ :: cs =>
      (Numeric.ofDigits? 16 [c₁, c₂]).bind fun n => cook template none (n :: acc) cs
    | '\r' :: '\n' :: cs => cook template none acc cs
    | c₁ :: cs₁ =>
      if c₁ = 'u' ∨ c₁ = 'x' then none
      else if isLineBreak c₁ then cook template none acc cs₁
      else if template && Unicode.isAsciiDigit c₁ then
        match c₁, cs₁ with
        | '0', c₂ :: cs₂ =>
          if Unicode.isAsciiDigit c₂ then none else cook template none (0 :: acc) (c₂ :: cs₂)
        | '0', [] => some (0 :: acc).reverse
        | _, _ => none
      else if isOctal c₁ then
        let d₁ := c₁.toNat - '0'.toNat
        match cs₁ with
        | c₂ :: cs₂ =>
          if isOctal c₂ then
            let d₂ := 8 * d₁ + (c₂.toNat - '0'.toNat)
            match cs₂ with
            | c₃ :: cs₃ =>
              if isOctal c₃ && d₁ < 4 then
                cook template none ((8 * d₂ + (c₃.toNat - '0'.toNat)) :: acc) cs₃
              else cook template none (d₂ :: acc) (c₃ :: cs₃)
            | [] => some (d₂ :: acc).reverse
          else cook template none (d₁ :: acc) (c₂ :: cs₂)
        | [] => some (d₁ :: acc).reverse
      else cook template none (letterEscape c₁ :: acc) cs₁
    | [] => none
  | none, acc, c :: cs =>
    if template && c == '\r' then
      match cs with
      | '\n' :: cs => cook template none (10 :: acc) cs
      | cs => cook template none (10 :: acc) cs
    else cook template none (c.toNat :: acc) cs

def joinSurrogates : List Nat → List Nat
  | h :: l :: cs =>
    if 0xd800 ≤ h ∧ h < 0xdc00 ∧ 0xdc00 ≤ l ∧ l < 0xe000 then
      (0x10000 + (h - 0xd800) * 0x400 + (l - 0xdc00)) :: joinSurrogates cs
    else h :: joinSurrogates (l :: cs)
  | cs => cs

def isSurrogate (n : Nat) : Bool :=
  0xd800 ≤ n && n < 0xe000

/-- A surrogate that stands alone is no character: it is kept as a replacement character and its
number, and then so are replacement characters. -/
def textOfCodes (codes : List Nat) : Text :=
  let codes := joinSurrogates codes
  if codes.any isSurrogate then
    codes.flatMap fun n =>
      if isSurrogate n || n == 0xfffd then '\ufffd' :: Quoted.hex 4 n else [Char.ofNat n]
  else codes.map Char.ofNat

def cookedText? (template : Bool) (raw : Text) : Option String :=
  (cook template none [] raw).map fun codes => String.ofList (textOfCodes codes)

/-- The characters of a name from the front of a text, whether one of them is escaped, and the
rest. `braced` holds the number of an escape in braces that has begun. -/
def readName : (braced : Option (Option Nat)) → Bool → Text → Nat → Text →
    Option (Text × Bool × Nat × Text)
  | some _, _, _, _, [] => none
  | none, escaped, acc, pos, [] => some (acc.reverse, escaped, pos, [])
  | some n, escaped, acc, pos, c :: cs =>
    if c = '}' then
      n.bind fun n =>
        let d := Char.ofNat n
        if d.toNat = n ∧ (if acc.isEmpty then Unicode.isIdStart d else Unicode.isIdPart d) then
          readName none escaped (d :: acc) (pos + 1) cs
        else none
    else
      (Numeric.digitValue? 16 c).bind fun d =>
        let n := 16 * n.getD 0 + d
        if n ≤ 0x10ffff then readName (some (some n)) escaped acc (pos + 1) cs else none
  | none, escaped, acc, pos, c :: cs =>
    if c = '\\' then
      match cs with
      | 'u' :: '{' :: cs => readName (some none) true acc (pos + 3) cs
      | 'u' :: c₁ :: c₂ :: c₃ :: c₄ :: cs =>
        (Numeric.ofDigits? 16 [c₁, c₂, c₃, c₄]).bind fun n =>
          let d := Char.ofNat n
          if d.toNat = n ∧ (if acc.isEmpty then Unicode.isIdStart d else Unicode.isIdPart d) then
            readName none true (d :: acc) (pos + 6) cs
          else none
      | _ => none
    else if (if acc.isEmpty then Unicode.isIdStart c else Unicode.isIdPart c) then
      readName none escaped (c :: acc) (pos + c.utf8Size) cs
    else some (acc.reverse, escaped, pos, c :: cs)

def separated (run : Text) : Bool :=
  !run.isEmpty && run.head? != some '_' && run.getLast? != some '_' && !Text.mentions ['_', '_'] run

def digitRun (radix : Nat) (cs : Text) : Text × Text :=
  cs.span fun c => Numeric.isDigit radix c || c == '_'

def readExponent (cs : Text) : Option (Text × Text) :=
  match cs with
  | e :: cs' =>
    if e = 'e' ∨ e = 'E' then
      let (sign, cs') := match cs' with
        | '+' :: cs' => (['+'], cs')
        | '-' :: cs' => (['-'], cs')
        | cs' => ([], cs')
      let (run, rest) := digitRun 10 cs'
      if separated run then some (e :: sign ++ run, rest) else none
    else some ([], e :: cs')
  | [] => some ([], [])

def readFraction (cs : Text) : Option (Text × Text) :=
  match cs with
  | '.' :: cs => do
    let (run, cs) := digitRun 10 cs
    guard (run = [] ∨ separated run)
    let (power, rest) ← readExponent cs
    return ('.' :: run ++ power, rest)
  | cs => readExponent cs

def readNumber (cs : Text) : Option (Text × Text) := do
  let (run, rest) := digitRun 10 cs
  match run, rest with
  | ['0'], c :: rest' =>
    match Numeric.radixOf? c with
    | some radix =>
      let (run, rest) := digitRun radix rest'
      guard (separated run)
      match rest with
      | 'n' :: rest => return ('0' :: c :: run ++ ['n'], rest)
      | rest => return ('0' :: c :: run, rest)
    | none =>
      if c = 'n' then return (['0', 'n'], rest')
      else
        let (tail, rest) ← readFraction rest
        return ('0' :: tail, rest)
  | '0' :: _ :: _, rest =>
    guard (!run.contains '_')
    if run.all (Numeric.isDigit 8) then return (run, rest)
    else
      let (tail, rest) ← readFraction rest
      return (run ++ tail, rest)
  | [], rest =>
    let (tail, rest) ← readFraction rest
    guard (1 < tail.length)
    return (tail, rest)
  | run, 'n' :: rest =>
    guard (separated run)
    return (run ++ ['n'], rest)
  | run, rest =>
    guard (separated run)
    let (tail, rest) ← readFraction rest
    return (run ++ tail, rest)

def endsNumber (rest : Text) : Bool :=
  match rest with
  | c :: _ => !Unicode.isIdStart c && !Unicode.isAsciiDigit c && c != '\\'
  | [] => true

def numberToken (raw : Text) : Token :=
  if raw.getLast? = some 'n' then
    match Numeric.integer? raw with
    | some n => .bigint n
    | none => .malformed
  else .number (Numeric.number raw)

def readString (quote : Char) : Text → Text → Option (Text × Text)
  | _, [] => none
  | acc, '\\' :: '\r' :: '\n' :: cs => readString quote ('\n' :: '\r' :: '\\' :: acc) cs
  | acc, '\\' :: c :: cs => readString quote (c :: '\\' :: acc) cs
  | acc, c :: cs =>
    if c = quote then some (acc.reverse, cs)
    else if c = '\n' ∨ c = '\r' then none
    else readString quote (c :: acc) cs

def readTemplate : Text → Text → Option (Text × Bool × Text)
  | _, [] => none
  | acc, '\\' :: c :: cs => readTemplate (c :: '\\' :: acc) cs
  | acc, '$' :: '{' :: cs => some (acc.reverse, false, cs)
  | acc, c :: cs =>
    if c.toNat = 0x60 then some (acc.reverse, true, cs) else readTemplate (c :: acc) cs

def readBody (inClass : Bool) : Text → Text → Option (Text × Text)
  | _, [] => none
  | acc, '\\' :: c :: cs => if isLineBreak c then none else readBody inClass (c :: '\\' :: acc) cs
  | acc, c :: cs =>
    if isLineBreak c then none
    else if c = '[' then readBody true (c :: acc) cs
    else if c = ']' then readBody false (c :: acc) cs
    else if c = '/' ∧ inClass = false then some (acc.reverse, cs)
    else readBody inClass (c :: acc) cs

def isFlagChar (c : Char) : Bool :=
  Unicode.isAsciiLetter c || Unicode.isAsciiDigit c || c == '$' || c == '_'

namespace Lexeme

def malformed (start : Nat) (here : Text) (newline : Bool) : Lexeme :=
  ⟨.malformed, start, here, start + Text.size here, [], newline⟩

def atFront (markup newline : Bool) (start : Nat) (here : Text) : Lexeme :=
  let bad := malformed start here newline
  let number :=
    match readNumber here with
    | some (raw, rest) =>
      if endsNumber rest then
        ⟨numberToken raw, start, here, start + raw.length, rest, newline⟩
      else bad
    | none => bad
  let punct (table : List (Text × Punct)) :=
    match Punct.read? table here with
    | some (p, word, rest) => ⟨.punct p, start, here, start + word.length, rest, newline⟩
    | none => bad
  match here with
  | [] => ⟨.done, start, here, start, [], newline⟩
  | c :: cs =>
    if Unicode.isIdStart c || c == '\\' then
      match readName none false [] start here with
      | some (name, escaped, stop, rest) =>
        ⟨.word (String.ofList name) (Keyword.ofText? name) escaped, start, here, stop, rest,
          newline⟩
      | none => bad
    else if Unicode.isAsciiDigit c then number
    else if c == '"' || c == '\'' then
      match readString c [] cs with
      | some (raw, rest) =>
        match cookedText? false raw with
        | some s => ⟨.string s, start, here, start + Text.size raw + 2, rest, newline⟩
        | none => bad
      | none => bad
    else if c.toNat == 0x60 then
      match readTemplate [] cs with
      | some (raw, closed, rest) =>
        ⟨.template (cookedText? true raw) closed, start, here,
          start + Text.size raw + (if closed then 2 else 3), rest, newline⟩
      | none => bad
    else if c == '#' then
      match readName none false [] (start + 1) cs with
      | some (name, _, stop, rest) =>
        if name.isEmpty then bad
        else ⟨.hidden (String.ofList name), start, here, stop, rest, newline⟩
      | none => bad
    else
      match c, cs with
      | '.', d :: _ => if Unicode.isAsciiDigit d then number else punct Punct.spellings
      | '?', '.' :: d :: cs =>
        if Unicode.isAsciiDigit d then
          ⟨.punct .question, start, here, start + 1, '.' :: d :: cs, newline⟩
        else punct Punct.spellings
      | '<', '!' :: '-' :: '-' :: _ => if markup then punct Punct.spellings else bad
      | _, _ => punct Punct.spellings

def first (markup : Bool) (newline : Bool) (pos : Nat) (cs : Text) : Lexeme :=
  match skipTrivia markup .plain newline pos cs with
  | some (nl, start, here) => atFront markup nl start here
  | none => malformed pos cs newline

def next (markup : Bool) (l : Lexeme) : Lexeme :=
  first markup false l.stop l.rest

def joined (l : Lexeme) : Lexeme :=
  match l.token with
  | .punct .greater =>
    match Punct.read? Punct.greaterTails l.rest with
    | some (p, word, rest) =>
      { l with token := .punct p, stop := l.stop + word.length, rest := rest }
    | none => l
  | _ => l

def split (l : Lexeme) : Lexeme :=
  match l.token, l.here with
  | .punct .shiftLeft, _ :: rest =>
    { l with token := .punct .less, stop := l.start + 1, rest := rest }
  | _, _ => l

def regexp (l : Lexeme) : Lexeme :=
  match l.here with
  | '/' :: cs =>
    match readBody false [] cs with
    | some (body, rest) =>
      let (flags, rest) := rest.span isFlagChar
      let raw := '/' :: body ++ '/' :: flags
      match RegExp.ofSource? raw with
      | some r =>
        if r.hasValidFlags then
          { l with token := .regexp r, stop := l.start + Text.size raw, rest := rest }
        else malformed l.start l.here l.newline
      | none => malformed l.start l.here l.newline
    | none => malformed l.start l.here l.newline
  | _ => malformed l.start l.here l.newline

def templateRest (l : Lexeme) : Lexeme :=
  match readTemplate [] l.rest with
  | some (raw, closed, rest) =>
    { l with
      token := .template (cookedText? true raw) closed
      stop := l.stop + Text.size raw + (if closed then 1 else 2)
      rest := rest }
  | none => malformed l.start l.here l.newline

/-- The plain text of an element that follows `l`, and the sign that ends it. Plain text holds none
of the signs that begin or end tags and expressions. -/
def elementText (l : Lexeme) : Text × Lexeme :=
  let (text, rest) := l.rest.span fun c => c != '{' && c != '}' && c != '<' && c != '>'
  (text, atFront true false (l.stop + Text.size text) rest)

def hyphenated (l : Lexeme) : Lexeme :=
  match l.token with
  | .word name _ false =>
    let (more, rest) := l.rest.span fun c => c == '-' || Unicode.isIdPart c
    { l with
      token := .word (name ++ String.ofList more) none false
      stop := l.stop + Text.size more
      rest := rest }
  | _ => l

def attributeValue (l : Lexeme) : Lexeme :=
  match skipTrivia false .plain false l.stop l.rest with
  | some (nl, start, here) =>
    match here with
    | c :: cs =>
      if c == '"' || c == '\'' then
        let (raw, rest) := cs.span (· != c)
        match rest with
        | _ :: rest =>
          ⟨.string (String.ofList raw), start, here, start + Text.size raw + 2, rest, nl⟩
        | [] => malformed start here nl
      else atFront false nl start here
    | [] => atFront false nl start here
  | none => malformed l.stop l.rest false

end Lexeme

end MetaInline.Script
