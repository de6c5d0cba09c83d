/-!
Patterns of text and what they match. A pattern leads from places in a text to the places where a
match that begins there can end; it is found in a text if it leads from any place to any other.
-/

namespace MetaInline

inductive Boundary where
  | textStart
  | textEnd
  | lineStart (crlf : Bool)
  | lineEnd (crlf : Bool)
  | word
  | notWord
  | wordStart
  | wordEnd
  | wordStartHalf
  | wordEndHalf
deriving DecidableEq

inductive Pattern where
  | empty
  | never
  | char (isIn : Char → Bool)
  | boundary (b : Boundary)
  | seq (p q : Pattern)
  | alt (p q : Pattern)
  | times (p : Pattern) (least : Nat) (most : Option Nat)

namespace Pattern

structure Place where
  index : Nat
  before : Option Char
  after : List Char

def placesFrom : Nat → Option Char → List Char → List Place
  | i, before, [] => [⟨i, before, []⟩]
  | i, before, c :: cs => ⟨i, before, c :: cs⟩ :: placesFrom (i + 1) (some c) cs

def places (cs : List Char) : List Place :=
  placesFrom 0 none cs

def union (as bs : List Place) : List Place :=
  as ++ bs.filter fun b => as.all (·.index != b.index)

def holds (isWord : Char → Bool) (p : Place) : Boundary → Bool
  | .textStart => p.before.isNone
  | .textEnd => p.after.isEmpty
  | .lineStart crlf =>
    match p.before with
    | none => true
    | some c =>
      c == '\n' || (crlf && c == '\r' && p.after.head? != some '\n')
  | .lineEnd crlf =>
    match p.after with
    | [] => true
    | c :: _ =>
      if crlf then c == '\r' || (c == '\n' && p.before != some '\r') else c == '\n'
  | .word => p.before.any isWord != p.after.head?.any isWord
  | .notWord => p.before.any isWord == p.after.head?.any isWord
  | .wordStart => !p.before.any isWord && p.after.head?.any isWord
  | .wordEnd => p.before.any isWord && !p.after.head?.any isWord
  | .wordStartHalf => !p.before.any isWord
  | .wordEndHalf => !p.after.head?.any isWord

def step (isIn : Char → Bool) (p : Place) : Option Place :=
  match p.after with
  | c :: cs => if isIn c then some ⟨p.index + 1, some c, cs⟩ else none
  | [] => none

def closure (f : List Place → List Place) : Nat → List Place → List Place
  | 0, ps => ps
  | n + 1, ps =>
    let qs := union ps (f ps)
    if qs.length = ps.length then ps else closure f n qs

def ends (isWord : Char → Bool) (size : Nat) : Pattern → List Place → List Place
  | .empty, ps => ps
  | .never, _ => []
  | .char isIn, ps => ps.filterMap (step isIn)
  | .boundary b, ps => ps.filter fun p => holds isWord p b
  | .seq p q, ps => ends isWord size q (ends isWord size p ps)
  | .alt p q, ps => union (ends isWord size p ps) (ends isWord size q ps)
  | .times p least most, ps =>
    let f := ends isWord size p
    let first := least.repeat f ps
    match most with
    | some n => closure f (n - least) first
    | none => closure f (size + 1) first

/-- The number of steps that a match can take without repeating one. -/
def weight : Pattern → Nat
  | .seq p q | .alt p q => weight p + weight q
  | .times p least most => weight p * max 1 (most.getD (least + 1))
  | _ => 1

def isFoundIn (isWord : Char → Bool) (p : Pattern) (cs : List Char) : Bool :=
  !(ends isWord cs.length p (places cs)).isEmpty

end Pattern
end MetaInline
