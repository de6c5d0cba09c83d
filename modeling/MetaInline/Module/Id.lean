import MetaInline.Script.Program

namespace MetaInline

inductive Language where
  | ecma
  | vue
  | svelte
  | astro
deriving DecidableEq

def Language.name : Language → String
  | .ecma => "ecma"
  | .vue => "vue"
  | .svelte => "svelte"
  | .astro => "astro"

namespace Module

open Script (Dialect)

def withoutQuery (id : Text) : Text :=
  id.takeWhile (· ≠ '?')

def splitOnChar (d : Char) : Text → List Text
  | [] => [[]]
  | c :: cs =>
    match splitOnChar d cs with
    | [] => [[c]]
    | part :: parts => if c = d then [] :: part :: parts else (c :: part) :: parts

def fileName? (path : Text) : Option Text :=
  match ((splitOnChar '/' path).filter fun p => p ≠ [] ∧ p ≠ ['.']).getLast? with
  | some p => if p = ['.', '.'] then none else some p
  | none => none

def splitExtension? (file : Text) : Option (Text × Text) :=
  let after := (file.reverse.takeWhile (· ≠ '.')).reverse
  let before := (file.reverse.dropWhile (· ≠ '.')).drop 1 |>.reverse
  if after.length = file.length ∨ before = [] then none else some (before, after)

def extension? (path : Text) : Option Text := do
  let (_, after) ← splitExtension? (← fileName? path)
  return after

def endsAsDeclaration (u : Text) : Bool :=
  let rest := do
    let u ← Text.dropFront? ".d.".toList u
    let u := match u with
      | 'c' :: v => v
      | 'm' :: v => v
      | v => v
    Text.dropFront? "ts".toList u
  match rest with
  | some [] => true
  | some ('?' :: query) => query.all (· ≠ '\n')
  | _ => false

def isDeclaration : Text → Bool
  | [] => false
  | c :: cs => endsAsDeclaration (c :: cs) || isDeclaration cs

def isScriptExtension (u : Text) : Bool :=
  match u with
  | '.' :: v =>
    let v := match v with
      | 'c' :: w => w
      | 'm' :: w => w
      | w => w
    [['j', 's'], ['t', 's'], ['j', 's', 'x'], ['t', 's', 'x']].contains v
  | _ => false

def isScript : Text → Bool
  | [] => false
  | c :: cs => isScriptExtension (c :: cs) || isScript cs

def language? (id : Text) : Option Language :=
  if isDeclaration id then none
  else
    let path := withoutQuery id
    if isScript path then some .ecma
    else
      match (extension? path).map String.ofList with
      | some "vue" => some .vue
      | some "svelte" => some .svelte
      | some "astro" => some .astro
      | _ => none

def namesDeclaration (extension before : Text) : Bool :=
  let parts := (splitOnChar '.' before).reverse
  if extension = ['t', 's'] then (parts.take 2).contains ['d']
  else parts.head? == some ['d'] && 1 < parts.length

def dialectOfId (id : Text) : Dialect :=
  match (fileName? (withoutQuery id)).bind splitExtension? with
  | some (before, after) =>
    let isDeclaration := namesDeclaration after before
    match String.ofList after with
    | "js" => ⟨false, false, .either, false⟩
    | "mjs" => ⟨false, false, .module, false⟩
    | "cjs" => ⟨false, false, .commonjs, false⟩
    | "jsx" => ⟨false, true, .either, false⟩
    | "ts" => ⟨true, false, .either, isDeclaration⟩
    | "mts" => ⟨true, false, .module, isDeclaration⟩
    | "cts" => ⟨true, false, .commonjs, isDeclaration⟩
    | "tsx" => ⟨true, true, .either, false⟩
    | _ => .standard
  | none => .standard

def dialectOfLang (lang : Option String) : Dialect :=
  let name := lang.map fun l => l.toList.map Char.toLower
  ⟨true, name == some ['t', 's', 'x'] || name == some ['j', 's', 'x'], .module, false⟩

end Module
end MetaInline
