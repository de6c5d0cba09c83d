import MetaInline.Analysis.Site
import MetaInline.Edit.Basic
import MetaInline.Script.Program

/-!
Analysis of a script: which of its sites are replaced by which literals, and what there is to tell
about the others. Sites are given values one after the other, so that a call can use the values of
the sites among its arguments.
-/

namespace MetaInline

structure Analysis where
  edits : List Edit
  diagnostics : List Diagnostic
  invocations : List Invocation

namespace Analysis

def empty : Analysis := ⟨[], [], []⟩

/-- Nothing is known of a script of `size` bytes that cannot be read. -/
def unreadable (size : Nat) : Analysis :=
  ⟨[], [Problem.unreadable.report ⟨0, size⟩], []⟩

def hasParseError (a : Analysis) : Bool :=
  a.diagnostics.any (·.code == Diagnostic.parseCode)

def hasErrors (a : Analysis) : Bool :=
  a.diagnostics.any (·.isError)

def shift (n : Nat) (a : Analysis) : Analysis :=
  { a with edits := a.edits.map (·.shift n), diagnostics := a.diagnostics.map (·.shift n) }

def append (a b : Analysis) : Analysis :=
  ⟨a.edits ++ b.edits, a.diagnostics ++ b.diagnostics, a.invocations ++ b.invocations⟩

instance : Append Analysis := ⟨append⟩

end Analysis

structure AnalysisOptions where
  dialect : Script.Dialect
  reportUnbound : Bool
  allowReturn : Bool

/-- What was found so far: the value of each site, its edit, and the problems in order, those of
sites that are not bound with the site. -/
structure Evaluation where
  outcomes : Array (Option Literal)
  edits : List Edit
  problems : List (Option Site × Diagnostic)
  history : List Invocation

namespace Evaluation

def start : Evaluation := ⟨#[], [], [], []⟩

def tell (e : Evaluation) (span : Span) (p : Problem) : Evaluation :=
  { e with problems := (none, p.report span) :: e.problems }

/-- Must the text of a literal stand in parentheses? A sign could join the sign before it, and a
point after a number would belong to the number. -/
def needsParens (v : Literal) (text : Text) (isObject : Bool) : Bool :=
  text.head? == some '-' || (isObject && match v with
    | .number _ | .bigint _ => true
    | _ => false)

def replacement (v : Literal) (isObject : Bool) : Text :=
  if needsParens v v.text isObject then '(' :: v.text ++ [')'] else v.text

def record (e : Evaluation) (site : Site) (value : Value) (problem : Problem) : Evaluation :=
  match value.literal? with
  | some v =>
    let text := String.ofList (replacement v site.isObject)
    { e with outcomes := e.outcomes.push (some v), edits := ⟨site.span, text⟩ :: e.edits }
  | none => { (e.tell site.span problem) with outcomes := e.outcomes.push none }

def skip (e : Evaluation) : Evaluation :=
  { e with outcomes := e.outcomes.push none }

def argument (e : Evaluation) (sites : Array Site) : Argument → Except (String × Span) Literal
  | .literal v => .ok v
  | .other kind span => .error (kind, span)
  | .site i =>
    match e.outcomes.getD i none, sites[i]? with
    | some v, _ => .ok v
    | none, some s =>
      .error (match s.form with
        | .access => "MemberExpression"
        | .call _ => "CallExpression", s.span)
    -- No argument of a program is a site that is not there.
    | none, none => .error ("Expression", ⟨0, 0⟩)

def arguments (sites : Array Site) (path : String) :
    Nat → List Argument → Evaluation → List (Option Literal) × Evaluation
  | _, [], e => ([], e)
  | index, a :: as, e =>
    match e.argument sites a with
    | .ok v =>
      let (vs, e) := arguments sites path (index + 1) as e
      (some v :: vs, e)
    | .error (kind, span) =>
      let e := e.tell span (.argumentNoLiteral path index kind)
      let (vs, e) := arguments sites path (index + 1) as e
      (none :: vs, e)

def call (e : Evaluation) (site : Site) (r : Resolver) (vs : List (Option Literal)) : Evaluation :=
  let reply := r.reply e.history vs
  let e := { e with history := ⟨r.name, vs⟩ :: e.history }
  match reply with
  | .ok value => e.record site value (.returnedNoLiteral site.path value.typeName)
  | .error failure => (e.tell site.span (.resolverFailed site.path failure.message)).skip

/-- Gives the next site its value. A value that is called is left as it stands, and so is a function
that is not. -/
def visit (table : BindingTable) (reportUnbound : Bool) (sites : Array Site) (e : Evaluation)
    (site : Site) : Evaluation :=
  match site.form, table.get? site.path with
  | .access, some (.value value) =>
    e.record site value (.boundToNoLiteral site.path value.typeName)
  | .access, some (.resolver _) => (e.tell site.span (.notCalled site.path)).skip
  | .call as, some (.resolver r) =>
    let (vs, e) := arguments sites site.path 0 as e
    e.call site r vs
  | .call _, some (.value _) => e.skip
  | form, none =>
    if reportUnbound then
      let wanted := match form with
        | .access => .property
        | .call _ => .method
      let d := (Problem.unbound wanted site.path).report site.span
      { e with problems := (some site, d) :: e.problems }.skip
    else e.skip

def isLongest (sites : List Site) (site : Site) : Bool :=
  sites.all fun s => s.span.start != site.span.start || s.span.stop ≤ site.span.stop

/-- What is reported in the end: edits inside others are dropped, and so are problems of sites that
begin a longer chain. -/
def finish (sites : List Site) (e : Evaluation) : Analysis :=
  ⟨Edit.outermost e.edits.reverse,
    (e.problems.reverse.filter fun (site, _) => site.all (isLongest sites)).map (·.2),
    e.history.reverse⟩

end Evaluation

namespace Analysis

def marker : Text := "import.meta".toList

def mentionsImportMeta (source : Text) : Bool :=
  Text.mentions marker source

def ofSites (table : BindingTable) (reportUnbound : Bool) (sites : List Site) : Analysis :=
  (sites.foldl (Evaluation.visit table reportUnbound sites.toArray) .start).finish sites

def ofScript (table : BindingTable) (options : AnalysisOptions) (source : Text) : Analysis :=
  match Script.parse options.dialect options.allowReturn source with
  | some t => ofSites table options.reportUnbound (Site.ofTree t)
  | none => unreadable (Text.size source)

def analyze (table : BindingTable) (options : AnalysisOptions) (source : Text) : Analysis :=
  if mentionsImportMeta source then ofScript table options source else empty

end Analysis
end MetaInline
