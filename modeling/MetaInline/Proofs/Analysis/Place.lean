import Mathlib
import MetaInline.Analysis.Site

/-! The sites of a tree, each with the chain or call that it is. Sites are listed in post-order: those
inside a chain or call come right before it, the arguments of a call before its callee. -/

namespace MetaInline

open Script (Tree)

structure Place where
  tree : Tree
  isObject : Bool

namespace Place

open Site

def own (use : Use) (t : Tree) : List Place :=
  match t, use with
  | .member .., .callee => []
  | t, use => if isSite t then [⟨t, use = .object⟩] else []

def calleeUse (callee : Tree) : Use :=
  if (path? callee).isSome then .callee else .value

mutual

def ofTree (use : Use) : Tree → List Place
  | .literal .. | .importMeta _ => []
  | .member span object name optional =>
    ofTree .object object ++ own use (.member span object name optional)
  | .index _ object key _ => ofTree .object object ++ ofTree .value key
  | .call span callee types args optional =>
    ofTrees args ++
      (ofTree (calleeUse callee) callee ++ own use (.call span callee types args optional))
  | .parens _ inner | .chain _ inner => ofTree .value inner
  | .minus _ operand => ofTree .value operand
  | .node _ _ children => ofTrees children

def ofTrees : List Tree → List Place
  | [] => []
  | t :: ts => ofTree .value t ++ ofTrees ts

end

def arguments (first : Nat) : List Tree → List Argument
  | [] => []
  | t :: ts =>
    let count := first + (ofTree .value t).length
    argument t count :: arguments count ts

def inner (p : Place) : List Place :=
  match p.tree with
  | .member _ object _ _ => ofTree .object object
  | .call _ callee _ args _ => ofTrees args ++ ofTree (calleeUse callee) callee
  | _ => []

def path (p : Place) : String :=
  match p.tree with
  | .call _ callee _ _ _ => (path? callee).getD ""
  | t => (path? t).getD ""

def form (p : Place) (first : Nat) : SiteForm :=
  match p.tree with
  | .call _ _ _ args _ => .call (arguments first args)
  | _ => .access

def site (p : Place) (number : Nat) : Site :=
  ⟨p.path, p.tree.span, p.form (number - p.inner.length), p.isObject⟩

def sites (number : Nat) (ps : List Place) : Array Site :=
  (ps.mapIdx fun i p => p.site (number + i)).toArray

@[simp] lemma sites_nil (n : ℕ) : sites n [] = #[] := rfl

@[simp] lemma size_sites (n : ℕ) (ps : List Place) : (sites n ps).size = ps.length := by
  simp [sites]

lemma sites_append (n : ℕ) (ps qs : List Place) :
    sites n (ps ++ qs) = sites n ps ++ sites (n + ps.length) qs := by
  have h (i : ℕ) : n + (i + ps.length) = n + ps.length + i := by omega
  simp only [sites, List.mapIdx_append, List.append_toArray, h]

lemma sites_singleton (n : ℕ) (p : Place) : sites n [p] = #[p.site n] := by
  simp [sites]

mutual

lemma collect_eq (use : Use) (t : Tree) (found : Array Site) :
    collect use t found = found ++ sites found.size (ofTree use t) := by
  match t with
  | .literal .. | .importMeta _ => simp [collect, ofTree]
  | .member span object name optional =>
    have ih := collect_eq .object object found
    cases hp : names? object with
    | none => cases use <;> simp [collect, ofTree, own, isSite, path?, hp, ih]
    | some names =>
      cases use <;> simp [collect, ofTree, own, isSite, path?, hp, ih, sites_append, sites_singleton,
        site, path, form, Tree.span]
  | .index _ object key _ =>
    rw [collect, ofTree, collect_eq .object object, collect_eq .value key, sites_append]
    simp
  | .call span callee types args optional =>
    have iha := collectArguments_eq args found
    have ihc := collect_eq (calleeUse callee) callee (found ++ sites found.size (ofTrees args))
    cases hp : path? callee with
    | none =>
      have hu : calleeUse callee = .value := by simp [calleeUse, hp]
      rw [hu] at ihc
      simp [collect, ofTree, own, isSite, hp, iha, ihc, hu, sites_append]
    | some p =>
      have hu : calleeUse callee = .callee := by simp [calleeUse, hp]
      rw [hu] at ihc
      have hs : found.size + (ofTrees args).length + (ofTree .callee callee).length -
          ((ofTrees args).length + (ofTree .callee callee).length) = found.size := by omega
      simp [collect, ofTree, own, isSite, hp, iha, ihc, hu, sites_append, sites_singleton, site, path,
        form, inner, Tree.span, hs]
  | .parens _ inner | .chain _ inner => rw [collect, ofTree, collect_eq .value inner]
  | .minus _ operand => rw [collect, ofTree, collect_eq .value operand]
  | .node _ _ children => rw [collect, ofTree, collectAll_eq children]

lemma collectAll_eq (ts : List Tree) (found : Array Site) :
    collectAll ts found = found ++ sites found.size (ofTrees ts) := by
  match ts with
  | [] => simp [collectAll, ofTrees]
  | t :: ts =>
    rw [collectAll, ofTrees, collect_eq .value t, collectAll_eq ts, sites_append]
    simp

lemma collectArguments_eq (ts : List Tree) (found : Array Site) :
    collectArguments ts found =
      (arguments found.size ts, found ++ sites found.size (ofTrees ts)) := by
  match ts with
  | [] => simp [collectArguments, ofTrees, arguments]
  | t :: ts =>
    rw [collectArguments, ofTrees, arguments, collect_eq .value t, collectArguments_eq ts,
      sites_append]
    simp

end

theorem ofTree_eq_mapIdx (t : Tree) :
    Site.ofTree t = (ofTree .value t).mapIdx fun i p => p.site i := by
  simp [Site.ofTree, collect_eq, sites]

end Place
end MetaInline
