import Mathlib
import MetaInline.Proofs.Analysis.PlaceOrder

namespace MetaInline.Place

open Site Script.Tree
open Script (Tree)

lemma path?_eq {t : Tree} {xs : List String} (h : names? t = some xs) (hx : xs ≠ []) :
    path? t = some (Path.join xs.reverse) := by
  cases t with
  | member s o x b =>
    obtain ⟨ys, ho, rfl⟩ := Option.map_eq_some_iff.mp (names?.eq_2 .. ▸ h)
    rw [path?, ho]
    rfl
  | importMeta s =>
    cases h
    contradiction
  | _ => cases h

lemma path_eq {p : Place} {xs : List String} (h : names? p.tree = some xs) (hx : xs ≠ []) :
    p.path = Path.join xs.reverse := by
  have hp := path?_eq h hx
  obtain ⟨t, b⟩ := p
  cases t with
  | member s o x b => simp only [path, hp, Option.getD_some]
  | importMeta s => cases hp
  | _ => cases h

lemma names?_of_mem {o : Tree} {xs : List String} (h : names? o = some xs) {q : Place}
    (hq : q ∈ ofTree .object o) : ∃ ys, names? q.tree = some ys ∧ ys <:+ xs ∧ ys ≠ [] := by
  induction o using names?.induct generalizing xs with
  | case1 s => simp [ofTree] at hq
  | case2 s o x b ih =>
    obtain ⟨ys, ho, rfl⟩ := Option.map_eq_some_iff.mp (names?.eq_2 .. ▸ h)
    rw [ofTree] at hq
    rcases List.mem_append.mp hq with hq | hq
    · obtain ⟨zs, hz, hsuf, hne⟩ := ih ho hq
      exact ⟨zs, hz, hsuf.trans (List.suffix_cons x ys), hne⟩
    · exact ⟨x :: ys, (mem_own hq).1 ▸ h, List.suffix_rfl, by simp⟩
  | case3 t h1 h2 => rw [names?] at h <;> simp_all

lemma exists_path_append {o : Tree} {xs : List String} (h : names? o = some xs) (x : String)
    {q : Place} (hq : q ∈ ofTree .object o) :
    ∃ w, Path.join (x :: xs).reverse = q.path ++ "." ++ w := by
  obtain ⟨ys, hy, ⟨zs, rfl⟩, hne⟩ := names?_of_mem h hq
  refine ⟨Path.join (x :: zs).reverse, ?_⟩
  have hsplit : (x :: (zs ++ ys)).reverse = ys.reverse ++ (x :: zs).reverse := by simp
  rw [path_eq hy hne, hsplit]
  exact String.intercalate_append_of_ne_nil (by simpa using hne) (by simp)

lemma ofTree_callee {c : Tree} {path : String} (h : path? c = some path) :
    ∃ s o x b xs, c = .member s o x b ∧ names? o = some xs ∧ path = Path.join (x :: xs).reverse ∧
      ofTree (calleeUse c) c = ofTree .object o := by
  cases c with
  | member s o x b =>
    obtain ⟨xs, ho, rfl⟩ := Option.map_eq_some_iff.mp h
    exact ⟨s, o, x, b, xs, rfl, ho, rfl, by simp [calleeUse, h, ofTree, own]⟩
  | _ => cases h

theorem path_or_argument_of_mem_inner {p q : Place} (hs : isSite p.tree = true)
    (hq : q ∈ p.inner) : (∃ w, p.path = q.path ++ "." ++ w) ∨
      ∃ s c ts as b, p.tree = .call s c ts as b ∧ q ∈ ofTrees as := by
  obtain ⟨t, isObject⟩ := p
  rcases isSite_iff.mp hs with ⟨s, o, x, b, rfl, ho⟩ | ⟨s, c, ts, as, b, rfl, hc⟩
  · obtain ⟨xs, ho⟩ := Option.isSome_iff_exists.mp ho
    obtain ⟨w, hw⟩ := exists_path_append ho x (inner_member ▸ hq)
    refine Or.inl ⟨w, hw ▸ ?_⟩
    have hnames : names? (.member s o x b) = some (x :: xs) := by simp [names?, ho]
    exact path_eq hnames (by simp)
  · rcases List.mem_append.mp (inner_call ▸ hq) with hq | hq
    · exact Or.inr ⟨s, c, ts, as, b, rfl, hq⟩
    · obtain ⟨path, hpath⟩ := Option.isSome_iff_exists.mp hc
      obtain ⟨_, o, x, _, xs, -, ho, rfl, hcallee⟩ := ofTree_callee hpath
      obtain ⟨w, hw⟩ := exists_path_append ho x (hcallee ▸ hq)
      exact Or.inl ⟨w, by simp only [path, hpath, Option.getD_some, hw]⟩

end MetaInline.Place
