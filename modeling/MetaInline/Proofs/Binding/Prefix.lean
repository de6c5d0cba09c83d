import Mathlib
import MetaInline.Binding.Table

namespace MetaInline

namespace Path

lemma eq_of_append_separator {a b x y : Text} (ha : separator ∉ a) (hb : separator ∉ b)
    (h : a ++ separator :: x = b ++ separator :: y) : a = b ∧ x = y := by
  induction a generalizing b with
  | nil =>
    cases b with
    | nil => simpa using h
    | cons d b =>
      obtain ⟨rfl, -⟩ := List.cons.inj h
      simp at hb
  | cons c a ih =>
    cases b with
    | nil =>
      obtain ⟨rfl, -⟩ := List.cons.inj h
      simp at ha
    | cons d b =>
      obtain ⟨hcd, hab⟩ := List.cons.inj h
      rw [List.mem_cons, not_or] at ha hb
      obtain ⟨rfl, rfl⟩ := ih ha.2 hb.2 hab
      exact ⟨by rw [hcd], rfl⟩

lemma separator_notMem {key : String} (h : isKey key = true) : separator ∉ key.toList := by
  simp only [isKey, Bool.and_eq_true, Bool.not_eq_true'] at h
  simpa using h.2

@[simp] lemma join_singleton (key : String) : join [key] = key := by
  simp [join]

lemma toList_join_cons (key : String) {keys : List String} (h : keys ≠ []) :
    (join (key :: keys)).toList = key.toList ++ separator :: (join keys).toList := by
  rw [join, String.intercalate_cons_of_ne_nil h]
  simp [join, separator]

lemma prefix_of_join {ks ls : List String} (hks : ∀ k ∈ ks, isKey k = true)
    (hls : ∀ l ∈ ls, isKey l = true) (hne : ks ≠ []) {w : Text}
    (h : (join ls).toList = (join ks).toList ++ separator :: w) : ks <+: ls := by
  induction ks generalizing ls with
  | nil => contradiction
  | cons k ks ih =>
    have hk := separator_notMem (hks k (by simp))
    cases ls with
    | nil => simp [join] at h
    | cons l ls =>
      have hl := separator_notMem (hls l (by simp))
      cases ls with
      | nil =>
        have hmem : separator ∈ (join [l]).toList := by rw [h]; simp
        rw [join_singleton] at hmem
        contradiction
      | cons l' ls =>
        rw [toList_join_cons l (by simp)] at h
        cases ks with
        | nil =>
          rw [join_singleton] at h
          obtain ⟨hkl, -⟩ := eq_of_append_separator hl hk h
          simp [String.toList_injective hkl]
        | cons k' ks =>
          rw [toList_join_cons k (by simp), List.append_assoc, List.cons_append] at h
          obtain ⟨hkl, h⟩ := eq_of_append_separator hl hk h
          have hpre := ih (fun x hx => hks x (by simp [hx])) (fun x hx => hls x (by simp [hx]))
            (by simp) h
          rw [String.toList_injective hkl]
          exact (List.prefix_cons_inj k).mpr hpre

def Diverge (ks ls : List String) : Prop :=
  ¬ ks <+: ls ∧ ¬ ls <+: ks

instance : Std.Symm Diverge := ⟨fun _ _ h => h.symm⟩

end Path

namespace BindingTable

def Branches (p : List String → Prop) (es : List (String × Entry)) : Prop :=
  ∃ kss : List (List String), es.map (·.1) = kss.map Path.join ∧
    (∀ ks ∈ kss, p ks ∧ ∀ k ∈ ks, Path.isKey k = true) ∧
    kss.Pairwise Path.Diverge

variable {p q : List String → Prop} {es fs : List (String × Entry)}

lemma Branches.nil : Branches p [] := ⟨[], by simp⟩

lemma Branches.singleton {ks : List String} (hp : p ks) (hk : ∀ k ∈ ks, Path.isKey k = true)
    (e : Entry) : Branches p [(Path.join ks, e)] :=
  ⟨[ks], by simp, by simpa using ⟨hp, hk⟩, by simp⟩

lemma Branches.append {r : List String → Prop} (he : Branches p es) (hf : Branches q fs)
    (h : ∀ ks ls, p ks → q ls → Path.Diverge ks ls) (hp : ∀ ks, p ks → r ks)
    (hq : ∀ ks, q ks → r ks) : Branches r (es ++ fs) := by
  obtain ⟨kss, hkss, hk, hkp⟩ := he
  obtain ⟨lss, hlss, hl, hlp⟩ := hf
  refine ⟨kss ++ lss, by simp [hkss, hlss], fun ks hks => ?_, ?_⟩
  · rcases List.mem_append.mp hks with hks | hks
    · exact (hk ks hks).imp_left (hp ks)
    · exact (hl ks hks).imp_left (hq ks)
  · exact List.pairwise_append.mpr ⟨hkp, hlp, fun ks hks ls hls =>
      h ks ls (hk ks hks).1 (hl ls hls).1⟩

def below (child : List String → ℕ → Except BindingError (List (String × Entry)))
    (here : List String) : Binding → Except BindingError (List (String × Entry))
  | .object id => child here id
  | b => (leaf (Path.join here) b).map fun e => [(Path.join here, e)]

lemma below_eq_ok {child : List String → ℕ → Except BindingError (List (String × Entry))}
    {here : List String} {b : Binding} (h : below child here b = .ok es) :
    (∃ id, b = .object id ∧ child here id = .ok es) ∨
      (∀ id, b ≠ .object id) ∧ ∃ e, leaf (Path.join here) b = .ok e ∧ es = [(Path.join here, e)] := by
  by_cases hb : ∃ id, b = .object id
  · obtain ⟨id, rfl⟩ := hb
    exact .inl ⟨id, rfl, h⟩
  · refine .inr ⟨not_exists.mp hb, ?_⟩
    rw [below.eq_2 _ _ _ (not_exists.mp hb)] at h
    cases hl : leaf (Path.join here) b with
    | error x => simp [hl, Except.map] at h
    | ok e =>
      simp only [hl, Except.map, Except.ok.injEq] at h
      exact ⟨e, rfl, h.symm⟩

lemma flattenEntries_cons (child : List String → ℕ → Except BindingError (List (String × Entry)))
    (path seen : List String) (key : String) (b : Binding) (rest : List (String × Binding)) :
    flattenEntries child path seen ((key, b) :: rest) =
      if Path.isKey key = false then .error (.invalidKey (Path.join (path ++ [key])) key)
      else if seen.contains key = true then .error (.duplicateKey (Path.join (path ++ [key])))
      else (below child (path ++ [key]) b).bind fun first =>
        (flattenEntries child path (key :: seen) rest).bind fun more => .ok (first ++ more) := by
  rw [flattenEntries]
  cases Path.isKey key <;> cases seen.contains key <;> cases b <;> rfl

lemma exists_of_flattenEntries_cons
    {child : List String → ℕ → Except BindingError (List (String × Entry))}
    {path seen : List String} {key : String} {b : Binding} {rest : List (String × Binding)}
    (h : flattenEntries child path seen ((key, b) :: rest) = .ok es) :
    Path.isKey key = true ∧ key ∉ seen ∧ ∃ first more, below child (path ++ [key]) b = .ok first ∧
      flattenEntries child path (key :: seen) rest = .ok more ∧ es = first ++ more := by
  rw [flattenEntries_cons] at h
  split at h
  · cases h
  · next hk =>
    split at h
    · cases h
    · next hs =>
      cases hf : below child (path ++ [key]) b with
      | error x => simp [hf, Except.bind] at h
      | ok first =>
        cases hm : flattenEntries child path (key :: seen) rest with
        | error x => simp [hf, hm, Except.bind] at h
        | ok more =>
          simp only [hf, hm, Except.bind, Except.ok.injEq] at h
          exact ⟨by simpa using hk, by simpa using hs, first, more, rfl, rfl, h.symm⟩

lemma key_eq_of_isPrefix {path ks ls : List String} {k l : String} (hk : path ++ [k] <+: ks)
    (hl : path ++ [l] <+: ls) (h : ks <+: ls) : k = l := by
  have hpre := List.prefix_of_prefix_length_le (hk.trans h) hl (by simp)
  have heq := hpre.eq_of_length (by simp)
  simpa using heq

section Flatten

variable {child : List String → ℕ → Except BindingError (List (String × Entry))}

lemma branches_below {here : List String} (hhere : ∀ k ∈ here, Path.isKey k = true)
    (hchild : ∀ id fs, child here id = .ok fs → Branches (here <+: ·) fs) {b : Binding}
    (h : below child here b = .ok es) : Branches (here <+: ·) es := by
  rcases below_eq_ok h with ⟨id, rfl, h⟩ | ⟨-, e, -, rfl⟩
  · exact hchild id es h
  · exact .singleton List.prefix_rfl hhere e

lemma branches_flattenEntries {path seen : List String} {bs : List (String × Binding)}
    (hpath : ∀ k ∈ path, Path.isKey k = true)
    (hchild : ∀ here id fs, (∀ k ∈ here, Path.isKey k = true) → child here id = .ok fs →
      Branches (here <+: ·) fs)
    (h : flattenEntries child path seen bs = .ok es) :
    Branches (fun ks => ∃ key, key ∉ seen ∧ path ++ [key] <+: ks) es := by
  induction bs generalizing seen es with
  | nil =>
    cases h
    exact .nil
  | cons kb rest ih =>
    obtain ⟨key, b⟩ := kb
    obtain ⟨hk, hs, first, more, hf, hm, rfl⟩ := exists_of_flattenEntries_cons h
    have hhere : ∀ k ∈ path ++ [key], Path.isKey k = true := by
      intro k hmem
      rcases List.mem_append.mp hmem with hmem | hmem
      · exact hpath k hmem
      · exact List.mem_singleton.mp hmem ▸ hk
    refine (branches_below hhere (fun id fs => hchild _ id fs hhere) hf).append (ih hm) ?_ ?_ ?_
    · -- What comes later begins with a key that is not seen yet, and `key` is.
      rintro ks ls hks ⟨l, hl, hls⟩
      have hne : l ≠ key := fun e => hl (by simp [e])
      exact ⟨fun h => hne (key_eq_of_isPrefix hks hls h).symm,
        fun h => hne (key_eq_of_isPrefix hls hks h)⟩
    · exact fun ks hks => ⟨key, hs, hks⟩
    · rintro ks ⟨l, hl, hks⟩
      exact ⟨l, fun h => hl (by simp [h]), hks⟩

end Flatten

lemma branches_flatten {c : Configuration} {depth : ℕ} {ancestors : List ℕ} {path : List String}
    {id : ℕ} (hpath : ∀ k ∈ path, Path.isKey k = true)
    (h : flatten c depth ancestors path id = .ok es) :
    Branches (fun ks => path <+: ks ∧ ks ≠ []) es := by
  induction depth generalizing ancestors path id es with
  | zero => cases h
  | succ depth ih =>
    rw [flatten] at h
    split at h
    · cases h
    · obtain ⟨kss, hkss, hk, hp⟩ := branches_flattenEntries hpath (fun here id fs hhere h => by
        obtain ⟨lss, hlss, hl, hp⟩ := ih hhere h
        exact ⟨lss, hlss, fun ls hls => (hl ls hls).imp_left And.left, hp⟩) h
      refine ⟨kss, hkss, fun ks hks => ?_, hp⟩
      obtain ⟨⟨key, -, hpre⟩, hkeys⟩ := hk ks hks
      refine ⟨⟨(List.prefix_append path [key]).trans hpre, ?_⟩, hkeys⟩
      rintro rfl
      simp at hpre

lemma flatten_of_build {c : Configuration} {table : BindingTable} (h : build c = .ok table) :
    flatten c (c.objects.size + 2) [] [] c.root = .ok table.entries := by
  rw [build] at h
  cases hf : flatten c (c.objects.size + 2) [] [] c.root with
  | error x => simp [hf, Except.map] at h
  | ok es =>
    obtain rfl : ⟨es⟩ = table := by simpa [hf, Except.map] using h
    rfl

lemma isSome_get?_iff {table : BindingTable} {kss : List (List String)}
    (h : table.entries.map (·.1) = kss.map Path.join) {path : String} :
    (table.get? path).isSome = true ↔ ∃ ks ∈ kss, Path.join ks = path := by
  have hmem : path ∈ table.entries.map (·.1) ↔ path ∈ kss.map Path.join := by rw [h]
  rw [List.mem_map, List.mem_map] at hmem
  rw [← hmem, get?, List.lookup_isSome_iff]
  constructor
  · rintro ⟨e, he, h⟩
    exact ⟨e, he, (beq_iff_eq.mp h).symm⟩
  · rintro ⟨e, he, h⟩
    exact ⟨e, he, beq_iff_eq.mpr h.symm⟩

theorem get?_eq_none_of_prefix {c : Configuration} {table : BindingTable}
    (h : build c = .ok table) {path : String} (hp : (table.get? path).isSome = true) (more : String) :
    table.get? (path ++ "." ++ more) = none := by
  obtain ⟨kss, hkss, hk, hpair⟩ := branches_flatten (by simp) (flatten_of_build h)
  obtain ⟨ks, hks, rfl⟩ := (isSome_get?_iff hkss).mp hp
  rw [← Option.not_isSome_iff_eq_none, isSome_get?_iff hkss]
  rintro ⟨ls, hls, hjoin⟩
  have htext := congrArg String.toList hjoin
  have hpre := Path.prefix_of_join (w := more.toList) (hk ks hks).2 (hk ls hls).2
    (hk ks hks).1.2 (by simpa [Path.separator] using htext)
  have hne : ks ≠ ls := by
    rintro rfl
    have hlength := congrArg List.length htext
    simp at hlength
  exact (hpair.forall hks hls hne).1 hpre

end BindingTable
end MetaInline
