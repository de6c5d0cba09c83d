import Mathlib
import MetaInline.Proofs.Binding.Prefix

/-! What is wrong in a configuration. Objects are entered along their entries, in order, and an
object is refused inside itself. What is reported is the first thing that is wrong in that order. -/

namespace MetaInline

def Binding.IsLiteral (b : Binding) : Prop :=
  ∃ v, b = .literal v ∧ v.isValid = true

def Binding.IsSupported : Binding → Prop
  | .list items => ∀ b ∈ items, b.IsLiteral
  | .resolver _ | .object _ => True
  | b => b.IsLiteral

inductive Binding.Refused : Binding → String → Prop
  | literal {v : Literal} (h : v.isValid = false) : Refused (.literal v) v.typeName
  | item {front back : List Binding} {b : Binding} (hfront : ∀ a ∈ front, a.IsLiteral)
      (hb : ¬ b.IsLiteral) : Refused (.list (front ++ b :: back)) ("array containing " ++ b.typeName)
  | unsupported {typeName : String} : Refused (.unsupported typeName) typeName

namespace Configuration

variable (c : Configuration)

inductive Wrong (inside : List ℕ) (keys seen : List String) (key : String) :
    Binding → BindingError → Prop
  | invalidKey {b : Binding} (h : Path.isKey key = false) :
      Wrong inside keys seen key b (.invalidKey (Path.join keys) key)
  | duplicateKey {b : Binding} (hk : Path.isKey key = true) (h : key ∈ seen) :
      Wrong inside keys seen key b (.duplicateKey (Path.join keys))
  | cycle {id : ℕ} (hk : Path.isKey key = true) (hs : key ∉ seen) (h : id ∈ inside) :
      Wrong inside keys seen key (.object id) (.cycle (Path.join keys))
  | unsupportedValue {b : Binding} {typeName : String} (hk : Path.isKey key = true) (hs : key ∉ seen)
      (h : b.Refused typeName) :
      Wrong inside keys seen key b (.unsupportedValue (Path.join keys) typeName)

/-- Something is wrong in the object `id`, which has the access path `keys` and stands in the objects
`inside`. The place of what is wrong are the numbers of the entries that lead there. -/
inductive Violates : (inside : List ℕ) → (keys : List String) → (id : ℕ) → (place : List ℕ) →
    BindingError → Prop
  | entry {inside : List ℕ} {keys : List String} {id i : ℕ} {key : String} {b : Binding}
      {e : BindingError} (h : (c.entries id)[i]? = some (key, b))
      (he : Wrong (id :: inside) (keys ++ [key]) (((c.entries id).take i).map (·.1)) key b e) :
      Violates inside keys id [i] e
  | inner {inside : List ℕ} {keys : List String} {id i child : ℕ} {key : String} {place : List ℕ}
      {e : BindingError} (h : (c.entries id)[i]? = some (key, .object child))
      (he : Violates (id :: inside) (keys ++ [key]) child place e) :
      Violates inside keys id (i :: place) e

/-- The error of the first place where something is wrong. Places are in the order in which entries
are met: an entry comes before those of the object it holds, and these come before the next one. -/
def IsFirst (violates : List ℕ → BindingError → Prop) (e : BindingError) : Prop :=
  ∃ place, violates place e ∧ ∀ other e', violates other e' → place ≤ other

variable {c}

def Judged {α : Type*} (violates : List ℕ → BindingError → Prop) : Except BindingError α → Prop
  | .ok _ => ∀ place e, ¬ violates place e
  | .error e => IsFirst violates e

lemma IsFirst.nil {violates : List ℕ → BindingError → Prop} {e : BindingError}
    (h : violates [] e) : IsFirst violates e :=
  ⟨[], h, fun _ _ _ => le_of_not_gt fun hlt => nomatch hlt⟩

lemma Judged.congr {α : Type*} {v w : List ℕ → BindingError → Prop} {r : Except BindingError α}
    (hr : Judged v r) (h : ∀ place e, v place e ↔ w place e) : Judged w r := by
  obtain rfl : v = w := funext fun place => funext fun e => propext (h place e)
  exact hr

section Entries

variable {inside : List ℕ} {keys seen : List String} {key : String} {b : Binding}

lemma Wrong.congr {seen' : List String} (h : ∀ k, k ∈ seen ↔ k ∈ seen') {e : BindingError}
    (hw : Wrong inside keys seen key b e) : Wrong inside keys seen' key b e := by
  cases hw with
  | invalidKey hk => exact .invalidKey hk
  | duplicateKey hk hs => exact .duplicateKey hk ((h key).mp hs)
  | cycle hk hs hid => exact .cycle hk (fun hm => hs ((h key).mpr hm)) hid
  | unsupportedValue hk hs hr => exact .unsupportedValue hk (fun hm => hs ((h key).mpr hm)) hr

lemma wrong_iff (hk : Path.isKey key = true) (hs : key ∉ seen) {e : BindingError} :
    Wrong inside keys seen key b e ↔
      (∃ id ∈ inside, b = .object id ∧ e = .cycle (Path.join keys)) ∨
        ∃ typeName, b.Refused typeName ∧ e = .unsupportedValue (Path.join keys) typeName := by
  constructor
  · intro h
    cases h with
    | invalidKey hk' => simp [hk] at hk'
    | duplicateKey _ hs' => exact absurd hs' hs
    | cycle _ _ hid => exact .inl ⟨_, hid, rfl, rfl⟩
    | unsupportedValue _ _ hr => exact .inr ⟨_, hr, rfl⟩
  · rintro (⟨id, hid, rfl, rfl⟩ | ⟨typeName, hr, rfl⟩)
    · exact .cycle hk hs hid
    · exact .unsupportedValue hk hs hr

def InEntry (c : Configuration) (inside : List ℕ) (keys seen : List String) (x : String × Binding)
    (place : List ℕ) (e : BindingError) : Prop :=
  (place = [] ∧ Wrong inside (keys ++ [x.1]) seen x.1 x.2 e) ∨
    ∃ child, x.2 = .object child ∧ c.Violates inside (keys ++ [x.1]) child place e

def InEntries (c : Configuration) (inside : List ℕ) (keys seen : List String)
    (xs : List (String × Binding)) : List ℕ → BindingError → Prop
  | [], _ => False
  | i :: place, e =>
    ∃ x, xs[i]? = some x ∧ InEntry c inside keys ((xs.take i).map (·.1) ++ seen) x place e

lemma inEntries_zero {x : String × Binding} {xs : List (String × Binding)} {place : List ℕ}
    {e : BindingError} : InEntries c inside keys seen (x :: xs) (0 :: place) e ↔
      InEntry c inside keys seen x place e := by
  simp [InEntries]

lemma inEntries_succ {x : String × Binding} {xs : List (String × Binding)} {i : ℕ} {place : List ℕ}
    {e : BindingError} : InEntries c inside keys seen (x :: xs) ((i + 1) :: place) e ↔
      InEntries c inside keys (x.1 :: seen) xs (i :: place) e := by
  have h (k : String) : k ∈ ((x :: xs).take (i + 1)).map (·.1) ++ seen ↔
      k ∈ (xs.take i).map (·.1) ++ x.1 :: seen := by
    simp only [List.take_succ_cons, List.map_cons, List.cons_append, List.mem_cons, List.mem_append]
    tauto
  simp only [InEntries, List.getElem?_cons_succ, InEntry]
  constructor
  · rintro ⟨y, hy, ⟨hp, hw⟩ | hb⟩
    · exact ⟨y, hy, .inl ⟨hp, hw.congr h⟩⟩
    · exact ⟨y, hy, .inr hb⟩
  · rintro ⟨y, hy, ⟨hp, hw⟩ | hb⟩
    · exact ⟨y, hy, .inl ⟨hp, hw.congr fun k => (h k).symm⟩⟩
    · exact ⟨y, hy, .inr hb⟩

lemma violates_iff {id : ℕ} {place : List ℕ} {e : BindingError} :
    c.Violates inside keys id place e ↔
      InEntries c (id :: inside) keys [] (c.entries id) place e := by
  constructor
  · intro h
    cases h with
    | entry hx hw => exact ⟨_, hx, .inl ⟨rfl, by simpa using hw⟩⟩
    | inner hx hv => exact ⟨_, hx, .inr ⟨_, rfl, hv⟩⟩
  · cases place with
    | nil => exact False.elim
    | cons i place =>
      rintro ⟨⟨key, b⟩, hx, ⟨rfl, hw⟩ | ⟨child, rfl, hv⟩⟩
      · exact .entry hx (by simpa using hw)
      · exact .inner hx hv

lemma place_le_succ {i j : ℕ} {place other : List ℕ} (h : i :: place ≤ j :: other) :
    (i + 1) :: place ≤ (j + 1) :: other := by
  rcases h.lt_or_eq with h | h
  · cases h with
    | cons h => exact le_of_lt (List.Lex.cons h)
    | rel h => exact le_of_lt (List.Lex.rel (Nat.succ_lt_succ h))
  · obtain ⟨rfl, rfl⟩ := List.cons.inj h
    exact le_rfl

lemma Judged.cons {α : Type*} {x : String × Binding} {xs : List (String × Binding)}
    {first more : Except BindingError (List α)} (hx : Judged (InEntry c inside keys seen x) first)
    (hxs : Judged (InEntries c inside keys (x.1 :: seen) xs) more) :
    Judged (InEntries c inside keys seen (x :: xs))
      (first.bind fun as => more.bind fun bs => .ok (as ++ bs)) := by
  cases first with
  | error e =>
    obtain ⟨place, hp, hmin⟩ := hx
    refine ⟨0 :: place, inEntries_zero.mpr hp, fun other e' ho => ?_⟩
    match other with
    | [] => exact ho.elim
    | 0 :: other => exact List.cons_le_cons 0 (hmin other e' (inEntries_zero.mp ho))
    | (i + 1) :: other => exact le_of_lt (List.Lex.rel (Nat.succ_pos i))
  | ok as =>
    cases more with
    | error e =>
      obtain ⟨place, hp, hmin⟩ := hxs
      match place with
      | [] => exact hp.elim
      | i :: place =>
        refine ⟨(i + 1) :: place, inEntries_succ.mpr hp, fun other e' ho => ?_⟩
        match other with
        | [] => exact ho.elim
        | 0 :: other => exact (hx other e' (inEntries_zero.mp ho)).elim
        | (j + 1) :: other =>
          exact place_le_succ (hmin (j :: other) e' (inEntries_succ.mp ho))
    | ok bs =>
      intro place e h
      match place with
      | [] => exact h
      | 0 :: place => exact hx place e (inEntries_zero.mp h)
      | (i + 1) :: place => exact hxs (i :: place) e (inEntries_succ.mp h)

end Entries

end Configuration

namespace Binding

lemma isLiteral_literal {v : Literal} : (Binding.literal v).IsLiteral ↔ v.isValid = true := by
  simp [IsLiteral]

lemma Refused.not_isSupported {b : Binding} {typeName : String} (h : b.Refused typeName) :
    ¬ b.IsSupported := by
  cases h with
  | literal h => simp [IsSupported, IsLiteral, h]
  | item _ hb => exact fun hs => hb (hs _ (by simp))
  | unsupported => simp [IsSupported, IsLiteral]

end Binding

namespace BindingTable

open MetaInline.Configuration

lemma listLiterals_spec (path : String) (items : List Binding) :
    match listLiterals path items with
    | .ok vs => items = vs.map .literal ∧ ∀ b ∈ items, b.IsLiteral
    | .error e => ∃ typeName, (Binding.list items).Refused typeName ∧
        e = .unsupportedValue path typeName := by
  induction items with
  | nil => simp [listLiterals]
  | cons b bs ih =>
    by_cases hb : b.IsLiteral
    · obtain ⟨v, rfl, hv⟩ := hb
      rw [listLiterals]
      simp only [hv, if_true]
      cases hr : listLiterals path bs with
      | ok vs =>
        rw [hr] at ih
        simpa [Except.map, Binding.isLiteral_literal, hv] using ih
      | error e =>
        rw [hr] at ih
        obtain ⟨typeName, hrefused, rfl⟩ := ih
        generalize hl : Binding.list bs = l at hrefused
        cases hrefused with
        | literal h => cases hl
        | unsupported => cases hl
        | @item front back b hfront hb =>
          obtain rfl := Binding.list.inj hl
          have hfront' : ∀ a ∈ Binding.literal v :: front, a.IsLiteral := by
            simpa [Binding.isLiteral_literal, hv] using hfront
          exact ⟨_, .item hfront' hb, rfl⟩
    · have hrefused : (Binding.list ([] ++ b :: bs)).Refused ("array containing " ++ b.typeName) :=
        .item (by simp) hb
      cases b with
      | literal v =>
        have hv : v.isValid = false := by simpa [Binding.isLiteral_literal] using hb
        simp only [listLiterals, hv]
        exact ⟨_, hrefused, rfl⟩
      | _ => exact ⟨_, hrefused, rfl⟩

lemma leaf_spec (path : String) {b : Binding} (hb : ∀ id, b ≠ .object id) :
    match leaf path b with
    | .ok _ => b.IsSupported
    | .error e => ∃ typeName, b.Refused typeName ∧ e = .unsupportedValue path typeName := by
  cases b with
  | literal v =>
    rw [leaf]
    cases hv : v.isValid with
    | true => exact ⟨v, rfl, hv⟩
    | false => exact ⟨_, .literal hv, rfl⟩
  | list items =>
    have h := listLiterals_spec path items
    rw [leaf]
    cases hl : listLiterals path items with
    | ok vs =>
      rw [hl] at h
      exact h.2
    | error e =>
      rw [hl] at h
      exact h
  | resolver r => trivial
  | object id => exact absurd rfl (hb id)
  | unsupported typeName => exact ⟨_, .unsupported, rfl⟩

section Flatten

variable {c : Configuration} {inside : List ℕ} {keys seen : List String}
  {child : List String → ℕ → Except BindingError (List (String × Entry))}

lemma inEntry_object_iff {key : String} {id : ℕ} {place : List ℕ} {e : BindingError}
    (hk : Path.isKey key = true) (hs : key ∉ seen) (hid : id ∉ inside) :
    InEntry c inside keys seen (key, .object id) place e ↔
      c.Violates inside (keys ++ [key]) id place e := by
  constructor
  · rintro (⟨-, hw⟩ | ⟨_, ⟨⟩, hv⟩)
    · rcases (wrong_iff hk hs).mp hw with ⟨_, h, ⟨⟩, -⟩ | ⟨_, hr, -⟩
      · exact absurd h hid
      · exact absurd trivial hr.not_isSupported
    · exact hv
  · exact fun h => .inr ⟨id, rfl, h⟩

lemma judged_leaf {key : String} {b : Binding} (hk : Path.isKey key = true) (hs : key ∉ seen)
    (hb : ∀ id, b ≠ .object id) :
    Judged (InEntry c inside keys seen (key, b)) (below child (keys ++ [key]) b) := by
  have hspec := leaf_spec (Path.join (keys ++ [key])) hb
  rw [below.eq_2 _ _ _ hb]
  cases hl : leaf (Path.join (keys ++ [key])) b with
  | ok x =>
    rw [hl] at hspec
    rintro place e (⟨-, hw⟩ | ⟨id, rfl, -⟩)
    · rcases (wrong_iff hk hs).mp hw with ⟨id, -, rfl, -⟩ | ⟨_, hr, -⟩
      · exact hb id rfl
      · exact hr.not_isSupported hspec
    · exact hb id rfl
  | error e =>
    rw [hl] at hspec
    obtain ⟨typeName, hr, rfl⟩ := hspec
    exact .nil (.inl ⟨rfl, .unsupportedValue hk hs hr⟩)

lemma judged_below {key : String} {b : Binding} (hk : Path.isKey key = true) (hs : key ∉ seen)
    (hcycle : ∀ id ∈ inside, child (keys ++ [key]) id =
      .error (.cycle (Path.join (keys ++ [key]))))
    (hchild : ∀ id, b = .object id → id ∉ inside →
      Judged (c.Violates inside (keys ++ [key]) id) (child (keys ++ [key]) id)) :
    Judged (InEntry c inside keys seen (key, b)) (below child (keys ++ [key]) b) := by
  by_cases hb : ∃ id, b = .object id
  · obtain ⟨id, rfl⟩ := hb
    by_cases hid : id ∈ inside
    · rw [below, hcycle id hid]
      exact .nil (.inl ⟨rfl, .cycle hk hs hid⟩)
    · exact (hchild id rfl hid).congr fun _ _ => (inEntry_object_iff hk hs hid).symm
  · exact judged_leaf hk hs (not_exists.mp hb)

lemma judged_flattenEntries {xs : List (String × Binding)}
    (hcycle : ∀ here, ∀ id ∈ inside, child here id = .error (.cycle (Path.join here)))
    (hchild : ∀ key id, (key, .object id) ∈ xs → id ∉ inside →
      Judged (c.Violates inside (keys ++ [key]) id) (child (keys ++ [key]) id)) :
    Judged (InEntries c inside keys seen xs) (flattenEntries child keys seen xs) := by
  induction xs generalizing seen with
  | nil =>
    rintro place e h
    cases place with
    | nil => exact h
    | cons i place =>
      obtain ⟨x, hx, -⟩ := h
      simp at hx
  | cons x xs ih =>
    obtain ⟨key, b⟩ := x
    have hmore : Judged (InEntries c inside keys (key :: seen) xs)
        (flattenEntries child keys (key :: seen) xs) :=
      ih fun k id hm => hchild k id (by simp [hm])
    have hwrong {e : BindingError} (hw : Wrong inside (keys ++ [key]) seen key b e) :
        Judged (InEntries c inside keys seen ((key, b) :: xs))
          (.error e : Except BindingError (List (String × Entry))) := by
      have hx : Judged (InEntry c inside keys seen (key, b))
          (.error e : Except BindingError (List (String × Entry))) :=
        .nil (.inl ⟨rfl, hw⟩)
      exact hx.cons hmore
    rw [flattenEntries_cons]
    split
    · next hk => exact hwrong (.invalidKey hk)
    · next hk =>
      have hk : Path.isKey key = true := by simpa using hk
      split
      · next hs => exact hwrong (.duplicateKey hk (by simpa using hs))
      · next hs =>
        refine (judged_below hk (by simpa using hs) (hcycle _) fun id hid => ?_).cons hmore
        exact hchild key id (by simp [hid])

end Flatten

section Depth

variable {c : Configuration}

lemma length_le_size {inside : List ℕ} (hn : inside.Nodup) (hlt : ∀ o ∈ inside, o < c.objects.size) :
    inside.length ≤ c.objects.size := by
  have hsub : inside ⊆ List.range c.objects.size := fun o ho => List.mem_range.mpr (hlt o ho)
  simpa using (hn.subperm hsub).length_le

lemma lt_size_of_mem {id : ℕ} {x : String × Binding} (h : x ∈ c.entries id) :
    id < c.objects.size := by
  by_contra hge
  simp [Configuration.entries, Array.getD_eq_getD_getElem?,
    Array.getElem?_eq_none (not_lt.mp hge)] at h

lemma flatten_of_mem {depth : ℕ} {inside : List ℕ} {keys : List String} {id : ℕ}
    (h : id ∈ inside) : flatten c depth inside keys id = .error (.cycle (Path.join keys)) := by
  cases depth with
  | zero => rfl
  | succ depth => simp [flatten, h]

theorem judged_flatten {depth : ℕ} {inside : List ℕ} {keys : List String} {id : ℕ}
    (hn : inside.Nodup) (hlt : ∀ o ∈ inside, o < c.objects.size) (hid : id ∉ inside)
    (hdepth : c.objects.size + 1 ≤ depth + inside.length) :
    Judged (c.Violates inside keys id) (flatten c depth inside keys id) := by
  induction depth generalizing inside keys id with
  | zero =>
    -- The objects entered are different ones, so there is depth left for each of them.
    have := length_le_size hn hlt
    omega
  | succ depth ih =>
    have hflat : flatten c (depth + 1) inside keys id =
        flattenEntries (flatten c depth (id :: inside)) keys [] (c.entries id) := by
      simp [flatten, hid]
    rw [hflat]
    refine Judged.congr ?_ fun place e => violates_iff.symm
    refine judged_flattenEntries (fun here o ho => flatten_of_mem ho) fun key child hm hchild => ?_
    refine ih (hn.cons hid) ?_ hchild (by simp only [List.length_cons]; omega)
    simpa using ⟨lt_size_of_mem hm, hlt⟩

theorem judged_build (c : Configuration) : Judged (c.Violates [] [] c.root) (build c) := by
  have h : Judged (c.Violates [] [] c.root) (flatten c (c.objects.size + 2) [] [] c.root) :=
    judged_flatten List.nodup_nil (by simp) (by simp) (by simp)
  rw [build]
  cases hf : flatten c (c.objects.size + 2) [] [] c.root with
  | ok es =>
    rw [hf] at h
    exact h
  | error e =>
    rw [hf] at h
    exact h

end Depth

end BindingTable

end MetaInline
