import Mathlib
import MetaInline.Proofs.Binding.Violation

namespace MetaInline

namespace Configuration

variable (c : Configuration)

def Holds (id child : ℕ) : Prop :=
  ∃ key, (key, Binding.object child) ∈ c.entries id

def Reached : ℕ → Prop :=
  Relation.ReflTransGen c.Holds c.root

/-- No object that is reached stands in itself, their keys are not empty, have no dot in them and are
not repeated, and their other entries are supported. -/
structure WellFormed : Prop where
  acyclic : ∀ id, c.Reached id → ¬ Relation.TransGen c.Holds id id
  isKey : ∀ id, c.Reached id → ∀ x ∈ c.entries id, x.1 ≠ "" ∧ '.' ∉ x.1.toList
  nodup : ∀ id, c.Reached id → ((c.entries id).map (·.1)).Nodup
  supported : ∀ id, c.Reached id → ∀ x ∈ c.entries id, x.2.IsSupported

end Configuration

namespace Binding

lemma leaf_of_refused {b : Binding} {typeName : String} (h : b.Refused typeName) (path : String) :
    BindingTable.leaf path b = .error (.unsupportedValue path typeName) := by
  cases h with
  | literal h =>
    simp only [BindingTable.leaf, h]
    rfl
  | unsupported => rfl
  | @item front back b hfront hb =>
    have hlist : BindingTable.listLiterals path (front ++ b :: back) =
        .error (.unsupportedValue path ("array containing " ++ b.typeName)) := by
      induction front with
      | nil =>
        cases b with
        | literal v =>
          have hv : v.isValid = false := by simpa [isLiteral_literal] using hb
          simp [BindingTable.listLiterals, hv]
        | _ => rfl
      | cons a front ih =>
        obtain ⟨v, rfl, hv⟩ := hfront a (by simp)
        have := ih fun a ha => hfront a (by simp [ha])
        simp [BindingTable.listLiterals, hv, this, Except.map]
    simp [BindingTable.leaf, hlist, Except.map]

lemma Refused.unique {b : Binding} {s t : String} (hs : b.Refused s) (ht : b.Refused t) : s = t := by
  simpa [leaf_of_refused hs] using leaf_of_refused ht ""

lemma exists_refused {b : Binding} (h : ¬ b.IsSupported) : ∃ typeName, b.Refused typeName := by
  have hobject : ∀ id, b ≠ .object id := by
    rintro id rfl
    exact h trivial
  have hleaf := BindingTable.leaf_spec "" hobject
  cases hl : BindingTable.leaf "" b with
  | ok x =>
    rw [hl] at hleaf
    exact absurd hleaf h
  | error e =>
    rw [hl] at hleaf
    obtain ⟨typeName, hr, -⟩ := hleaf
    exact ⟨typeName, hr⟩

end Binding

namespace Configuration

variable {c : Configuration}

lemma isKey_iff {key : String} : Path.isKey key = true ↔ key ≠ "" ∧ '.' ∉ key.toList := by
  simp [Path.isKey, Path.separator]

lemma exists_wrong {inside : List ℕ} {keys seen : List String} {key : String} {b : Binding}
    (h : Path.isKey key = false ∨ key ∈ seen ∨ (∃ id ∈ inside, b = .object id) ∨ ¬ b.IsSupported) :
    ∃ e, Wrong inside keys seen key b e := by
  cases hk : Path.isKey key with
  | false => exact ⟨_, .invalidKey hk⟩
  | true =>
    by_cases hs : key ∈ seen
    · exact ⟨_, .duplicateKey hk hs⟩
    · rcases h with h | h | ⟨id, hid, rfl⟩ | h
      · simp [hk] at h
      · exact absurd h hs
      · exact ⟨_, .cycle hk hs hid⟩
      · obtain ⟨typeName, hr⟩ := Binding.exists_refused h
        exact ⟨_, .unsupportedValue hk hs hr⟩

def IsFlawed (c : Configuration) (id : ℕ) : Prop :=
  ∀ inside keys, ∃ place e, c.Violates inside keys id place e

lemma IsFlawed.of_reflTransGen {id child : ℕ} (hc : c.IsFlawed child)
    (h : Relation.ReflTransGen c.Holds id child) : c.IsFlawed id := by
  induction h using Relation.ReflTransGen.head_induction_on with
  | refl => exact hc
  | head h _ ih =>
    intro inside keys
    obtain ⟨key, hkey⟩ := h
    obtain ⟨i, hi⟩ := List.mem_iff_getElem?.mp hkey
    obtain ⟨place, e, he⟩ := ih _ _
    exact ⟨_, e, .inner hi he⟩

lemma isFlawed_of_wrong {id i : ℕ} {key : String} {b : Binding}
    (hi : (c.entries id)[i]? = some (key, b))
    (h : Path.isKey key = false ∨ key ∈ ((c.entries id).take i).map (·.1) ∨ ¬ b.IsSupported) :
    c.IsFlawed id := by
  intro inside keys
  obtain ⟨e, he⟩ : ∃ e, Wrong (id :: inside) (keys ++ [key])
      (((c.entries id).take i).map (·.1)) key b e := exists_wrong (h.imp_right (Or.imp_right .inr))
  exact ⟨_, e, .entry hi he⟩

lemma exists_violates_of_transGen {id child : ℕ} (h : Relation.TransGen c.Holds child id)
    {inside : List ℕ} (hid : id ∈ child :: inside) (keys : List String) :
    ∃ place e, c.Violates inside keys child place e := by
  -- On the way down from `child` the objects entered are kept, until `id` is met among them.
  induction h using Relation.TransGen.head_induction_on generalizing inside keys with
  | single h =>
    obtain ⟨key, hkey⟩ := h
    obtain ⟨i, hi⟩ := List.mem_iff_getElem?.mp hkey
    obtain ⟨e, he⟩ : ∃ e, Wrong (_ :: inside) (keys ++ [key])
        (((c.entries _).take i).map (·.1)) key (.object id) e :=
      exists_wrong (.inr (.inr (.inl ⟨id, hid, rfl⟩)))
    exact ⟨_, e, .entry hi he⟩
  | head h _ ih =>
    obtain ⟨key, hkey⟩ := h
    obtain ⟨i, hi⟩ := List.mem_iff_getElem?.mp hkey
    obtain ⟨place, e, he⟩ := ih (List.mem_cons_of_mem _ hid) (keys ++ [key])
    exact ⟨_, e, .inner hi he⟩

lemma not_nodup_iff {α : Type*} {xs : List α} :
    ¬ xs.Nodup ↔ ∃ i, ∃ x, xs[i]? = some x ∧ x ∈ xs.take i := by
  induction xs with
  | nil => simp
  | cons y ys ih =>
    rw [List.nodup_cons, not_and_or, not_not, ih]
    constructor
    · rintro (h | ⟨i, x, hi, hx⟩)
      · obtain ⟨i, hi⟩ := List.mem_iff_getElem?.mp h
        exact ⟨i + 1, y, hi, by simp⟩
      · exact ⟨i + 1, x, hi, by simp [hx]⟩
    · rintro ⟨i, x, hi, hx⟩
      cases i with
      | zero => simp at hx
      | succ i =>
        rw [List.take_succ_cons, List.mem_cons] at hx
        rcases hx with rfl | hx
        · exact .inl (List.mem_of_getElem? hi)
        · exact .inr ⟨i, x, hi, hx⟩

lemma WellFormed.not_violates (hc : c.WellFormed) {inside : List ℕ} {keys : List String} {id : ℕ}
    (hid : c.Reached id) (hinside : ∀ o ∈ inside, Relation.TransGen c.Holds o id) (place : List ℕ)
    (e : BindingError) : ¬ c.Violates inside keys id place e := by
  intro h
  induction h with
  | @entry inside keys id i key b e hi hw =>
    have hmem := List.mem_of_getElem? hi
    cases hw with
    | invalidKey hk =>
      have := isKey_iff.mpr (hc.isKey id hid _ hmem)
      simp [this] at hk
    | duplicateKey _ hs =>
      refine not_nodup_iff.mpr ⟨i, key, ?_, ?_⟩ (hc.nodup id hid)
      · simp [hi]
      · rwa [← List.map_take]
    | @cycle child _ _ hs =>
      have hholds : c.Holds id child := ⟨key, hmem⟩
      rcases List.mem_cons.mp hs with rfl | hs
      · exact hc.acyclic _ hid (.single hholds)
      · exact hc.acyclic child (hid.tail hholds) ((hinside child hs).tail hholds)
    | unsupportedValue _ _ hr => exact hr.not_isSupported (hc.supported id hid _ hmem)
  | @inner inside keys id i child key place e hi _ ih =>
    have hholds : c.Holds id child := ⟨key, List.mem_of_getElem? hi⟩
    refine ih (hid.tail hholds) fun o ho => ?_
    rcases List.mem_cons.mp ho with rfl | ho
    · exact .single hholds
    · exact (hinside o ho).tail hholds

theorem wellFormed_iff :
    c.WellFormed ↔ ∀ place e, ¬ c.Violates [] [] c.root place e := by
  constructor
  · exact fun hc => hc.not_violates .refl (by simp)
  · intro h
    -- What is wrong in an object that is reached is wrong at the root.
    have hflawed {id : ℕ} (hid : c.Reached id) (hf : c.IsFlawed id) : False := by
      obtain ⟨place, e, he⟩ := hf.of_reflTransGen hid [] []
      exact h place e he
    refine ⟨fun id hid ht => ?_, fun id hid x hx => ?_, fun id hid => ?_, fun id hid x hx => ?_⟩
    · exact hflawed hid fun inside keys => exists_violates_of_transGen ht (by simp) keys
    · by_contra hk
      obtain ⟨i, hi⟩ := List.mem_iff_getElem?.mp hx
      rw [← isKey_iff, Bool.not_eq_true] at hk
      exact hflawed hid (isFlawed_of_wrong hi (.inl hk))
    · by_contra hn
      obtain ⟨i, key, hi, hk⟩ := not_nodup_iff.mp hn
      rw [List.getElem?_map] at hi
      obtain ⟨x, hx, rfl⟩ := Option.map_eq_some_iff.mp hi
      exact hflawed hid (isFlawed_of_wrong hx (.inr (.inl (by rwa [List.map_take]))))
    · by_contra hs
      obtain ⟨i, hi⟩ := List.mem_iff_getElem?.mp hx
      exact hflawed hid (isFlawed_of_wrong hi (.inr (.inr hs)))

lemma Wrong.unique {inside : List ℕ} {keys seen : List String} {key : String} {b : Binding}
    {e e' : BindingError} (h : Wrong inside keys seen key b e) (h' : Wrong inside keys seen key b e') :
    e = e' := by
  cases h with
  | invalidKey hk => cases h' <;> simp_all
  | duplicateKey hk hs => cases h' <;> simp_all
  | cycle hk hs hid =>
    cases h' with
    | unsupportedValue _ _ hr => exact absurd trivial hr.not_isSupported
    | _ => simp_all
  | unsupportedValue hk hs hr =>
    cases h' with
    | cycle => exact absurd trivial hr.not_isSupported
    | unsupportedValue _ _ hr' => rw [hr.unique hr']
    | _ => simp_all

lemma Violates.unique {inside : List ℕ} {keys : List String} {id : ℕ} {place : List ℕ}
    {e e' : BindingError} (h : c.Violates inside keys id place e)
    (h' : c.Violates inside keys id place e') : e = e' := by
  induction h with
  | entry hi hw =>
    cases h' with
    | entry hi' hw' =>
      cases hi.symm.trans hi'
      exact hw.unique hw'
    | inner _ hv => cases hv
  | inner hi hv ih =>
    cases h' with
    | entry => cases hv
    | inner hi' hv' =>
      cases hi.symm.trans hi'
      exact ih hv'

lemma IsFirst.unique {inside : List ℕ} {keys : List String} {id : ℕ} {e e' : BindingError}
    (h : IsFirst (c.Violates inside keys id) e) (h' : IsFirst (c.Violates inside keys id) e') :
    e = e' := by
  obtain ⟨place, he, hmin⟩ := h
  obtain ⟨place', he', hmin'⟩ := h'
  obtain rfl := le_antisymm (hmin place' e' he') (hmin' place e he)
  exact he.unique he'

end Configuration

namespace BindingTable

open MetaInline.Configuration

variable {c : Configuration}

lemma flattenEntries_congr
    {child child' : List String → ℕ → Except BindingError (List (String × Entry))}
    {path seen : List String} {xs : List (String × Binding)}
    (h : ∀ here key id, (key, .object id) ∈ xs → child here id = child' here id) :
    flattenEntries child path seen xs = flattenEntries child' path seen xs := by
  induction xs generalizing seen with
  | nil => rfl
  | cons x xs ih =>
    obtain ⟨key, b⟩ := x
    have hmore : flattenEntries child path (key :: seen) xs =
        flattenEntries child' path (key :: seen) xs :=
      ih fun here k id hm => h here k id (by simp [hm])
    have hb : below child (path ++ [key]) b = below child' (path ++ [key]) b := by
      cases b with
      | object id => exact h _ key id (by simp)
      | _ => rfl
    rw [flattenEntries_cons, flattenEntries_cons, hmore, hb]

lemma flatten_eq_of_size_lt {depth depth' : ℕ} {inside : List ℕ} {keys : List String} {id : ℕ}
    (hn : inside.Nodup) (hlt : ∀ o ∈ inside, o < c.objects.size)
    (hd : c.objects.size + 1 ≤ depth + inside.length)
    (hd' : c.objects.size + 1 ≤ depth' + inside.length) :
    flatten c depth inside keys id = flatten c depth' inside keys id := by
  induction depth generalizing depth' inside keys id with
  | zero =>
    have := length_le_size hn hlt
    omega
  | succ depth ih =>
    cases depth' with
    | zero =>
      have := length_le_size hn hlt
      omega
    | succ depth' =>
      by_cases hid : id ∈ inside
      · rw [flatten_of_mem hid, flatten_of_mem hid]
      · simp only [flatten, List.contains_eq_mem, hid, decide_false, Bool.false_eq_true, if_false]
        refine flattenEntries_congr fun here key child hm => ?_
        refine ih (hn.cons hid) ?_ (by simp only [List.length_cons]; omega)
          (by simp only [List.length_cons]; omega)
        simpa using ⟨lt_size_of_mem hm, hlt⟩

theorem exists_build_iff : (∃ table, build c = .ok table) ↔ c.WellFormed := by
  have h := judged_build c
  rw [wellFormed_iff]
  cases hb : build c with
  | ok table =>
    rw [hb] at h
    exact iff_of_true ⟨table, rfl⟩ h
  | error e =>
    rw [hb] at h
    obtain ⟨place, he, -⟩ := h
    simpa using ⟨place, e, he⟩

/-- A configuration has a table if and only if it is well-formed, whether or not objects stand in
several places. What is reported otherwise is the first thing that is wrong. Objects are entered no
deeper than there are objects, so no bound on the depth shows. -/
theorem build_accepts (c : Configuration) :
    ((∃ table, build c = .ok table) ↔ c.WellFormed) ∧
      (∀ e, build c = .error e ↔ IsFirst (c.Violates [] [] c.root) e) ∧
      ∀ depth, c.objects.size < depth →
        build c = (flatten c depth [] [] c.root).map BindingTable.mk := by
  refine ⟨exists_build_iff, fun e => ?_, fun depth hd => ?_⟩
  · have h := judged_build c
    constructor
    · intro hb
      rwa [hb] at h
    · intro he
      cases hb : build c with
      | ok table =>
        rw [hb] at h
        obtain ⟨place, hp, -⟩ := he
        exact absurd hp (h place e)
      | error e' =>
        rw [hb] at h
        rw [IsFirst.unique h he]
  · have hflat : flatten c (c.objects.size + 2) [] [] c.root = flatten c depth [] [] c.root :=
      flatten_eq_of_size_lt List.nodup_nil (by simp) (by simp) (by simpa using hd)
    rw [build, hflat]

end BindingTable
end MetaInline
