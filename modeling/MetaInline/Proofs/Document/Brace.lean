import Mathlib
import MetaInline.Document.Brace

namespace MetaInline.Brace

variable {s s' : State} {x : Sign} {m n k : ℕ} {xs ys : List Sign}

def resume (n : ℕ) (xs : List Sign) : Move → Option ℕ
  | .one s => scan s (n + 1) xs
  | .two s => scan s (n + 2) xs.tail
  | .closes => some (n + 1)
  | .fails => none

@[simp] lemma scan_nil : scan s n [] = none := by
  rw [scan]

lemma scan_cons : scan s n (x :: xs) = resume n xs (move s x xs.head?) := by
  cases hm : move s x xs.head? with
  | two s' => cases xs <;> simp_all [scan, resume]
  | _ => simp_all [scan, resume]

lemma move_none_ne_two : move s x none ≠ .two s' := by
  unfold move
  split
  all_goals grind

lemma move_eq_closes_iff {next : Option Sign} : move s x next = .closes ↔
    s.mode = .code ∧ s.inTemplate = false ∧ x = .rbrace ∧ s.depth = 1 := by
  unfold move
  split
  all_goals grind

lemma lt_of_scan (h : scan s n xs = some k) : n < k ∧ k ≤ n + xs.length := by
  induction hl : xs.length using Nat.strong_induction_on generalizing s n xs with
  | _ l ih =>
    cases xs with
    | nil => simp at h
    | cons x xs =>
      rw [scan_cons] at h
      cases hm : move s x xs.head? with
      | one s' =>
        rw [hm, resume] at h
        have := ih _ (by simp [← hl]) h rfl
        grind
      | two s' =>
        rw [hm, resume] at h
        have := ih _ (by simp [← hl]) h rfl
        cases xs with
        | nil => simp at h
        | cons y ys => grind
      | closes => rw [hm, resume] at h; grind
      | fails => rw [hm] at h; cases h

lemma getElem?_of_scan (h : scan s n xs = some k) : xs[k - n - 1]? = some .rbrace := by
  induction hl : xs.length using Nat.strong_induction_on generalizing s n xs with
  | _ l ih =>
    cases xs with
    | nil => simp at h
    | cons x xs =>
      rw [scan_cons] at h
      cases hm : move s x xs.head? with
      | one s' =>
        rw [hm, resume] at h
        obtain ⟨hlt, -⟩ := lt_of_scan h
        have := ih _ (by simp [← hl]) h rfl
        rwa [show k - n - 1 = k - (n + 1) - 1 + 1 by omega, List.getElem?_cons_succ]
      | two s' =>
        rw [hm, resume] at h
        obtain ⟨hlt, -⟩ := lt_of_scan h
        cases xs with
        | nil => simp at h
        | cons y xs =>
          have := ih _ (by simp [← hl]) h rfl
          rwa [show k - n - 1 = k - (n + 2) - 1 + 1 + 1 by omega, List.getElem?_cons_succ,
            List.getElem?_cons_succ]
      | closes =>
        rw [hm, resume] at h
        obtain rfl := Option.some.inj h
        simp [(move_eq_closes_iff.mp hm).2.2.1]
      | fails => rw [hm] at h; cases h

theorem scan_take_append (h : scan s n xs = some k) (ys : List Sign) :
    scan s n (xs.take (k - n) ++ ys) = some k := by
  induction hl : xs.length using Nat.strong_induction_on generalizing s n xs with
  | _ l ih =>
    cases xs with
    | nil => simp at h
    | cons x xs =>
      obtain ⟨hlt, -⟩ := lt_of_scan h
      obtain ⟨j, hj⟩ : ∃ j, k - n = j + 1 := ⟨k - n - 1, by omega⟩
      rw [scan_cons] at h
      rw [hj, List.take_succ_cons, List.cons_append, scan_cons]
      -- The next sign is the same, unless this sign is the closing brace.
      have hhead (hne : j ≠ 0) (hxs : xs ≠ []) : (xs.take j ++ ys).head? = xs.head? := by
        cases xs with
        | nil => contradiction
        | cons y xs => cases j <;> simp_all
      cases hm : move s x xs.head? with
      | one s' =>
        rw [hm, resume] at h
        obtain ⟨hlt', hle'⟩ := lt_of_scan h
        have hxs : xs ≠ [] := by rintro rfl; simp at h
        rw [hhead (by omega) hxs, hm, resume]
        have := ih _ (by simp [← hl]) h rfl
        rwa [show k - (n + 1) = j by omega] at this
      | two s' =>
        rw [hm, resume] at h
        obtain ⟨hlt', hle'⟩ := lt_of_scan h
        cases xs with
        | nil => simp at h
        | cons y xs =>
          rw [hhead (by omega) (by simp), hm, resume]
          have := ih _ (by simp [← hl]) h rfl
          obtain ⟨i, rfl⟩ : ∃ i, j = i + 1 := ⟨j - 1, by omega⟩
          rwa [show k - (n + 2) = i by omega] at this
      | closes =>
        rw [hm, resume] at h
        rw [move_eq_closes_iff.mpr (move_eq_closes_iff.mp hm), resume, h]
      | fails => rw [hm] at h; cases h

lemma Sign.ofChar_eq_rbrace {c : Char} (h : Sign.ofChar c = .rbrace) : c = '}' := by
  unfold Sign.ofChar Sign.ofCode at h
  split_ifs at h with h1 h2 h3 h4 h5 h6 h7
  exact Char.toNat_inj.mp h7

theorem size?_eq_some_iff {cs : List Char} : size? Sign.ofChar ('{' :: cs) = some n ↔
    ∃ inner rest, cs = inner ++ '}' :: rest ∧ n = inner.length + 2 ∧
      size? Sign.ofChar ('{' :: (inner ++ ['}'])) = some n := by
  constructor
  · intro h
    obtain ⟨hpos, hle⟩ := lt_of_scan h
    have hbrace := getElem?_of_scan h
    obtain ⟨m, rfl⟩ : ∃ m, n = m + 2 := by
      refine ⟨n - 2, ?_⟩
      rcases n with _ | _ | n
      · omega
      · simp [Sign.ofChar, Sign.ofCode] at hbrace
      · omega
    rw [show m + 2 - 0 - 1 = m + 1 by omega, List.map_cons, List.getElem?_cons_succ,
      List.getElem?_map] at hbrace
    obtain ⟨c, hc, hsign⟩ := Option.map_eq_some_iff.mp hbrace
    obtain ⟨hlt, hget⟩ := List.getElem?_eq_some_iff.mp hc
    have hsplit : cs = cs.take m ++ '}' :: cs.drop (m + 1) := by
      conv_lhs => rw [← List.take_append_drop m cs, List.drop_eq_getElem_cons hlt, hget,
        Sign.ofChar_eq_rbrace hsign]
    refine ⟨_, _, hsplit, by simp; omega, ?_⟩
    have hfront : ('{' :: cs).take (m + 2 - 0) = '{' :: (cs.take m ++ ['}']) := by
      rw [Nat.sub_zero, List.take_succ_cons, List.take_add_one, hc, Sign.ofChar_eq_rbrace hsign]
      rfl
    have htake := scan_take_append h []
    rwa [List.append_nil, ← List.map_take, hfront] at htake
  · rintro ⟨inner, rest, rfl, rfl, h⟩
    have := scan_take_append h (rest.map Sign.ofChar)
    rw [List.take_of_length_le (by simp)] at this
    simpa [size?] using this

end MetaInline.Brace
