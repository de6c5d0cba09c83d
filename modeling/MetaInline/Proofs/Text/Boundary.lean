import Mathlib
import MetaInline.Text.Basic
import MetaInline.Text.Span

namespace MetaInline

lemma pairwise_or_of_mem {α : Type*} {R : α → α → Prop} {l : List α} (h : l.Pairwise R) {a b : α}
    (ha : a ∈ l) (hb : b ∈ l) (hne : a ≠ b) : R a b ∨ R b a := by
  have hsymm : Std.Symm fun a b => R a b ∨ R b a := ⟨fun _ _ => Or.symm⟩
  exact (h.imp (S := fun a b => R a b ∨ R b a) Or.inl).forall ha hb hne

namespace Text

@[elab_as_elim]
lemma forall_of_between {P : Char → Prop} {n m : ℕ} (c : Char) (hn : n ≤ c.toNat) (hm : c.toNat < m)
    (h : ∀ k : Fin m, n ≤ k.val → P (Char.ofNat k)) : P c := by
  have hc := h ⟨c.toNat, hm⟩ hn
  rwa [Char.ofNat_toNat] at hc

lemma isSome_dropFront?_iff {word u : Text} : (dropFront? word u).isSome = true ↔ word <+: u := by
  rw [Option.isSome_iff_exists]
  constructor
  · rintro ⟨rest, h⟩
    exact ⟨rest, (eq_append_of_dropFront? h).symm⟩
  · rintro ⟨rest, rfl⟩
    exact ⟨rest, dropFront?_append word rest⟩

lemma mentions_iff {word u : Text} : mentions word u = true ↔ word <:+: u := by
  induction u with
  | nil => by_cases h : word = [] <;> simp [mentions, cut?, h]
  | cons c u ih =>
    rw [List.infix_cons_iff, ← isSome_dropFront?_iff, ← ih, mentions, mentions, cut?]
    by_cases h : (dropFront? word (c :: u)).isSome = true
    · simp [h]
    · simp [h]

/-- From byte `n` on, `u` holds `v`. -/
def From (u : Text) (n : ℕ) (v : Text) : Prop :=
  ∃ w, u = w ++ v ∧ size w = n

lemma From.self (u : Text) : From u 0 u := ⟨[], rfl, rfl⟩

lemma From.drop {u v w : Text} {n : ℕ} (h : From u n (v ++ w)) : From u (n + size v) w := by
  obtain ⟨x, rfl, rfl⟩ := h
  exact ⟨x ++ v, by simp, by simp⟩

lemma From.drop_cons {u v : Text} {n : ℕ} {c : Char} (h : From u n (c :: v)) :
    From u (n + c.utf8Size) v := by
  simpa using From.drop (v := [c]) h

lemma From.trans {u v w : Text} {m n : ℕ} (h : From u m v) (h' : From v n w) : From u (m + n) w := by
  obtain ⟨x, rfl, rfl⟩ := h'
  exact h.drop

lemma From.append {u v : Text} {n : ℕ} (h : From u n v) (w : Text) : From (u ++ w) n (v ++ w) := by
  obtain ⟨x, rfl, rfl⟩ := h
  exact ⟨x, by simp, rfl⟩

lemma From.unique {u v w : Text} {n : ℕ} (h : From u n v) (h' : From u n w) : v = w := by
  obtain ⟨x, rfl, hx⟩ := h
  obtain ⟨y, hy, rfl⟩ := h'
  have hsplit := splitAt?_size_append x v
  rw [hx, hy, splitAt?_size_append] at hsplit
  exact (Prod.mk.inj (Option.some.inj hsplit)).2.symm

lemma From.add_size {u v : Text} {n : ℕ} (h : From u n v) : n + size v = size u := by
  obtain ⟨w, rfl, rfl⟩ := h
  simp

lemma splitAt?_eq_some_iff {u v w : Text} {n : ℕ} :
    splitAt? n u = some (v, w) ↔ u = v ++ w ∧ size v = n := by
  constructor
  · intro h
    obtain ⟨hu, hn⟩ := append_eq_of_splitAt? h
    exact ⟨hu.symm, hn⟩
  · rintro ⟨rfl, rfl⟩
    exact splitAt?_size_append v w

lemma isBoundary_iff {u : Text} {n : ℕ} : IsBoundary u n ↔ ∃ v, From u n v := by
  rw [IsBoundary, Option.isSome_iff_exists]
  constructor
  · rintro ⟨⟨v, w⟩, h⟩
    exact ⟨w, v, splitAt?_eq_some_iff.mp h⟩
  · rintro ⟨w, v, h⟩
    exact ⟨(v, w), splitAt?_eq_some_iff.mpr h⟩

lemma From.isBoundary {u v : Text} {n : ℕ} (h : From u n v) : IsBoundary u n :=
  isBoundary_iff.mpr ⟨v, h⟩

lemma IsBoundary.le_size {u : Text} {n : ℕ} (h : IsBoundary u n) : n ≤ size u := by
  obtain ⟨v, hv⟩ := isBoundary_iff.mp h
  have := hv.add_size
  omega

@[simp] lemma isBoundary_zero (u : Text) : IsBoundary u 0 := (From.self u).isBoundary

@[simp] lemma isBoundary_size (u : Text) : IsBoundary u (size u) :=
  isBoundary_iff.mpr ⟨[], u, by simp, rfl⟩

lemma IsBoundary.append {u : Text} {n : ℕ} (h : IsBoundary u n) (w : Text) :
    IsBoundary (u ++ w) n := by
  obtain ⟨v, hv⟩ := isBoundary_iff.mp h
  exact (hv.append w).isBoundary

lemma append_eq_append_of_size_le {v w v' w' : Text} (h : v ++ w = v' ++ w')
    (hs : size v ≤ size v') : ∃ x, v' = v ++ x ∧ w = x ++ w' := by
  rcases List.append_eq_append_iff.mp h with ⟨x, rfl, hx⟩ | ⟨x, rfl, hx⟩
  · exact ⟨x, rfl, hx⟩
  · have hx0 : x = [] := by
      have hl := length_le_size x
      simp only [size_append] at hs
      exact List.eq_nil_of_length_eq_zero (by omega)
    exact ⟨[], by simp [hx0], by simpa [hx0] using hx.symm⟩

lemma From.isBoundary_iff {u v : Text} {m : ℕ} (h : From u m v) (n : ℕ) :
    IsBoundary u (m + n) ↔ IsBoundary v n := by
  constructor
  · intro hb
    obtain ⟨w, x, hx, hs⟩ := Text.isBoundary_iff.mp hb
    obtain ⟨y, rfl, rfl⟩ := h
    obtain ⟨z, rfl, rfl⟩ := append_eq_append_of_size_le hx (by omega)
    exact Text.isBoundary_iff.mpr ⟨w, z, rfl, by simpa using hs⟩
  · intro hb
    obtain ⟨w, hw⟩ := Text.isBoundary_iff.mp hb
    exact (h.trans hw).isBoundary

lemma From.exists_append {u v : Text} {m n : ℕ} (h : From u m v) (hmn : m ≤ n)
    (hn : IsBoundary u n) : ∃ x w, v = x ++ w ∧ m + size x = n ∧ From u n w := by
  obtain ⟨w, hw⟩ := Text.isBoundary_iff.mp hn
  obtain ⟨y, hy, rfl⟩ := hw
  obtain ⟨z, rfl, rfl⟩ := h
  obtain ⟨x, rfl, rfl⟩ := append_eq_append_of_size_le hy hmn
  exact ⟨x, w, rfl, by simp, z ++ x, by simp, rfl⟩

def IsAfterNewline (u : Text) (n : ℕ) : Prop :=
  ∃ v w, u = v ++ '\n' :: w ∧ size v + 1 = n

lemma From.not_isAfterNewline {u v w : Text} {n : ℕ} (h : From u n (v ++ w)) (hne : v ≠ [])
    (hv : '\n' ∉ v) : ¬ IsAfterNewline u (n + size v) := by
  rintro ⟨x, y, hu, hsize⟩
  have hrest : From u (n + size v) y :=
    ⟨x ++ ['\n'], by simp [hu], by rw [size_append, ← hsize]; rfl⟩
  obtain rfl := hrest.unique h.drop
  obtain ⟨z, hz, -⟩ := h
  have hall : (z ++ v) ++ y = (x ++ ['\n']) ++ y := by simpa using hz.symm.trans hu
  have hfront := List.append_cancel_right hall
  obtain ⟨v, d, rfl⟩ := (List.eq_nil_or_concat v).resolve_left hne
  rw [List.concat_eq_append, ← List.append_assoc] at hfront
  obtain rfl := (List.cons_eq_cons.mp (List.append_inj' hfront rfl).2).1
  simp at hv

lemma slice?_eq_some_iff {u v : Text} {m n : ℕ} :
    slice? u m n = some v ↔ m ≤ n ∧ ∃ w, From u m (v ++ w) ∧ m + size v = n := by
  by_cases hmn : m ≤ n
  · simp only [slice?, guard, hmn, if_true, true_and]
    constructor
    · intro h
      obtain ⟨-, -, h⟩ := Option.bind_eq_some_iff.mp h
      obtain ⟨⟨x, y⟩, hxy, h⟩ := Option.bind_eq_some_iff.mp h
      obtain ⟨⟨z, w⟩, hzw, h⟩ := Option.bind_eq_some_iff.mp h
      obtain rfl : z = v := Option.some.inj h
      obtain ⟨rfl, rfl⟩ := splitAt?_eq_some_iff.mp hxy
      obtain ⟨rfl, hz⟩ := splitAt?_eq_some_iff.mp hzw
      exact ⟨w, ⟨x, rfl, rfl⟩, by omega⟩
    · rintro ⟨w, ⟨x, rfl, rfl⟩, hn⟩
      have hz : n - size x = size v := by omega
      simp [hz, splitAt?_size_append]
  · simp [slice?, guard, hmn]

end Text

namespace Span

def Apart (s t : Span) : Prop :=
  s.stop ≤ t.start ∨ t.stop ≤ s.start

instance (s t : Span) : Decidable (s.Apart t) :=
  inferInstanceAs (Decidable (_ ∨ _))

lemma Apart.symm {s t : Span} (h : s.Apart t) : t.Apart s := Or.symm h

def Disjoint (s t : Span) : Prop :=
  ∀ n, ¬ ((s.start ≤ n ∧ n < s.stop) ∧ t.start ≤ n ∧ n < t.stop)

lemma Disjoint.apart {s t : Span} (h : s.Disjoint t) (hs : s.start < s.stop)
    (ht : t.start < t.stop) : s.Apart t := by
  by_contra hapart
  unfold Apart at hapart
  exact h (max s.start t.start) (by omega)

structure IsIn (u : Text) (s : Span) : Prop where
  le : s.start ≤ s.stop
  start : Text.IsBoundary u s.start
  stop : Text.IsBoundary u s.stop

@[simp] lemma covers_iff {s t : Span} : s.covers t ↔ s.start ≤ t.start ∧ t.stop ≤ s.stop := by
  simp [covers]

lemma IsIn.exists_from {u : Text} {s : Span} (h : s.IsIn u) :
    ∃ v w, Text.From u s.start (v ++ w) ∧ s.start + Text.size v = s.stop := by
  obtain ⟨x, hx⟩ := Text.isBoundary_iff.mp h.start
  obtain ⟨v, w, rfl, hv, -⟩ := hx.exists_append h.le h.stop
  exact ⟨v, w, hx, hv⟩

def Within (s t : Span) : Prop :=
  t.covers s = true ∧ s ≠ t

instance (s t : Span) : Decidable (s.Within t) :=
  inferInstanceAs (Decidable (_ ∧ _))

lemma Apart.mono {s t s' t' : Span} (h : s.Apart t) (hs : s.covers s' = true)
    (ht : t.covers t' = true) : s'.Apart t' := by
  simp only [covers_iff] at hs ht
  rcases h with h | h
  · exact Or.inl (by omega)
  · exact Or.inr (by omega)

lemma covers_trans {r s t : Span} (h : r.covers s = true) (h' : s.covers t = true) :
    r.covers t = true := by
  simp only [covers_iff] at *
  omega

lemma within_iff {s t : Span} :
    s.Within t ↔ t.covers s = true ∧ (t.start < s.start ∨ s.stop < t.stop) := by
  obtain ⟨a, b⟩ := s
  obtain ⟨c, d⟩ := t
  simp only [Within, covers_iff, ne_eq, mk.injEq]
  omega

lemma Within.mono {r s t : Span} (h : r.Within s) (h' : t.covers s = true) : r.Within t := by
  rw [within_iff] at h ⊢
  simp only [covers_iff] at *
  omega

lemma Within.not_apart {s t : Span} (h : s.Within t) (hs : s.start < s.stop) : ¬ s.Apart t := by
  rw [within_iff] at h
  simp only [covers_iff] at h
  unfold Apart
  omega

lemma Within.asymm {s t : Span} (h : s.Within t) : ¬ t.Within s := by
  rw [within_iff] at h ⊢
  simp only [covers_iff] at *
  omega

@[simp] lemma shift_start (n : ℕ) (s : Span) : (s.shift n).start = s.start + n := rfl

@[simp] lemma shift_stop (n : ℕ) (s : Span) : (s.shift n).stop = s.stop + n := rfl

end Span

end MetaInline
