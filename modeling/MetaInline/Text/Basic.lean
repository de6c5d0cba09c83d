/-!
Texts as lists of characters whose positions are counted in UTF-8 bytes.
-/

namespace MetaInline

abbrev Text := List Char

namespace Text

def size : Text → Nat
  | [] => 0
  | c :: cs => c.utf8Size + size cs

@[simp] theorem size_nil : size [] = 0 := rfl

@[simp] theorem size_cons (c : Char) (cs : Text) : size (c :: cs) = c.utf8Size + size cs := rfl

@[simp] theorem size_append (s t : Text) : size (s ++ t) = size s + size t := by
  induction s with
  | nil => simp
  | cons c s ih => simp [ih, Nat.add_assoc]

theorem length_le_size (u : Text) : u.length ≤ size u := by
  induction u with
  | nil => simp
  | cons c u ih =>
    have := c.utf8Size_pos
    simp only [List.length_cons, size_cons]
    omega

theorem utf8ByteSize_ofList (u : Text) : (String.ofList u).utf8ByteSize = size u := by
  induction u with
  | nil => simp
  | cons c u ih => rw [String.ofList_cons, String.utf8ByteSize_append, ih]; simp

@[simp] theorem size_toList (s : String) : size s.toList = s.utf8ByteSize := by
  rw [← utf8ByteSize_ofList, String.ofList_toList]

/-- The part before byte position `n` and the rest, if a character starts or the text ends there. -/
def splitAt? : Nat → Text → Option (Text × Text)
  | 0, cs => some ([], cs)
  | _ + 1, [] => none
  | n + 1, c :: cs =>
    if c.utf8Size ≤ n + 1 then
      (splitAt? (n + 1 - c.utf8Size) cs).map fun (s, t) => (c :: s, t)
    else none
termination_by _ cs => cs.length

theorem splitAt?_size_append (s t : Text) : splitAt? (size s) (s ++ t) = some (s, t) := by
  induction s with
  | nil => simp [splitAt?]
  | cons c s ih =>
    have h := Char.utf8Size_pos c
    obtain ⟨n, hn⟩ : ∃ n, size (c :: s) = n + 1 := ⟨size (c :: s) - 1, by simp; omega⟩
    have hs : n + 1 - c.utf8Size = size s := by simp at hn; omega
    have hc : c.utf8Size ≤ n + 1 := by simp at hn; omega
    rw [hn, List.cons_append, splitAt?, if_pos hc, hs, ih]
    rfl

theorem append_eq_of_splitAt? {n : Nat} {u s t : Text} (h : splitAt? n u = some (s, t)) :
    s ++ t = u ∧ size s = n := by
  induction u generalizing n s with
  | nil => cases n <;> simp_all [splitAt?]
  | cons c u ih =>
    cases n with
    | zero => simp_all [splitAt?]
    | succ n =>
      rw [splitAt?] at h
      split at h
      · obtain ⟨⟨s', t'⟩, h', e⟩ := Option.map_eq_some_iff.1 h
        obtain ⟨rfl, rfl⟩ := Prod.mk.inj e
        obtain ⟨rfl, hs⟩ := ih h'
        exact ⟨rfl, by simp; omega⟩
      · cases h

def IsBoundary (u : Text) (n : Nat) : Prop :=
  (splitAt? n u).isSome = true

instance (u : Text) (n : Nat) : Decidable (IsBoundary u n) :=
  inferInstanceAs (Decidable (_ = true))

def slice? (u : Text) (start stop : Nat) : Option Text := do
  guard (start ≤ stop)
  let (_, rest) ← splitAt? start u
  let (part, _) ← splitAt? (stop - start) rest
  return part

def dropFront? : Text → Text → Option Text
  | [], u => some u
  | _ :: _, [] => none
  | w :: word, c :: u => if w = c then dropFront? word u else none

theorem eq_append_of_dropFront? {word u r : Text} (h : dropFront? word u = some r) :
    u = word ++ r := by
  induction word generalizing u with
  | nil => simpa [dropFront?] using h
  | cons w word ih =>
    cases u with
    | nil => simp [dropFront?] at h
    | cons c u =>
      simp only [dropFront?] at h
      split at h
      · next e => subst e; simp [ih h]
      · cases h

theorem dropFront?_append (word r : Text) : dropFront? word (word ++ r) = some r := by
  induction word with
  | nil => simp [dropFront?]
  | cons w word ih => simp [dropFront?, ih]

def cut? (word : Text) : Text → Option (Text × Text)
  | [] => if word = [] then some ([], []) else none
  | c :: u =>
    if (dropFront? word (c :: u)).isSome then some ([], c :: u)
    else (cut? word u).map fun (s, t) => (c :: s, t)

def mentions (word u : Text) : Bool :=
  (cut? word u).isSome

end Text
end MetaInline
