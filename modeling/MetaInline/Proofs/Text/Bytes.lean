import Mathlib
import MetaInline.Proofs.Text.Boundary

namespace MetaInline.Text

def bytes (u : Text) : List UInt8 :=
  u.flatMap String.utf8EncodeChar

@[simp] lemma bytes_nil : bytes [] = [] := rfl

lemma bytes_cons (c : Char) (u : Text) : bytes (c :: u) = String.utf8EncodeChar c ++ bytes u := rfl

@[simp] lemma bytes_append (u v : Text) : bytes (u ++ v) = bytes u ++ bytes v :=
  List.flatMap_append

@[simp] lemma length_bytes (u : Text) : (bytes u).length = size u := by
  induction u with
  | nil => rfl
  | cons c u ih => simp [bytes_cons, ih]

lemma From.drop_bytes {u v : Text} {n : ℕ} (h : From u n v) : (bytes u).drop n = bytes v := by
  obtain ⟨w, rfl, rfl⟩ := h
  rw [bytes_append, List.drop_left' (length_bytes w)]

variable {c : Char}

lemma utf8Size_eq_one (hc : c.toNat < 128) : c.utf8Size = 1 :=
  Char.utf8Size_eq_one_iff.mpr (UInt32.le_iff_toNat_le.mpr (Nat.lt_succ_iff.mp hc))

def byte (c : Char) : UInt8 :=
  UInt8.ofNat c.toNat

lemma utf8EncodeChar_of_lt (hc : c.toNat < 128) :
    String.utf8EncodeChar c = [byte c] := by
  rw [String.utf8EncodeChar_eq_singleton (utf8Size_eq_one hc)]
  rfl

lemma le_of_mem_utf8EncodeChar (hc : 128 ≤ c.toNat) {b : UInt8}
    (hb : b ∈ String.utf8EncodeChar c) : 128 ≤ b.toNat := by
  have hv : ¬ c.val.toNat ≤ 127 := Nat.not_le.mpr hc
  simp only [String.utf8EncodeChar, hv, if_false] at hb
  split_ifs at hb <;> simp only [List.mem_cons, List.not_mem_nil, or_false] at hb <;>
    rcases hb with rfl | rfl | rfl | rfl <;> simp <;> omega

lemma toNat_byte (hc : c.toNat < 128) : (byte c).toNat = c.toNat := by
  simp [byte]
  omega

lemma byte_inj {d : Char} (hc : c.toNat < 128) (hd : d.toNat < 128) : byte c = byte d ↔ c = d := by
  rw [← UInt8.toNat_inj, toNat_byte hc, toNat_byte hd, Char.toNat_inj]

structure IsFirstByte (c : Char) (b : UInt8) : Prop where
  eq_iff : ∀ d : Char, d.toNat < 128 → (b = byte d ↔ c = d)
  le : 128 ≤ c.toNat → 128 ≤ b.toNat

lemma IsFirstByte.beq_eq {b : UInt8} (h : IsFirstByte c b) (d : Char) (hd : d.toNat < 128) :
    (b == byte d) = (c == d) := by
  rw [Bool.eq_iff_iff, beq_iff_eq, beq_iff_eq, h.eq_iff d hd]

lemma exists_bytes_eq_cons (c : Char) (u : Text) : ∃ b bs, bytes (c :: u) = b :: (bs ++ bytes u) ∧
    IsFirstByte c b ∧ bs.length + 1 = c.utf8Size ∧ ∀ x ∈ bs, 128 ≤ x.toNat := by
  obtain ⟨b, bs, hb⟩ := List.exists_cons_of_ne_nil (String.utf8EncodeChar_ne_nil (c := c))
  have hlen : bs.length + 1 = c.utf8Size := by
    rw [← String.length_utf8EncodeChar, hb]
    rfl
  refine ⟨b, bs, by rw [bytes_cons, hb]; rfl, ?_⟩
  rcases lt_or_ge c.toNat 128 with hc | hc
  · obtain ⟨rfl, rfl⟩ := List.cons_eq_cons.mp (hb.symm.trans (utf8EncodeChar_of_lt hc))
    exact ⟨⟨fun d hd => byte_inj hc hd, fun h => absurd h hc.not_ge⟩, hlen, by simp⟩
  · have hle (x : UInt8) (hx : x ∈ b :: bs) : 128 ≤ x.toNat := le_of_mem_utf8EncodeChar hc (hb ▸ hx)
    refine ⟨⟨fun d hd => ⟨fun h => ?_, fun h => ?_⟩, fun _ => hle b (by simp)⟩, hlen,
      fun x hx => hle x (by simp [hx])⟩
    · have := hle b (by simp)
      rw [h, toNat_byte hd] at this
      omega
    · rw [h] at hc
      omega

lemma take_bytes_eq {word : Text} (hw : ∀ c ∈ word, c.toNat < 128) (v : Text) :
    ((bytes v).take word.length == word.map byte) = (dropFront? word v).isSome := by
  induction word generalizing v with
  | nil => simp [dropFront?]
  | cons w word ih =>
    cases v with
    | nil => simp [dropFront?]
    | cons c v =>
      obtain ⟨b, bs, hb, hfirst, hlen, -⟩ := exists_bytes_eq_cons c v
      have hw' := hw w (by simp)
      rw [dropFront?, hb]
      by_cases hcw : c = w
      · have hbs : bs = [] := by
          rw [utf8Size_eq_one (hcw ▸ hw')] at hlen
          exact List.length_eq_zero_iff.mp (by omega)
        have := ih (fun c hc => hw c (by simp [hc])) v
        simp [hcw, hbs, (hfirst.eq_iff w hw').mpr hcw, ← this]
      · have hne : b ≠ byte w := fun h => hcw ((hfirst.eq_iff w hw').mp h)
        simp [hne, Ne.symm hcw]

end MetaInline.Text
