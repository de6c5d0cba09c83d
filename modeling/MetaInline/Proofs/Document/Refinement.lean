import Mathlib
import MetaInline.Proofs.Document.Checked

namespace MetaInline.Astro.Checked

open Text (size bytes byte)
open Unicode (isBlank)

variable {u v : Text} {p : Place} {c : Char} {cs : Text} {pos : ℕ}

lemma atTag?_eq (h : Text.From u pos (c :: cs)) {name : Text} (hn : ∀ c ∈ name, c.toNat < 128) :
    atTag? u name pos = some (opens name (c :: cs)) := by
  obtain ⟨b, hb, hbyte⟩ := exists_byte h
  rw [opens_cons]
  by_cases hc : c = '<'
  · subst hc
    have hcs : Text.From u (pos + 1) cs := h.drop_cons
    have hbegins := beginsNoCase_eq hn cs
    have hsize := hcs.add_size
    simp only [atTag?, hb, (hbyte.eq_iff '<' (by decide)).mpr rfl, dropChecked_eq hcs, hbegins, true_and,
      Option.bind_eq_bind, Option.bind_some, beq_self_eq_true, Bool.true_and]
    cases hd : dropFrontNoCase? name cs with
    | none => simp
    | some r =>
      obtain ⟨w, rfl, hw⟩ := exists_append_of_dropFrontNoCase? hn hd
      have hr : Text.From u (pos + 1 + name.length) r := hw ▸ hcs.drop
      cases r with
      | nil =>
        have : ¬ pos + 1 + name.length < size u := by
          have := hr.add_size
          simp at this
          omega
        simp [this]
      | cons d r =>
        have hlt : pos + 1 + name.length < size u := by
          have := hr.add_size
          have := d.utf8Size_pos
          simp at *
          omega
        obtain ⟨b', hb', hbyte'⟩ := exists_byte hr
        have hd' := hbyte'.beq_eq
        obtain ⟨_, hget⟩ := List.getElem?_eq_some_iff.mp hb'
        simp [hlt, hget, hd' '>' (by decide), hd' '/' (by decide), hd' ' ' (by decide),
          hd' '\t' (by decide), hd' '\n' (by decide), hd' '\r' (by decide)]
  · have hne : b ≠ byte '<' := fun h => hc ((hbyte.eq_iff '<' (by decide)).mp h)
    simp [atTag?, hb, hne, hc]

lemma find?_eq (word : Text) (i : ℕ) (v : Text) :
    find? word i v = (Text.cut? word v).map fun x => i + size x.1 := rfl

lemma skipPast_eq (h : Text.From u pos v) (word : Text) :
    skipPast u word pos = some (pos + size (v.take (sizePast word v))) := by
  simp only [skipPast, textFrom?_eq h, find?_eq, sizePast, Option.bind_eq_bind, Option.bind_some]
  cases hc : Text.cut? word v with
  | none =>
    have := h.add_size
    simp [this]
  | some x =>
    obtain ⟨before, t⟩ := x
    obtain ⟨r, rfl⟩ := Text.exists_append_of_cut? hc
    have htake : v.take (before.length + word.length) = before ++ word := by
      rw [Text.eq_append_of_cut? hc, List.take_append]
      simp
    simp [htake, Nat.add_assoc]

lemma braceStop_eq (h : Text.From u pos v) : braceStop u pos =
    some ((Brace.size? Brace.Sign.ofChar v).map fun n => pos + size (v.take n)) :=
  Brace.closing?_bytes h rfl

lemma exists_inner (h : p.IsAt u) {n : ℕ} (hr : p.rest = '{' :: cs)
    (hn : Brace.size? Brace.Sign.ofChar p.rest = some n) : ∃ inner : Text,
      p.rest.take n = '{' :: (inner ++ ['}']) ∧ n = inner.length + 2 ∧
      sub? (p.move n).offset 1 = some (p.offset + 1 + size inner) ∧
      Text.slice? u (p.offset + 1) (p.offset + 1 + size inner) = some inner := by
  obtain ⟨inner, rest, rfl, rfl, -⟩ := Brace.size?_eq_some_iff.mp (hr ▸ hn)
  have htake : p.rest.take (inner.length + 2) = '{' :: (inner ++ ['}']) := by
    simp [hr, List.take_append]
  have hfrom : Text.From u (p.offset + 1) (inner ++ '}' :: rest) := (hr ▸ h.from).drop_cons
  refine ⟨inner, htake, rfl, ?_, Text.slice?_eq_some_iff.mpr ⟨by omega, _, hfrom, rfl⟩⟩
  have hsize : size ('{' :: (inner ++ ['}'])) = 1 + size inner + 1 := by
    simp [show '{'.utf8Size = 1 from rfl, show '}'.utf8Size = 1 from rfl, Nat.add_assoc]
  rw [Place.offset_move, htake, hsize, sub?, if_pos (by omega)]
  congr 1
  omega

lemma expression_eq (h : p.IsAt u) {n : ℕ} (hr : p.rest = '{' :: cs)
    (hn : Brace.size? Brace.Sign.ofChar p.rest = some n) :
    expression u p.offset (p.move n).offset = some (braced p n) := by
  obtain ⟨inner, htake, rfl, hlast, hinner⟩ := exists_inner h hr hn
  have hrest : (p.move 1).rest.take (inner.length + 2 - 2) = inner := by
    have hdrop : (p.rest.take (inner.length + 2)).drop 1 = inner ++ ['}'] := by rw [htake]; rfl
    rw [List.drop_take] at hdrop
    rw [Place.rest_move, show inner.length + 2 - 2 = min inner.length (inner.length + 2 - 1) by omega,
      ← List.take_take, hdrop, List.take_left]
  have hoffset : (p.move 1).offset = p.offset + 1 := by simp [hr, show '{'.utf8Size = 1 from rfl]
  rw [expression, hlast, braced, region]
  simp only [hrest, hoffset, hinner, Option.bind_eq_bind, Option.bind_some]
  split <;> rfl

lemma textExpression_eq (h : p.IsAt u) (hr : p.rest = '{' :: cs) :
    textExpression u p.offset = some (match Brace.size? Brace.Sign.ofChar p.rest with
      | some n => ((p.move n).offset, braced p n)
      | none => (size u, .empty)) := by
  rw [textExpression, braceStop_eq h.from]
  cases hn : Brace.size? Brace.Sign.ofChar p.rest with
  | none => rfl
  | some n =>
    have := expression_eq h hr hn
    rw [Place.offset_move] at this
    simp [this]

lemma attributeExpression_eq (h : p.IsAt u) (hr : p.rest = '{' :: cs) (tag : Text) :
    attributeExpression u tag p.offset = some (match Brace.size? Brace.Sign.ofChar p.rest with
      | some n => ((p.move n).offset, attributeBraces tag p n)
      | none => (size u, .empty)) := by
  rw [attributeExpression, braceStop_eq h.from]
  cases hn : Brace.size? Brace.Sign.ofChar p.rest with
  | none => rfl
  | some n =>
    have hexp := expression_eq h hr hn
    obtain ⟨inner, htake, -, hlast, hinner⟩ := exists_inner h hr hn
    have hslice : ((p.rest.take n).drop 1).dropLast = inner := by simp [htake]
    rw [Place.offset_move] at hexp hlast
    simp only [Option.map_some, Option.bind_eq_bind, Option.bind_some, h.slice_before,
      List.reverse_reverse, hexp, hlast, hinner, attributeBraces, hslice, Place.offset_move]
    split
    · rfl
    · split <;> rfl

lemma attributes_insides (tag : Text) (steps : ℕ) {k : ℕ} (h : ∀ i < k, Inside u (pos + i)) :
    attributes u tag (steps + k) pos = attributes u tag steps (pos + k) := by
  induction k generalizing pos with
  | zero => rfl
  | succ k ih =>
    have hnext : ∀ i < k, Inside u (pos + 1 + i) := fun i hi => by
      simpa [Nat.add_assoc, Nat.add_comm 1] using h (i + 1) (by omega)
    have hfirst : Inside u pos := h 0 (by omega)
    rw [← Nat.add_assoc, attributes_inside hfirst, ih hnext, Nat.add_assoc, Nat.add_comm 1]

lemma markup_insides (steps : ℕ) {k : ℕ} (h : ∀ i < k, Inside u (pos + i)) :
    markup u (steps + k) pos = markup u steps (pos + k) := by
  induction k generalizing pos with
  | zero => rfl
  | succ k ih =>
    have hnext : ∀ i < k, Inside u (pos + 1 + i) := fun i hi => by
      simpa [Nat.add_assoc, Nat.add_comm 1] using h (i + 1) (by omega)
    have hfirst : Inside u pos := h 0 (by omega)
    rw [← Nat.add_assoc, markup_inside hfirst, ih hnext, Nat.add_assoc, Nat.add_comm 1]

lemma lt_size (h : p.IsAt u) (hr : p.rest = c :: cs) : p.offset < size u := by
  have hs := h.from.add_size
  have hc := c.utf8Size_pos
  rw [hr, Text.size_cons] at hs
  omega

lemma size_rest_move {n : ℕ} (hr : p.rest = c :: cs) (hn : 0 < n) :
    size (p.move n).rest < size p.rest := by
  obtain ⟨k, rfl⟩ : ∃ k, n = k + 1 := ⟨n - 1, by omega⟩
  have hsplit := congrArg size (List.take_append_drop k cs)
  have hc := c.utf8Size_pos
  simp only [Place.rest_move, hr, List.drop_succ_cons, Text.size_append, Text.size_cons] at *
  omega

lemma offset_move_length (h : p.IsAt u) : (p.move p.rest.length).offset = size u := by
  simpa using h.from.add_size

lemma offset_move_sizePast (h : p.IsAt u) (hr : p.rest = c :: cs) (hc : c.toNat < 128) :
    (p.move (sizePast [c] cs + 1)).offset =
      ((find? [c] (p.offset + 1) cs).map (· + 1)).getD (size u) := by
  rw [Place.offset_move, hr, List.take_succ_cons, Text.size_cons, Text.utf8Size_eq_one hc, find?_eq,
    sizePast]
  cases hcut : Text.cut? [c] cs with
  | none =>
    have hs := h.from.add_size
    rw [hr, Text.size_cons, Text.utf8Size_eq_one hc] at hs
    simpa using hs
  | some x =>
    obtain ⟨before, t⟩ := x
    obtain ⟨r, rfl⟩ := Text.exists_append_of_cut? hcut
    have htake : cs.take (before.length + [c].length) = before ++ [c] := by
      rw [Text.eq_append_of_cut? hcut, List.take_append]
      simp
    simp only [htake, Text.size_append, Text.size_cons, Text.size_nil, Text.utf8Size_eq_one hc,
      Option.map_some, Option.getD_some]
    omega

lemma attributes_step (h : p.IsAt u) (hr : p.rest = c :: cs) {tag : Text} {n : ℕ} {s : Scan}
    (hp : part? tag p = some (n, s)) {steps : ℕ} (hsteps : size p.rest ≤ steps) :
    ∃ steps' ≤ steps, size (p.move n).rest < steps' ∧ attributes u tag (steps + 1) p.offset =
      (attributes u tag steps' (p.move n).offset).map fun x => (x.1, s ++ x.2) := by
  have hrest := size_rest_move hr (part?_le hp).1
  obtain ⟨b, hb, hbyte⟩ := exists_byte (hr ▸ h.from)
  have hback : b = 0x60 ↔ c.toNat = 0x60 :=
    (hbyte.eq_iff '\x60' (by decide)).trans Char.toNat_inj.symm
  rw [attributes, if_pos (lt_size h hr), hb]
  rw [part?, hr] at hp
  simp only [Option.bind_eq_bind, Option.bind_some, hbyte.eq_iff _ (show '>'.toNat < 128 by decide),
    hbyte.eq_iff _ (show '"'.toNat < 128 by decide), hbyte.eq_iff _ (show '\''.toNat < 128 by decide),
    hbyte.eq_iff _ (show '{'.toNat < 128 by decide), hback] at hp ⊢
  split_ifs at hp ⊢ with hend hquote hbrace
  · obtain ⟨rfl, rfl⟩ := Prod.mk.inj (Option.some.inj hp)
    have hc : c.toNat < 128 := by rcases hquote with rfl | rfl | hc <;> simp_all
    have hchar : Char.ofNat b.toNat = c := by
      rw [(hbyte.eq_iff c hc).mpr rfl, Text.toNat_byte hc, Char.ofNat_toNat]
    have hcs : Text.From u (p.offset + 1) cs :=
      Text.utf8Size_eq_one hc ▸ Text.From.drop_cons (hr ▸ h.from)
    refine ⟨steps, le_rfl, by omega, ?_⟩
    rw [offset_move_sizePast h hr hc, textFrom?_eq hcs, hchar]
    cases hf : find? [c] (p.offset + 1) cs <;> simp [hf]
  · subst hbrace
    rw [attributeExpression_eq h hr, hr]
    cases hn : Brace.size? Brace.Sign.ofChar ('{' :: cs) with
    | none =>
      rw [hn] at hp
      obtain ⟨rfl, rfl⟩ := Prod.mk.inj (Option.some.inj hp)
      have hend : (p.move (cs.length + 1)).offset = size u := by
        simpa [hr] using offset_move_length h
      refine ⟨steps, le_rfl, by omega, ?_⟩
      rw [hend]
      cases ha : attributes u tag steps (size u) <;> simp [ha]
    | some k =>
      rw [hn] at hp
      obtain ⟨rfl, rfl⟩ := Prod.mk.inj (Option.some.inj hp)
      refine ⟨steps, le_rfl, by omega, ?_⟩
      cases ha : attributes u tag steps (p.move k).offset <;> simp [ha, -Place.offset_move]
  · obtain ⟨rfl, rfl⟩ := Prod.mk.inj (Option.some.inj hp)
    have hpos := c.utf8Size_pos
    rw [hr, Text.size_cons] at hsteps
    obtain ⟨k, hk⟩ : ∃ k, c.utf8Size = k + 1 := ⟨c.utf8Size - 1, by omega⟩
    obtain ⟨rest, rfl⟩ : ∃ rest, steps = rest + k := ⟨steps - k, by omega⟩
    have hinside : ∀ i < k, Inside u (p.offset + 1 + i) := fun i hi => by
      simpa [Nat.add_assoc, Nat.add_comm 1] using
        inside_of_lt (i := i + 1) (hr ▸ h.from) (by omega) (by omega)
    have hskip := attributes_insides tag rest hinside
    refine ⟨rest, by omega, by simp [hr]; omega, ?_⟩
    simp [hskip, hr, hk, Nat.add_assoc, Nat.add_comm 1]

lemma attributes_eq (tag : Text) {steps : ℕ} (h : p.IsAt u) (hsteps : size p.rest < steps) :
    attributes u tag steps p.offset =
      some ((p.move (p.attributes tag).1).offset, (p.attributes tag).2) := by
  induction steps using Nat.strong_induction_on generalizing p with
  | _ steps ih =>
    obtain ⟨steps, rfl⟩ : ∃ k, steps = k + 1 := ⟨steps - 1, by omega⟩
    cases hr : p.rest with
    | nil =>
      have hs := h.from.add_size
      rw [hr, Text.size_nil, Nat.add_zero] at hs
      simp [attributes, attributes_nil tag hr, hs]
    | cons c cs =>
      cases hp : part? tag p with
      | none =>
        obtain ⟨_, heq⟩ := (part?_eq_none_iff.mp hp).resolve_left (by simp [hr])
        obtain rfl : c = '>' := (List.cons_eq_cons.mp (hr.symm.trans heq)).1
        obtain ⟨b, hb, hbyte⟩ := exists_byte (hr ▸ h.from)
        have hend : b = byte '>' := (hbyte.eq_iff '>' (by decide)).mpr rfl
        rw [attributes, if_pos (lt_size h hr), hb, attributes_end tag hr]
        simp [hend, hr, show '>'.utf8Size = 1 from rfl]
      | some x =>
        obtain ⟨n, s⟩ := x
        obtain ⟨steps', hle, hlt, hstep⟩ := attributes_step h hr hp (Nat.lt_succ_iff.mp hsteps)
        rw [hstep, ih steps' (by omega) (h.move n) hlt, attributes_part hp, Place.move_move]
        rfl

lemma findIdx?_bytes (v : Text) : (bytes v).findIdx? endsName =
    if (v.takeWhile (!isNameEnd ·)).length < v.length then some (size (v.takeWhile (!isNameEnd ·)))
    else none := by
  induction v with
  | nil => rfl
  | cons c v ih =>
    obtain ⟨b, bs, hbytes, hb, hlen, hle⟩ := Text.exists_bytes_eq_cons c v
    have hfirst : endsName b = isNameEnd c := by
      simp [endsName, isNameEnd, isTagBlank, hb.beq_eq ' ' (by decide), hb.beq_eq '\t' (by decide),
        hb.beq_eq '\n' (by decide), hb.beq_eq '\r' (by decide), hb.beq_eq '\x0c' (by decide),
        hb.beq_eq '>' (by decide), hb.beq_eq '/' (by decide), hb.beq_eq '{' (by decide)]
    have hinside : ∀ x ∈ bs, endsName x = false := by
      intro x hx
      have hne (d : Char) (hd : d.toNat < 128) : (x == byte d) = false :=
        beq_false_of_ne (Inside.ne (hle x hx) hd)
      simp [endsName, hne]
    rw [hbytes, List.findIdx?_cons, hfirst, List.takeWhile_cons]
    cases hc : isNameEnd c with
    | true => simp
    | false =>
      rw [List.findIdx?_append, ih, List.findIdx?_eq_none_iff.mpr hinside]
      simp only [Bool.not_false, if_true, List.length_cons, Nat.add_lt_add_iff_right, Text.size_cons,
        Option.none_or, Bool.false_eq_true, if_false]
      split
      · simp only [Option.map_some, Option.some.injEq]
        omega
      · rfl

lemma lt_of_isNameEnd (h : isNameEnd c = true) : c.toNat < 128 := by
  simp only [isNameEnd, isTagBlank, Bool.or_eq_true, beq_iff_eq] at h
  rcases h with ((((((h | h) | h) | h) | h) | h) | h) | h <;> subst h <;> decide

lemma tagName_stop (h : p.IsAt u) (hr : p.rest = c :: cs) (hc : c.toNat < 128) :
    (p.move (tagName p.rest).2).offset = nameStop u (p.offset + 1) (bytes cs) := by
  have hsize : size u = p.offset + 1 + size cs := by
    have := h.from.add_size
    rw [hr, Text.size_cons, Text.utf8Size_eq_one hc] at this
    omega
  have hmove (n : ℕ) : (p.move (n + 1)).offset = p.offset + 1 + size (cs.take n) := by
    simp [hr, Text.utf8Size_eq_one hc, Nat.add_assoc]
  rw [nameStop, findIdx?_bytes, hr, tagName_cons, hmove]
  have hsplit : cs.takeWhile (!isNameEnd ·) ++ cs.dropWhile (!isNameEnd ·) = cs :=
    List.takeWhile_append_dropWhile
  generalize cs.takeWhile (!isNameEnd ·) = t, hd : cs.dropWhile (!isNameEnd ·) = d at hsplit
  subst hsplit
  cases d with
  | nil => simp [hsize]
  | cons x d =>
    cases t with
    | nil =>
      have hx : isNameEnd x = true := by
        have := List.head?_dropWhile_not (!isNameEnd ·) (x :: d)
        simp_all
      simp [Text.utf8Size_eq_one (lt_of_isNameEnd hx)]
    | cons y t =>
      have hy := y.utf8Size_pos
      have hmax : max (y.utf8Size + size t) 1 = y.utf8Size + size t := by omega
      simp [hmax]

lemma exists_tagName (cs : Text) : ∃ n, tagName (c :: cs) = ((cs.take n).dropWhile (· == '/'), n + 1) :=
  ⟨_, rfl⟩

lemma tag_eq (h : p.IsAt u) (hr : p.rest = c :: cs) (hc : c.toNat < 128) :
    tag u p.offset = some ((p.move (Astro.tag p).1).offset, (Astro.tag p).2) := by
  have hcs : Text.From u (p.offset + 1) cs :=
    Text.utf8Size_eq_one hc ▸ Text.From.drop_cons (hr ▸ h.from)
  obtain ⟨n, hn⟩ := exists_tagName (c := c) cs
  have hstop := tagName_stop h hr hc
  have hname := (h.move 1).slice n
  rw [Place.move_move, Nat.add_comm 1 n] at hname
  have hone : (p.move 1).offset = p.offset + 1 := by simp [hr, Text.utf8Size_eq_one hc]
  have hrest : (p.move 1).rest = cs := by simp [hr]
  have hq := h.move (n + 1)
  have hsteps : size (p.move (n + 1)).rest < size u + 1 := by
    have := hq.from.add_size
    omega
  rw [hone, hrest] at hname
  simp only [hr, hn] at hstop
  simp only [tag, dropChecked_eq hcs, Option.bind_eq_bind, Option.bind_some, ← hstop, hname]
  rw [attributes_eq _ hq hsteps, Place.move_move, Astro.tag, hr, hn]
  rfl

lemma content_eq (h : p.IsAt u) (n : ℕ) {stop : ℕ} (hs : p.offset + size (p.rest.take n) = stop)
    (isCode : Bool) (s : Scan) : Text.slice? u p.offset stop = some (p.rest.take n) ∧
      (s ++ if isCode && !(p.rest.take n).all isBlank then
        ⟨[⟨⟨p.offset, stop⟩, script, false⟩], []⟩ else Scan.empty) =
          if isCode then s ++ region script p n else s := by
  subst hs
  refine ⟨by simpa using h.slice n, ?_⟩
  rw [region]
  cases isCode <;> cases (p.rest.take n).all isBlank <;> simp

lemma rawElement_eq (h : p.IsAt u) (hr : p.rest = c :: cs) (hc : c.toNat < 128) {name : Text}
    (hn : ∀ c ∈ name, c.toNat < 128) (isCode : Bool) : rawElement u name isCode p.offset =
      some ((p.move (Astro.rawElement name isCode p).1).offset,
        (Astro.rawElement name isCode p).2) := by
  rw [rawElement, tag_eq h hr hc, Astro.rawElement]
  obtain ⟨n, s⟩ := Astro.tag p
  have hq := h.move n
  have hclosing : ∀ c ∈ '<' :: '/' :: name, c.toNat < 128 := by
    simpa using hn
  simp only [Option.bind_eq_bind, Option.bind_some, hq.slice_before, List.reverse_reverse,
    textFrom?_eq hq.from, findFrom_bytes hclosing]
  by_cases hclosed : (p.move n).before.take 2 = ['>', '/']
  · rw [if_pos hclosed, if_pos hclosed]
    rfl
  · rw [if_neg hclosed, if_neg hclosed]
    have hmove (k : ℕ) : p.move (n + k) = (p.move n).move k := (Place.move_move n k p).symm
    cases hf : findNoCase ('<' :: '/' :: name) (p.move n).rest with
    | none =>
      have hend := offset_move_length hq
      simp only [hmove]
      generalize p.move n = q at hq hend
      obtain ⟨hslice, hcode⟩ := content_eq hq q.rest.length (by simpa using hend) isCode s
      simp only [Option.map_none, hslice, Option.bind_some, lt_irrefl, if_false, hcode, hend]
      rfl
    | some k =>
      simp only [Nat.add_assoc, hmove]
      generalize p.move n = q at hq hf
      obtain ⟨hslice, hcode⟩ := content_eq hq k rfl isCode s
      have hk := hq.move k
      have hlt : q.offset + size (q.rest.take k) < size u := by
        have hpos := List.drop_eq_getElem_cons (findNoCase_lt hf)
        simpa using lt_size hk (by rw [Place.rest_move]; exact hpos)
      have hskip := skipPast_eq hk.from ['>']
      rw [Place.offset_move, Place.rest_move] at hskip
      simp only [Option.map_some, hslice, Option.bind_some, hlt, if_true, hcode, hskip,
        ← Place.move_move, Place.offset_move, Place.rest_move]
      rfl

lemma isAsciiLetter_eq {d : Char} {b : UInt8} (h : Text.IsFirstByte d b) :
    isAsciiLetter b = Unicode.isAsciiLetter d := by
  rcases lt_or_ge d.toNat 128 with hd | hd
  · rw [(h.eq_iff d hd).mpr rfl]
    exact Text.forall_of_between (P := fun d => isAsciiLetter (byte d) = Unicode.isAsciiLetter d) d
      (Nat.zero_le _) hd (by decide)
  · have hb := h.le hd
    have hz : ¬ b ≤ byte 'z' ∧ ¬ b ≤ byte 'Z' := by
      rw [UInt8.le_iff_toNat_le, UInt8.le_iff_toNat_le, Text.toNat_byte (by decide),
        Text.toNat_byte (by decide)]
      exact ⟨by simp; omega, by simp; omega⟩
    have hz' : ¬ d ≤ 'z' ∧ ¬ d ≤ 'Z' := by
      rw [Char.le_def, Char.le_def, UInt32.le_iff_toNat_le, UInt32.le_iff_toNat_le]
      exact ⟨by simp; omega, by simp; omega⟩
    simp [isAsciiLetter, Unicode.isAsciiLetter, hz, hz']

lemma atTagStart_eq (h : Text.From u (pos + 1) cs) : atTagStart u pos =
    cs.head?.any fun d => Unicode.isAsciiLetter d || d == '/' := by
  cases cs with
  | nil =>
    have := h.add_size
    have hnone : (bytes u)[pos + 1]? = none := List.getElem?_eq_none_iff.mpr (by simp at *; omega)
    simp [atTagStart, hnone]
  | cons d cs =>
    obtain ⟨b, hb, hbyte⟩ := exists_byte h
    simp [atTagStart, hb, isAsciiLetter_eq hbyte, hbyte.beq_eq '/' (by decide)]

lemma item_eq (h : p.IsAt u) (hr : p.rest = c :: cs) (hc : c.toNat < 128) :
    item u p.offset = some ((p.move (Astro.item p).1).offset, (Astro.item p).2) := by
  have hfrom : Text.From u p.offset (c :: cs) := hr ▸ h.from
  have hcs : Text.From u (p.offset + 1) cs := Text.utf8Size_eq_one hc ▸ hfrom.drop_cons
  obtain ⟨b, hb, hbyte⟩ := exists_byte hfrom
  have hscript : ∀ c ∈ "script".toList, c.toNat < 128 := by simp
  have hstyle : ∀ c ∈ "style".toList, c.toNat < 128 := by simp
  have hskip := skipPast_eq h.from "-->".toList
  rw [item, at?_eq h.from (by simp), atTag?_eq hfrom hscript, atTag?_eq hfrom hstyle, hskip,
    rawElement_eq h hr hc hscript, rawElement_eq h hr hc hstyle, tag_eq h hr hc, hb, atTagStart_eq hcs,
    ← hr]
  simp only [Option.bind_eq_bind, Option.bind_some, hbyte.eq_iff '<' (by decide), hbyte.eq_iff '{' (by decide)]
  rw [Astro.item, hr]
  simp only [Bool.and_eq_true, beq_iff_eq]
  split_ifs with hcomment hscript hstyle htag hbrace
  · rw [Place.offset_move, hr]
    rfl
  · rfl
  · rfl
  · rfl
  · subst hbrace
    rw [textExpression_eq h hr, hr]
    cases hn : Brace.size? Brace.Sign.ofChar ('{' :: cs) with
    | none => simpa [hr] using (offset_move_length h).symm
    | some n => rfl
  · simp [hr, Text.utf8Size_eq_one hc]

lemma item_of_le (hr : p.rest = c :: cs) (hc : 128 ≤ c.toNat) : Astro.item p = (1, .empty) := by
  have hne (d : Char) (hd : d.toNat < 128) : c ≠ d := fun h => absurd hc (h ▸ hd).not_ge
  rw [item_of_ne hr (hne '<' (by decide)), if_neg (hne '{' (by decide))]

lemma markup_eq {steps : ℕ} (h : p.IsAt u) (hsteps : size p.rest < steps) :
    markup u steps p.offset = some p.markup := by
  induction steps using Nat.strong_induction_on generalizing p with
  | _ steps ih =>
    cases hr : p.rest with
    | nil =>
      have hs := h.from.add_size
      rw [hr, Text.size_nil, Nat.add_zero] at hs
      obtain ⟨steps, rfl⟩ : ∃ k, steps = k + 1 := ⟨steps - 1, by omega⟩
      simp [markup, markup_nil hr, hs]
    | cons c cs =>
      have hne : p.rest ≠ [] := by simp [hr]
      have hrest := size_rest_move hr (fst_item_pos hne)
      rw [markup_cons hne]
      rcases lt_or_ge c.toNat 128 with hc | hc
      · obtain ⟨steps, rfl⟩ : ∃ k, steps = k + 1 := ⟨steps - 1, by omega⟩
        rw [markup, if_pos (lt_size h hr), item_eq h hr hc]
        simp only [Option.bind_eq_bind, Option.bind_some]
        rw [ih steps (by omega) (h.move _) (by omega)]
        rfl
      · have hsize := c.utf8Size_pos
        rw [item_of_le hr hc] at hrest ⊢
        rw [hr, Text.size_cons] at hsteps
        obtain ⟨rest, rfl⟩ : ∃ rest, steps = rest + c.utf8Size := ⟨steps - c.utf8Size, by omega⟩
        have hnext : p.offset + c.utf8Size = (p.move 1).offset := by simp [hr]
        rw [markup_insides rest fun i hi => inside_of_le (hr ▸ h.from) hc hi, hnext,
          ih rest (by omega) (h.move 1) (by simp [hr]; omega)]
        rfl

lemma fence_eq (start : ℕ) {steps : ℕ} (h : Text.From u pos v) (hsteps : v.length < steps) :
    fence u start steps pos = some (match splitFence v with
      | some (body, _) => (pos + size body + 3, ⟨[⟨⟨start, pos + size body⟩, script, true⟩], []⟩)
      | none => (0, .empty)) := by
  induction steps generalizing pos v with
  | zero => cases hsteps
  | succ steps ih =>
    rw [fence, textFrom?_eq h, splitFence_eq]
    simp only [Option.bind_eq_bind, Option.bind_some, find?_eq]
    cases hcut : Text.cut? fenceWord v with
    | none => rfl
    | some x =>
      obtain ⟨before, t⟩ := x
      obtain ⟨rest, rfl⟩ := Text.exists_append_of_cut? hcut
      obtain rfl := Text.eq_append_of_cut? hcut
      have hdrop : (fenceWord ++ rest).drop 4 = rest := rfl
      have hfence : size fenceWord = 4 := rfl
      have hrest : Text.From u (pos + size before + 1 + 3) rest := by
        have hfrom := h.drop.drop
        rwa [hfence, Nat.add_assoc _ 1 3] at hfrom
      simp only [Option.map_some, hdrop, textFrom?_eq hrest, Option.bind_some]
      split
      · simp [show '\n'.utf8Size = 1 from rfl, Nat.add_assoc]
      · have hlen : rest.length < steps := by
          simp [fenceWord] at hsteps
          omega
        rw [ih hrest hlen]
        cases splitFence rest with
        | none => rfl
        | some x => simp [hfence, Nat.add_assoc]

lemma frontmatter_eq (u : Text) : frontmatter u = some ((start u).offset, fenced u) := by
  have hsplit : u.takeWhile isBlank ++ u.dropWhile isBlank = u := List.takeWhile_append_dropWhile
  have hsize := congrArg size hsplit
  rw [Text.size_append] at hsize
  have hleading : sub? (size u) (size (u.dropWhile isBlank)) = some (size (u.takeWhile isBlank)) := by
    rw [sub?, if_pos (by omega)]
    congr 1
    omega
  have hfrom : Text.From u (size (u.takeWhile isBlank)) (u.dropWhile isBlank) :=
    ⟨_, hsplit.symm, rfl⟩
  rw [frontmatter, hleading, start, fenced, Astro.frontmatter, List.span_eq_takeWhile_dropWhile]
  simp only [Option.bind_eq_bind, Option.bind_some, textFrom?_eq hfrom]
  cases hd : Text.dropFront? "---".toList (u.dropWhile isBlank) with
  | none => rfl
  | some rest =>
    have hrest : Text.From u (size (u.takeWhile isBlank) + 3) rest :=
      Text.From.drop (v := "---".toList) (Text.eq_append_of_dropFront? hd ▸ hfrom)
    have hlen : rest.length < size u + 1 := by
      have := hrest.add_size
      have := Text.length_le_size rest
      omega
    rw [fence_eq _ hrest hlen]
    cases hf : splitFence rest <;> simp [hf]

theorem scan_eq (u : Text) : scan u = some (Astro.scan u) := by
  have hstart := isAt_start u
  have hsteps : size (start u).rest < size u + 1 := by
    have := hstart.from.add_size
    omega
  rw [scan, frontmatter_eq, scan_eq_append]
  simp only [Option.bind_eq_bind, Option.bind_some, markup_eq hstart hsteps]
  rfl

end MetaInline.Astro.Checked
