import Mathlib
import MetaInline.Proofs.Document.BraceIndex
import MetaInline.Proofs.Document.Markup

/-! Documents read by byte positions. Positions may stand inside a character, where no text begins.
Every range of text, every index and every difference is checked before it is used, and each loop has
only as many steps as the document has bytes, and one. -/

namespace MetaInline.Astro.Checked

open Text (size bytes byte)
open Unicode (isBlank)

def sub? (m n : ℕ) : Option ℕ :=
  if n ≤ m then some (m - n) else none

def textFrom? (u : Text) (i : ℕ) : Option Text :=
  Text.slice? u i (size u)

def find? (word : Text) (i : ℕ) (u : Text) : Option ℕ :=
  (Text.cut? word u).map fun (before, _) => i + size before

def fence (u : Text) (start : ℕ) : (steps pos : ℕ) → Option (ℕ × Scan)
  | 0, _ => none
  | steps + 1, pos => do
    let rest ← textFrom? u pos
    match find? fenceWord pos rest with
    | none => return (0, .empty)
    | some found =>
      let line ← textFrom? u (found + 1 + 3)
      if (line.takeWhile (· ≠ '\n')).all isBlank then
        return (found + 1 + 3, ⟨[⟨⟨start, found + 1⟩, script, true⟩], []⟩)
      else fence u start steps (found + 1 + 3)

def frontmatter (u : Text) : Option (ℕ × Scan) := do
  let leading ← sub? (size u) (size (u.dropWhile isBlank))
  let rest ← textFrom? u leading
  if (Text.dropFront? "---".toList rest).isSome then
    fence u (leading + 3) (size u + 1) (leading + 3)
  else return (0, .empty)

def at? (u : Text) (word : Text) (pos : ℕ) : Option Bool := do
  let rest ← dropChecked (bytes u) pos
  return rest.take word.length == word.map byte

def lower (b : UInt8) : UInt8 :=
  if byte 'A' ≤ b ∧ b ≤ byte 'Z' then b + 0x20 else b

def beginsNoCase (word : Text) (bs : List UInt8) : Bool :=
  (bs.take word.length).map lower == (word.map byte).map lower

def atTag? (u name : Text) (pos : ℕ) : Option Bool := do
  let c ← (bytes u)[pos]?
  let next := pos + 1 + name.length
  if c = byte '<' ∧ next < size u then
    let rest ← dropChecked (bytes u) (pos + 1)
    if beginsNoCase name rest then
      let d ← (bytes u)[next]?
      return d == byte '>' || d == byte '/' || d == byte ' ' || d == byte '\t' || d == byte '\n' ||
        d == byte '\r'
    else return false
  else return false

def isAsciiLetter (b : UInt8) : Bool :=
  (byte 'a' ≤ b && b ≤ byte 'z') || (byte 'A' ≤ b && b ≤ byte 'Z')

def atTagStart (u : Text) (pos : ℕ) : Bool :=
  (bytes u)[pos + 1]?.any fun b => isAsciiLetter b || b == byte '/'

def skipPast (u word : Text) (pos : ℕ) : Option ℕ := do
  let rest ← textFrom? u pos
  match find? word pos rest with
  | some found => return found + size word
  | none => return size u

def expression (u : Text) (start stop : ℕ) : Option Scan := do
  let last ← sub? stop 1
  let inner ← Text.slice? u (start + 1) last
  if inner.all isBlank then return .empty
  else return ⟨[⟨⟨start + 1, last⟩, Astro.expression, false⟩], []⟩

def braceStop (u : Text) (pos : ℕ) : Option (Option ℕ) :=
  Brace.closing? (Brace.byteSigns u) (size u + 1) pos 0 none []

def textExpression (u : Text) (pos : ℕ) : Option (ℕ × Scan) := do
  match ← braceStop u pos with
  | some stop => return (stop, ← expression u pos stop)
  | none => return (size u, .empty)

def attributeExpression (u tag : Text) (pos : ℕ) : Option (ℕ × Scan) := do
  match ← braceStop u pos with
  | none => return (size u, .empty)
  | some stop =>
    let before ← Text.slice? u 0 pos
    if (before.reverse.dropWhile isBlank).head? = some '=' then
      return (stop, ← expression u pos stop)
    else
      let last ← sub? stop 1
      let inner ← Text.slice? u (pos + 1) last
      if Analysis.mentionsImportMeta inner then
        let form := if (Text.dropFront? "...".toList (inner.dropWhile isBlank)).isSome
          then .spread else .shorthand
        let problem := .attributeForm (String.ofList tag) form (String.ofList (trim inner))
        return (stop, ⟨[], [Problem.report problem ⟨pos, stop⟩]⟩)
      else return (stop, .empty)

def attributes (u tag : Text) : (steps pos : ℕ) → Option (ℕ × Scan)
  | 0, _ => none
  | steps + 1, pos =>
    if pos < size u then do
      let c ← (bytes u)[pos]?
      if c = byte '>' then return (pos + 1, .empty)
      else if c = byte '"' ∨ c = byte '\'' ∨ c = 0x60 then
        let rest ← textFrom? u (pos + 1)
        match find? [Char.ofNat c.toNat] (pos + 1) rest with
        | some found => attributes u tag steps (found + 1)
        | none => attributes u tag steps (size u)
      else if c = byte '{' then
        let (stop, found) ← attributeExpression u tag pos
        let (stop, more) ← attributes u tag steps stop
        return (stop, found ++ more)
      else attributes u tag steps (pos + 1)
    else return (pos, .empty)

def endsName (b : UInt8) : Bool :=
  b == byte ' ' || b == byte '\t' || b == byte '\n' || b == byte '\r' || b == byte '\x0c' ||
    b == byte '>' || b == byte '/' || b == byte '{'

def nameStop (u : Text) (pos : ℕ) (rest : List UInt8) : ℕ :=
  match rest.findIdx? endsName with
  | some n => pos + max n 1
  | none => size u

def tag (u : Text) (pos : ℕ) : Option (ℕ × Scan) := do
  let rest ← dropChecked (bytes u) (pos + 1)
  let stop := nameStop u (pos + 1) rest
  let name ← Text.slice? u (pos + 1) stop
  attributes u (name.dropWhile (· == '/')) (size u + 1) stop

def rawElement (u name : Text) (isCode : Bool) (pos : ℕ) : Option (ℕ × Scan) := do
  let (start, found) ← tag u pos
  let before ← Text.slice? u 0 start
  if before.reverse.take 2 = ['>', '/'] then return (start, found)
  else
    let rest ← textFrom? u start
    let stop := match findFrom (beginsNoCase ('<' :: '/' :: name)) (bytes rest) with
      | some n => start + n
      | none => size u
    let body ← Text.slice? u start stop
    let code : Scan := if isCode && !body.all isBlank then ⟨[⟨⟨start, stop⟩, script, false⟩], []⟩
      else .empty
    if stop < size u then return (← skipPast u ['>'] stop, found ++ code)
    else return (stop, found ++ code)

def item (u : Text) (pos : ℕ) : Option (ℕ × Scan) := do
  if ← at? u "<!--".toList pos then return (← skipPast u "-->".toList pos, .empty)
  else if ← atTag? u "script".toList pos then rawElement u "script".toList true pos
  else if ← atTag? u "style".toList pos then rawElement u "style".toList false pos
  else
    let c ← (bytes u)[pos]?
    if c = byte '<' ∧ atTagStart u pos then tag u pos
    else if c = byte '{' then textExpression u pos
    else return (pos + 1, .empty)

def markup (u : Text) : (steps pos : ℕ) → Option Scan
  | 0, _ => none
  | steps + 1, pos =>
    if pos < size u then do
      let (next, found) ← item u pos
      let more ← markup u steps next
      return found ++ more
    else return .empty

def scan (u : Text) : Option Scan := do
  let (pos, found) ← frontmatter u
  let more ← markup u (size u + 1) pos
  return found ++ more

variable {u v : Text} {p : Place} {c : Char} {cs : Text} {pos : ℕ}

def Inside (u : Text) (pos : ℕ) : Prop :=
  ∃ b, (bytes u)[pos]? = some b ∧ 128 ≤ b.toNat

lemma textFrom?_eq (h : Text.From u pos v) : textFrom? u pos = some v := by
  have hs := h.add_size
  exact Text.slice?_eq_some_iff.mpr ⟨by omega, [], by simpa using h, hs⟩

lemma dropChecked_eq (h : Text.From u pos v) : dropChecked (bytes u) pos = some (bytes v) := by
  have hs := h.add_size
  rw [dropChecked, if_pos (by simp; omega), h.drop_bytes]

lemma getElem?_add (h : Text.From u pos v) (i : ℕ) : (bytes u)[pos + i]? = (bytes v)[i]? := by
  rw [← h.drop_bytes, List.getElem?_drop]

lemma exists_byte (h : Text.From u pos (c :: cs)) :
    ∃ b, (bytes u)[pos]? = some b ∧ Text.IsFirstByte c b := by
  obtain ⟨b, bs, hb, hfirst, -⟩ := Text.exists_bytes_eq_cons c cs
  exact ⟨b, by simpa [hb] using getElem?_add h 0, hfirst⟩

lemma inside_of_lt (h : Text.From u pos (c :: cs)) {i : ℕ} (hpos : 0 < i) (hi : i < c.utf8Size) :
    Inside u (pos + i) := by
  obtain ⟨b, bs, hb, -, hlen, hle⟩ := Text.exists_bytes_eq_cons c cs
  obtain ⟨j, rfl⟩ : ∃ j, i = j + 1 := ⟨i - 1, by omega⟩
  have hj : j < bs.length := by omega
  refine ⟨bs[j], ?_, hle _ (by simp)⟩
  rw [getElem?_add h]
  simp [hb, List.getElem?_append_left hj]

lemma inside_of_le (h : Text.From u pos (c :: cs)) (hc : 128 ≤ c.toNat) {i : ℕ} (hi : i < c.utf8Size) :
    Inside u (pos + i) := by
  rcases i.eq_zero_or_pos with rfl | hpos
  · obtain ⟨b, hb, hfirst⟩ := exists_byte h
    exact ⟨b, hb, hfirst.le hc⟩
  · exact inside_of_lt h hpos hi

lemma Inside.lt (h : Inside u pos) : pos < size u := by
  obtain ⟨b, hb, -⟩ := h
  simpa using (List.getElem?_eq_some_iff.mp hb).1

lemma Inside.ne {b : UInt8} (hle : 128 ≤ b.toNat) {d : Char} (hd : d.toNat < 128) : b ≠ byte d := by
  rintro rfl
  rw [Text.toNat_byte hd] at hle
  omega

lemma at?_inside (h : Inside u pos) {w : Char} {word : Text} (hw : w.toNat < 128) :
    at? u (w :: word) pos = some false := by
  obtain ⟨b, hb, hle⟩ := h
  obtain ⟨hlt, hb⟩ := List.getElem?_eq_some_iff.mp hb
  have hdrop : dropChecked (bytes u) pos = some (b :: (bytes u).drop (pos + 1)) := by
    rw [dropChecked, if_pos hlt.le, List.drop_eq_getElem_cons hlt, hb]
  simp [at?, hdrop, Inside.ne hle hw]

lemma atTag?_inside (h : Inside u pos) (name : Text) : atTag? u name pos = some false := by
  obtain ⟨b, hb, hle⟩ := h
  simp [atTag?, hb, Inside.ne hle (d := '<') (by decide)]

lemma item_inside (h : Inside u pos) : item u pos = some (pos + 1, .empty) := by
  have hat : at? u "<!--".toList pos = some false := at?_inside h (by decide)
  rw [item, hat, atTag?_inside h, atTag?_inside h]
  obtain ⟨b, hb, hle⟩ := h
  have hlt : b ≠ byte '<' := Inside.ne hle (by decide)
  have hbrace : b ≠ byte '{' := Inside.ne hle (by decide)
  simp [hb, hlt, hbrace]

lemma markup_inside (h : Inside u pos) (steps : ℕ) :
    markup u (steps + 1) pos = markup u steps (pos + 1) := by
  rw [markup, if_pos h.lt, item_inside h]
  cases hm : markup u steps (pos + 1) <;> simp [hm]

lemma attributes_inside (h : Inside u pos) (tag : Text) (steps : ℕ) :
    attributes u tag (steps + 1) pos = attributes u tag steps (pos + 1) := by
  obtain ⟨b, hb, hle⟩ := id h
  have hne (d : Char) (hd : d.toNat < 128) : b ≠ byte d := Inside.ne hle hd
  have hback : b ≠ 0x60 := hne '\x60' (by decide)
  rw [attributes, if_pos h.lt]
  simp [hb, hne '>' (by decide), hne '"' (by decide), hne '\'' (by decide), hne '{' (by decide), hback]

lemma at?_eq (h : Text.From u pos v) {word : Text} (hw : ∀ c ∈ word, c.toNat < 128) :
    at? u word pos = some (Text.dropFront? word v).isSome := by
  simp [at?, dropChecked_eq h, Text.take_bytes_eq hw]

lemma lower_byte (hc : c.toNat < 128) : lower (byte c) = byte c.toLower ∧ c.toLower.toNat < 128 :=
  Text.forall_of_between c (Nat.zero_le _) hc (by decide)

lemma le_lower {b : UInt8} (hb : 128 ≤ b.toNat) : 128 ≤ (lower b).toNat := by
  unfold lower
  split
  · next h =>
    have := UInt8.le_iff_toNat_le.mp h.2
    rw [Text.toNat_byte (by decide)] at this
    simp at this
    omega
  · exact hb

lemma beginsNoCase_cons (w : Char) (word : Text) (b : UInt8) (bs : List UInt8) :
    beginsNoCase (w :: word) (b :: bs) = (lower b == lower (byte w) && beginsNoCase word bs) := by
  simp [beginsNoCase]

lemma beginsNoCase_eq {word : Text} (hw : ∀ c ∈ word, c.toNat < 128) (v : Text) :
    beginsNoCase word (bytes v) = (dropFrontNoCase? word v).isSome := by
  induction word generalizing v with
  | nil => simp [beginsNoCase, dropFrontNoCase?]
  | cons w word ih =>
    cases v with
    | nil => simp [beginsNoCase, dropFrontNoCase?]
    | cons c v =>
      have hw' := hw w (by simp)
      have ih := ih (fun c hc => hw c (by simp [hc])) v
      obtain ⟨hlw, hlt⟩ := lower_byte hw'
      rw [dropFrontNoCase?]
      rcases lt_or_ge c.toNat 128 with hc | hc
      · obtain ⟨hlc, hlt'⟩ := lower_byte hc
        have hiff : lower (byte c) = lower (byte w) ↔ w.toLower = c.toLower := by
          rw [hlc, hlw, Text.byte_inj hlt' hlt, eq_comm]
        rw [Text.bytes_cons, Text.utf8EncodeChar_of_lt hc, List.singleton_append, beginsNoCase_cons, ih]
        by_cases hcw : w.toLower = c.toLower
        · rw [if_pos hcw, beq_iff_eq.mpr (hiff.mpr hcw), Bool.true_and]
        · rw [if_neg hcw, beq_false_of_ne (mt hiff.mp hcw), Bool.false_and]
          rfl
      · obtain ⟨b, bs, hb, hfirst, -⟩ := Text.exists_bytes_eq_cons c v
        have hne : lower b ≠ lower (byte w) := hlw ▸ Inside.ne (le_lower (hfirst.le hc)) hlt
        have hcw : w.toLower ≠ c.toLower := by
          rw [toLower_of_le hc]
          rintro rfl
          omega
        rw [hb, beginsNoCase_cons, beq_false_of_ne hne, if_neg hcw]
        rfl

lemma exists_append_of_dropFrontNoCase? {word v r : Text} (hw : ∀ c ∈ word, c.toNat < 128)
    (h : dropFrontNoCase? word v = some r) : ∃ w, v = w ++ r ∧ size w = word.length := by
  obtain ⟨w, rfl, hmap⟩ := dropFrontNoCase?_eq_some_iff.mp h
  refine ⟨w, rfl, ?_⟩
  clear h
  induction w generalizing word with
  | nil => simp_all
  | cons c w ih =>
    cases word with
    | nil => cases hmap
    | cons x word =>
      obtain ⟨hcx, hmap⟩ := List.cons_eq_cons.mp hmap
      have hc : c.toNat < 128 := by
        by_contra hge
        rw [toLower_of_le (not_lt.mp hge)] at hcx
        exact hge (hcx ▸ (lower_byte (hw x (by simp))).2)
      rw [Text.size_cons, Text.utf8Size_eq_one hc, ih (fun c hc => hw c (by simp [hc])) hmap,
        List.length_cons, Nat.add_comm]

lemma findFrom_append {α : Type} {q : List α → Bool} {xs ys : List α}
    (h : ∀ i < xs.length, q (xs.drop i ++ ys) = false) :
    findFrom q (xs ++ ys) = (findFrom q ys).map (· + xs.length) := by
  induction xs with
  | nil => simp
  | cons x xs ih =>
    have hx : q (x :: (xs ++ ys)) = false := h 0 (by simp)
    have ih := ih fun i hi => by simpa using h (i + 1) (by simpa using hi)
    rw [List.cons_append, findFrom_of_neg hx, ih, Option.map_map]
    congr 1

lemma findFrom_bytes {w : Char} {word : Text} (hw : ∀ c ∈ w :: word, c.toNat < 128) (v : Text) :
    findFrom (beginsNoCase (w :: word)) (bytes v) =
      (findNoCase (w :: word) v).map fun n => size (v.take n) := by
  induction v with
  | nil => rfl
  | cons c v ih =>
    rw [findNoCase, ← beginsNoCase_eq hw]
    obtain ⟨b, bs, hbytes, -, hlen, hle⟩ := Text.exists_bytes_eq_cons c v
    cases hq : beginsNoCase (w :: word) (bytes (c :: v)) with
    | true => rw [hbytes, findFrom_of_pos (hbytes ▸ hq), if_pos rfl]; rfl
    | false =>
      have hinside : ∀ i < bs.length, beginsNoCase (w :: word) (bs.drop i ++ bytes v) = false := by
        intro i hi
        obtain ⟨hlw, hlt⟩ := lower_byte (hw w (by simp))
        have hne : lower bs[i] ≠ lower (byte w) :=
          hlw ▸ Inside.ne (le_lower (hle _ (by simp))) hlt
        rw [List.drop_eq_getElem_cons hi, List.cons_append, beginsNoCase_cons, beq_false_of_ne hne]
        rfl
      rw [hbytes, findFrom_of_neg (hbytes ▸ hq), findFrom_append hinside, ih]
      cases findNoCase (w :: word) v with
      | none => rfl
      | some n => simp; omega

end MetaInline.Astro.Checked
