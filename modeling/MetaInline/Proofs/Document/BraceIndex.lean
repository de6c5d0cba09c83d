import Mathlib
import MetaInline.Proofs.Document.Brace
import MetaInline.Proofs.Text.Bytes

namespace MetaInline

def findFrom {α : Type} (p : List α → Bool) : List α → Option ℕ
  | [] => none
  | x :: xs => if p (x :: xs) then some 0 else (findFrom p xs).map (· + 1)

lemma findFrom_of_pos {α : Type} {p : List α → Bool} {x : α} {xs : List α} (h : p (x :: xs) = true) :
    findFrom p (x :: xs) = some 0 := by
  rw [findFrom, if_pos h]

lemma findFrom_of_neg {α : Type} {p : List α → Bool} {x : α} {xs : List α} (h : p (x :: xs) = false) :
    findFrom p (x :: xs) = (findFrom p xs).map (· + 1) := by
  rw [findFrom, h, if_neg Bool.false_ne_true]

def dropChecked {α : Type} (xs : List α) (i : ℕ) : Option (List α) :=
  if i ≤ xs.length then some (xs.drop i) else none

namespace Brace

def closesComment (xs : List Sign) : Bool :=
  xs.take 2 == [.star, .slash]

def beginsLine (xs : List Sign) : Bool :=
  xs.head? == some .newline

def blockStop? (xs : List Sign) (i : ℕ) : Option ℕ := do
  let rest ← dropChecked xs (i + 2)
  match findFrom closesComment rest with
  | some n => return i + 2 + n + 2
  | none => return xs.length

def lineStop? (xs : List Sign) (i : ℕ) : Option ℕ := do
  let rest ← dropChecked xs i
  match findFrom beginsLine rest with
  | some n => return i + n
  | none => return xs.length

def closing? (xs : List Sign) : (steps i depth : ℕ) → (quote : Option Bool) → (templates : List ℕ) →
    Option (Option ℕ)
  | 0, _, _, _, _ => none
  | steps + 1, i, depth, quote, templates =>
    match xs[i]? with
    | none => some none
    | some x =>
      if x = .backslash then closing? xs steps (i + 2) depth quote templates
      else
        match quote with
        | some q => closing? xs steps (i + 1) depth (if x = .quote q then none else some q) templates
        | none =>
          if templates.head? = some depth then
            if x = .backtick then closing? xs steps (i + 1) depth none templates.tail
            else if x = .dollar ∧ xs[i + 1]? = some .lbrace then
              closing? xs steps (i + 2) (depth + 1) none templates
            else closing? xs steps (i + 1) depth none templates
          else if x = .slash ∧ xs[i + 1]? = some .star then do
            closing? xs steps (← blockStop? xs i) depth none templates
          else if x = .slash ∧ xs[i + 1]? = some .slash then do
            closing? xs steps (← lineStop? xs i) depth none templates
          else
            match x, depth with
            | .quote q, depth => closing? xs steps (i + 1) depth (some q) templates
            | .backtick, depth => closing? xs steps (i + 1) depth none (depth :: templates)
            | .lbrace, depth => closing? xs steps (i + 1) (depth + 1) none templates
            | .rbrace, 0 => some none
            | .rbrace, 1 => some (some (i + 1))
            | .rbrace, depth + 2 => closing? xs steps (i + 1) (depth + 1) none templates
            | _, depth => closing? xs steps (i + 1) depth none templates

def State.of (quote : Option Bool) (depth : ℕ) (templates : List ℕ) : State :=
  ⟨match quote with
    | some q => .string q
    | none => .code, depth, templates⟩

variable {xs : List Sign} {depth n i : ℕ} {templates : List ℕ}

lemma scan_blockComment : scan ⟨.blockComment, depth, templates⟩ n xs =
    match findFrom closesComment xs with
    | some k => scan ⟨.code, depth, templates⟩ (n + k + 2) (xs.drop (k + 2))
    | none => none := by
  induction xs generalizing n with
  | nil => rfl
  | cons x xs ih =>
    rw [scan_cons]
    by_cases hx : x = .star ∧ xs.head? = some .slash
    · have hw : closesComment (x :: xs) = true := by
        obtain ⟨rfl, hs⟩ := hx
        cases xs <;> simp_all [closesComment]
      rw [findFrom_of_pos hw]
      simp [move, resume, hx]
    · have hw : closesComment (x :: xs) = false := by
        cases xs <;> simp_all [closesComment]
      simp only [findFrom_of_neg hw, move, hx, if_false, resume, ih]
      cases findFrom closesComment xs with
      | none => rfl
      | some k => simp [Nat.add_assoc, Nat.add_comm 1]

lemma scan_lineComment : scan ⟨.lineComment, depth, templates⟩ n xs =
    match findFrom beginsLine xs with
    | some k => scan ⟨.code, depth, templates⟩ (n + k) (xs.drop k)
    | none => none := by
  induction xs generalizing n with
  | nil => rfl
  | cons x xs ih =>
    rw [scan_cons]
    by_cases hx : x = .newline
    · have hw : beginsLine (x :: xs) = true := by simp [beginsLine, hx]
      rw [findFrom_of_pos hw]
      simp [scan_cons, move, resume, hx]
    · have hw : beginsLine (x :: xs) = false := by simpa [beginsLine] using hx
      simp only [findFrom_of_neg hw, move, hx, if_false, resume, ih]
      cases findFrom beginsLine xs with
      | none => rfl
      | some k => simp [Nat.add_assoc, Nat.add_comm 1]

lemma exists_blockStop? (depth : ℕ) (templates : List ℕ) (h : xs[i + 1]? = some .star) :
    ∃ j, blockStop? xs i = some j ∧ i < j ∧
      scan ⟨.blockComment, depth, templates⟩ (i + 2) (xs.drop (i + 2)) =
        scan ⟨.code, depth, templates⟩ j (xs.drop j) := by
  obtain ⟨hi, -⟩ := List.getElem?_eq_some_iff.mp h
  have hdrop : dropChecked xs (i + 2) = some (xs.drop (i + 2)) := if_pos (by omega)
  rw [scan_blockComment]
  cases hf : findFrom closesComment (xs.drop (i + 2)) with
  | none =>
    refine ⟨xs.length, by simp [blockStop?, hdrop, hf], by omega, ?_⟩
    simp
  | some n =>
    refine ⟨i + 2 + n + 2, by simp [blockStop?, hdrop, hf], by omega, ?_⟩
    simp [Nat.add_assoc]

lemma exists_lineStop? (depth : ℕ) (templates : List ℕ) (hi : xs[i]? = some .slash)
    (h : xs[i + 1]? = some .slash) :
    ∃ j, lineStop? xs i = some j ∧ i < j ∧
      scan ⟨.lineComment, depth, templates⟩ (i + 2) (xs.drop (i + 2)) =
        scan ⟨.code, depth, templates⟩ j (xs.drop j) := by
  obtain ⟨hlt, hx⟩ := List.getElem?_eq_some_iff.mp hi
  obtain ⟨hlt', hy⟩ := List.getElem?_eq_some_iff.mp h
  have hdrop : dropChecked xs i = some (xs.drop i) := if_pos (by omega)
  have hfind : findFrom beginsLine (xs.drop i) =
      ((findFrom beginsLine (xs.drop (i + 2))).map (· + 1)).map (· + 1) := by
    rw [List.drop_eq_getElem_cons hlt, List.drop_eq_getElem_cons hlt', hx, hy, findFrom_of_neg rfl,
      findFrom_of_neg rfl]
  rw [scan_lineComment]
  cases hf : findFrom beginsLine (xs.drop (i + 2)) with
  | none =>
    refine ⟨xs.length, by simp [lineStop?, hdrop, hfind, hf], by omega, ?_⟩
    simp
  | some n =>
    refine ⟨i + (n + 2), by simp [lineStop?, hdrop, hfind, hf], by omega, ?_⟩
    simp [Nat.add_assoc, Nat.add_comm n]

lemma move_backslash (quote : Option Bool) (depth : ℕ) (templates : List ℕ) (next : Option Sign) :
    move (.of quote depth templates) .backslash next =
      if next.isSome then .two (.of quote depth templates) else .fails := by
  cases quote <;> simp [move, State.of]

lemma move_template {x : Sign} {next : Option Sign} (h : templates.head? = some depth)
    (hx : x ≠ .backslash) : move (.of none depth templates) x next =
      if x = .dollar ∧ next = some .lbrace then .two (.of none (depth + 1) templates)
      else .one (.of none depth (if x = .backtick then templates.tail else templates)) := by
  simp only [move, State.of, State.inTemplate, hx, h, beq_self_eq_true, if_true, if_false]
  split_ifs <;> rfl

lemma move_slash {next : Option Sign} (h : templates.head? ≠ some depth) :
    move (.of none depth templates) .slash next =
      if next = some .star then .two ⟨.blockComment, depth, templates⟩
      else if next = some .slash then .two ⟨.lineComment, depth, templates⟩
      else .one (.of none depth templates) := by
  simp [move, State.of, State.inTemplate, h]

theorem closing?_eq {steps : ℕ} {quote : Option Bool} (h : xs.length - i < steps) :
    closing? xs steps i depth quote templates =
      some (scan (.of quote depth templates) i (xs.drop i)) := by
  induction steps generalizing i depth quote templates with
  | zero => cases h
  | succ steps ih =>
    rw [closing?]
    cases hx : xs[i]? with
    | none =>
      have hle : xs.length ≤ i := List.getElem?_eq_none_iff.mp hx
      simp [List.drop_eq_nil_of_le hle]
    | some x =>
      obtain ⟨hi, hxi⟩ := List.getElem?_eq_some_iff.mp hx
      have hone (d : ℕ) (q : Option Bool) (ts : List ℕ) : closing? xs steps (i + 1) d q ts =
          some (resume i (xs.drop (i + 1)) (.one (.of q d ts))) := ih (by omega)
      have htwo (d : ℕ) (q : Option Bool) (ts : List ℕ) : closing? xs steps (i + 2) d q ts =
          some (resume i (xs.drop (i + 1)) (.two (.of q d ts))) := by
        rw [resume, List.tail_drop]
        exact ih (by omega)
      simp only
      rw [List.drop_eq_getElem_cons hi, scan_cons, List.head?_drop, hxi]
      by_cases hb : x = .backslash
      · subst hb
        rw [if_pos rfl, htwo, move_backslash]
        cases hnext : xs[i + 1]? with
        | none => simp [resume, List.drop_eq_nil_of_le (List.getElem?_eq_none_iff.mp hnext)]
        | some y => rfl
      rw [if_neg hb]
      cases quote with
      | some q =>
        simp only [hone, move, State.of, hb, if_false]
        split_ifs <;> rfl
      | none =>
        simp only [hone, htwo]
        by_cases ht : templates.head? = some depth
        · rw [if_pos ht, move_template ht hb]
          split_ifs with hback hdollar <;> grind
        rw [if_neg ht]
        -- In a comment the search jumps to its end.
        split_ifs with hblock hline
        · obtain ⟨rfl, hstar⟩ := hblock
          obtain ⟨j, hj, hlt, hscan⟩ := exists_blockStop? depth templates hstar
          rw [hj, hstar, move_slash ht, if_pos rfl, resume, List.tail_drop, hscan]
          exact ih (by omega)
        · obtain ⟨rfl, hslash⟩ := hline
          obtain ⟨j, hj, hlt, hscan⟩ := exists_lineStop? depth templates hx hslash
          rw [hj, hslash, move_slash ht, if_neg (by simp), if_pos rfl, resume, List.tail_drop, hscan]
          exact ih (by omega)
        · rw [not_and] at hblock hline
          rcases x with _ | q | _ | _ | _ | _ | _ | _ | _ | _
          case slash => rw [move_slash ht, if_neg (hblock rfl), if_neg (hline rfl)]
          case rbrace =>
            rcases depth with _ | _ | depth <;> simp [move, State.of, State.inTemplate, ht, resume]
          all_goals simp_all [move, State.of, State.inTemplate]

lemma Sign.ofCode_of_le {n : ℕ} (h : 128 ≤ n) : Sign.ofCode n = .other := by
  unfold Sign.ofCode
  split_ifs <;> first | rfl | omega

lemma map_ofByte_bytes (cs : Text) : (Text.bytes cs).map Sign.ofByte =
    cs.flatMap fun c => List.replicate c.utf8Size (Sign.ofChar c) := by
  induction cs with
  | nil => rfl
  | cons c cs ih =>
    rw [Text.bytes_cons, List.map_append, List.flatMap_cons, ih]
    congr 1
    rcases lt_or_ge c.toNat 128 with hc | hc
    · rw [Text.utf8EncodeChar_of_lt hc, Text.utf8Size_eq_one hc]
      simp [Sign.ofByte, Sign.ofChar, Text.toNat_byte hc]
    · rw [Sign.ofChar, Sign.ofCode_of_le hc, ← String.length_utf8EncodeChar, List.eq_replicate_iff]
      refine ⟨by simp, fun x hx => ?_⟩
      obtain ⟨b, hb, rfl⟩ := List.mem_map.mp hx
      exact Sign.ofCode_of_le (Text.le_of_mem_utf8EncodeChar hc hb)

lemma move_other (s : State) (next : Option Sign) : move s .other next = .one s := by
  obtain ⟨mode, depth, templates⟩ := s
  cases mode <;> simp [move]

lemma scan_replicate_other (s : State) (n k : ℕ) (xs : List Sign) :
    scan s n (List.replicate k .other ++ xs) = scan s (n + k) xs := by
  induction k generalizing n with
  | zero => rfl
  | succ k ih =>
    rw [List.replicate_succ, List.cons_append, scan_cons, move_other, resume, ih]
    congr 1
    omega

def byteSigns (cs : Text) : List Sign :=
  (Text.bytes cs).map Sign.ofByte

lemma byteSigns_cons (c : Char) (cs : Text) :
    byteSigns (c :: cs) = List.replicate c.utf8Size (Sign.ofChar c) ++ byteSigns cs := by
  simp [byteSigns, map_ofByte_bytes]

lemma head?_byteSigns (cs : Text) : (byteSigns cs).head? = (cs.map Sign.ofChar).head? := by
  cases cs with
  | nil => rfl
  | cons c cs =>
    obtain ⟨k, hk⟩ : ∃ k, c.utf8Size = k + 1 := ⟨c.utf8Size - 1, by have := c.utf8Size_pos; omega⟩
    simp [byteSigns_cons, hk, List.replicate_succ]

lemma tail_byteSigns (c : Char) (cs : Text) :
    (byteSigns (c :: cs)).tail = List.replicate (c.utf8Size - 1) .other ++ byteSigns cs := by
  rw [byteSigns_cons]
  rcases lt_or_ge c.toNat 128 with hc | hc
  · simp [Text.utf8Size_eq_one hc]
  · have hpos := c.utf8Size_pos
    rw [Sign.ofChar, Sign.ofCode_of_le hc, List.tail_append_of_ne_nil (by simp; omega),
      List.tail_replicate]

lemma scan_byteSigns (s : State) (m n : ℕ) (cs : Text) :
    scan s m (byteSigns cs) =
      (scan s n (cs.map Sign.ofChar)).map fun k => m + Text.size (cs.take (k - n)) := by
  induction hl : cs.length using Nat.strong_induction_on generalizing s m n cs with
  | _ l ih =>
    have hstep (s : State) (m n i : ℕ) (cs cs' : Text) (hlt : cs'.length < l)
        (hcs : cs = cs.take i ++ cs') (hi : (cs.take i).length = i) :
        scan s (m + Text.size (cs.take i)) (byteSigns cs') =
          (scan s (n + i) (cs'.map Sign.ofChar)).map fun k => m + Text.size (cs.take (k - n)) := by
      rw [ih _ hlt s _ (n + i) cs' rfl]
      refine Option.map_congr fun k hk => ?_
      obtain ⟨hlt, -⟩ := lt_of_scan hk
      have htake : cs.take (k - n) = cs.take i ++ cs'.take (k - (n + i)) := by
        conv_lhs => rw [hcs]
        rw [List.take_append, hi, List.take_of_length_le (by omega)]
        congr 2
        omega
      rw [htake, Text.size_append]
      omega
    cases cs with
    | nil => simp [byteSigns]
    | cons c cs =>
      have hone (s : State) := hstep s m n 1 (c :: cs) cs (by simp [← hl]) (by simp) (by simp)
      rw [List.map_cons, scan_cons, byteSigns_cons]
      rcases lt_or_ge c.toNat 128 with hc | hc
      · rw [Text.utf8Size_eq_one hc, List.replicate_one, List.singleton_append, scan_cons,
          head?_byteSigns]
        cases hm : move s (Sign.ofChar c) (cs.map Sign.ofChar).head? with
        | one s' => simpa [resume, Text.utf8Size_eq_one hc] using hone s'
        | two s' =>
          cases cs with
          | nil => exact absurd hm move_none_ne_two
          | cons d cs =>
            have htwo := hstep s' m n 2 (c :: d :: cs) cs (by simp [← hl]) (by simp) (by simp)
            have hd := d.utf8Size_pos
            have hsize : m + 2 + (d.utf8Size - 1) = m + (1 + d.utf8Size) := by omega
            rw [resume, resume, tail_byteSigns, scan_replicate_other, hsize]
            simpa [Text.utf8Size_eq_one hc] using htwo
        | closes => simp [resume, Text.utf8Size_eq_one hc]
        | fails => rfl
      · rw [Sign.ofChar, Sign.ofCode_of_le hc, scan_replicate_other, move_other, resume]
        simpa using hone s

theorem closing?_bytes {u cs : Text} {i n : ℕ} (h : Text.From u i cs) (hn : n = Text.size u + 1) :
    closing? (byteSigns u) n i 0 none [] =
      some ((size? Sign.ofChar cs).map fun k => i + Text.size (cs.take k)) := by
  have hdrop : (byteSigns u).drop i = byteSigns cs := by
    rw [byteSigns, ← List.map_drop, h.drop_bytes, byteSigns]
  have hlength : (byteSigns u).length = Text.size u := by simp [byteSigns]
  rw [closing?_eq (by omega), hdrop, scan_byteSigns _ i 0]
  rfl

end Brace
end MetaInline
