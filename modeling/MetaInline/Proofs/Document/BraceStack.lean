import Mathlib
import MetaInline.Proofs.Document.BraceIndex

/-! Pairs of braces by a stack. The scanner counts the braces that are open and remembers the count at which
each template began. A scanner that keeps all that is open on a stack finds the same brace, for the count is
the number of frames of braces and no template remembers more than is counted. -/

namespace MetaInline.Brace

inductive Frame where
  | brace
  | template
  | substitution
deriving DecidableEq

namespace Frame

/-- What a step leads to: whether the next sign is passed over as well, what the text after it is, and what
is open there, the innermost first. -/
abbrev Step := Bool × Mode × List Frame

def stepText (outer : List Frame) : (x : Sign) → (next : Option Sign) → Step
  | .backslash, _ => (true, .code, template :: outer)
  | .backtick, _ => (false, .code, outer)
  | .dollar, some .lbrace => (true, .code, substitution :: template :: outer)
  | _, _ => (false, .code, template :: outer)

def stepCode (stack : List Frame) : (x : Sign) → (next : Option Sign) → Step
  | .backslash, _ => (true, .code, stack)
  | .quote double, _ => (false, .string double, stack)
  | .backtick, _ => (false, .code, template :: stack)
  | .slash, some .star => (true, .blockComment, stack)
  | .slash, some .slash => (true, .lineComment, stack)
  | .lbrace, _ => (false, .code, brace :: stack)
  | .rbrace, _ => (false, .code, stack.tail)
  | _, _ => (false, .code, stack)

def step : Mode → (stack : List Frame) → (x : Sign) → (next : Option Sign) → Step
  | .lineComment, stack, x, _ => (false, if x = .newline then .code else .lineComment, stack)
  | .blockComment, stack, x, next =>
    if x = .star ∧ next = some .slash then (true, .code, stack) else (false, .blockComment, stack)
  | .string double, stack, x, _ =>
    if x = .backslash then (true, .string double, stack)
    else (false, if x = .quote double then .code else .string double, stack)
  | .code, template :: outer, x, next => stepText outer x next
  | .code, stack, x, next => stepCode stack x next

def pop? : (hidden : Bool) → Mode → List Frame → List Sign → Option ℕ
  | _, _, _, [] => none
  | true, mode, stack, _ :: xs => (pop? false mode stack xs).map (· + 1)
  | false, mode, stack, x :: xs =>
    match step mode stack x xs.head? with
    | (_, _, []) => some 1
    | (hidden, mode, stack) => (pop? hidden mode stack xs).map (· + 1)

def depth : List Frame → ℕ
  | [] => 0
  | template :: stack => depth stack
  | _ :: stack => depth stack + 1

def templates : List Frame → List ℕ
  | [] => []
  | template :: stack => depth stack :: templates stack
  | _ :: stack => templates stack

def state (mode : Mode) (stack : List Frame) : State :=
  ⟨mode, depth stack, templates stack⟩

variable {mode : Mode} {stack outer : List Frame} {f : Frame} {x : Sign} {next : Option Sign}
  {xs : List Sign} {n : ℕ}

lemma depth_cons (hf : f ≠ template) : depth (f :: stack) = depth stack + 1 := by
  cases f with
  | template => contradiction
  | _ => rfl

lemma templates_cons (hf : f ≠ template) : templates (f :: stack) = templates stack := by
  cases f with
  | template => contradiction
  | _ => rfl

lemma le_depth_of_mem_templates {d : ℕ} (h : d ∈ templates stack) : d ≤ depth stack := by
  induction stack with
  | nil => cases h
  | cons f stack ih =>
    by_cases hf : f = template
    · subst hf
      rcases List.mem_cons.mp h with rfl | h
      · exact le_rfl
      · exact ih h
    · rw [templates_cons hf] at h
      rw [depth_cons hf]
      exact (ih h).trans (depth stack).le_succ

lemma depth_pos (h : stack.getLast? = some brace) : 0 < depth stack := by
  induction stack with
  | nil => cases h
  | cons f stack ih =>
    by_cases hf : f = template
    · subst hf
      cases stack with
      | nil => cases h
      | cons g stack => exact ih h
    · rw [depth_cons hf]
      exact Nat.succ_pos _

def moveOf (hasNext : Bool) : Step → Move
  | (_, _, []) => .closes
  | (hidden, mode, f :: stack) =>
    if hidden then if hasNext then .two (state mode (f :: stack)) else .fails
    else .one (state mode (f :: stack))

lemma move_text (h : outer ≠ []) :
    move (state .code (template :: outer)) x next = moveOf next.isSome (stepText outer x next) := by
  obtain ⟨g, outer, rfl⟩ := List.exists_cons_of_ne_nil h
  have htop : (templates (template :: g :: outer)).head? = some (depth (template :: g :: outer)) := rfl
  cases x with
  | backslash => exact move_backslash none _ _ next
  | dollar =>
    refine (move_template htop (x := .dollar) (by simp)).trans ?_
    by_cases hnext : next = some .lbrace
    · subst hnext
      rfl
    · have hstep : stepText (g :: outer) .dollar next = (false, .code, template :: g :: outer) := by
        rw [stepText] <;> simp [hnext]
      rw [if_neg (by simp [hnext]), hstep]
      rfl
  | _ => exact move_template htop (by simp)

lemma move_code (hf : f ≠ template) (h : (f :: outer).getLast? = some brace) :
    move (state .code (f :: outer)) x next = moveOf next.isSome (stepCode (f :: outer) x next) := by
  -- The innermost template was opened outside the brace on top.
  have htop : (templates (f :: outer)).head? ≠ some (depth (f :: outer)) := by
    rw [templates_cons hf, depth_cons hf]
    intro heq
    have := le_depth_of_mem_templates (List.mem_of_head? heq)
    omega
  have hcode : (state .code (f :: outer)).inTemplate = false := by
    simpa [State.inTemplate, state] using htop
  cases x with
  | backslash => exact move_backslash none _ _ next
  | slash =>
    refine (move_slash htop).trans ?_
    by_cases hstar : next = some .star
    · subst hstar
      rfl
    · by_cases hslash : next = some .slash
      · subst hslash
        rfl
      · have hstep : stepCode (f :: outer) .slash next = (false, .code, f :: outer) := by
          rw [stepCode] <;> simp [hstar, hslash]
        rw [if_neg hstar, if_neg hslash, hstep]
        rfl
  | rbrace =>
    unfold move
    simp only [hcode]
    cases outer with
    | nil => simp [state, stepCode, depth_cons hf, moveOf, depth]
    | cons g outer =>
      have hpos : 0 < depth (g :: outer) := depth_pos h
      obtain ⟨d, hd⟩ := Nat.exists_eq_add_of_lt hpos
      simp [state, stepCode, depth_cons hf, templates_cons hf, moveOf, hd]
  | _ =>
    unfold move
    simp only [hcode]
    simp [state, stepCode, moveOf, depth, templates]

lemma move_state (h : stack.getLast? = some brace) :
    move (state mode stack) x next = moveOf next.isSome (step mode stack x next) := by
  obtain ⟨f, outer, rfl⟩ : ∃ f outer, stack = f :: outer := by
    cases stack with
    | nil => cases h
    | cons f outer => exact ⟨f, outer, rfl⟩
  cases mode with
  | lineComment => by_cases hx : x = .newline <;> simp [move, step, state, moveOf, hx]
  | blockComment =>
    by_cases hx : x = .star ∧ next = some .slash
    · simp [move, step, state, moveOf, hx]
    · simp only [move, step, state, moveOf, hx, if_false]
      rfl
  | string double =>
    by_cases hx : x = .backslash
    · simp [move, step, state, moveOf, hx]
    · by_cases hquote : x = .quote double <;> simp [move, step, state, moveOf, hx, hquote]
  | code =>
    by_cases hf : f = template
    · subst hf
      refine move_text ?_
      rintro rfl
      cases h
    · have hstep : step .code (f :: outer) x next = stepCode (f :: outer) x next := by
        cases f with
        | template => contradiction
        | _ => rfl
      rw [hstep]
      exact move_code hf h

def Holds (stack : List Frame) : Prop :=
  stack = [] ∨ stack.getLast? = some brace

lemma holds_tail (h : stack.getLast? = some brace) : Holds stack.tail := by
  cases stack with
  | nil => exact .inl rfl
  | cons f outer =>
    cases outer with
    | nil => exact .inl rfl
    | cons g outer => exact .inr h

lemma holds_cons (h : stack.getLast? = some brace) (f : Frame) : Holds (f :: stack) := by
  cases stack with
  | nil => cases h
  | cons g outer => exact .inr h

lemma holds_step (h : stack.getLast? = some brace) : Holds (step mode stack x next).2.2 := by
  unfold step
  split
  · exact .inr h
  · split_ifs <;> exact .inr h
  · split_ifs <;> exact .inr h
  · unfold stepText
    split
    · exact .inr h
    · exact holds_tail h
    · exact holds_cons h _
    · exact .inr h
  · unfold stepCode
    split
    case h_3 => exact holds_cons h _
    case h_6 => exact holds_cons h _
    case h_7 => exact holds_tail h
    all_goals exact .inr h

@[simp] lemma moveOf_one {hasNext : Bool} :
    moveOf hasNext (false, mode, f :: stack) = .one (state mode (f :: stack)) := rfl

@[simp] lemma moveOf_two : moveOf true (true, mode, f :: stack) = .two (state mode (f :: stack)) := rfl

lemma exists_state_of_moveOf {hasNext : Bool} {t : Step} {s : State} (ht : Holds t.2.2)
    (h : moveOf hasNext t = .one s ∨ moveOf hasNext t = .two s) :
    ∃ mode stack, s = state mode stack ∧ stack.getLast? = some brace := by
  obtain ⟨hidden, mode, stack⟩ := t
  cases stack with
  | nil => rcases h with h | h <;> cases h
  | cons f outer =>
    refine ⟨mode, f :: outer, ?_, ht.resolve_left (List.cons_ne_nil _ _)⟩
    cases hidden <;> cases hasNext <;> rcases h with h | h <;> cases h <;> rfl

lemma pop?_of_nil {hidden : Bool} {mode' : Mode} (h : step mode stack x xs.head? = (hidden, mode', [])) :
    pop? false mode stack (x :: xs) = some 1 := by
  rw [pop?, h]

lemma pop?_of_cons {hidden : Bool} {mode' : Mode}
    (h : step mode stack x xs.head? = (hidden, mode', f :: outer)) :
    pop? false mode stack (x :: xs) = (pop? hidden mode' (f :: outer) xs).map (· + 1) := by
  rw [pop?, h]

theorem scan_state (h : stack.getLast? = some brace) :
    scan (state mode stack) n xs = (pop? false mode stack xs).map (n + ·) := by
  induction hl : xs.length using Nat.strong_induction_on generalizing mode stack n xs with
  | _ l ih =>
    cases xs with
    | nil => rw [scan_nil, pop?, Option.map_none]
    | cons x xs =>
      have hholds : Holds (step mode stack x xs.head?).2.2 := holds_step h
      rw [scan_cons, move_state h]
      rcases hs : step mode stack x xs.head? with ⟨hidden, mode', stack'⟩
      rw [hs] at hholds
      cases stack' with
      | nil => rw [pop?_of_nil hs, moveOf, resume, Option.map_some]
      | cons f outer =>
        have hbottom : (f :: outer).getLast? = some brace := hholds.resolve_left (List.cons_ne_nil _ _)
        rw [pop?_of_cons hs]
        cases hidden with
        | false =>
          rw [moveOf_one, resume, ih xs.length (by simp [← hl]) hbottom rfl, Option.map_map]
          exact Option.map_congr fun k _ => by simp only [Function.comp_apply]; omega
        | true =>
          -- The sign after it is passed over.
          cases xs with
          | nil => rfl
          | cons y xs =>
            rw [List.head?_cons, Option.isSome_some, moveOf_two, resume, List.tail_cons, pop?,
              ih xs.length (by simp only [← hl, List.length_cons]; omega) hbottom rfl, Option.map_map,
              Option.map_map]
            exact Option.map_congr fun k _ => by simp only [Function.comp_apply]; omega

lemma scan_brace (n : ℕ) : scan ⟨.code, 0, []⟩ n (.lbrace :: xs) =
    (pop? false .code [] (.lbrace :: xs)).map (n + ·) := by
  have hrun : scan ⟨.code, 0, []⟩ n (.lbrace :: xs) = scan (state .code [brace]) (n + 1) xs := by
    rw [scan_cons]
    rfl
  rw [hrun, scan_state rfl, pop?_of_cons rfl, Option.map_map]
  exact Option.map_congr fun k _ => by simp only [Function.comp_apply]; omega

end Frame

inductive Comes (xs : List Sign) : (i : ℕ) → (s : State) → Prop
  | start : Comes xs 0 ⟨.code, 0, []⟩
  | one {i : ℕ} {s s' : State} {x : Sign} : Comes xs i s → xs[i]? = some x →
      move s x xs[i + 1]? = .one s' → Comes xs (i + 1) s'
  | two {i : ℕ} {s s' : State} {x : Sign} : Comes xs i s → xs[i]? = some x →
      move s x xs[i + 1]? = .two s' → Comes xs (i + 2) s'

variable {xs : List Sign} {i n : ℕ} {s : State}

lemma Comes.scan_eq (h : Comes xs i s) : scan ⟨.code, 0, []⟩ 0 xs = scan s i (xs.drop i) := by
  have hdrop {i : ℕ} {s : State} {x : Sign} (hx : xs[i]? = some x) :
      scan s i (xs.drop i) = resume i (xs.drop (i + 1)) (move s x xs[i + 1]?) := by
    obtain ⟨hi, rfl⟩ := List.getElem?_eq_some_iff.mp hx
    rw [List.drop_eq_getElem_cons hi, scan_cons, List.head?_drop]
  induction h with
  | start => rfl
  | one _ hx hmove ih => rw [ih, hdrop hx, hmove, resume]
  | two _ hx hmove ih => rw [ih, hdrop hx, hmove, resume, List.tail_drop]

lemma Comes.exists_state (h : Comes (.lbrace :: xs) i s) :
    i = 0 ∧ s = ⟨.code, 0, []⟩ ∨
      ∃ mode stack, s = Frame.state mode stack ∧ stack.getLast? = some .brace := by
  induction h with
  | start => exact .inl ⟨rfl, rfl⟩
  | one _ hx hmove ih =>
    right
    rcases ih with ⟨rfl, rfl⟩ | ⟨mode, stack, rfl, hbottom⟩
    · obtain rfl := Option.some.inj hx
      obtain rfl := Move.one.inj hmove
      exact ⟨.code, [.brace], rfl, rfl⟩
    · rw [Frame.move_state hbottom] at hmove
      exact Frame.exists_state_of_moveOf (Frame.holds_step hbottom) (.inl hmove)
  | two _ hx hmove ih =>
    right
    rcases ih with ⟨rfl, rfl⟩ | ⟨mode, stack, rfl, hbottom⟩
    · obtain rfl := Option.some.inj hx
      cases hmove
    · rw [Frame.move_state hbottom] at hmove
      exact Frame.exists_state_of_moveOf (Frame.holds_step hbottom) (.inr hmove)

theorem Comes.depth_pos (h : Comes (.lbrace :: xs) i s) (hi : i ≠ 0) : 0 < s.depth := by
  rcases h.exists_state with ⟨rfl, -⟩ | ⟨mode, stack, rfl, hbottom⟩
  · contradiction
  · exact Frame.depth_pos hbottom

def stop? (bs : List UInt8) (start : ℕ) : Option ℕ :=
  (size? Sign.ofByte (bs.drop start)).map (start + ·)

def Frame.stop? (bs : List UInt8) (start : ℕ) : Option ℕ :=
  (pop? false .code [] ((bs.drop start).map Sign.ofByte)).map (start + ·)

lemma size?_append {α : Type} {sign : α → Sign} {cs : List α} (h : size? sign cs = some n)
    (ds : List α) : size? sign (cs ++ ds) = some n := by
  have hsplit : (cs ++ ds).map sign =
      (cs.map sign).take (n - 0) ++ ((cs.map sign).drop (n - 0) ++ ds.map sign) := by
    rw [← List.append_assoc, List.take_append_drop, List.map_append]
  rw [size?, hsplit]
  exact scan_take_append h _

/-- From a brace on, the scanner that counts finds what the one with the stack finds. The steps suffice and
every index and range is in the bytes, the count of open braces stays positive, and what comes after the
brace found is not read. -/
theorem stop?_eq {bs : List UInt8} {start : ℕ} (h : bs[start]? = some (Text.byte '{')) :
    stop? bs start = Frame.stop? bs start ∧
      closing? (bs.map Sign.ofByte) (bs.length + 1) start 0 none [] = some (stop? bs start) ∧
      (∀ i s, Comes ((bs.drop start).map Sign.ofByte) i s →
        size? Sign.ofByte (bs.drop start) = scan s i ((bs.drop (start + i)).map Sign.ofByte) ∧
          (i ≠ 0 → 0 < s.depth)) ∧
      ∀ n more, stop? bs start = some n → stop? (bs ++ more) start = some n := by
  obtain ⟨hlt, hbrace⟩ := List.getElem?_eq_some_iff.mp h
  have hsigns : (bs.drop start).map Sign.ofByte =
      .lbrace :: (bs.drop (start + 1)).map Sign.ofByte := by
    rw [List.drop_eq_getElem_cons hlt, hbrace, List.map_cons]
    rfl
  refine ⟨?_, ?_, fun i s hcomes => ⟨?_, ?_⟩, fun n more hstop => ?_⟩
  · rw [stop?, Frame.stop?, size?, hsigns, Frame.scan_brace]
    simp only [Nat.zero_add, Option.map_id']
  · rw [closing?_eq (by simp), ← List.map_drop, stop?, size?, hsigns, State.of, Frame.scan_brace,
      Frame.scan_brace]
    simp only [Nat.zero_add, Option.map_id']
  · rw [size?, hcomes.scan_eq, ← List.map_drop, List.drop_drop]
  · rw [hsigns] at hcomes
    exact hcomes.depth_pos
  · obtain ⟨k, hk, rfl⟩ := Option.map_eq_some_iff.mp hstop
    rw [stop?, List.drop_append_of_le_length hlt.le, size?_append hk, Option.map_some]

theorem stop?_object :
    let bs := Text.bytes "\x7b a: '\x7d', b: `$\x7b \x7bc: 1\x7d \x7d`, /* \x7d */ d: \x7b\x7d \x7d tail".toList
    bs[0]? = some (Text.byte '{') ∧ stop? bs 0 = Frame.stop? bs 0 ∧ stop? bs 0 = some 43 := by
  intro bs
  have hbrace : bs[0]? = some (Text.byte '{') := by decide +kernel
  have heq := (stop?_eq hbrace).1
  exact ⟨hbrace, heq, by decide +kernel⟩

end MetaInline.Brace
