import Mathlib
import MetaInline.Proofs.Document.BraceExpression
import MetaInline.Proofs.Document.Recovery

/-! The brace that ends an expression, by the grammar that the scanner goes by: strings, templates,
comments and braces that are closed, with anything between them. The grammar of expressions has more
forms, in which these signs mean something else. -/

namespace MetaInline

namespace Brace

inductive Enclosure where
  | braces
  | template
  | string (double : Bool)

namespace Enclosure

def sign : Enclosure → Sign
  | braces => .rbrace
  | template => .backtick
  | string double => .quote double

def state (depth : ℕ) (outer : List ℕ) : Enclosure → State
  | braces => ⟨.code, depth + 1, outer⟩
  | template => ⟨.code, depth + 1, (depth + 1) :: outer⟩
  | string double => ⟨.string double, depth + 1, outer⟩

def IsPlain : Enclosure → Sign → Option Sign → Prop
  | braces, x, next => x = .other ∨ x = .newline ∨ x = .star ∨ x = .dollar ∨
      x = .slash ∧ next ≠ some .slash ∧ next ≠ some .star
  | template, x, next => x ≠ .backslash ∧ x ≠ .backtick ∧ ¬ (x = .dollar ∧ next = some .lbrace)
  | string double, x, _ => x ≠ .backslash ∧ x ≠ .quote double

inductive Opens : Enclosure → List Sign → Enclosure → Prop
  | string (double : Bool) : Opens braces [.quote double] (string double)
  | template : Opens braces [.backtick] template
  | braces : Opens braces [.lbrace] braces
  | substitution : Opens template [.dollar, .lbrace] braces

end Enclosure

inductive Comment : List Sign → Prop
  | line {xs : List Sign} : .newline ∉ xs → Comment (.slash :: .slash :: (xs ++ [.newline]))
  | block {xs : List Sign} : ¬ [.star, .slash] <:+: xs →
      Comment (.slash :: .star :: (xs ++ [.star, .slash]))

/-- Texts in which all that is opened is closed again, so that the next sign may end what they stand
in. -/
inductive Closed : Enclosure → List Sign → Prop
  | nil (k : Enclosure) : Closed k []
  | plain {k : Enclosure} {x : Sign} {ys : List Sign} : k.IsPlain x ys.head? → Closed k ys →
      Closed k (x :: ys)
  | escape {k : Enclosure} (x : Sign) {ys : List Sign} : Closed k ys → Closed k (.backslash :: x :: ys)
  | comment {w ys : List Sign} : Comment w → Closed .braces ys → Closed .braces (w ++ ys)
  | nested {k j : Enclosure} {w xs ys : List Sign} : k.Opens w j → Closed j xs → Closed k ys →
      Closed k (w ++ (xs ++ j.sign :: ys))

open Enclosure (Opens IsPlain)

variable {j k : Enclosure} {x : Sign} {next : Option Sign} {w xs ys : List Sign}
  {depth m n : ℕ} {outer : List ℕ}

lemma inTemplate_eq_false (h : ∀ d ∈ outer.head?, d ≤ depth) (mode : Mode) :
    State.inTemplate ⟨mode, depth + 1, outer⟩ = false := by
  have hne : outer.head? ≠ some (depth + 1) := fun heq => by
    have := h _ heq
    omega
  simpa [State.inTemplate] using hne

lemma move_escape (k : Enclosure) (next : Option Sign) :
    move (k.state depth outer) .backslash next =
      if next.isSome then .two (k.state depth outer) else .fails := by
  cases k <;> rfl

lemma move_plain (h : ∀ d ∈ outer.head?, d ≤ depth) (hx : k.IsPlain x next) :
    move (k.state depth outer) x next = .one (k.state depth outer) := by
  have hcode := inTemplate_eq_false h .code
  cases k with
  | braces =>
    rcases hx with rfl | rfl | rfl | rfl | ⟨rfl, hslash, hstar⟩ <;>
      simp_all [move, Enclosure.state]
  | template =>
    obtain ⟨hescape, hclose, hopen⟩ := hx
    simp [move, Enclosure.state, State.inTemplate, hescape, hclose, hopen]
  | string double =>
    obtain ⟨hescape, hclose⟩ := hx
    simp [move, Enclosure.state, hescape, hclose]

lemma isPlain_append : k.IsPlain x (xs ++ k.sign :: ys).head? ↔ k.IsPlain x xs.head? := by
  cases xs with
  | nil => cases k <;> simp [IsPlain, Enclosure.sign]
  | cons y xs => rfl

lemma exists_state (hw : k.Opens w j) (h : ∀ d ∈ outer.head?, d ≤ depth) :
    ∃ depth' outer', (∀ d ∈ outer'.head?, d ≤ depth') ∧
      (∀ n xs, scan (k.state depth outer) n (w ++ xs) =
        scan (j.state depth' outer') (n + w.length) xs) ∧
      ∀ next, move (j.state depth' outer') j.sign next = .one (k.state depth outer) := by
  have hcode := inTemplate_eq_false h .code
  have h' : ∀ d ∈ outer.head?, d ≤ depth + 1 := fun d hd => (h d hd).trans depth.le_succ
  cases hw with
  | string double =>
    refine ⟨depth, outer, h, fun n xs => ?_, fun next => ?_⟩
    · simp [scan_cons, move, Enclosure.state, hcode, resume]
    · simp [move, Enclosure.state, Enclosure.sign]
  | template =>
    refine ⟨depth, outer, h, fun n xs => ?_, fun next => ?_⟩
    · simp [scan_cons, move, Enclosure.state, hcode, resume]
    · simp [move, Enclosure.state, Enclosure.sign, State.inTemplate]
  | braces =>
    refine ⟨depth + 1, outer, h', fun n xs => ?_, fun next => ?_⟩
    · simp [scan_cons, move, Enclosure.state, hcode, resume]
    · simp [move, Enclosure.state, Enclosure.sign, inTemplate_eq_false h']
  | substitution =>
    have htop : ∀ d ∈ ((depth + 1) :: outer).head?, d ≤ depth + 1 := by simp
    refine ⟨depth + 1, (depth + 1) :: outer, htop, fun n xs => ?_, fun next => ?_⟩
    · simp [scan_cons, move, Enclosure.state, State.inTemplate, resume]
    · simp [move, Enclosure.state, Enclosure.sign, inTemplate_eq_false htop]

lemma scan_lineComment_append (h : .newline ∉ xs) :
    scan ⟨.lineComment, depth, outer⟩ n (xs ++ .newline :: ys) =
      scan ⟨.code, depth, outer⟩ (n + xs.length + 1) ys := by
  induction xs generalizing n with
  | nil =>
    rw [List.nil_append, scan_cons]
    rfl
  | cons x xs ih =>
    obtain ⟨hx, hxs⟩ := not_or.mp (mt List.mem_cons.mpr h)
    have hmove (next : Option Sign) : move ⟨.lineComment, depth, outer⟩ x next =
        .one ⟨.lineComment, depth, outer⟩ := by
      simp [move, Ne.symm hx]
    rw [List.cons_append, scan_cons, hmove, resume, ih hxs, List.length_cons]
    congr 1
    omega

lemma exists_lineComment (h : scan ⟨.lineComment, depth, outer⟩ n xs = some m) :
    ∃ ys zs, xs = ys ++ .newline :: zs ∧ .newline ∉ ys := by
  induction xs generalizing n with
  | nil => simp at h
  | cons x xs ih =>
    by_cases hx : x = .newline
    · exact ⟨[], xs, by rw [hx]; rfl, by simp⟩
    · have hmove : move ⟨.lineComment, depth, outer⟩ x xs.head? =
          .one ⟨.lineComment, depth, outer⟩ := by
        simp [move, hx]
      rw [scan_cons, hmove, resume] at h
      obtain ⟨ys, zs, rfl, hys⟩ := ih h
      exact ⟨x :: ys, zs, rfl, by simp [Ne.symm hx, hys]⟩

lemma scan_blockComment_append (h : ¬ [.star, .slash] <:+: xs) :
    scan ⟨.blockComment, depth, outer⟩ n (xs ++ .star :: .slash :: ys) =
      scan ⟨.code, depth, outer⟩ (n + xs.length + 2) ys := by
  induction xs generalizing n with
  | nil =>
    rw [List.nil_append, scan_cons]
    rfl
  | cons x xs ih =>
    have hxs : ¬ [.star, .slash] <:+: xs := fun hin => h (hin.trans (List.suffix_cons x xs).isInfix)
    -- The comment does not end here, not even with the star after its last sign.
    have hopen : ¬ (x = .star ∧ (xs ++ .star :: .slash :: ys).head? = some .slash) := by
      rintro ⟨rfl, hnext⟩
      cases xs with
      | nil => simp at hnext
      | cons y xs =>
        obtain rfl : y = .slash := by simpa using hnext
        exact h ⟨[], xs, rfl⟩
    have hmove : move ⟨.blockComment, depth, outer⟩ x (xs ++ .star :: .slash :: ys).head? =
        .one ⟨.blockComment, depth, outer⟩ := by
      simp only [move, if_neg hopen]
    rw [List.cons_append, scan_cons, hmove, resume, ih hxs, List.length_cons]
    congr 1
    omega

lemma exists_blockComment (h : scan ⟨.blockComment, depth, outer⟩ n xs = some m) :
    ∃ ys zs, xs = ys ++ .star :: .slash :: zs ∧ ¬ [.star, .slash] <:+: ys := by
  induction xs generalizing n with
  | nil => simp at h
  | cons x xs ih =>
    by_cases hclosed : x = .star ∧ xs.head? = some .slash
    · obtain ⟨rfl, hnext⟩ := hclosed
      obtain ⟨zs, rfl⟩ := List.head?_eq_some_iff.mp hnext
      exact ⟨[], zs, rfl, by simp⟩
    · have hmove : move ⟨.blockComment, depth, outer⟩ x xs.head? =
          .one ⟨.blockComment, depth, outer⟩ := by
        simp only [move, if_neg hclosed]
      rw [scan_cons, hmove, resume] at h
      obtain ⟨ys, zs, rfl, hys⟩ := ih h
      refine ⟨x :: ys, zs, rfl, fun hin => ?_⟩
      rcases List.infix_cons_iff.mp hin with hfront | hin
      · obtain ⟨rfl, ws, rfl⟩ := List.cons_prefix_cons.mp hfront
        exact hclosed ⟨rfl, rfl⟩
      · exact hys hin

lemma Comment.scan_append (hw : Comment w) (h : ∀ d ∈ outer.head?, d ≤ depth) (n : ℕ)
    (ys : List Sign) : scan (Enclosure.braces.state depth outer) n (w ++ ys) =
      scan (Enclosure.braces.state depth outer) (n + w.length) ys := by
  have hcode := inTemplate_eq_false h .code
  cases hw with
  | @line xs hxs =>
    have hopen : scan (Enclosure.braces.state depth outer) n
        (.slash :: .slash :: (xs ++ .newline :: ys)) =
          scan ⟨.lineComment, depth + 1, outer⟩ (n + 2) (xs ++ .newline :: ys) := by
      simp [scan_cons, move, Enclosure.state, hcode, resume]
    simp only [List.cons_append, List.append_assoc, List.nil_append, hopen, scan_lineComment_append hxs]
    refine congrArg (scan _ · _) ?_
    simp
    omega
  | @block xs hxs =>
    have hopen : scan (Enclosure.braces.state depth outer) n
        (.slash :: .star :: (xs ++ .star :: .slash :: ys)) =
          scan ⟨.blockComment, depth + 1, outer⟩ (n + 2) (xs ++ .star :: .slash :: ys) := by
      simp [scan_cons, move, Enclosure.state, hcode, resume]
    simp only [List.cons_append, List.append_assoc, List.nil_append, hopen, scan_blockComment_append hxs]
    refine congrArg (scan _ · _) ?_
    simp
    omega

lemma exists_comment (h : ∀ d ∈ outer.head?, d ≤ depth) (hx : x = .slash ∨ x = .star)
    (hscan : scan (Enclosure.braces.state depth outer) n (.slash :: x :: xs) = some m) :
    ∃ w ys, Comment w ∧ .slash :: x :: xs = w ++ ys := by
  have hcode := inTemplate_eq_false h .code
  rcases hx with rfl | rfl
  · have hinside : scan ⟨.lineComment, depth + 1, outer⟩ (n + 2) xs = some m := by
      simpa [scan_cons, move, Enclosure.state, hcode, resume] using hscan
    obtain ⟨ys, zs, rfl, hys⟩ := exists_lineComment hinside
    exact ⟨_, zs, .line hys, by simp⟩
  · have hinside : scan ⟨.blockComment, depth + 1, outer⟩ (n + 2) xs = some m := by
      simpa [scan_cons, move, Enclosure.state, hcode, resume] using hscan
    obtain ⟨ys, zs, rfl, hys⟩ := exists_blockComment hinside
    exact ⟨_, zs, .block hys, by simp⟩

lemma Closed.scan_append (h : Closed k xs) (hout : ∀ d ∈ outer.head?, d ≤ depth) (n : ℕ)
    (ys : List Sign) : scan (k.state depth outer) n (xs ++ k.sign :: ys) =
      scan (k.state depth outer) (n + xs.length) (k.sign :: ys) := by
  induction h generalizing depth outer n ys with
  | nil k => rfl
  | @plain k x zs hx _ ih =>
    -- The sign that ends the text gives the one before it no other meaning.
    rw [List.cons_append, scan_cons, move_plain hout (isPlain_append.mpr hx), resume, ih hout,
      List.length_cons]
    congr 1
    omega
  | @escape k x zs _ ih =>
    have hmove : move (k.state depth outer) .backslash (x :: (zs ++ k.sign :: ys)).head? =
        .two (k.state depth outer) := move_escape k _
    rw [List.cons_append, List.cons_append, scan_cons, hmove, resume, List.tail_cons, ih hout]
    refine congrArg (scan _ · _) ?_
    simp
    omega
  | @comment w zs hw _ ih =>
    rw [List.append_assoc, hw.scan_append hout, ih hout, List.length_append, Nat.add_assoc]
  | @nested k j w xs zs hw _ _ ih ih' =>
    obtain ⟨depth', outer', hout', hopen, hclose⟩ := exists_state hw hout
    calc scan (k.state depth outer) n (w ++ (xs ++ j.sign :: zs) ++ k.sign :: ys)
      _ = scan (j.state depth' outer') (n + w.length) (xs ++ j.sign :: (zs ++ k.sign :: ys)) := by
        rw [← hopen, List.append_assoc, List.append_assoc, List.cons_append]
      _ = scan (j.state depth' outer') (n + w.length + xs.length) (j.sign :: (zs ++ k.sign :: ys)) :=
        ih hout' ..
      _ = scan (k.state depth outer) (n + w.length + xs.length + 1) (zs ++ k.sign :: ys) := by
        rw [scan_cons, hclose, resume]
      _ = scan (k.state depth outer) (n + (w ++ (xs ++ j.sign :: zs)).length) (k.sign :: ys) := by
        rw [ih' hout]
        refine congrArg (scan _ · _) ?_
        simp
        omega

lemma front_cases (k : Enclosure) (x : Sign) (xs : List Sign) :
    x = k.sign ∨ x = .backslash ∨ k.IsPlain x xs.head? ∨
      (∃ w j ys, k.Opens w j ∧ x :: xs = w ++ ys) ∨
      (k = .braces ∧ x = .slash ∧ ∃ y ys, (y = .slash ∨ y = .star) ∧ xs = y :: ys) := by
  cases k with
  | braces =>
    cases x with
    | quote double => exact .inr (.inr (.inr (.inl ⟨_, _, xs, .string double, rfl⟩)))
    | backtick => exact .inr (.inr (.inr (.inl ⟨_, _, xs, .template, rfl⟩)))
    | lbrace => exact .inr (.inr (.inr (.inl ⟨_, _, xs, .braces, rfl⟩)))
    | slash =>
      by_cases hnext : xs.head? = some .slash ∨ xs.head? = some .star
      · obtain ⟨y, hy, hhead⟩ : ∃ y, (y = Sign.slash ∨ y = .star) ∧ xs.head? = some y := by
          rcases hnext with hnext | hnext
          exacts [⟨_, .inl rfl, hnext⟩, ⟨_, .inr rfl, hnext⟩]
        obtain ⟨ys, rfl⟩ := List.head?_eq_some_iff.mp hhead
        exact .inr (.inr (.inr (.inr ⟨rfl, rfl, y, ys, hy, rfl⟩)))
      · exact .inr (.inr (.inl (by simpa [IsPlain] using not_or.mp hnext)))
    | _ => simp [IsPlain, Enclosure.sign]
  | template =>
    by_cases hopen : x = .dollar ∧ xs.head? = some .lbrace
    · obtain ⟨rfl, hnext⟩ := hopen
      obtain ⟨ys, rfl⟩ := List.head?_eq_some_iff.mp hnext
      exact .inr (.inr (.inr (.inl ⟨_, _, ys, .substitution, rfl⟩)))
    · simp only [IsPlain, Enclosure.sign]
      tauto
  | string double =>
    simp only [IsPlain, Enclosure.sign]
    tauto

lemma exists_closed (hout : ∀ d ∈ outer.head?, d ≤ depth)
    (h : scan (k.state depth outer) n xs = some m) : ∃ ys zs, xs = ys ++ k.sign :: zs ∧ Closed k ys := by
  induction hl : xs.length using Nat.strong_induction_on generalizing k depth outer n xs with
  | _ l ih =>
    cases xs with
    | nil => simp at h
    | cons x xs =>
      rcases front_cases k x xs with
        rfl | rfl | hx | ⟨w, j, us, hw, hsplit⟩ | ⟨rfl, rfl, y, us, hy, rfl⟩
      · exact ⟨[], xs, rfl, .nil k⟩
      · rw [scan_cons, move_escape] at h
        cases xs with
        | nil => cases h
        | cons y xs =>
          obtain ⟨ys, zs, rfl, hys⟩ := ih _ (by simp [← hl]) hout h rfl
          exact ⟨.backslash :: y :: ys, zs, rfl, .escape y hys⟩
      · rw [scan_cons, move_plain hout hx] at h
        obtain ⟨ys, zs, rfl, hys⟩ := ih _ (by simp [← hl]) hout h rfl
        exact ⟨x :: ys, zs, rfl, .plain (isPlain_append.mp hx) hys⟩
      · -- What is opened has an end, and the text goes on after it.
        obtain ⟨depth', outer', hout', hopen, hclose⟩ := exists_state hw hout
        have hlen : us.length < l := by
          have hpos : 0 < w.length := by cases hw <;> simp
          rw [← hl, hsplit, List.length_append]
          omega
        rw [hsplit] at h ⊢
        rw [hopen] at h
        obtain ⟨vs, ws, rfl, hvs⟩ := ih _ hlen hout' h rfl
        rw [hvs.scan_append hout', scan_cons, hclose, resume] at h
        obtain ⟨ys, zs, rfl, hys⟩ := ih _ (by simp at hlen; omega) hout h rfl
        exact ⟨w ++ (vs ++ j.sign :: ys), zs, by simp, .nested hw hvs hys⟩
      · obtain ⟨w, vs, hw, hsplit⟩ := exists_comment hout hy h
        have hlen : vs.length < l := by
          have hpos : 0 < w.length := by cases hw <;> simp
          rw [← hl, hsplit, List.length_append]
          omega
        rw [hsplit] at h ⊢
        rw [hw.scan_append hout] at h
        obtain ⟨ys, zs, rfl, hys⟩ := ih _ hlen hout h rfl
        exact ⟨w ++ ys, zs, by simp, .comment hw hys⟩

theorem size?_eq_length_iff {α : Type} {sign : α → Sign} {l r : α} (hl : sign l = .lbrace)
    (hr : sign r = .rbrace) (e t : List α) :
    size? sign (l :: (e ++ r :: t)) = some (e.length + 2) ↔ Closed .braces (e.map sign) := by
  have hout : ∀ d ∈ ([] : List ℕ).head?, d ≤ 0 := by simp
  have hinside : size? sign (l :: (e ++ r :: t)) =
      scan (Enclosure.braces.state 0 []) 1 (e.map sign ++ Enclosure.braces.sign :: t.map sign) := by
    rw [size?, List.map_cons, List.map_append, List.map_cons, hl, hr, scan_cons]
    rfl
  have hclose (n : ℕ) (xs : List Sign) :
      scan (Enclosure.braces.state 0 []) n (Enclosure.braces.sign :: xs) = some (n + 1) := by
    rw [scan_cons]
    rfl
  rw [hinside]
  constructor
  · intro h
    obtain ⟨ys, zs, hsplit, hys⟩ := exists_closed hout h
    have hlen : ys.length = (e.map sign).length := by
      rw [hsplit, hys.scan_append hout, hclose] at h
      have := Option.some.inj h
      rw [List.length_map]
      omega
    rwa [(List.append_inj hsplit.symm hlen).1] at hys
  · intro h
    rw [h.scan_append hout, hclose, List.length_map]
    congr 1
    omega

end Brace

namespace Astro

open Text (size)

/-- A pair of braces is the one around a text exactly if the text is closed. The text is then the code
found there, and the scan goes on with what follows. -/
theorem markup_braces (offset : ℕ) (before e t : Text) :
    (Brace.size? Brace.Sign.ofChar ('{' :: (e ++ '}' :: t)) = some (e.length + 2) ↔
      Brace.Closed .braces (e.map Brace.Sign.ofChar)) ∧
    (Brace.Closed .braces (e.map Brace.Sign.ofChar) →
      markup 0 offset before ('{' :: (e ++ '}' :: t)) = codeOf expression (offset + 1) e ++
        markup 0 (offset + 1 + size e + 1) ('}' :: (e.reverse ++ '{' :: before)) t) := by
  have hiff (t : Text) : Brace.size? Brace.Sign.ofChar ('{' :: (e ++ '}' :: t)) = some (e.length + 2) ↔
      Brace.Closed .braces (e.map Brace.Sign.ofChar) := Brace.size?_eq_length_iff rfl rfl e t
  refine ⟨hiff t, fun h => ?_⟩
  set p : Place := ⟨offset, before, '{' :: (e ++ '}' :: t)⟩ with hp
  have hprint : p.rest = (Node.expression ⟨e, (hiff []).mpr h⟩).print ++ t := by
    simp [hp, Node.print, Expression.print]
  have htake : p.rest.take (e.length + 2) = '{' :: (e ++ ['}']) := by
    simp [hp, List.take_append]
  have hmove : p.move (e.length + 2) =
      ⟨offset + 1 + size e + 1, '}' :: (e.reverse ++ '{' :: before), t⟩ := by
    ext1
    · rw [Place.offset_move, htake]
      simp [hp, show '{'.utf8Size = 1 from rfl, show '}'.utf8Size = 1 from rfl, Nat.add_assoc]
    · rw [Place.before_move, htake]
      simp [hp]
    · simp [hp, List.drop_append]
  have hmarkup := Node.markup_print _ hprint
  rw [Node.print, Expression.length_print, hmove] at hmarkup
  exact hmarkup

theorem markup_braces_template :
    let e := "[`$\x7b \x7bc: 1\x7d \x7d`, /* \x7d */ {d: 2}]".toList
    Brace.Closed .braces (e.map Brace.Sign.ofChar) ∧
      (markup 0 0 [] ('{' :: (e ++ '}' :: "{x}".toList))).regions =
        [⟨⟨1, 32⟩, expression, false⟩, ⟨⟨34, 35⟩, expression, false⟩] := by
  intro e
  have hclosed : Brace.Closed .braces (e.map Brace.Sign.ofChar) :=
    (markup_braces 0 [] e "{x}".toList).1.mp (by decide +kernel)
  refine ⟨hclosed, ?_⟩
  rw [(markup_braces 0 [] e "{x}".toList).2 hclosed]
  decide +kernel

theorem exists_isExpression_unclosed :
    (∀ e ∈ ["<p>it's</p>", "<a b=\"\\\"/>", "1 // a\r + 1", "/\x7d/"],
      Script.isExpression expression e.toList = true ∧
        Brace.size? Brace.Sign.ofChar ('{' :: (e.toList ++ ['}'])) ≠ some (e.length + 2)) ∧
      (scan ('{' :: ("<p>it's</p>".toList ++ '}' :: "{x}".toList))).regions = [] ∧
      (scan ('{' :: ("/\x7d/".toList ++ '}' :: "{x}".toList))).regions =
        [⟨⟨1, 2⟩, expression, false⟩, ⟨⟨6, 7⟩, expression, false⟩] := by
  refine ⟨?_, ?_, ?_⟩ <;> decide +kernel

end Astro
end MetaInline
