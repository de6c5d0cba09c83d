import Mathlib
import MetaInline.Proofs.Script.Lexeme
import MetaInline.Proofs.Script.Nesting
import MetaInline.Script.Cursor

/-! What reading preserves. The cursor stays in the text and never goes back, and what is read on the
way nests and stands in the order in which it is read. -/

namespace MetaInline.Script

open Std.Internal.Do
open Text (IsBoundary)

set_option mvcgen.warning false

class Source where
  text : Text

open Source (text)

variable [Source]

structure Tree.Between (lo hi : ℕ) (t : Tree) : Prop where
  nested : t.Nested text
  le_start : lo ≤ t.span.start
  stop_le : t.span.stop ≤ hi

@[grind =] def Chained (lo hi : ℕ) : List Tree → Prop
  | [] => True
  | t :: ts => t.Between lo hi ∧ Chained t.span.stop hi ts

@[grind =] def reach (lo : ℕ) : List Tree → ℕ
  | [] => lo
  | t :: ts => reach t.span.stop ts

variable {lo lo' hi hi' : ℕ} {t : Tree} {ts ts' : List Tree}

@[grind →] lemma Tree.Nested.le (h : t.Nested text) : t.span.start ≤ t.span.stop :=
  h.isIn.le

@[grind =] lemma between_iff :
    t.Between lo hi ↔ t.Nested text ∧ lo ≤ t.span.start ∧ t.span.stop ≤ hi :=
  ⟨fun h => ⟨h.nested, h.le_start, h.stop_le⟩, fun h => ⟨h.1, h.2.1, h.2.2⟩⟩

lemma Chained.mono (h : Chained lo hi ts) (hlo : lo' ≤ lo) (hhi : hi ≤ hi') :
    Chained lo' hi' ts := by
  induction ts generalizing lo lo' with
  | nil => trivial
  | cons t ts ih =>
    obtain ⟨ht, hts⟩ := h
    exact ⟨⟨ht.nested, hlo.trans ht.le_start, ht.stop_le.trans hhi⟩, ih hts le_rfl⟩

@[grind =] lemma chained_append :
    Chained lo hi (ts ++ ts') ↔ Chained lo hi ts ∧ Chained (reach lo ts) hi ts' := by
  induction ts generalizing lo with
  | nil => simp [Chained, reach]
  | cons t ts ih => simp [Chained, reach, ih, and_assoc]

omit [Source] in
@[grind =] lemma reach_append : reach lo (ts ++ ts') = reach (reach lo ts) ts' := by
  induction ts generalizing lo with
  | nil => rfl
  | cons t ts ih => exact ih

lemma Chained.reach_le (h : Chained lo hi ts) (lo' : ℕ) :
    reach lo' ts = lo' ∨ reach lo' ts ≤ hi := by
  induction ts generalizing lo lo' with
  | nil => exact Or.inl rfl
  | cons t ts ih =>
    obtain ⟨ht, hts⟩ := h
    rcases ih hts t.span.stop with h | h
    · exact Or.inr (h.trans_le ht.stop_le)
    · exact Or.inr h

lemma Chained.of_mem (h : Chained lo hi ts) (ht : t ∈ ts) : t.Between lo hi := by
  induction ts generalizing lo with
  | nil => cases ht
  | cons t' ts ih =>
    obtain ⟨ht', hts⟩ := h
    rcases List.mem_cons.mp ht with rfl | ht
    · exact ht'
    · have hb := ih hts ht
      exact ⟨hb.nested, ht'.le_start.trans (ht'.nested.le.trans hb.le_start), hb.stop_le⟩

lemma Chained.le (h : Chained lo hi ts) (hne : ts ≠ []) : lo ≤ hi := by
  obtain ⟨t, ht⟩ := List.exists_mem_of_ne_nil ts hne
  have hb := h.of_mem ht
  exact hb.le_start.trans (hb.nested.le.trans hb.stop_le)

lemma Chained.pairwise (h : Chained lo hi ts) :
    ts.Pairwise fun a b => a.span.stop ≤ b.span.start := by
  induction ts generalizing lo with
  | nil => exact .nil
  | cons t ts ih => exact .cons (fun b hb => (h.2.of_mem hb).le_start) (ih h.2)

grind_pattern Chained.mono => Chained lo hi ts, Chained lo' hi' ts
grind_pattern Chained.reach_le => Chained lo hi ts, reach lo' ts

lemma Chained.nested {t : Tree} (h : Chained t.span.start t.span.stop t.parts)
    (hin : t.span.IsIn text)
    (hhead : ∀ a, t.head? = some a → a.span.start = t.span.start ∧ a.span.stop < t.span.stop)
    (hline : t.head?.isSome = true → ¬ Text.IsAfterNewline text t.span.stop)
    (hspelled : ∀ s, t = .importMeta s → Tree.IsImportMeta text s)
    (hreadable : ∀ s v, t = .literal s v → v.IsReadable) : t.Nested text :=
  ⟨hin, fun _ hc => Span.covers_iff.mpr ⟨(h.of_mem hc).le_start, (h.of_mem hc).stop_le⟩,
    h.pairwise, hhead, hline, hspelled, hreadable, fun _ hc => (h.of_mem hc).nested⟩

variable {s : Span} {x : String} {b : Bool}

@[grind ←] lemma nested_node {k : Kind} (hs : s.IsIn text) (h : Chained s.start s.stop ts) :
    (Tree.node k s ts).Nested text :=
  Chained.nested h hs nofun nofun nofun nofun

lemma nested_node_extend {k : Kind} {m n : ℕ} (h : (Tree.node k s ts).Nested text)
    (hm : s.start = m) (hn : s.stop ≤ n) (hb : IsBoundary text n) :
    (Tree.node k ⟨m, n⟩ ts).Nested text := by
  have hin := h.isIn
  subst hm
  refine ⟨⟨hin.le.trans hn, hin.start, hb⟩, fun c hc => ?_, h.sorted, nofun, nofun, nofun, nofun,
    fun c hc => h.of_mem hc⟩
  exact Span.covers_trans (by simp [hn]) (h.inside hc)

@[grind ←] lemma nested_literal {v : Literal} (hs : s.IsIn text) (hv : v.IsReadable) :
    (Tree.literal s v).Nested text := by
  refine Chained.nested (t := .literal s v) trivial hs nofun nofun nofun ?_
  rintro _ _ ⟨⟩
  exact hv

lemma nested_importMeta (hs : s.IsIn text) (h : Tree.IsImportMeta text s) :
    (Tree.importMeta s).Nested text := by
  refine Chained.nested (t := .importMeta s) trivial hs nofun nofun ?_ nofun
  rintro _ ⟨⟩
  exact h

@[grind ←] lemma nested_parens (hs : s.IsIn text) (h : Chained s.start s.stop [t]) :
    (Tree.parens s t).Nested text :=
  Chained.nested h hs nofun nofun nofun nofun

@[grind ←] lemma nested_chain (hs : s.IsIn text) (h : Chained s.start s.stop [t]) :
    (Tree.chain s t).Nested text :=
  Chained.nested h hs nofun nofun nofun nofun

@[grind ←] lemma nested_minus (hs : s.IsIn text) (h : Chained s.start s.stop [t]) :
    (Tree.minus s t).Nested text :=
  Chained.nested h hs nofun nofun nofun nofun

@[grind ←] lemma nested_index {key : Tree} (hs : s.IsIn text)
    (h : Chained s.start s.stop [t, key]) : (Tree.index s t key b).Nested text :=
  Chained.nested h hs nofun nofun nofun nofun

@[grind ←] lemma nested_member (hs : s.IsIn text) (ht : t.Nested text)
    (hstart : t.span.start = s.start) (hstop : t.span.stop < s.stop)
    (hline : ¬ Text.IsAfterNewline text s.stop) : (Tree.member s t x b).Nested text := by
  refine Chained.nested ⟨⟨ht, hstart.ge, hstop.le⟩, trivial⟩ hs ?_ (fun _ => hline) nofun nofun
  rintro a ⟨⟩
  exact ⟨hstart, hstop⟩

@[grind ←] lemma nested_call (hs : s.IsIn text) (h : Chained s.start s.stop (t :: (ts ++ ts')))
    (hstart : t.span.start = s.start) (hstop : t.span.stop < s.stop)
    (hline : ¬ Text.IsAfterNewline text s.stop) : (Tree.call s t ts ts' b).Nested text := by
  refine Chained.nested h hs ?_ (fun _ => hline) nofun nofun
  rintro a ⟨⟩
  exact ⟨hstart, hstop⟩

@[grind ←] lemma isIn_mk {m n : ℕ} (h : m ≤ n) (hm : IsBoundary text m)
    (hn : IsBoundary text n) : (⟨m, n⟩ : Span).IsIn text :=
  ⟨h, hm, hn⟩

namespace Cursor

structure Sound (c : Cursor) : Prop where
  lexeme : c.lexeme.Sound text
  stop : IsBoundary text c.lastStop
  stop_le : c.lastStop ≤ c.lexeme.start

variable {c d e : Cursor}

@[grind →] lemma Sound.isBoundary_start (h : c.Sound) : IsBoundary text c.lexeme.start :=
  h.lexeme.here.isBoundary

@[grind →] lemma Sound.isBoundary_stop (h : c.Sound) : IsBoundary text c.lexeme.stop :=
  h.lexeme.rest.isBoundary

@[grind →] lemma Sound.lt (h : c.Sound) (hd : c.lexeme.token ≠ .done)
    (hm : c.lexeme.token ≠ .malformed) : c.lexeme.start < c.lexeme.stop :=
  h.lexeme.lt hd hm

@[grind →] lemma Sound.lt_of_keywordOf {k : Keyword} (h : c.Sound)
    (hk : Parse.keywordOf c.lexeme.token = some k) : c.lexeme.start < c.lexeme.stop := by
  refine h.lt ?_ ?_ <;> intro ht <;> simp [ht, Parse.keywordOf] at hk

@[grind →] lemma Sound.le (h : c.Sound) :
    c.lastStop ≤ c.lexeme.start ∧ c.lexeme.start ≤ c.lexeme.stop ∧ IsBoundary text c.lastStop :=
  ⟨h.stop_le, h.lexeme.le, h.stop⟩

@[grind →] lemma Sound.isReadable_number {x : Double} (h : c.Sound)
    (hx : c.lexeme.token = .number x) : (Literal.number x).IsReadable := by
  have hs := h.lexeme.spelled
  rwa [hx] at hs

@[grind →] lemma Sound.isReadable_regexp {r : RegExp} (h : c.Sound)
    (hr : c.lexeme.token = .regexp r) : (Literal.regexp r).IsReadable := by
  have hs := h.lexeme.spelled
  rwa [hr] at hs

@[grind →] lemma Sound.inLine_word {x : String} {k : Option Keyword} {escaped : Bool} (h : c.Sound)
    (hx : c.lexeme.token = .word x k escaped) : ¬ Text.IsAfterNewline text c.lexeme.stop :=
  h.lexeme.inLine (hx ▸ trivial)

@[grind →] lemma Sound.inLine_punct {p : Punct} (h : c.Sound) (hp : c.lexeme.token = .punct p) :
    ¬ Text.IsAfterNewline text c.lexeme.stop :=
  h.lexeme.inLine (hp ▸ trivial)

lemma Sound.advance (h : c.Sound) (markup : Bool) :
    ({ c with lexeme := c.lexeme.next markup, lastStop := c.lexeme.stop } : Cursor).Sound :=
  ⟨(h.lexeme.next markup).1, h.isBoundary_stop, (h.lexeme.next markup).2⟩

lemma Sound.reread (h : c.Sound) {f : Lexeme → Lexeme}
    (hf : (f c.lexeme).Sound text ∧ (f c.lexeme).start = c.lexeme.start) :
    ({ c with lexeme := f c.lexeme } : Cursor).Sound :=
  ⟨hf.1, h.stop, h.stop_le.trans_eq hf.2.symm⟩

@[grind ←] lemma Sound.defaults (h : c.Sound) (places : List ℕ) :
    ({ c with pendingDefaults := places } : Cursor).Sound :=
  ⟨h.lexeme, h.stop, h.stop_le⟩

lemma Sound.attributeValue (h : c.Sound) : ({ c with
    lexeme := c.lexeme.attributeValue, lastStop := c.lexeme.stop } : Cursor).Sound :=
  ⟨h.lexeme.attributeValue.1, h.isBoundary_stop, h.lexeme.attributeValue.2⟩

lemma Sound.elementText (h : c.Sound) : ({ c with
    lexeme := c.lexeme.elementText.2, lastStop := c.lexeme.stop } : Cursor).Sound :=
  ⟨h.lexeme.elementText.1, h.isBoundary_stop, h.lexeme.elementText.2⟩

lemma Sound.here_of_keywordOf {k : Keyword} (h : c.Sound)
    (hk : Parse.keywordOf c.lexeme.token = some k) :
    ∃ w, (w, k) ∈ Keyword.spellings ∧ c.lexeme.here = w ++ c.lexeme.rest := by
  have hs := h.lexeme.spelled
  cases ht : c.lexeme.token with
  | word name k' escaped =>
    rw [ht] at hs hk
    cases escaped with
    | true => cases hk
    | false =>
      obtain rfl : k' = some k := hk
      exact ⟨_, hs⟩
  | _ => simp [ht, Parse.keywordOf] at hk

lemma Sound.isImportMeta (hc : c.Sound) (hd : d.Sound) (he : e.Sound)
    (himport : Parse.keywordOf c.lexeme.token = some .kwImport)
    (hdot : d.lexeme.token = .punct .dot)
    (hmeta : Parse.keywordOf e.lexeme.token = some .kwMeta)
    (hcd : c.lexeme.stop ≤ d.lexeme.start) (hde : d.lexeme.stop ≤ e.lexeme.start) :
    Tree.IsImportMeta text ⟨c.lexeme.start, e.lexeme.stop⟩ := by
  have hspelling : ∀ x ∈ Keyword.spellings, (x.2 = .kwImport → x.1 = "import".toList) ∧
      (x.2 = .kwMeta → x.1 = "meta".toList) := by decide
  obtain ⟨w, hw, himport⟩ := hc.here_of_keywordOf himport
  obtain rfl := (hspelling _ hw).1 rfl
  obtain ⟨w, hw, hmeta⟩ := he.here_of_keywordOf hmeta
  obtain rfl := (hspelling _ hw).2 rfl
  have hdot : d.lexeme.here = '.' :: d.lexeme.rest := by
    have hs := hd.lexeme.spelled
    rwa [hdot] at hs
  obtain ⟨gap, w, hgap, -, hw⟩ := hc.lexeme.rest.exists_append hcd hd.isBoundary_start
  obtain rfl := hw.unique hd.lexeme.here
  obtain ⟨gap', w, hgap', -, hw⟩ := hd.lexeme.rest.exists_append hde he.isBoundary_start
  obtain rfl := hw.unique he.lexeme.here
  have hle : c.lexeme.start ≤ e.lexeme.stop :=
    hc.le.2.1.trans (hcd.trans (hd.le.2.1.trans (hde.trans he.le.2.1)))
  obtain ⟨v, rest, hv, hsize, hrest⟩ := hc.lexeme.here.exists_append hle he.isBoundary_stop
  obtain rfl := hrest.unique he.lexeme.rest
  have hall : c.lexeme.here =
      ("import".toList ++ (gap ++ '.' :: (gap' ++ "meta".toList))) ++ e.lexeme.rest := by
    rw [himport, hgap, hdot, hgap', hmeta]
    simp
  obtain rfl := List.append_cancel_right (hv.symm.trans hall)
  exact ⟨gap, gap', Text.slice?_eq_some_iff.mpr ⟨hle, _, hv ▸ hc.lexeme.here, hsize⟩⟩

end Cursor

variable {α β : Type}

/-- From `c₀` on, `p` reads something of which `P` holds, if it does not fail. -/
abbrev Reads (p : Parse α) (c₀ : Cursor) (P : α → Cursor → Prop) : Prop :=
  Triple p (fun c => c = c₀ ∧ c.Sound)
    (fun a c => c.Sound ∧ c₀.lexeme.start ≤ c.lexeme.start ∧ c₀.lastStop ≤ c.lastStop ∧ P a c) True

abbrev ReadsTree (p : Parse Tree) (c₀ : Cursor) : Prop :=
  Reads p c₀ fun t c => t.Between c₀.lexeme.start c.lastStop

@[grind =] def Tree.StandsAt (start : ℕ) (t : Tree) (c : Cursor) : Prop :=
  t.Nested text ∧ t.span.start = start ∧ t.span.stop ≤ c.lastStop

abbrev ReadsFrom (start : ℕ) (p : Parse Tree) (c₀ : Cursor) : Prop :=
  Reads p c₀ (Tree.StandsAt start)

@[grind =] def Begun (start : ℕ) (ts : List Tree) (c : Cursor) : Prop :=
  IsBoundary text start ∧ start ≤ c.lexeme.start ∧ Chained start c.lastStop ts

abbrev ReadsTrees (p : Parse (List Tree)) (c₀ : Cursor) : Prop :=
  Reads p c₀ fun ts c => Chained c₀.lexeme.start c.lastStop ts

abbrev ReadsSome (p : Parse (List Tree)) (c₀ : Cursor) : Prop :=
  Reads p c₀ fun ts c =>
    Chained c₀.lexeme.start c.lastStop ts ∧ c₀.lexeme.start ≤ c.lastStop

variable {c₀ : Cursor} {P : α → Cursor → Prop}

omit [Source] in
lemma triple_iff {R : Cursor → Prop} {p : Parse α} :
    Triple p R P True ↔ ∀ c, R c → ∀ a d, p c = some (a, d) → P a d := by
  have hwp (c : Cursor) : wp p P True c ↔ ∀ a d, p c = some (a, d) → P a d := by
    change (p c).elim True (fun x => P x.1 x.2) ↔ _
    cases p c with
    | none => exact ⟨fun _ _ _ h => (nomatch h), fun _ => trivial⟩
    | some x =>
      refine ⟨fun h a d heq => ?_, fun h => h x.1 x.2 rfl⟩
      cases heq
      exact h
  exact ⟨fun h c hc => (hwp c).mp (h.le_wp c hc), fun h => ⟨fun c hc => (hwp c).mpr (h c hc)⟩⟩

lemma reads_iff {p : Parse α} : Reads p c₀ P ↔ (c₀.Sound → ∀ a c, p c₀ = some (a, c) →
    c.Sound ∧ c₀.lexeme.start ≤ c.lexeme.start ∧ c₀.lastStop ≤ c.lastStop ∧ P a c) := by
  rw [Reads, triple_iff]
  constructor
  · exact fun h hc => h c₀ ⟨rfl, hc⟩
  · rintro h c ⟨rfl, hc⟩
    exact h hc

lemma reads_imp {p : Parse α} {Q : α → Cursor → Prop} (h : Reads p c₀ P)
    (hpq : ∀ a c, P a c → Q a c) : Reads p c₀ Q := by
  refine reads_iff.mpr fun hc a c heq => ?_
  obtain ⟨hd, hstart, hstop, ha⟩ := reads_iff.mp h hc a c heq
  exact ⟨hd, hstart, hstop, hpq a c ha⟩

lemma reads_and {p : Parse α} {Q : α → Cursor → Prop} (h : Reads p c₀ P) (h' : Reads p c₀ Q) :
    Reads p c₀ fun a c => P a c ∧ Q a c := by
  refine reads_iff.mpr fun hc a c heq => ?_
  obtain ⟨hd, hstart, hstop, ha⟩ := reads_iff.mp h hc a c heq
  exact ⟨hd, hstart, hstop, ha, (reads_iff.mp h' hc a c heq).2.2.2⟩

/-- A reading that ends in another one. Its own start is named, so as not to be taken for that of the
other one. -/
lemma reads_of {p : Parse α} (h : ∀ start stop, start = c₀.lexeme.start → stop = c₀.lastStop →
    Triple p (fun c => c = c₀ ∧ c.Sound)
      (fun a c => c.Sound ∧ start ≤ c.lexeme.start ∧ stop ≤ c.lastStop ∧ P a c) True) : Reads p c₀ P :=
  h _ _ rfl rfl

namespace Parse

omit [Source] in
@[spec] lemma triple_failure : Triple (failure : Parse α) (fun _ => True) P True :=
  triple_iff.mpr fun _ _ _ _ h => nomatch h

@[spec] lemma reads_lexeme : Reads lexeme c₀ fun l c => c = c₀ ∧ l = c.lexeme := by
  vcgen [lexeme] with finish -ring -linarith

@[spec] lemma reads_token : Reads token c₀ fun t c => c = c₀ ∧ t = c.lexeme.token := by
  vcgen [token] with finish -ring -linarith

@[spec] lemma reads_position : Reads position c₀ fun n c => c = c₀ ∧ n = c.lexeme.start := by
  vcgen [position] with finish -ring -linarith

@[spec] lemma reads_newlineBefore : Reads newlineBefore c₀ fun _ c => c = c₀ := by
  vcgen [newlineBefore] with finish -ring -linarith

@[spec] lemma reads_peek : Reads peek c₀ fun _ c => c = c₀ := by
  vcgen [peek] with finish -ring -linarith

@[spec] lemma reads_spanFrom (n : ℕ) :
    Reads (spanFrom n) c₀ fun s c => c = c₀ ∧ s = ⟨n, c.lastStop⟩ := by
  vcgen [spanFrom] with finish -ring -linarith

@[spec] lemma reads_finish (n : ℕ) (k : Kind) (ts : List Tree) :
    Reads (finish n k ts) c₀ fun t c => c = c₀ ∧ t = .node k ⟨n, c.lastStop⟩ ts := by
  vcgen [finish] with finish -ring -linarith

@[spec] lemma reads_advance : Reads advance c₀ fun _ c => c.lastStop = c₀.lexeme.stop := by
  refine reads_iff.mpr ?_
  rintro h a c ⟨⟩
  have hnext := h.advance c₀.markup
  exact ⟨hnext, h.lexeme.le.trans hnext.stop_le, h.stop_le.trans h.lexeme.le, rfl⟩

@[spec] lemma reads_reread {f : Lexeme → Lexeme}
    (hf : ∀ l, l.Sound text → (f l).Sound text ∧ (f l).start = l.start) :
    Reads (reread f) c₀ fun _ c => c.lexeme.start = c₀.lexeme.start ∧ c.lastStop = c₀.lastStop := by
  refine reads_iff.mpr ?_
  rintro h a c ⟨⟩
  have hstart := (hf _ h.lexeme).2
  exact ⟨h.reread (hf _ h.lexeme), hstart.ge, le_rfl, hstart, rfl⟩

@[spec] lemma reads_check (b : Bool) : Reads (check b) c₀ fun _ c => c = c₀ ∧ b = true := by
  vcgen [check] with finish -ring -linarith

@[spec] lemma reads_isAt (p : Punct) :
    Reads (isAt p) c₀ fun b c => c = c₀ ∧ (b = true ↔ c.lexeme.token = .punct p) := by
  vcgen [isAt] with finish -ring -linarith

@[spec] lemma reads_isAtDone : Reads isAtDone c₀ fun _ c => c = c₀ := by
  vcgen [isAtDone] with finish -ring -linarith

@[spec] lemma reads_isAtWord (k : Keyword) : Reads (isAtWord k) c₀ fun b c =>
    c = c₀ ∧ (b = true → keywordOf c.lexeme.token = some k) := by
  vcgen [isAtWord] with finish -ring -linarith

@[grind =] def Passed (c₀ c : Cursor) : Prop :=
  c.lastStop = c₀.lexeme.stop ∧ c₀.lexeme.start < c.lastStop

lemma reads_accept_token (p : Punct) : Reads (accept p) c₀ fun b c =>
    if b then Passed c₀ c ∧ c₀.lexeme.token = .punct p else c = c₀ := by
  vcgen [accept] with finish -ring -linarith

lemma reads_expectWord_keyword (k : Keyword) : Reads (expectWord k) c₀ fun _ c =>
    Passed c₀ c ∧ keywordOf c₀.lexeme.token = some k := by
  vcgen [expectWord, acceptWord] with finish -ring -linarith

@[spec] lemma reads_accept (p : Punct) : Reads (accept p) c₀ fun b c =>
    if b then Passed c₀ c else c = c₀ ∧ c.lexeme.token ≠ .punct p := by
  vcgen [accept] with finish -ring -linarith

@[spec] lemma reads_acceptWord (k : Keyword) :
    Reads (acceptWord k) c₀ fun b c => if b then Passed c₀ c else c = c₀ := by
  vcgen [acceptWord] with finish -ring -linarith

@[spec] lemma reads_expect (p : Punct) : Reads (expect p) c₀ fun _ c => Passed c₀ c := by
  vcgen [expect] with finish -ring -linarith

@[spec] lemma reads_expectWord (k : Keyword) :
    Reads (expectWord k) c₀ fun _ c => Passed c₀ c := by
  vcgen [expectWord] with finish -ring -linarith

@[spec] lemma reads_semicolon : Reads semicolon c₀ fun _ _ => True := by
  vcgen [semicolon] with finish -ring -linarith

@[spec] lemma reads_lookAhead (p : Parse α) : Reads (lookAhead p) c₀ fun _ c => c = c₀ := by
  refine reads_iff.mpr fun h a c heq => ?_
  obtain ⟨⟨b, d⟩, -, heq⟩ := Option.map_eq_some_iff.mp heq
  cases heq
  exact ⟨h, le_rfl, le_rfl, rfl⟩

lemma reads_attempt {p : Parse α} (hp : Reads p c₀ P) :
    Reads (attempt p) c₀ fun o c => o.elim (c = c₀) (P · c) := by
  refine reads_iff.mpr fun h a c heq => ?_
  unfold attempt at heq
  split at heq
  · next b d hpb =>
    cases heq
    exact reads_iff.mp hp h b c hpb
  · cases heq
    exact ⟨h, le_rfl, le_rfl, rfl⟩

lemma reads_iterate {step : α → Parse (Option α)} {I Q : α → Cursor → Prop}
    (hstep : ∀ a c, I a c → Reads (step a) c fun o d => o.elim (Q a d) (I · d)) (n : ℕ) {a : α}
    (h : I a c₀) : Reads (iterate step n a) c₀ Q := by
  refine reads_iff.mpr ?_
  induction n generalizing a c₀ with
  | zero => exact fun _ _ _ heq => nomatch heq
  | succ n ih =>
    intro hc b c heq
    simp only [iterate] at heq
    split at heq
    · cases heq
    · next d hd =>
      cases heq
      exact reads_iff.mp (hstep a c₀ h) hc none c hd
    · next a' d hd =>
      obtain ⟨hd, hstart, hstop, ha'⟩ := reads_iff.mp (hstep a c₀ h) hc (some a') d hd
      obtain ⟨hc, hstart', hstop', hq⟩ := ih ha' hd b c heq
      exact ⟨hc, hstart.trans hstart', hstop.trans hstop', hq⟩

lemma reads_iterate_true {step : α → Parse (Option α)}
    (h : ∀ a c, Reads (step a) c fun _ _ => True) (n : ℕ) (a : α) :
    Reads (iterate step n a) c₀ fun _ _ => True :=
  reads_iterate (I := fun _ _ => True)
    (fun a c _ => reads_imp (h a c) fun o _ _ => by cases o <;> trivial) n trivial

lemma reads_iterate_tree (lo : ℕ) (c₀ : Cursor) (step : Tree → Parse (Option Tree))
    (hstep : ∀ t c, c.Sound → t.Between lo c.lastStop → Reads (step t) c fun o d =>
      ∀ t' ∈ o, t'.Between lo d.lastStop) (n : ℕ) (t : Tree) (h : t.Between lo c₀.lastStop) :
    Reads (iterate step n t) c₀ fun t c => t.Between lo c.lastStop := by
  refine reads_iterate (I := fun t c => t.Between lo c.lastStop) (fun t c ht => ?_) n h
  refine reads_iff.mpr fun hc o d heq => ?_
  obtain ⟨hd, hstart, hstop, ho⟩ := reads_iff.mp (hstep t c hc ht) hc o d heq
  refine ⟨hd, hstart, hstop, ?_⟩
  cases o with
  | none => exact ⟨ht.nested, ht.le_start, ht.stop_le.trans hstop⟩
  | some t' => exact ho t' rfl

@[grind =] def Gathered (c₀ : Cursor) (f : β → List Tree) (bs : List β) (c : Cursor) : Prop :=
  c₀.lexeme.start ≤ c.lexeme.start ∧ Chained c₀.lexeme.start c.lastStop (bs.reverse.flatMap f)

lemma Gathered.cons {f : β → List Tree} {b : β} {bs : List β} {c d : Cursor} (hc : c.Sound)
    (h : Gathered c₀ f bs c) (hstart : c.lexeme.start ≤ d.lexeme.start)
    (hstop : c.lastStop ≤ d.lastStop) (hb : Chained c.lexeme.start d.lastStop (f b)) :
    Gathered c₀ f (b :: bs) d := by
  refine ⟨h.1.trans hstart, ?_⟩
  rw [List.reverse_cons, List.flatMap_append, chained_append, List.flatMap_singleton]
  refine ⟨h.2.mono le_rfl hstop, hb.mono ?_ le_rfl⟩
  rcases h.2.reach_le c₀.lexeme.start with hr | hr
  · exact hr.trans_le h.1
  · exact hr.trans hc.stop_le

lemma reads_many_flatMap (f : β → List Tree) (passes : Prop) {item : Parse (Option β)}
    (h : ∀ c, Reads item c fun o d => (∀ b ∈ o, Chained c.lexeme.start d.lastStop (f b)) ∧
      (passes → o = none → c.lexeme.start ≤ d.lastStop)) (n : ℕ) :
    Reads (many n item) c₀ fun bs c => Chained c₀.lexeme.start c.lastStop (bs.flatMap f) ∧
      (passes → c₀.lexeme.start ≤ c.lastStop) := by
  have hloop : Reads (iterate (fun bs => do return (← item).map (· :: bs)) n []) c₀ fun bs c =>
      Chained c₀.lexeme.start c.lastStop (bs.reverse.flatMap f) ∧
        (passes → c₀.lexeme.start ≤ c.lastStop) := by
    refine reads_iterate (I := Gathered c₀ f) (fun bs c hbs => ?_) n ⟨le_rfl, trivial⟩
    vcgen [h]
    · grind
    · next e he o d hd =>
      cases o with
      | none => grind [Chained.mono]
      | some b => grind [Gathered.cons]
  refine reads_of fun _ _ _ _ => ?_
  vcgen [many, hloop] with finish -ring -linarith

@[grind =] def itemStop (c : Cursor) : ℕ :=
  if c.lexeme.token = .punct .comma then c.lexeme.start else c.lastStop

lemma reads_commaList_flatMap (f : β → List Tree) {item : Parse β}
    (h : ∀ c, Reads item c fun b d => Chained c.lexeme.start (itemStop d) (f b)) (n : ℕ)
    (close : Punct) : Reads (commaList n close item) c₀ fun bs c =>
      Chained c₀.lexeme.start c.lastStop (bs.flatMap f) := by
  have hloop : ∀ step : List β × Bool → Parse (Option (List β × Bool)),
      (∀ x c, Gathered c₀ f x.1 c → Reads (step x) c fun o d => o.elim
        (Chained c₀.lexeme.start d.lastStop (x.1.reverse.flatMap f)) fun y => Gathered c₀ f y.1 d) →
      Reads (iterate step n ([], true)) c₀ fun x c =>
        Chained c₀.lexeme.start c.lastStop (x.1.reverse.flatMap f) :=
    fun step hstep => reads_iterate hstep n ⟨le_rfl, trivial⟩
  refine reads_of fun _ _ _ _ => ?_
  vcgen [commaList, hloop, h] with finish -ring -linarith [Gathered.cons]

lemma reads_commaList_inLine {item : Parse β} (h : ∀ c, Reads item c fun _ _ => True) (n : ℕ)
    (close : Punct) : Reads (commaList n close item) c₀ fun _ c =>
      ¬ Text.IsAfterNewline text c.lastStop := by
  have hloop (step : List β × Bool → Parse (Option (List β × Bool)))
      (hstep : ∀ x c, Reads (step x) c fun o d => o = none → ¬ Text.IsAfterNewline text d.lastStop) :
      Reads (iterate step n ([], true)) c₀ fun _ c => ¬ Text.IsAfterNewline text c.lastStop := by
    refine reads_iterate (I := fun _ _ => True) (fun x c _ => reads_imp (hstep x c) ?_) n trivial
    intro o d ho
    cases o with
    | none => exact ho rfl
    | some y => trivial
  refine reads_of fun _ _ _ _ => ?_
  vcgen [commaList, hloop, h, reads_accept_token, -reads_accept] with finish -ring -linarith

lemma chained_singleton : Chained lo hi [t] ↔ t.Between lo hi := by
  simp [Chained]

@[spec] lemma reads_many {item : Parse (Option Tree)}
    (h : ∀ c, Reads item c fun o d => ∀ t ∈ o, t.Between c.lexeme.start d.lastStop) (n : ℕ) :
    ReadsTrees (many n item) c₀ := by
  refine reads_imp (reads_many_flatMap ([·]) False (fun c => reads_imp (h c) ?_) n)
    fun ts c hts => ?_
  · exact fun o d ho => ⟨fun t ht => chained_singleton.mpr (ho t ht), False.elim⟩
  · simpa using hts.1

lemma reads_many_passing {item : Parse (Option Tree)}
    (h : ∀ c, Reads item c fun o d => (∀ t ∈ o, t.Between c.lexeme.start d.lastStop) ∧
      (o = none → c.lexeme.start ≤ d.lastStop)) (n : ℕ) : ReadsSome (many n item) c₀ := by
  refine reads_imp (reads_many_flatMap ([·]) True (fun c => reads_imp (h c) ?_) n)
    fun ts c hts => ?_
  · exact fun o d ho => ⟨fun t ht => chained_singleton.mpr (ho.1 t ht), fun _ => ho.2⟩
  · exact ⟨by simpa using hts.1, hts.2 trivial⟩

@[spec] lemma reads_many_unit {item : Parse (Option Unit)}
    (h : ∀ c, Reads item c fun _ _ => True) (n : ℕ) :
    Reads (many n item) c₀ fun _ _ => True := by
  refine reads_imp (reads_many_flatMap (fun _ => []) False (fun c => reads_imp (h c) ?_) n) ?_
  · exact fun _ _ _ => ⟨fun _ _ => trivial, False.elim⟩
  · exact fun _ _ _ => trivial

@[spec] lemma reads_commaList {item : Parse Tree}
    (h : ∀ c, Reads item c fun t d => t.Between c.lexeme.start (itemStop d)) (n : ℕ) (close : Punct) :
    ReadsTrees (commaList n close item) c₀ := by
  refine reads_imp (reads_commaList_flatMap ([·]) (fun c => reads_imp (h c) ?_) n close)
    fun ts c hts => ?_
  · exact fun t d ht => chained_singleton.mpr ht
  · simpa using hts

@[spec] lemma reads_commaList_fst {item : Parse (Tree × β)}
    (h : ∀ c, Reads item c fun x d => x.1.Between c.lexeme.start (itemStop d)) (n : ℕ)
    (close : Punct) : Reads (commaList n close item) c₀ fun xs c =>
      Chained c₀.lexeme.start c.lastStop (xs.map (·.1)) := by
  refine reads_imp (reads_commaList_flatMap (fun x => [x.1]) (fun c => reads_imp (h c) ?_) n close)
    fun xs c hxs => ?_
  · exact fun x d hx => chained_singleton.mpr hx
  · rwa [List.map_eq_flatMap]

@[spec] lemma reads_commaSeparated {item : Parse Tree}
    (h : ∀ c, ReadsTree item c) (n : ℕ) : ReadsSome (commaSeparated n item) c₀ := by
  vcgen [commaSeparated, h] with finish -ring -linarith

end Parse

@[grind =] def Goal.stop : Goal → Cursor → ℕ
  | .element, c => c.lexeme.stop
  | _, c => c.lastStop

structure Rules.Sound (g : Rules) : Prop where
  reads (goal : Goal) (ctx : Context) (c : Cursor) : Reads (g.read goal ctx) c fun t d =>
    t.Between c.lexeme.start (goal.stop d)

namespace Rules.Sound

variable {g : Rules} (h : g.Sound) (ctx : Context) (c : Cursor)

attribute [spec] reads

include h

@[spec] lemma expression : ReadsTree (g.expression ctx) c := h.reads ..

@[spec] lemma assignment : ReadsTree (g.assignment ctx) c := h.reads ..

@[spec] lemma type : ReadsTree (g.type ctx) c := h.reads ..

@[spec] lemma statement : ReadsTree (g.statement ctx) c := h.reads ..

@[spec] lemma pattern : ReadsTree (g.pattern ctx) c := h.reads ..

end Rules.Sound

variable {g : Rules} {c₀ : Cursor} (ctx : Context)

@[spec] lemma reads_name : ReadsTree (name ctx) c₀ := by
  vcgen [name] with finish -ring -linarith

@[spec] lemma reads_word : ReadsTree word c₀ := by
  vcgen [word] with finish -ring -linarith

@[spec] lemma reads_propertyName (hg : g.Sound) : ReadsTree (propertyName g ctx) c₀ := by
  vcgen [propertyName] with finish -ring -linarith

@[spec] lemma reads_isAtAccessor : Reads isAtAccessor c₀ fun _ c => c = c₀ := by
  vcgen [isAtAccessor] with finish -ring -linarith

@[spec] lemma reads_acceptModifier (k : Keyword) :
    Reads (acceptModifier k) c₀ fun b c => if b then Parse.Passed c₀ c else c = c₀ := by
  vcgen [acceptModifier] with finish -ring -linarith

end MetaInline.Script
