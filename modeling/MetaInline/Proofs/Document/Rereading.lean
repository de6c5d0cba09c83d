import Mathlib
import MetaInline.Proofs.Document.BraceClosing
import MetaInline.Proofs.Document.RawContent
import MetaInline.Proofs.Document.Segment

/-! What the reading of markup looks at. Code may be replaced by other code that has no end of it inside;
what stands around it is then read as before, since no part of it is told by a text that goes on past the
sign that opens the code. -/

namespace MetaInline

open Text (size)
open Unicode (isBlank isAsciiLetter)

namespace Text

/-- The texts are the same, or the same up to a sign of which `P` holds. -/
def Alike (P : Char → Prop) (u v : Text) : Prop :=
  u = v ∨ ∃ a z b b', P z ∧ u = a ++ z :: b ∧ v = a ++ z :: b'

namespace Alike

variable {P : Char → Prop} {u v : Text} {z : Char}

lemma refl (u : Text) : Alike P u u := .inl rfl

lemma append (w : Text) (h : Alike P u v) : Alike P (w ++ u) (w ++ v) := by
  rcases h with rfl | ⟨a, z, b, b', hz, rfl, rfl⟩
  · exact .refl _
  · exact .inr ⟨w ++ a, z, b, b', hz, by simp, by simp⟩

lemma of_sign (hz : P z) (b b' : Text) : Alike P (z :: b) (z :: b') :=
  .inr ⟨[], z, b, b', hz, rfl, rfl⟩

lemma symm (h : Alike P u v) : Alike P v u := by
  rcases h with rfl | ⟨a, z, b, b', hz, hu, hv⟩
  · exact .refl _
  · exact .inr ⟨a, z, b', b, hz, hv, hu⟩

lemma eq_nil (h : Alike P [] v) : v = [] := by
  rcases h with rfl | ⟨a, z, b, b', -, hnil, -⟩
  · rfl
  · simp at hnil

lemma congr {β : Type} {f : Text → β} (hf : ∀ a z b, P z → f (a ++ z :: b) = f (a ++ [z]))
    (h : Alike P u v) : f u = f v := by
  rcases h with rfl | ⟨a, z, b, b', hz, rfl, rfl⟩
  · rfl
  · rw [hf a z b hz, hf a z b' hz]

end Alike

lemma prefix_append_cons_iff {word a b : Text} {z : Char} (hz : z ∉ word) :
    word <+: a ++ z :: b ↔ word <+: a := by
  refine ⟨fun h => ?_, fun h => h.trans (List.prefix_append a _)⟩
  obtain ⟨r, hr⟩ := h
  rcases List.append_eq_append_iff.mp hr with ⟨x, rfl, -⟩ | ⟨x, rfl, hx⟩
  · exact List.prefix_append word x
  · cases x with
    | nil => simp
    | cons d x =>
      obtain ⟨rfl, -⟩ := List.cons_eq_cons.mp hx
      simp at hz

lemma cut?_append {word a r : Text} (h : cut? word (a ++ (word ++ r)) = some (a, word ++ r)) (r' : Text) :
    cut? word (a ++ (word ++ r')) = some (a, word ++ r') := by
  induction a with
  | nil =>
    cases word with
    | nil => cases r' <;> simp [cut?, dropFront?]
    | cons c word =>
      rw [List.nil_append, List.cons_append, cut?, ← List.cons_append, dropFront?_append]
      rfl
  | cons c a ih =>
    rw [List.cons_append, cut?] at h ⊢
    split at h
    · simp at h
    · next hfront =>
      obtain ⟨⟨s, t⟩, hcut, heq⟩ := Option.map_eq_some_iff.mp h
      obtain ⟨hs, rfl⟩ := Prod.mk.inj heq
      rw [(List.cons_eq_cons.mp hs).2] at hcut
      -- The word is shorter than the text up to its end.
      have hfront' : ¬ word <+: c :: (a ++ (word ++ r')) := by
        intro hpre
        have hshort : word <+: c :: (a ++ word) := by
          refine List.prefix_of_prefix_length_le hpre ?_ (by simp; omega)
          exact ⟨r', by simp⟩
        refine hfront (isSome_dropFront?_iff.mpr (hshort.trans ⟨r, by simp⟩))
      rw [if_neg (mt isSome_dropFront?_iff.mp hfront'), ih hcut]
      rfl

end Text

namespace Astro

variable {u v w r r' rest word : Text} {c z : Char} {n : ℕ} {p q : Place} {tag : Text}

def IsOpening (c : Char) : Prop :=
  c = '{' ∨ c = '>'

def IsClosing (c : Char) : Prop :=
  c = '}' ∨ c = '<' ∨ c = '-'

abbrev Follow : Text → Text → Prop := Text.Alike IsOpening

abbrev Precede : Text → Text → Prop := Text.Alike IsClosing

inductive Form where
  | comment
  | raw (kind : RawKind)
  | tag
  | braces
  | plain

def opensTag : Text → Bool
  | '<' :: d :: _ => isAsciiLetter d || d == '/'
  | _ => false

def form (u : Text) : Form :=
  if "<!--".toList.isPrefixOf u then .comment
  else if opens RawKind.script.word u then .raw .script
  else if opens RawKind.style.word u then .raw .style
  else if opensTag u then .tag
  else if u.head? = some '{' then .braces
  else .plain

def commentAt (p : Place) : ℕ × Scan :=
  (sizePast "-->".toList p.rest, .empty)

def bracesAt (p : Place) : ℕ × Scan :=
  match Brace.size? Brace.Sign.ofChar p.rest with
  | some n => (n, braced p n)
  | none => (p.rest.length, .empty)

def Form.read (form : Form) (p : Place) : ℕ × Scan :=
  match form with
  | .comment => commentAt p
  | .raw kind => rawElement kind.word kind.isCode p
  | .tag => Astro.tag p
  | .braces => bracesAt p
  | .plain => (1, .empty)

lemma item_eq_form (hp : p.rest ≠ []) : item p = (form p.rest).read p := by
  obtain ⟨c, cs, hr⟩ := List.exists_cons_of_ne_nil hp
  have hcomment : "<!--".toList.isPrefixOf (c :: cs) = (Text.dropFront? "<!--".toList (c :: cs)).isSome := by
    rw [Bool.eq_iff_iff, Text.isSome_dropFront?_iff, List.isPrefixOf_iff_prefix]
  have htag : opensTag (c :: cs) =
      (c == '<' && cs.head?.any fun d => isAsciiLetter d || d == '/') := by
    cases cs with
    | nil => simp [opensTag]
    | cons d cs => by_cases hc : c = '<' <;> simp [opensTag, hc]
  have hbrace : ((c :: cs).head? = some '{') = (c = '{') := by simp
  have hword : RawKind.script.word = "script".toList ∧ RawKind.style.word = "style".toList := ⟨rfl, rfl⟩
  rw [item, form, hr]
  simp only [hcomment, htag, hbrace, hword, beq_iff_eq, apply_ite (Form.read · p)]
  simp only [Form.read, commentAt, bracesAt, hr, hword]
  rfl

lemma toLower_inj_of_isOpening (hz : IsOpening z) (h : c.toLower = z.toLower) : c = z := by
  have hz' : z.toLower = z := by rcases hz with rfl | rfl <;> rfl
  rw [hz'] at h
  rcases lt_or_ge c.toNat 128 with hc | hc
  · rcases hz with rfl | rfl
    · exact Text.forall_of_between (P := fun c => c.toLower = '{' → c = '{') c (Nat.zero_le _) hc
        (by decide) h
    · exact Text.forall_of_between (P := fun c => c.toLower = '>' → c = '>') c (Nat.zero_le _) hc
        (by decide) h
  · rwa [toLower_of_le hc] at h

lemma dropFrontNoCase?_append (hz : IsOpening z) (hword : z ∉ word) (a b : Text) :
    dropFrontNoCase? word (a ++ z :: b) = (dropFrontNoCase? word a).map (· ++ z :: b) := by
  induction word generalizing a with
  | nil => rfl
  | cons w word ih =>
    obtain ⟨hw, hword⟩ := not_or.mp (mt List.mem_cons.mpr hword)
    cases a with
    | nil => exact if_neg fun h => hw (toLower_inj_of_isOpening hz h).symm
    | cons c a =>
      rw [List.cons_append, dropFrontNoCase?, dropFrontNoCase?, ih hword]
      split <;> rfl

lemma opens_append (hz : IsOpening z) (hword : z ∉ word) (a b : Text) :
    opens word (a ++ z :: b) = opens word (a ++ [z]) := by
  have hless : z ∉ '<' :: word := by
    rcases hz with rfl | rfl <;> simpa using hword
  rw [opens, opens, dropFrontNoCase?_append hz hless, dropFrontNoCase?_append hz hless]
  cases dropFrontNoCase? ('<' :: word) a with
  | none => rfl
  | some a => cases a <;> rfl

lemma form_congr (h : Follow u v) : form u = form v := by
  refine Text.Alike.congr (fun a z b hz => ?_) h
  have hcomment : "<!--".toList.isPrefixOf (a ++ z :: b) = "<!--".toList.isPrefixOf (a ++ [z]) := by
    have hsign : z ∉ "<!--".toList := by rcases hz with rfl | rfl <;> decide
    rw [Bool.eq_iff_iff, List.isPrefixOf_iff_prefix, List.isPrefixOf_iff_prefix,
      Text.prefix_append_cons_iff hsign, Text.prefix_append_cons_iff hsign]
  have hopens (kind : RawKind) : opens kind.word (a ++ z :: b) = opens kind.word (a ++ [z]) := by
    refine opens_append hz ?_ a b
    rcases hz with rfl | rfl <;> cases kind <;> decide
  have htag : opensTag (a ++ z :: b) = opensTag (a ++ [z]) := by
    have hless : z ≠ '<' := by rcases hz with rfl | rfl <;> decide
    match a with
    | [] => simp [opensTag, hless]
    | [c] => by_cases hc : c = '<' <;> simp [opensTag, hc]
    | c :: d :: a => by_cases hc : c = '<' <;> simp [opensTag, hc]
  have hhead : (a ++ z :: b).head? = (a ++ [z]).head? := by cases a <;> rfl
  rw [form, form, hcomment, hopens, hopens, htag, hhead]

lemma sizePast_eq (h : sizePast word (w ++ r) = w.length) :
    r = [] ∨ ∀ r', sizePast word (w ++ r') = w.length := by
  rw [sizePast] at h
  split at h
  · next a t hcut =>
    obtain ⟨x, rfl⟩ := Text.exists_append_of_cut? hcut
    have hsplit := Text.eq_append_of_cut? hcut
    rw [← List.append_assoc] at hsplit
    obtain ⟨rfl, rfl⟩ := List.append_inj hsplit (by simp [← h])
    rw [List.append_assoc] at hcut
    refine .inr fun r' => ?_
    rw [sizePast, List.append_assoc, Text.cut?_append hcut r']
    exact List.length_append.symm
  · left
    simpa using h

lemma sizePast_eq_length (h : sizePast word (w ++ r) = w.length) (hr : r = [] → r' = []) :
    sizePast word (w ++ r') = w.length := by
  rcases sizePast_eq h with rfl | hall
  · rwa [hr rfl]
  · exact hall r'

lemma sizePast_take (word u : Text) : sizePast word (u.take (sizePast word u) ++ u.drop (sizePast word u)) =
    (u.take (sizePast word u)).length := by
  rw [List.take_append_drop, List.length_take, min_eq_left (sizePast_le word u)]

lemma exists_of_size? {cs : Text} (h : Brace.size? Brace.Sign.ofChar ('{' :: cs) = some n) :
    ∃ e rest, cs = e ++ '}' :: rest ∧ n = e.length + 2 ∧
      Brace.Closed .braces (e.map Brace.Sign.ofChar) := by
  obtain ⟨e, rest, rfl, rfl, -⟩ := Brace.size?_eq_some_iff.mp h
  exact ⟨e, rest, rfl, rfl, (Brace.size?_eq_length_iff rfl rfl e rest).mp h⟩

def expressionOf (h : Brace.Closed .braces (u.map Brace.Sign.ofChar)) : Expression :=
  ⟨u, (Brace.size?_eq_length_iff rfl rfl u []).mpr h⟩

section

variable {w : Char}

lemma findNoCase_spec (hword : (w :: word).map Char.toLower = w :: word) (u : Text) :
    match findNoCase (w :: word) u with
    | none => ¬ (w :: word) <:+: u.map Char.toLower
    | some n => ∃ a x t, u = a ++ (x ++ t) ∧ a.length = n ∧ x.map Char.toLower = w :: word ∧
      ¬ (w :: word) <:+: a.map Char.toLower := by
  induction u with
  | nil => simp [findNoCase]
  | cons c u ih =>
    rw [findNoCase]
    cases hd : dropFrontNoCase? (w :: word) (c :: u) with
    | some t =>
      obtain ⟨x, hx, hlower⟩ := dropFrontNoCase?_eq_some_iff.mp hd
      exact ⟨[], x, t, hx, rfl, hlower.trans hword, by simp⟩
    | none =>
      have hfront (v r : Text) (hv : c :: u = v ++ r) : ¬ (w :: word) <+: v.map Char.toLower := by
        rintro ⟨s, hs⟩
        obtain ⟨x, y, rfl, hx, -⟩ := List.map_eq_append_iff.mp hs.symm
        have hsome := dropFrontNoCase?_eq_some_iff.mpr
          ⟨x, hv.trans (List.append_assoc ..), hx.trans hword.symm⟩
        rw [hd] at hsome
        cases hsome
      cases hf : findNoCase (w :: word) u with
      | none =>
        rw [hf] at ih
        simp only [Option.isSome_none, Bool.false_eq_true, if_false, Option.map_none]
        rw [List.map_cons, List.infix_cons_iff, not_or]
        exact ⟨hfront (c :: u) [] (by simp), ih⟩
      | some n =>
        rw [hf] at ih
        obtain ⟨a, x, t, rfl, rfl, hx, ha⟩ := ih
        simp only [Option.isSome_none, Bool.false_eq_true, if_false, Option.map_some]
        refine ⟨c :: a, x, t, rfl, rfl, hx, ?_⟩
        rw [List.map_cons, List.infix_cons_iff, not_or]
        exact ⟨hfront (c :: a) (x ++ t) (by simp), ha⟩

end

structure Inert (dialect : Script.Dialect) (v : Text) : Prop where
  nonblank : v.all isBlank = false
  content : dialect = script → ¬ ('<' :: '/' :: RawKind.script.word) <:+: v.map Char.toLower
  braces : dialect = expression → Brace.Closed .braces (v.map Brace.Sign.ofChar)

abbrev Replaced : List Segment → List Segment → Prop :=
  List.Forall₂ (Segment.Becomes fun dialect _ v => Inert dialect v)

def held (dialect : Script.Dialect) (u : Text) : Segment :=
  if u.all isBlank then .kept u else .code dialect false u

open Segment (kept code printAll regions)

section

variable {dialect : Script.Dialect} {x y : Segment} {xs xs' ys : List Segment} {offset : ℕ}

@[simp] lemma text_held (dialect : Script.Dialect) (u : Text) : (held dialect u).text = u := by
  rw [held]
  split <;> rfl

lemma regions_held (dialect : Script.Dialect) (offset : ℕ) (u : Text) (xs : List Segment) :
    regions offset (held dialect u :: xs) =
      (codeOf dialect offset u).regions ++ regions (offset + size u) xs := by
  rw [held, codeOf]
  split <;> rfl

lemma exists_of_becomes_held {Q : Text → Prop} (hQ : ∀ v, Inert dialect v → Q v) (hu : Q u)
    (h : Segment.Becomes (fun dialect _ v => Inert dialect v) (held dialect u) y) :
    ∃ v, Q v ∧ y = held dialect v ∧ (u = [] → v = []) := by
  rw [held] at h
  split at h
  · next hblank =>
    cases h
    exact ⟨u, hu, by rw [held, if_pos hblank], id⟩
  · next hblank =>
    cases h with
    | code _ hv =>
      refine ⟨_, hQ _ hv, ?_, ?_⟩
      · rw [held, hv.nonblank, if_neg Bool.false_ne_true]
      · rintro rfl
        simp at hblank

lemma becomes_held_self (h : u.all isBlank = false → Inert dialect u) :
    Segment.Becomes (fun dialect _ v => Inert dialect v) (held dialect u) (held dialect u) := by
  rw [held]
  split
  · exact .kept u
  · next hblank => exact .code u (h (Bool.eq_false_iff.mpr hblank))

lemma exists_of_replaced_append (h : Replaced (xs ++ xs') ys) :
    ∃ zs zs', ys = zs ++ zs' ∧ Replaced xs zs ∧ Replaced xs' zs' := by
  induction xs generalizing ys with
  | nil => exact ⟨[], ys, rfl, .nil, h⟩
  | cons x xs ih =>
    cases h with
    | cons hx hxs =>
      obtain ⟨zs, zs', rfl, hzs, hzs'⟩ := ih hxs
      exact ⟨_ :: zs, zs', rfl, .cons hx hzs, hzs'⟩

lemma eq_of_replaced_kept (h : Replaced [kept u] ys) : ys = [kept u] := by
  cases h with
  | cons hx hxs =>
    cases hx
    cases hxs
    rfl

def ClosesAlike (xs : List Segment) : Prop :=
  ∀ ys b b', Replaced xs ys → Precede b b' →
    Precede ((printAll xs).reverse ++ b) ((printAll ys).reverse ++ b')

lemma ClosesAlike.append (h : ClosesAlike xs) (h' : ClosesAlike xs') : ClosesAlike (xs ++ xs') := by
  intro ys b b' hys hb
  obtain ⟨zs, zs', rfl, hzs, hzs'⟩ := exists_of_replaced_append hys
  have hclose := h' zs' _ _ hzs' (h zs b b' hzs hb)
  simpa using hclose

lemma closesAlike_nil : ClosesAlike [] := by
  intro ys b b' hys hb
  cases hys
  exact hb

lemma closesAlike_kept (u : Text) : ClosesAlike [kept u] := by
  intro ys b b' hys hb
  rw [eq_of_replaced_kept hys]
  exact hb.append _

lemma closesAlike_code (hz : IsClosing z) (x : Segment) (u : Text) : ClosesAlike [x, kept (z :: u)] := by
  intro ys b b' hys hb
  have hboth : Replaced ([x] ++ [kept (z :: u)]) ys := hys
  obtain ⟨zs, zs', rfl, -, hzs'⟩ := exists_of_replaced_append hboth
  rw [eq_of_replaced_kept hzs']
  have hsign := (Text.Alike.of_sign hz (x.text.reverse ++ b) ((printAll zs).reverse ++ b')).append
    u.reverse
  simpa using hsign

end

section

abbrev Reading := Place → ℕ → List Region → Prop

def Finds (f : Place → ℕ × Scan) : Reading :=
  fun p n rs => (f p).1 = n ∧ (f p).2.regions = rs

def FindsPart (tag : Text) : Reading :=
  fun p n rs => ∃ s, part? tag p = some (n, s) ∧ s.regions = rs

def EndsToo (r r' : Text) : Prop :=
  r = [] → r' = []

variable {read read' read'' : Reading} {next next' : Text → Text → Prop} {xs xs' : List Segment}

/-- At a place `xs` is read, and then comes `r`. In other places this is read as well, with other code, as
long as `next` holds of what comes after it. -/
structure Rereads (next : Text → Text → Prop) (read : Reading) (p : Place) (xs : List Segment)
    (r : Text) : Prop where
  rest : p.rest = printAll xs ++ r
  self : Replaced xs xs
  again : ∀ ys q r', Replaced xs ys → q.rest = printAll ys ++ r' → next r r' →
    Precede p.before q.before → read q (printAll ys).length (regions q.offset ys)

/-- Nor is it seen from the front which code has been put in. -/
structure Stable (next : Text → Text → Prop) (read : Reading) (p : Place) (xs : List Segment)
    (r : Text) : Prop extends Rereads next read p xs r where
  opens : ∀ ys r', Replaced xs ys → next r r' → Follow (printAll xs ++ r) (printAll ys ++ r')

lemma Rereads.reads (h : Rereads next read p xs r) (hr : next r r) :
    read p (printAll xs).length (regions p.offset xs) :=
  h.again xs p r h.self h.rest hr (.refl _)

lemma Stable.mono (h : Stable next read p xs r) (hnext : ∀ r', next' r r' → next r r') :
    Stable next' read p xs r :=
  ⟨⟨h.rest, h.self, fun ys q r' hys hq hr => h.again ys q r' hys hq (hnext r' hr)⟩,
    fun ys r' hys hr => h.opens ys r' hys (hnext r' hr)⟩

lemma Stable.append (h : Stable next read p xs r) (hclose : ClosesAlike xs)
    (h' : Rereads next' read' (p.move (printAll xs).length) xs' r')
    (hnext : ∀ ys r'', Replaced xs' ys → next' r' r'' → next r (printAll ys ++ r''))
    (hread : ∀ q m n rs rs', read q m rs → read' (q.move m) n rs' → read'' q (m + n) (rs ++ rs')) :
    Stable next' read'' p (xs ++ xs') r' := by
  have hr : r = printAll xs' ++ r' := by
    rw [← h'.rest, Place.rest_move, h.rest, List.drop_left]
  refine ⟨⟨?_, List.rel_append h.self h'.self, ?_⟩, ?_⟩
  · rw [h.rest, hr, Segment.printAll_append, List.append_assoc]
  · intro ys q r'' hys hq hr'' hbefore
    obtain ⟨zs, zs', rfl, hzs, hzs'⟩ := exists_of_replaced_append hys
    rw [Segment.printAll_append, List.append_assoc] at hq
    have hmove := Place.move_append hq
    have hmove' := Place.move_append h.rest
    have hfirst := h.again zs q _ hzs hq (hnext zs' r'' hzs' hr'') hbefore
    have hsecond := h'.again zs' (q.move (printAll zs).length) r'' hzs' (by rw [hmove]) hr''
      (by rw [hmove, hmove']; exact hclose zs _ _ hzs hbefore)
    have hall := hread q _ _ _ _ hfirst hsecond
    rw [Segment.printAll_append, List.length_append, Segment.regions_append]
    rwa [hmove] at hall
  · intro ys r'' hys hr''
    obtain ⟨zs, zs', rfl, hzs, hzs'⟩ := exists_of_replaced_append hys
    have hopen := h.opens zs _ hzs (hnext zs' r'' hzs' hr'')
    rw [Segment.printAll_append, Segment.printAll_append, List.append_assoc, List.append_assoc]
    rwa [hr] at hopen

lemma stable_kept (hr : p.rest = w ++ r)
    (h : ∀ q r', q.rest = w ++ r' → Follow r r' → Precede p.before q.before → read q w.length []) :
    Stable Follow read p [kept w] r := by
  refine ⟨⟨by simpa using hr, .cons (.kept w) .nil, ?_⟩, ?_⟩
  · intro ys q r' hys hq hr' hbefore
    rw [eq_of_replaced_kept hys] at hq ⊢
    simpa [regions] using h q r' (by simpa using hq) hr' hbefore
  · intro ys r' hys hr'
    rw [eq_of_replaced_kept hys]
    exact hr'.append _

lemma stable_kept_all (h : ∀ q, q.rest = p.rest → Precede p.before q.before → read q p.rest.length []) :
    Stable Follow read p [kept p.rest] [] := by
  refine stable_kept (by simp) fun q r' hq hr' hbefore => ?_
  obtain rfl := hr'.eq_nil
  exact h q (by simpa using hq) hbefore

lemma stable_braces (hr : p.rest = '{' :: (u ++ '}' :: r))
    (hu : Brace.Closed .braces (u.map Brace.Sign.ofChar))
    (h : ∀ (e : Expression) q r', q.rest = e.print ++ r' → Precede p.before q.before →
      read q e.print.length (e.code q.offset).regions) :
    Stable Follow read p [kept ['{'], held expression u, kept ['}']] r := by
  have hdialect : expression ≠ script := by decide
  have hself : u.all isBlank = false → Inert expression u :=
    fun hblank => ⟨hblank, fun heq => absurd heq hdialect, fun _ => hu⟩
  have hcases {ys} (hys : Replaced [kept ['{'], held expression u, kept ['}']] ys) :
      ∃ v, Brace.Closed .braces (v.map Brace.Sign.ofChar) ∧
        ys = [kept ['{'], held expression v, kept ['}']] := by
    have hboth : Replaced ([kept ['{']] ++ [held expression u, kept ['}']]) ys := hys
    obtain ⟨zs, zs', rfl, hzs, hzs'⟩ := exists_of_replaced_append hboth
    obtain rfl := eq_of_replaced_kept hzs
    cases hzs' with
    | cons hv hzs' =>
      obtain rfl := eq_of_replaced_kept hzs'
      obtain ⟨v, hclosed, rfl, -⟩ := exists_of_becomes_held (fun v hv => hv.braces rfl) hu hv
      exact ⟨v, hclosed, rfl⟩
  refine ⟨⟨by simpa using hr, ?_, ?_⟩, ?_⟩
  · exact .cons (.kept _) (.cons (becomes_held_self hself) (.cons (.kept _) .nil))
  · intro ys q r' hys hq hr' hbefore
    obtain ⟨v, hv, rfl⟩ := hcases hys
    have hread := h (expressionOf hv) q r' (by simpa [expressionOf, Expression.print] using hq)
      hbefore
    have hregions : regions q.offset [kept ['{'], held expression v, kept ['}']] =
        ((expressionOf hv).code q.offset).regions := by
      rw [regions, regions_held]
      exact List.append_nil _
    rw [hregions]
    simpa [expressionOf, Expression.print] using hread
  · intro ys r' hys hr'
    obtain ⟨v, hv, rfl⟩ := hcases hys
    exact .of_sign (.inl rfl) _ _

lemma closesAlike_braces (x : Segment) : ClosesAlike [kept ['{'], x, kept ['}']] :=
  (closesAlike_kept ['{']).append (closesAlike_code (.inl rfl) x [])

end

end Astro
end MetaInline
