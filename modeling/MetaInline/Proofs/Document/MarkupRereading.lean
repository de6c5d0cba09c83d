import Mathlib
import MetaInline.Proofs.Document.Rereading

namespace MetaInline.Astro

open Segment (kept code printAll regions)
open Text (size)
open Unicode (isBlank isAsciiLetter)

variable {u v w r r' : Text} {c d z : Char} {n : ℕ} {p q : Place} {tag : Text}
  {xs ys : List Segment}

lemma isBlank_of_isClosing (hz : IsClosing z) : isBlank z = false := by
  rcases hz with rfl | rfl | rfl <;> decide

lemma head?_dropWhile_congr {b b' : Text} (h : Precede b b') :
    (b.dropWhile isBlank).head? = (b'.dropWhile isBlank).head? := by
  refine Text.Alike.congr (f := fun b => (b.dropWhile isBlank).head?) (fun a z b hz => ?_) h
  have hblank := isBlank_of_isClosing hz
  induction a with
  | nil => simp [hblank]
  | cons c a ih =>
    cases hc : isBlank c with
    | true => simpa [hc] using ih
    | false => simp [hc]

lemma take_two_congr {b b' : Text} (h : Precede b b') :
    b.take 2 = ['>', '/'] ↔ b'.take 2 = ['>', '/'] := by
  have hf := Text.Alike.congr (f := fun b : Text => decide (b.take 2 = ['>', '/'])) ?_ h
  · simpa using hf
  · intro a z b hz
    have hgt : z ≠ '>' := by rcases hz with rfl | rfl | rfl <;> decide
    match a with
    | [] => simp [hgt]
    | [c] => simp
    | c :: d :: a => simp

lemma part?_quote {cs : Text} (hr : p.rest = c :: cs) (hc : c = '"' ∨ c = '\'' ∨ c.toNat = 0x60) :
    part? tag p = some (sizePast [c] cs + 1, .empty) := by
  have hgt : c ≠ '>' := by
    rintro rfl
    revert hc
    decide
  rw [part?, hr]
  dsimp only
  rw [if_neg hgt, if_pos hc]

lemma part?_brace {cs : Text} (hr : p.rest = '{' :: cs) : part? tag p =
    match Brace.size? Brace.Sign.ofChar ('{' :: cs) with
    | some n => some (n, attributeBraces tag p n)
    | none => some (cs.length + 1, .empty) := by
  rw [part?, hr]
  rfl

lemma part?_plain {cs : Text} (hr : p.rest = c :: cs) (hc : IsPlain c) :
    part? tag p = some (1, .empty) := by
  obtain ⟨hgt, hdouble, hsingle, hback, hbrace⟩ := hc
  rw [part?, hr]
  simp [hgt, hdouble, hsingle, hback, hbrace]

lemma Expression.regions_report (e : Expression) (tag : Text) (offset : ℕ) :
    (e.report tag offset).regions = [] := by
  rw [Expression.report]
  split <;> rfl

lemma exists_stable_part {s : Scan} (h : part? tag p = some (n, s)) :
    ∃ xs, Stable Follow (FindsPart tag) p xs (p.rest.drop n) ∧ ClosesAlike xs := by
  obtain ⟨hpos, hle⟩ := part?_le h
  obtain ⟨c, cs, hr⟩ := List.exists_cons_of_ne_nil (List.ne_nil_of_length_pos (hpos.trans_le hle))
  have hgt : c ≠ '>' := by
    rintro rfl
    rw [part?_eq_none_iff.mpr (.inr ⟨cs, hr⟩)] at h
    cases h
  by_cases hquote : c = '"' ∨ c = '\'' ∨ c.toNat = 0x60
  · -- A quoted text goes up to the next quote.
    rw [part?_quote hr hquote] at h
    obtain ⟨rfl, -⟩ := Prod.mk.inj (Option.some.inj h)
    have hsize := sizePast_take [c] cs
    have hsplit : p.rest = (c :: cs.take (sizePast [c] cs)) ++ p.rest.drop (sizePast [c] cs + 1) := by
      simp [hr]
    refine ⟨_, stable_kept hsplit fun q r' hq hnext hbefore => ?_, closesAlike_kept _⟩
    have hdrop : p.rest.drop (sizePast [c] cs + 1) = cs.drop (sizePast [c] cs) := by simp [hr]
    rw [hdrop] at hnext
    have hsame := sizePast_eq_length hsize fun hnil => (hnil ▸ hnext).eq_nil
    exact ⟨.empty, (part?_quote hq hquote).trans (congrArg (fun n => some (n + 1, Scan.empty)) hsame), rfl⟩
  by_cases hbrace : c = '{'
  · subst hbrace
    rw [part?_brace hr] at h
    cases hsize : Brace.size? Brace.Sign.ofChar ('{' :: cs) with
    | none =>
      rw [hsize] at h
      obtain ⟨rfl, -⟩ := Prod.mk.inj (Option.some.inj h)
      refine ⟨[kept p.rest], ?_, closesAlike_kept _⟩
      have hdrop : p.rest.drop (cs.length + 1) = [] := by simp [hr]
      rw [hdrop]
      refine stable_kept_all fun q hq hbefore => ⟨.empty, ?_, rfl⟩
      rw [part?_brace (hq.trans hr), hsize, hr]
      rfl
    | some k =>
      rw [hsize] at h
      obtain ⟨rfl, -⟩ := Prod.mk.inj (Option.some.inj h)
      obtain ⟨e, rest, rfl, rfl, he⟩ := exists_of_size? hsize
      have hdrop : p.rest.drop (e.length + 2) = rest := by simp [hr, List.drop_append]
      have hpart (e : Expression) {q : Place} {r' : Text} (hq : q.rest = e.print ++ r') :
          part? tag q = some (e.print.length, attributeBraces tag q e.print.length) := by
        have hfound := e.size?_append r'
        have hcons : q.rest = '{' :: (e.text ++ '}' :: r') := by simp [hq, Expression.print]
        rw [part?_brace hcons, ← hcons, hq, hfound]
      rw [hdrop]
      by_cases hvalue : (p.before.dropWhile isBlank).head? = some '='
      · refine ⟨_, stable_braces hr he fun e q r' hq hbefore => ?_, closesAlike_braces _⟩
        have hvalue' := (head?_dropWhile_congr hbefore).symm.trans hvalue
        exact ⟨_, hpart e hq, by rw [e.attributeBraces_value hq hvalue']⟩
      · have hsplit : p.rest = (expressionOf he).print ++ rest := by
          simp [hr, expressionOf, Expression.print]
        refine ⟨_, stable_kept hsplit fun q r' hq hnext hbefore => ?_, closesAlike_kept _⟩
        have hvalue' : (q.before.dropWhile isBlank).head? ≠ some '=' :=
          fun heq => hvalue ((head?_dropWhile_congr hbefore).trans heq)
        refine ⟨_, hpart _ hq, ?_⟩
        rw [Expression.attributeBraces_report _ hq hvalue', Expression.regions_report]
  · have hplain : IsPlain c := by
      simp only [not_or] at hquote
      exact ⟨hgt, hquote.1, hquote.2.1, hquote.2.2, hbrace⟩
    rw [part?_plain hr hplain] at h
    obtain ⟨rfl, -⟩ := Prod.mk.inj (Option.some.inj h)
    have hsplit : p.rest = [c] ++ p.rest.drop 1 := by simp [hr]
    refine ⟨_, stable_kept hsplit fun q r' hq hnext hbefore => ?_, closesAlike_kept _⟩
    exact ⟨.empty, part?_plain hq hplain, rfl⟩

lemma exists_stable_attributes (tag : Text) (p : Place) :
    ∃ xs r, Stable EndsToo (Finds (Place.attributes tag)) p xs r ∧ ClosesAlike xs := by
  induction hl : p.rest.length using Nat.strong_induction_on generalizing p with
  | _ l ih =>
    cases hpart : part? tag p with
    | none =>
      rcases part?_eq_none_iff.mp hpart with hr | ⟨cs, hr⟩
      · refine ⟨[], [], ⟨⟨hr, .nil, ?_⟩, ?_⟩, closesAlike_nil⟩
        · intro ys q r' hys hq hnext hbefore
          cases hys
          have hq : q.rest = [] := hq.trans (hnext rfl)
          exact ⟨by rw [attributes_nil tag hq]; rfl, by rw [attributes_nil tag hq]; rfl⟩
        · intro ys r' hys hnext
          cases hys
          rw [hnext rfl]
          exact .refl _
      · refine ⟨[kept ['>']], cs, ⟨⟨hr, .cons (.kept _) .nil, ?_⟩, ?_⟩, closesAlike_kept _⟩
        · intro ys q r' hys hq hnext hbefore
          rw [eq_of_replaced_kept hys] at hq ⊢
          exact ⟨by rw [attributes_end tag hq]; rfl, by rw [attributes_end tag hq]; rfl⟩
        · intro ys r' hys hnext
          rw [eq_of_replaced_kept hys]
          exact .of_sign (.inr rfl) _ _
    | some x =>
      obtain ⟨n, s⟩ := x
      obtain ⟨hpos, hle⟩ := part?_le hpart
      obtain ⟨xs, hfirst, hclose⟩ := exists_stable_part hpart
      have hn : (printAll xs).length = n := by
        have hlength := congrArg List.length hfirst.rest
        simp at hlength
        omega
      obtain ⟨xs', r, hothers, hclose'⟩ := ih (p.move n).rest.length
        (by rw [Place.rest_move, List.length_drop]; omega) (p.move n) rfl
      refine ⟨xs ++ xs', r, ?_, hclose.append hclose'⟩
      refine hfirst.append hclose (hn.symm ▸ hothers.toRereads) (fun ys r'' hys hnext => ?_) ?_
      · have hopen := hothers.opens ys r'' hys hnext
        rwa [← hothers.rest, Place.rest_move] at hopen
      · rintro q m k rs rs' ⟨s, hs, rfl⟩ ⟨rfl, rfl⟩
        exact ⟨by rw [attributes_part hs], by rw [attributes_part hs]; rfl⟩

lemma isNameEnd_of_isOpening (hz : IsOpening z) : isNameEnd z = true := by
  rcases hz with rfl | rfl <;> decide

lemma tagName_append (hz : IsOpening z) (c d : Char) (a b : Text) :
    tagName (c :: d :: (a ++ z :: b)) = tagName (c :: d :: (a ++ [z])) := by
  have hcut (b : Text) : ((d :: a) ++ z :: b).takeWhile (!isNameEnd ·) =
      (d :: a).takeWhile (!isNameEnd ·) := by
    rw [List.takeWhile_append]
    split
    · next h =>
      rw [List.takeWhile_cons, isNameEnd_of_isOpening hz, (List.takeWhile_prefix _).eq_of_length h]
      exact List.append_nil _
    · rfl
  have hle := (List.takeWhile_prefix (!isNameEnd ·) (l := d :: a)).length_le
  rw [List.length_cons] at hle
  have hall (b : Text) : tagName (c :: ((d :: a) ++ z :: b)) =
      let n := max ((d :: a).takeWhile (!isNameEnd ·)).length 1
      (((d :: a).take n).dropWhile (· == '/'), n + 1) := by
    rw [tagName_cons, hcut]
    dsimp only
    rw [if_pos (by simp; omega), List.take_append_of_le_length (by simp; omega)]
  exact (hall b).trans (hall []).symm

lemma tagName_congr (hd : ¬ IsOpening d) (h : Follow ('<' :: d :: u) v) :
    tagName ('<' :: d :: u) = tagName v := by
  rcases h with rfl | ⟨a, z, b, b', hz, hu, rfl⟩
  · rfl
  match a with
  | [] =>
    obtain ⟨rfl, -⟩ := List.cons_eq_cons.mp hu
    rcases hz with hz | hz <;> cases hz
  | [c] =>
    obtain ⟨rfl, -⟩ := List.cons_eq_cons.mp (List.cons_eq_cons.mp hu).2
    exact absurd hz hd
  | c :: e :: a =>
    rw [hu]
    exact (tagName_append hz c e a b).trans (tagName_append hz c e a b').symm

lemma snd_tagName_le (hu : u ≠ []) : (tagName u).2 ≤ u.length := by
  obtain ⟨c, cs, rfl⟩ := List.exists_cons_of_ne_nil hu
  have hle := (List.takeWhile_prefix (!isNameEnd ·) (l := cs)).length_le
  rw [tagName_cons]
  dsimp only
  split <;> simp <;> omega

lemma exists_stable_tag (hr : p.rest = '<' :: d :: u) (hd : ¬ IsOpening d) :
    ∃ xs r, Stable EndsToo (Finds Astro.tag) p xs r ∧ ClosesAlike xs := by
  obtain ⟨⟨name, k⟩, hname⟩ : ∃ x, tagName p.rest = x := ⟨_, rfl⟩
  have hk : (p.rest.take k).length = k := by
    have hle := snd_tagName_le (u := p.rest) (by simp [hr])
    rw [hname] at hle
    rw [List.length_take, min_eq_left hle]
  have hfirst : Stable Follow (fun q n rs => tagName q.rest = (name, n) ∧ rs = []) p
      [kept (p.rest.take k)] (p.rest.drop k) := by
    refine stable_kept (List.take_append_drop k _).symm fun q r' hq hnext hbefore => ⟨?_, rfl⟩
    have hfollow : Follow p.rest q.rest := by
      have happend := hnext.append (p.rest.take k)
      rwa [List.take_append_drop, ← hq] at happend
    rw [hk, ← hname, hr]
    exact (tagName_congr hd (hr ▸ hfollow)).symm
  obtain ⟨xs, r, hothers, hclose⟩ := exists_stable_attributes name (p.move k)
  have hlength : (printAll [kept (p.rest.take k)]).length = k := by simpa using hk
  refine ⟨_, r, hfirst.append (closesAlike_kept _) (hlength.symm ▸ hothers.toRereads) ?_ ?_,
    (closesAlike_kept _).append hclose⟩
  · intro ys r'' hys hnext
    have hopen := hothers.opens ys r'' hys hnext
    rwa [← hothers.rest, Place.rest_move] at hopen
  · rintro q m n rs rs' ⟨hm, rfl⟩ ⟨rfl, rfl⟩
    have htag : Astro.tag q = ((tagName q.rest).2 +
        ((q.move (tagName q.rest).2).attributes (tagName q.rest).1).1,
          ((q.move (tagName q.rest).2).attributes (tagName q.rest).1).2) := rfl
    rw [hm] at htag
    exact ⟨by rw [htag], by rw [htag]; rfl⟩

namespace RawKind

variable (kind : RawKind)

def closing : Text :=
  '<' :: '/' :: kind.word

def content (u : Text) : Segment :=
  if kind.isCode then held Astro.script u else kept u

def contentAt (p : Place) : ℕ × Scan :=
  let n := sizeUntil kind.endsLike p.rest
  (n + sizePast ['>'] (p.rest.drop n),
    if kind.isCode then codeOf Astro.script p.offset (p.rest.take n) else .empty)

@[simp] lemma text_content (u : Text) : (kind.content u).text = u := by
  rw [content]
  split
  · exact text_held Astro.script u
  · rfl

lemma regions_content (offset : ℕ) (u : Text) (xs : List Segment) :
    regions offset (kind.content u :: xs) =
      (if kind.isCode then codeOf Astro.script offset u else .empty).regions ++
        regions (offset + size u) xs := by
  rw [content]
  cases kind.isCode
  · rfl
  · exact regions_held ..

lemma exists_of_becomes_content {y : Segment} (hu : ¬ kind.closing <:+: u.map Char.toLower)
    (h : Segment.Becomes (fun dialect _ v => Inert dialect v) (kind.content u) y) :
    ∃ v, ¬ kind.closing <:+: v.map Char.toLower ∧ y = kind.content v ∧ (u = [] → v = []) := by
  cases kind with
  | script => exact exists_of_becomes_held (fun v hv => hv.content rfl) hu h
  | style =>
    cases h
    exact ⟨u, hu, rfl, id⟩

lemma becomes_content_self (hu : ¬ kind.closing <:+: u.map Char.toLower) :
    Segment.Becomes (fun dialect _ v => Inert dialect v) (kind.content u) (kind.content u) := by
  have hdialect : Astro.script ≠ Astro.expression := by decide
  cases kind with
  | script => exact becomes_held_self fun hblank => ⟨hblank, fun _ => hu, fun heq => absurd heq hdialect⟩
  | style => exact .kept u

lemma sizeUntil_endsLike (u : Text) :
    sizeUntil kind.endsLike u = (findNoCase kind.closing u).getD u.length := by
  rw [sizeUntil, closing, findNoCase_eq]
  rfl

lemma toLower_closing : kind.closing.map Char.toLower = kind.closing := by
  cases kind <;> decide

lemma greater_notMem {x : Text} (hx : x.map Char.toLower = kind.closing) : '>' ∉ x := by
  intro hmem
  have hlower : '>'.toLower ∈ kind.closing := hx ▸ List.mem_map_of_mem hmem
  revert hlower
  cases kind <;> decide

lemma contentAt_of_not_infix (hr : p.rest = u) (hu : ¬ kind.closing <:+: u.map Char.toLower) :
    kind.contentAt p = (u.length, if kind.isCode then codeOf Astro.script p.offset u else .empty) := by
  have hnone : findNoCase kind.closing u = none := by
    have hspec := findNoCase_spec kind.toLower_closing u
    split at hspec
    · next hf => exact hf
    · obtain ⟨a, x, t, rfl, -, hx, -⟩ := hspec
      refine absurd ⟨a.map Char.toLower, t.map Char.toLower, ?_⟩ hu
      rw [closing, ← hx]
      simp
  rw [contentAt, kind.sizeUntil_endsLike, hr, hnone, Option.getD_none, List.take_length,
    List.drop_length]
  rfl

lemma contentAt_of_ending {x : Text} (hr : p.rest = u ++ (x ++ v))
    (hu : ¬ kind.closing <:+: u.map Char.toLower) (hx : x.map Char.toLower = kind.closing) :
    kind.contentAt p = (u.length + sizePast ['>'] (x ++ v),
      if kind.isCode then codeOf Astro.script p.offset u else .empty) := by
  have hfind : findNoCase kind.closing (u ++ (x ++ v)) = some u.length :=
    findNoCase_append kind.less_notMem hu hx kind.toLower_closing v
  rw [contentAt, kind.sizeUntil_endsLike, hr, hfind, Option.getD_some, List.take_left,
    List.drop_left]

end RawKind

lemma le_sizePast {x : Text} (hc : c ∉ x) (t : Text) : x.length ≤ sizePast [c] (x ++ t) := by
  rw [sizePast]
  split
  · next a s hcut =>
    obtain ⟨s, rfl⟩ := Text.exists_append_of_cut? hcut
    rcases List.append_eq_append_iff.mp (Text.eq_append_of_cut? hcut) with ⟨y, rfl, -⟩ | ⟨y, rfl, hy⟩
    · simp
      omega
    · cases y with
      | nil => simp
      | cons d y =>
        obtain ⟨rfl, -⟩ := List.cons_eq_cons.mp hy
        simp at hc
  · simp

lemma exists_rereads_content (kind : RawKind) (p : Place) :
    ∃ xs r, Rereads Follow (Finds kind.contentAt) p xs r ∧
      (∀ ys r', Replaced xs ys → Follow r r' → EndsToo p.rest (printAll ys ++ r')) ∧
      (r = [] ∨ ClosesAlike xs) := by
  have hspec := findNoCase_spec kind.toLower_closing p.rest
  split at hspec
  · -- Without an end tag the content goes up to the end of the document.
    have hcases {ys} (hys : Replaced [kind.content p.rest] ys) :
        ∃ v, ¬ kind.closing <:+: v.map Char.toLower ∧ ys = [kind.content v] ∧
          (p.rest = [] → v = []) := by
      cases hys with
      | cons hy hys =>
        cases hys
        obtain ⟨v, hv, rfl, hnil⟩ := kind.exists_of_becomes_content hspec hy
        exact ⟨v, hv, rfl, hnil⟩
    refine ⟨[kind.content p.rest], [], ⟨by simp, .cons (kind.becomes_content_self hspec) .nil, ?_⟩,
      ?_, .inl rfl⟩
    · intro ys q r' hys hq hnext hbefore
      obtain ⟨v, hv, rfl, -⟩ := hcases hys
      have hq : q.rest = v := by simpa [hnext.eq_nil] using hq
      have hcontent := kind.contentAt_of_not_infix hq hv
      refine ⟨by rw [hcontent]; simp, ?_⟩
      rw [hcontent, kind.regions_content]
      exact (List.append_nil _).symm
    · intro ys r' hys hnext hrest
      obtain ⟨v, hv, rfl, hnil⟩ := hcases hys
      simp [hnext.eq_nil, hnil hrest]
  · next n hfound =>
    obtain ⟨u, x, t, hr, -, hx, hu⟩ := hspec
    -- The end tag goes up to the next sign that ends a tag.
    obtain ⟨w, r, hsplit, hpast⟩ : ∃ w r, x ++ t = (x ++ w) ++ r ∧
        sizePast ['>'] (x ++ w ++ r) = (x ++ w).length := by
      obtain ⟨k, hk⟩ := Nat.exists_eq_add_of_le (le_sizePast (kind.greater_notMem hx) t)
      have hlong : sizePast ['>'] (x ++ t) ≤ (x ++ t).length := sizePast_le ..
      refine ⟨t.take k, t.drop k, by simp, ?_⟩
      rw [List.append_assoc, List.take_append_drop, hk]
      simp at hlong ⊢
      omega
    obtain ⟨y, hxcons⟩ : ∃ y, x = '<' :: y := by
      cases x with
      | nil => cases hx
      | cons c y => exact ⟨y, by rw [toLower_eq_less_iff.mp (List.cons_eq_cons.mp hx).1]⟩
    have hcases {ys} (hys : Replaced [kind.content u, kept (x ++ w)] ys) :
        ∃ v, ¬ kind.closing <:+: v.map Char.toLower ∧ ys = [kind.content v, kept (x ++ w)] := by
      cases hys with
      | cons hy hys =>
        obtain rfl := eq_of_replaced_kept hys
        obtain ⟨v, hv, rfl, -⟩ := kind.exists_of_becomes_content hu hy
        exact ⟨v, hv, rfl⟩
    refine ⟨[kind.content u, kept (x ++ w)], r, ⟨?_, ?_, ?_⟩, ?_, .inr ?_⟩
    · simp [hr, hsplit]
    · exact .cons (kind.becomes_content_self hu) (.cons (.kept _) .nil)
    · intro ys q r' hys hq hnext hbefore
      obtain ⟨v, hv, rfl⟩ := hcases hys
      have hpast' := sizePast_eq_length hpast fun hnil => (hnil ▸ hnext).eq_nil
      have hcontent := kind.contentAt_of_ending (p := q) (v := w ++ r') (by simpa using hq) hv hx
      rw [← List.append_assoc, hpast'] at hcontent
      refine ⟨by rw [hcontent]; simp, ?_⟩
      rw [hcontent, kind.regions_content]
      exact (List.append_nil _).symm
    · intro ys r' hys hnext hrest
      rw [hr, hxcons] at hrest
      simp at hrest
    · rw [hxcons]
      exact closesAlike_code (.inr (.inl rfl)) _ _

lemma exists_stable_rawElement (kind : RawKind) (h : opens kind.word p.rest = true) :
    ∃ xs r, Stable Follow (Finds (rawElement kind.word kind.isCode)) p xs r ∧
      (r = [] ∨ ClosesAlike xs) := by
  obtain ⟨d, u, hr, hd⟩ : ∃ d u, p.rest = '<' :: d :: u ∧ ¬ IsOpening d := by
    obtain ⟨w, v, hr, hw⟩ := RawKind.exists_of_opens h
    cases w with
    | nil => cases kind <;> cases hw
    | cons d w =>
      have hname := isNameChar_of_toLower_eq hw d List.mem_cons_self
      refine ⟨d, w ++ v, hr, ?_⟩
      rintro (rfl | rfl) <;> cases hname
  obtain ⟨xs, r, htag, hclose⟩ := exists_stable_tag hr hd
  have hpast {q : Place} {ys r'} (hys : Replaced xs ys) (hq : q.rest = printAll ys ++ r')
      (hbefore : Precede p.before q.before) : (q.move (printAll ys).length).before.take 2 = ['>', '/'] ↔
        (p.move (printAll xs).length).before.take 2 = ['>', '/'] := by
    rw [Place.move_append hq, Place.move_append htag.rest]
    exact (take_two_congr (hclose ys _ _ hys hbefore)).symm
  by_cases hself : (p.move (printAll xs).length).before.take 2 = ['>', '/']
  · -- An element without content is its tag.
    refine ⟨xs, r, ⟨⟨htag.rest, htag.self, ?_⟩, ?_⟩, .inr hclose⟩
    · intro ys q r' hys hq hnext hbefore
      obtain ⟨hlength, hregions⟩ := htag.again ys q r' hys hq (fun hnil => (hnil ▸ hnext).eq_nil) hbefore
      have hclosed := (hpast hys hq hbefore).mpr hself
      rw [← hlength] at hclosed
      rw [Finds, rawElement]
      dsimp only
      rw [if_pos hclosed]
      exact ⟨hlength, hregions⟩
    · exact fun ys r' hys hnext => htag.opens ys r' hys fun hnil => (hnil ▸ hnext).eq_nil
  · have hopen : Stable EndsToo (fun q n rs => Finds Astro.tag q n rs ∧
        (q.move n).before.take 2 ≠ ['>', '/']) p xs r := by
      refine ⟨⟨htag.rest, htag.self, fun ys q r' hys hq hnext hbefore => ⟨?_, ?_⟩⟩, htag.opens⟩
      · exact htag.again ys q r' hys hq hnext hbefore
      · exact mt (hpast hys hq hbefore).mp hself
    obtain ⟨xs', r', hcontent, hnext, hclose'⟩ :=
      exists_rereads_content kind (p.move (printAll xs).length)
    rw [Place.rest_move, htag.rest, List.drop_left] at hnext
    refine ⟨xs ++ xs', r', hopen.append hclose hcontent hnext ?_, hclose'.imp_right hclose.append⟩
    rintro q m n rs rs' ⟨⟨rfl, rfl⟩, hfree⟩ ⟨rfl, rfl⟩
    have hraw := rawElement_eq_sizeUntil kind rfl hfree
    refine ⟨by rw [hraw]; rfl, ?_⟩
    rw [hraw]
    exact Scan.regions_append ..

def FindsItem : Reading :=
  fun p n rs => Finds item p n rs ∧ p.rest ≠ [] ∧ n ≤ p.rest.length

lemma Stable.item {f : Form} (hform : form p.rest = f) (h : Stable Follow (Finds f.read) p xs r)
    (hp : p.rest ≠ []) : Stable Follow FindsItem p xs r := by
  refine ⟨⟨h.rest, h.self, fun ys q r' hys hq hnext hbefore => ?_⟩, h.opens⟩
  have hfollow : Follow p.rest q.rest := by
    rw [h.rest, hq]
    exact h.opens ys r' hys hnext
  have hne : q.rest ≠ [] := fun hnil => hp (hnil ▸ hfollow).symm.eq_nil
  have hitem : Astro.item q = f.read q := by rw [item_eq_form hne, ← form_congr hfollow, hform]
  refine ⟨?_, hne, by simp [hq]⟩
  rw [Finds, hitem]
  exact h.again ys q r' hys hq hnext hbefore

lemma exists_stable_form (hp : p.rest ≠ []) :
    ∃ xs r, Stable Follow (Finds (form p.rest).read) p xs r ∧ (r = [] ∨ ClosesAlike xs) := by
  cases hform : form p.rest with
  | comment =>
    have hsplit := (List.take_append_drop (sizePast "-->".toList p.rest) p.rest).symm
    refine ⟨_, _, stable_kept hsplit fun q r' hq hnext hbefore => ⟨?_, rfl⟩, .inr (closesAlike_kept _)⟩
    have hsame := sizePast_eq_length (sizePast_take "-->".toList p.rest) fun hnil => (hnil ▸ hnext).eq_nil
    exact (congrArg (sizePast _) hq).trans hsame
  | raw kind =>
    refine exists_stable_rawElement kind ?_
    rw [form] at hform
    split_ifs at hform with h1 h2 h3 <;> cases hform
    · exact h2
    · exact h3
  | tag =>
    obtain ⟨d, u, hr, hd⟩ : ∃ d u, p.rest = '<' :: d :: u ∧ ¬ IsOpening d := by
      have htag : opensTag p.rest = true := by
        rw [form] at hform
        split_ifs at hform with h1 h2 h3 h4
        exact h4
      unfold opensTag at htag
      split at htag
      · next d u hr =>
        refine ⟨d, u, hr, ?_⟩
        rintro (rfl | rfl) <;> revert htag <;> decide
      · cases htag
    obtain ⟨xs, r, hstable, hclose⟩ := exists_stable_tag hr hd
    exact ⟨xs, r, hstable.mono fun r' hnext hnil => (hnil ▸ hnext).eq_nil, .inr hclose⟩
  | braces =>
    obtain ⟨cs, hr⟩ : ∃ cs, p.rest = '{' :: cs := by
      rw [form] at hform
      split_ifs at hform with h1 h2 h3 h4 h5
      exact List.head?_eq_some_iff.mp h5
    cases hsize : Brace.size? Brace.Sign.ofChar ('{' :: cs) with
    | none =>
      refine ⟨_, _, stable_kept_all fun q hq hbefore => ?_, .inl rfl⟩
      have hbraces : bracesAt q = (p.rest.length, .empty) := by rw [bracesAt, hq, hr, hsize]
      exact ⟨congrArg Prod.fst hbraces, congrArg (·.2.regions) hbraces⟩
    | some n =>
      obtain ⟨e, rest, rfl, rfl, he⟩ := exists_of_size? hsize
      refine ⟨_, _, stable_braces hr he fun e q r' hq hbefore => ?_, .inr (closesAlike_braces _)⟩
      have hbraces : bracesAt q = (e.print.length, e.code q.offset) := by
        rw [bracesAt, hq, e.size?_append r']
        exact Prod.ext rfl (e.braced_eq hq)
      exact ⟨congrArg Prod.fst hbraces, congrArg (·.2.regions) hbraces⟩
  | plain =>
    obtain ⟨c, cs, hr⟩ := List.exists_cons_of_ne_nil hp
    have hsplit : p.rest = [c] ++ cs := hr
    exact ⟨_, _, stable_kept hsplit fun q r' hq hnext hbefore => ⟨rfl, rfl⟩, .inr (closesAlike_kept _)⟩

def ReadsAll : Reading :=
  fun p n rs => p.rest.length = n ∧ p.markup.regions = rs

lemma markup_last (hp : p.rest ≠ []) (hn : (item p).1 = p.rest.length) : p.markup = (item p).2 := by
  have hend : (p.move (item p).1).rest = [] := by rw [Place.rest_move, hn, List.drop_length]
  rw [markup_cons hp, markup_nil hend, Scan.append_empty]

lemma readsAll_append {m n : ℕ} {rs rs' : List Region} (h : FindsItem p m rs)
    (h' : ReadsAll (p.move m) n rs') : ReadsAll p (m + n) (rs ++ rs') := by
  obtain ⟨⟨rfl, rfl⟩, hp, hle⟩ := h
  obtain ⟨rfl, rfl⟩ := h'
  refine ⟨?_, ?_⟩
  · rw [Place.rest_move, List.length_drop]
    omega
  · rw [markup_cons hp]
    exact Scan.regions_append ..

lemma exists_stable_markup (p : Place) : ∃ xs, Stable EndsToo ReadsAll p xs [] := by
  induction hl : p.rest.length using Nat.strong_induction_on generalizing p with
  | _ l ih =>
    by_cases hp : p.rest = []
    · refine ⟨[], ⟨⟨hp, .nil, ?_⟩, ?_⟩⟩
      · intro ys q r' hys hq hnext hbefore
        cases hys
        have hq : q.rest = [] := hq.trans (hnext rfl)
        exact ⟨congrArg List.length hq, congrArg Scan.regions (markup_nil hq)⟩
      · intro ys r' hys hnext
        cases hys
        rw [hnext rfl]
        exact .refl _
    obtain ⟨xs, r, hform, hclose⟩ := exists_stable_form hp
    have hitem := hform.item rfl hp
    by_cases hr : r = []
    · -- This was the last part of the document.
      subst hr
      refine ⟨xs, ⟨⟨hitem.rest, hitem.self, ?_⟩, ?_⟩⟩
      · intro ys q r' hys hq hnext hbefore
        obtain rfl := hnext rfl
        obtain ⟨⟨hlength, hregions⟩, hne, -⟩ := hitem.again ys q [] hys hq (.refl _) hbefore
        rw [List.append_nil] at hq
        refine ⟨congrArg List.length hq, ?_⟩
        rw [markup_last hne (by rw [hlength, hq])]
        exact hregions
      · exact fun ys r' hys hnext => hitem.opens ys r' hys (hnext rfl ▸ .refl _)
    · have hclose := hclose.resolve_left hr
      obtain ⟨⟨hlength, -⟩, -, hle⟩ := hitem.reads (.refl _)
      have hpos := fst_item_pos hp
      obtain ⟨xs', hothers⟩ := ih (p.move (printAll xs).length).rest.length
        (by rw [Place.rest_move, List.length_drop]; omega) _ rfl
      refine ⟨xs ++ xs', hitem.append hclose hothers.toRereads (fun ys r' hys hnext => ?_)
        fun q m n rs rs' => readsAll_append⟩
      have hopen := hothers.opens ys r' hys hnext
      rwa [← hothers.rest, Place.rest_move, hitem.rest, List.drop_left] at hopen

end MetaInline.Astro
