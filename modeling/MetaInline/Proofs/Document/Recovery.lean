import Mathlib
import MetaInline.Proofs.Document.Tag

namespace MetaInline.Astro

open Text (size)
open Unicode (isBlank isAsciiLetter)

lemma takeWhile_append_newline (v w : Text) (hw : w = [] ∨ w.head? = some '\n') :
    (v ++ w).takeWhile (· ≠ '\n') = v.takeWhile (· ≠ '\n') := by
  induction v with
  | nil =>
    cases w with
    | nil => rfl
    | cons c w => simp_all
  | cons c v ih =>
    rw [List.cons_append, List.takeWhile_cons, List.takeWhile_cons, ih]

lemma splitFence_line {c : Char} {v : Text}
    (h : c = '\n' → isFence (v.takeWhile (· ≠ '\n')) = false) :
    splitFence (c :: v) = (splitFence v).map fun x => (c :: x.1, x.2) := by
  by_cases hfence : c = '\n' ∧ ∃ rest, v = '-' :: '-' :: '-' :: rest
  · obtain ⟨rfl, rest, rfl⟩ := hfence
    have hline : ¬ (rest.takeWhile (· ≠ '\n')).all isBlank = true := by
      simpa [isFence, Text.dropFront?] using h rfl
    rw [splitFence, if_neg hline]
  · rw [splitFence]
    exact fun rest hc hv => hfence ⟨hc, rest, hv⟩

lemma head?_splitOn (v : Text) : (v.splitOn '\n').head? = some (v.takeWhile (· ≠ '\n')) := by
  rw [List.splitOn_eq_splitOnP]
  induction v with
  | nil => rfl
  | cons c v ih =>
    rw [List.splitOnP_cons_eq_if_modifyHead]
    by_cases hc : c = '\n'
    · simp [hc]
    · simp [hc, ih]

lemma splitFence_eq_some {body blanks after : Text}
    (hbody : ∀ line ∈ (body.splitOn '\n').tail, isFence line = false)
    (hblanks : ∀ c ∈ blanks, isBlank c = true ∧ c ≠ '\n')
    (hafter : after = [] ∨ after.head? = some '\n') :
    splitFence (body ++ '\n' :: '-' :: '-' :: '-' :: (blanks ++ after)) =
      some (body ++ ['\n'], blanks ++ after) := by
  induction body with
  | nil =>
    have hline : (blanks ++ after).takeWhile (· ≠ '\n') = blanks := by
      rw [takeWhile_append_newline _ _ hafter, List.takeWhile_eq_self_iff]
      simpa using fun c hc => (hblanks c hc).2
    have hall : blanks.all isBlank = true := by simpa using fun c hc => (hblanks c hc).1
    rw [List.nil_append, splitFence, hline, if_pos hall]
    rfl
  | cons c body ih =>
    have hsplit : ((c :: body).splitOn '\n').tail =
        if c = '\n' then body.splitOn '\n' else (body.splitOn '\n').tail := by
      rw [List.splitOn_eq_splitOnP, List.splitOnP_cons_eq_if_modifyHead]
      by_cases hc : c = '\n' <;> simp [hc, List.splitOn_eq_splitOnP]
    rw [hsplit] at hbody
    have hnext : ∀ line ∈ (body.splitOn '\n').tail, isFence line = false := by
      split at hbody
      · exact fun line hline => hbody line (List.mem_of_mem_tail hline)
      · exact hbody
    have hfirst : c = '\n' → isFence ((body ++ '\n' :: '-' :: '-' :: '-' :: (blanks ++ after)).takeWhile
        (· ≠ '\n')) = false := by
      intro hc
      rw [if_pos hc] at hbody
      rw [takeWhile_append_newline _ _ (Or.inr rfl)]
      exact hbody _ (List.mem_of_head? (head?_splitOn body))
    rw [List.cons_append, splitFence_line hfirst, ih hnext]
    rfl

lemma frontmatter_eq_none {u : Text} (h : ¬ "---".toList <+: u.dropWhile isBlank) :
    frontmatter u = none := by
  have hdrop := Option.not_isSome_iff_eq_none.mp (mt Text.isSome_dropFront?_iff.mp h)
  rw [frontmatter, List.span_eq_takeWhile_dropWhile]
  dsimp only
  rw [hdrop]
  rfl

lemma frontmatter_print (f : Frontmatter) {after : Text} (h : after = [] ∨ after.head? = some '\n') :
    frontmatter (f.print ++ after) = some ([], f.body ++ ['\n'], f.blanks ++ after) := by
  have hsplit := splitFence_eq_some f.noFence f.isBlank h
  have hblank : isBlank '-' = false := by decide
  have hprint : f.print ++ after = '-' :: '-' :: '-' ::
      (f.body ++ '\n' :: '-' :: '-' :: '-' :: (f.blanks ++ after)) := by
    simp [Frontmatter.print]
  rw [hprint, frontmatter]
  simp [hsplit, List.span_eq_takeWhile_dropWhile, hblank, Text.dropFront?]

section

variable {p : Place} {rest : Text}

namespace RawKind

lemma toLower_word (k : RawKind) : k.word.map Char.toLower = k.word := by
  cases k <;> decide

lemma isNameChar_of_mem_word (k : RawKind) : ∀ c ∈ k.word, isNameChar c = true := by
  cases k <;> simp [word, isNameChar, Unicode.isAsciiLetter]

lemma less_notMem (k : RawKind) : '<' ∉ '/' :: k.word := by
  cases k <;> decide

end RawKind

lemma isNameChar_of_toLower_eq {kind : RawKind} {u : Text} (h : u.map Char.toLower = kind.word) :
    ∀ c ∈ u, isNameChar c = true := by
  intro c hc
  rw [← isNameChar_toLower]
  exact kind.isNameChar_of_mem_word _ (h ▸ List.mem_map_of_mem hc)

lemma name_of_toLower_eq {kind : RawKind} {u : Text} (h : u.map Char.toLower = kind.word) :
    ∃ name : Name, name.text = u := by
  refine ⟨⟨u, ?_, isNameChar_of_toLower_eq h⟩, rfl⟩
  rintro rfl
  cases kind <;> cases h

lemma opens_iff (kind : RawKind) (name : Name) {c : Char} (hc : c = ' ' ∨ c = '/' ∨ c = '>') :
    opens kind.word ('<' :: (name.text ++ c :: rest)) = true ↔
      name.text.map Char.toLower = kind.word := by
  have hname : isNameChar c = false := by rcases hc with rfl | rfl | rfl <;> decide
  have htake : (name.text ++ c :: rest).takeWhile isNameChar = name.text :=
    Text.takeWhile_append_cons name.chars hname rest
  rw [opens_cons]
  simp only [beq_self_eq_true, Bool.true_and]
  constructor
  · intro h
    split at h
    · next d ds hd =>
      obtain ⟨w, hw, hlower⟩ := dropFrontNoCase?_eq_some_iff.mp hd
      rw [kind.toLower_word] at hlower
      have hdname : isNameChar d = false := by
        simp only [Bool.or_eq_true, beq_iff_eq] at h
        rcases h with ((((rfl | rfl) | rfl) | rfl) | rfl) | rfl <;> decide
      rw [hw, Text.takeWhile_append_cons (isNameChar_of_toLower_eq hlower) hdname] at htake
      rw [← htake, hlower]
    · cases h
  · intro h
    have hdrop : dropFrontNoCase? kind.word (name.text ++ c :: rest) = some (c :: rest) :=
      dropFrontNoCase?_eq_some_iff.mpr ⟨name.text, rfl, h.trans kind.toLower_word.symm⟩
    rw [hdrop]
    rcases hc with rfl | rfl | rfl <;> rfl

namespace RawElement

lemma rawElement_eq (r : RawElement) (hr : p.rest = r.print ++ rest) :
    rawElement r.kind.word r.kind.isCode p = (r.print.length, r.code p.offset) := by
  obtain ⟨name, hname⟩ := name_of_toLower_eq r.isName
  have hopening : p.rest = r.opening ++ (r.body ++ (r.ending ++ rest)) := by simp [hr, print]
  have htag : Astro.tag p = (r.opening.length,
      Attribute.codeAll r.name (p.offset + 1 + size r.name) r.attributes) := by
    have hr : p.rest = '<' :: (name.text ++ (Attribute.printAll r.attributes ++
        (slash false ++ '>' :: (r.body ++ (r.ending ++ rest))))) := by
      simp [hopening, opening, slash, hname]
    have htag := tag_open name r.attributes false hr
    rw [hname] at htag
    refine htag.trans (Prod.ext ?_ rfl)
    simp [opening, slash]
    omega
  have hq := Place.move_append hopening
  have hend : (p.move r.opening.length).before.take 2 ≠ ['>', '/'] := by
    obtain ⟨c, b, hb, -, -, hslash⟩ := Attribute.isSolid_printAll r.attributes
      (hname ▸ name.isSolid ('<' :: p.before))
    rw [hq]
    simp [opening, hb, hslash]
  have hfind : findNoCase ('<' :: '/' :: r.kind.word) (p.move r.opening.length).rest =
      some r.body.length := by
    have hclosing : ('<' :: '/' :: r.endName).map Char.toLower = '<' :: '/' :: r.kind.word := by
      simp [r.isEndName]
    have hfind := findNoCase_append r.kind.less_notMem r.isOpen hclosing
      (by simp [r.kind.toLower_word]) (r.blanks ++ '>' :: rest)
    rw [hq]
    simpa [ending] using hfind
  have hgt : '>' ∉ '<' :: '/' :: (r.endName ++ r.blanks) := by
    obtain ⟨endName, hendName⟩ := name_of_toLower_eq r.isEndName
    have hchars : '>' ∉ r.endName := fun h => by cases endName.chars '>' (hendName ▸ h)
    have hblanks : '>' ∉ r.blanks := fun h => by cases r.isBlank '>' h
    simp [hchars, hblanks]
  have hpast : sizePast ['>'] (r.ending ++ rest) = r.ending.length := by
    have hpast := sizePast_char hgt rest
    simpa [ending, Nat.add_assoc] using hpast
  have hcode : region script (p.move r.opening.length) r.body.length =
      codeOf script (p.offset + size r.opening) r.body := by
    rw [hq]
    simp [region, codeOf]
  rw [rawElement, htag]
  dsimp only
  rw [if_neg hend, hfind]
  dsimp only
  rw [hcode, hq, List.drop_left, hpast]
  refine Prod.ext (by simp [print, Nat.add_assoc]) ?_
  rw [code]
  cases r.kind <;> simp [RawKind.isCode]

end RawElement

lemma dropFront?_comment (name : Name) (v : Text) :
    Text.dropFront? "<!--".toList ('<' :: (name.text ++ v)) = none := by
  obtain ⟨c, cs, hname⟩ := List.exists_cons_of_ne_nil name.nonempty
  have hc : c ≠ '!' := by
    rintro rfl
    cases name.chars '!' (hname ▸ List.mem_cons_self)
  simp [Text.dropFront?, hname, hc.symm]

namespace RawKind

variable {kind : RawKind} {u : Text}

lemma exists_of_opens (h : opens kind.word u = true) :
    ∃ w v, u = '<' :: (w ++ v) ∧ w.map Char.toLower = kind.word := by
  cases u with
  | nil => cases h
  | cons c cs =>
    rw [opens_cons, Bool.and_eq_true, beq_iff_eq] at h
    obtain ⟨rfl, h⟩ := h
    split at h
    · next d v hd =>
      obtain ⟨w, rfl, hw⟩ := dropFrontNoCase?_eq_some_iff.mp hd
      exact ⟨w, _, rfl, hw.trans kind.toLower_word⟩
    · cases h

lemma eq_of_opens {k : RawKind} (h : opens kind.word u = true) (hk : opens k.word u = true) :
    kind = k := by
  obtain ⟨w, v, rfl, hw⟩ := exists_of_opens h
  obtain ⟨w', v', heq, hw'⟩ := exists_of_opens hk
  have hsame : w.map Char.toLower ++ v.map Char.toLower = w'.map Char.toLower ++ v'.map Char.toLower := by
    rw [← List.map_append, ← List.map_append, (List.cons_eq_cons.mp heq).2]
  rw [hw, hw'] at hsame
  cases kind <;> cases k <;> first | rfl | simp [word] at hsame

lemma item_eq (h : opens kind.word p.rest = true) :
    item p = rawElement kind.word kind.isCode p := by
  obtain ⟨w, v, hr, hw⟩ := exists_of_opens h
  obtain ⟨name, rfl⟩ := name_of_toLower_eq hw
  have hopens (k : RawKind) : opens k.word ('<' :: (name.text ++ v)) = true ↔ k = kind := by
    refine ⟨fun hk => eq_of_opens hk (hr ▸ h), ?_⟩
    rintro rfl
    exact hr ▸ h
  have hscript := hopens .script
  have hstyle := hopens .style
  rw [item, hr]
  dsimp only
  rw [dropFront?_comment, if_neg (by simp)]
  cases kind with
  | script => exact if_pos (hscript.mpr rfl)
  | style => exact (if_neg (mt hscript.mp (by simp))).trans (if_pos (hstyle.mpr rfl))

end RawKind

lemma item_raw (kind : RawKind) (name : Name) {c : Char} (hr : p.rest = '<' :: (name.text ++ c :: rest))
    (hc : c = ' ' ∨ c = '/' ∨ c = '>') (hname : name.text.map Char.toLower = kind.word) :
    item p = rawElement kind.word kind.isCode p :=
  kind.item_eq (hr ▸ (opens_iff kind name hc).mpr hname)

lemma item_tag (name : Name) {c : Char} (hr : p.rest = '<' :: (name.text ++ c :: rest))
    (hc : c = ' ' ∨ c = '/' ∨ c = '>') (hletter : name.text.head?.any isAsciiLetter = true)
    (hname : ∀ kind : RawKind, name.text.map Char.toLower ≠ kind.word) : item p = Astro.tag p := by
  have hopens (k : RawKind) : ¬ opens k.word ('<' :: (name.text ++ c :: rest)) = true :=
    mt (opens_iff k name hc).mp (hname k)
  have hhead : (name.text ++ c :: rest).head?.any (fun d => isAsciiLetter d || d == '/') = true := by
    obtain ⟨d, ds, hd⟩ := List.exists_cons_of_ne_nil name.nonempty
    simpa [hd] using Or.inl (by simpa [hd] using hletter)
  rw [item, hr]
  dsimp only
  rw [dropFront?_comment, if_neg (by simp)]
  refine (if_neg (hopens .script)).trans ((if_neg (hopens .style)).trans (if_pos ?_))
  simpa using hhead

lemma item_closing (hr : p.rest = '<' :: '/' :: rest) : item p = Astro.tag p := by
  rw [item, hr]
  simp [Text.dropFront?, opens_cons, dropFrontNoCase?, Char.toLower]

lemma Tag.item_eq (t : Tag) (hr : p.rest = t.print ++ rest) :
    item p = (t.print.length, t.code p.offset) := by
  have hopen (closed : Bool) (hform : t.form ≠ .closing) (hr : p.rest = '<' :: (t.name.text ++
      (Attribute.printAll t.attributes ++ (slash closed ++ '>' :: rest)))) :
      item p = Astro.tag p := by
    obtain ⟨c, cs, hcs, hc⟩ := exists_end t.attributes closed rest
    rw [hcs] at hr
    exact item_tag t.name hr hc t.isLetter (t.notRaw hform)
  rw [print, code] at *
  cases hform : t.form with
  | opening =>
    rw [hform] at hr
    have hr : p.rest = '<' :: (t.name.text ++
      (Attribute.printAll t.attributes ++ (slash false ++ '>' :: rest))) := by simp [hr, slash]
    rw [hopen false (by simp [hform]) hr, tag_open t.name t.attributes false hr]
    refine Prod.ext ?_ rfl
    simp [slash]
    omega
  | closing =>
    rw [hform] at hr
    have hr : p.rest = '<' :: '/' :: (t.name.text ++
      (Attribute.printAll t.attributes ++ '>' :: rest)) := by simp [hr]
    rw [item_closing hr, tag_close t.name t.attributes hr]
    refine Prod.ext ?_ rfl
    simp
    omega
  | selfClosing =>
    rw [hform] at hr
    have hr : p.rest = '<' :: (t.name.text ++
      (Attribute.printAll t.attributes ++ (slash true ++ '>' :: rest))) := by simp [hr, slash]
    rw [hopen true (by simp [hform]) hr, tag_open t.name t.attributes true hr]
    refine Prod.ext ?_ rfl
    simp [slash]
    omega

lemma RawElement.item_eq (r : RawElement) (hr : p.rest = r.print ++ rest) :
    item p = (r.print.length, r.code p.offset) := by
  obtain ⟨name, hname⟩ := name_of_toLower_eq r.isName
  obtain ⟨c, cs, hcs, hc⟩ := exists_end r.attributes false (r.body ++ (r.ending ++ rest))
  have hopening : p.rest = '<' :: (name.text ++ c :: cs) := by
    rw [← hcs, hr, hname]
    simp [RawElement.print, RawElement.opening, slash]
  rw [item_raw r.kind name hopening hc (hname ▸ r.isName), r.rawElement_eq hr]

namespace Node

lemma markup_text {u : Text} (hr : p.rest = u ++ rest) (hu : ∀ c ∈ u, c ≠ '<' ∧ c ≠ '{') :
    p.markup = (p.move u.length).markup := by
  induction u generalizing p with
  | nil => simp
  | cons c u ih =>
    obtain ⟨⟨hless, hbrace⟩, hu⟩ := List.forall_mem_cons.mp hu
    have hitem : item p = (1, .empty) := by rw [item_of_ne hr hless, if_neg hbrace]
    rw [markup_cons (by simp [hr]), hitem, ih (p := p.move 1) (by simp [hr]) hu, Place.move_move,
      List.length_cons, Nat.add_comm]
    rfl

lemma item_print (n : Node) (hr : p.rest = n.print ++ rest) (hn : ∀ u h, n ≠ text u h) :
    item p = (n.print.length, n.code p.offset) := by
  cases n with
  | text u h => exact absurd rfl (hn u h)
  | comment u h =>
    have hsplit : p.rest = ("<!--".toList ++ u) ++ ("-->".toList ++ rest) := by simp [hr, print]
    have hpast := sizePast_append "-->".toList ("<!--".toList ++ u) (by simp)
      (by simpa using h) rest
    rw [← hsplit] at hpast
    have hfront : (Text.dropFront? "<!--".toList p.rest).isSome = true := by
      rw [hsplit, List.append_assoc, Text.dropFront?_append]
      rfl
    obtain ⟨cs, hcs⟩ : ∃ cs, p.rest = '<' :: cs := ⟨_, hr⟩
    rw [item, hcs]
    dsimp only
    rw [← hcs, if_pos hfront, hpast]
    simp [print, code]
  | tag t => exact t.item_eq hr
  | raw r => exact r.item_eq hr
  | expression e =>
    have hitem := item_of_ne (p := p) hr (by decide)
    have hsize := hr ▸ e.size?_append rest
    rw [hitem, if_pos rfl, hsize]
    exact Prod.ext rfl (e.braced_eq hr)

lemma markup_print (n : Node) (hr : p.rest = n.print ++ rest) :
    p.markup = n.code p.offset ++ (p.move n.print.length).markup := by
  by_cases hn : ∃ u h, n = text u h
  · obtain ⟨u, h, rfl⟩ := hn
    exact markup_text hr h
  · have hitem := n.item_print hr fun u h heq => hn ⟨u, h, heq⟩
    have hne : n.print ≠ [] := by
      cases n with
      | text u h => exact absurd ⟨u, h, rfl⟩ hn
      | comment u h => simp [print]
      | tag t => cases hform : t.form <;> simp [print, Tag.print, hform]
      | raw r => simp [print, RawElement.print, RawElement.opening]
      | expression e => simp [print, Expression.print]
    rw [markup_cons (by simp [hr, hne]), hitem]

lemma markup_printAll (ns : List Node) (hr : p.rest = printAll ns) :
    p.markup = codeAll p.offset ns := by
  induction ns generalizing p with
  | nil => exact markup_nil hr
  | cons n ns ih =>
    have hcons : p.rest = n.print ++ printAll ns := hr
    have hq := Place.move_append hcons
    rw [n.markup_print hcons, ih (p := p.move n.print.length) (by rw [hq]), hq]
    rfl

end Node

end

lemma scan_plain {nodes : List Node}
    (h : ¬ "---".toList <+: (Node.printAll nodes).dropWhile isBlank) :
    scan (Node.printAll nodes) = Node.codeAll 0 nodes := by
  rw [scan, frontmatter_eq_none h]
  exact Node.markup_printAll (p := ⟨0, [], Node.printAll nodes⟩) nodes rfl

lemma size_print (f : Frontmatter) : size f.print = 3 + size f.body + 1 + 3 + size f.blanks := by
  simp [Frontmatter.print, show '-'.utf8Size = 1 from rfl, show '\n'.utf8Size = 1 from rfl]
  omega

lemma scan_fenced (f : Frontmatter) (after : Text) (h : after = [] ∨ after.head? = some '\n') :
    ∃ p : Place, p.rest = f.blanks ++ after ∧ p.offset + size f.blanks = size f.print ∧
      scan (f.print ++ after) = f.code ++ p.markup := by
  have hfront := frontmatter_print f h
  refine ⟨start (f.print ++ after), ?_, ?_, ?_⟩
  · rw [start, hfront]
  · rw [start, hfront, size_print]
    simp [show '\n'.utf8Size = 1 from rfl]
    omega
  · rw [scan_eq_append, fenced, hfront, Frontmatter.code]
    simp [show '\n'.utf8Size = 1 from rfl, Nat.add_assoc]

lemma markup_blanks {p : Place} {blanks rest : Text} (hr : p.rest = blanks ++ rest)
    (h : ∀ c ∈ blanks, isBlank c = true) : p.markup = (p.move blanks.length).markup := by
  refine Node.markup_text hr fun c hc => ⟨?_, ?_⟩
  · rintro rfl
    cases h '<' hc
  · rintro rfl
    cases h '{' hc

/-- A document that is written by the grammar has its code where the grammar says. -/
theorem scan_print (d : Document) : scan d.print = d.code := by
  cases d with
  | plain nodes h => exact scan_plain h
  | fenced front nodes =>
    have hblanks : ∀ c ∈ front.blanks, isBlank c = true := fun c hc => (front.isBlank c hc).1
    cases nodes with
    | none =>
      obtain ⟨p, hr, -, hscan⟩ := scan_fenced front [] (Or.inl rfl)
      have hend : (p.move front.blanks.length).rest = [] := by simp [hr]
      rw [List.append_nil] at hscan
      rw [Document.print, hscan, markup_blanks hr hblanks, markup_nil hend, Scan.append_empty]
      rfl
    | some nodes =>
      obtain ⟨p, hr, hoffset, hscan⟩ := scan_fenced front ('\n' :: Node.printAll nodes)
        (Or.inr rfl)
      have hline : p.rest = (front.blanks ++ ['\n']) ++ Node.printAll nodes := by simp [hr]
      have hq := Place.move_append hline
      have hmarkup := Node.markup_printAll (p := p.move (front.blanks ++ ['\n']).length) nodes
        (by rw [hq])
      have hnext : (p.move (front.blanks ++ ['\n']).length).offset = size front.print + 1 := by
        rw [hq, ← hoffset]
        simp [show '\n'.utf8Size = 1 from rfl, Nat.add_assoc]
      have hall : ∀ c ∈ front.blanks ++ ['\n'], isBlank c = true := by
        simpa [or_imp, forall_and] using ⟨hblanks, show isBlank '\n' = true by decide⟩
      rw [Document.print, hscan, markup_blanks hline hall, hmarkup, hnext]
      rfl

end MetaInline.Astro
