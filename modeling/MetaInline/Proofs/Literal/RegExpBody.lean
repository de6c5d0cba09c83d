import Mathlib
import MetaInline.Literal.RegExp

namespace MetaInline.RegExp

structure Mode where
  inClass : Bool
  escaped : Bool

namespace Mode

def start : Mode := ⟨false, false⟩

def step (m : Mode) (c : Char) : Mode :=
  if m.escaped then { m with escaped := false }
  else if c = '\\' then { m with escaped := true }
  else if c = '[' then { m with inClass := true }
  else if c = ']' then { m with inClass := false }
  else m

def after (m : Mode) (cs : Text) : Mode :=
  cs.foldl step m

variable (b : Bool) (m : Mode)

@[simp] lemma after_nil : m.after [] = m := rfl

@[simp] lemma after_cons (c : Char) (cs : Text) : m.after (c :: cs) = (m.step c).after cs := rfl

@[simp] lemma step_escaped (c : Char) : step ⟨b, true⟩ c = ⟨b, false⟩ := rfl

@[simp] lemma step_backslash : step ⟨b, false⟩ '\\' = ⟨b, true⟩ := rfl

@[simp] lemma step_lbracket : step ⟨b, false⟩ '[' = ⟨true, false⟩ := rfl

@[simp] lemma step_rbracket : step ⟨b, false⟩ ']' = ⟨false, false⟩ := rfl

lemma step_of_ne {c : Char} (hc : c ≠ '\\' ∧ c ≠ '[' ∧ c ≠ ']') : step ⟨b, false⟩ c = ⟨b, false⟩ := by
  simp [step, hc]

end Mode

/-- A part of a body that begins where a class is open or not, and ends where one is open or not. No
line break stands in it, no slash ends it, and its last backslash has a character after it. -/
inductive IsBody : Bool → Text → Bool → Prop
  | nil (b : Bool) : IsBody b [] b
  | escape {b b' : Bool} {c : Char} {cs : Text} (hc : isBreak c = false) (h : IsBody b cs b') :
      IsBody b ('\\' :: c :: cs) b'
  | opening {b b' : Bool} {cs : Text} (h : IsBody true cs b') : IsBody b ('[' :: cs) b'
  | closing {b b' : Bool} {cs : Text} (h : IsBody false cs b') : IsBody b (']' :: cs) b'
  | plain {b b' : Bool} {c : Char} {cs : Text} (hc : c ≠ '\\' ∧ c ≠ '[' ∧ c ≠ ']')
      (hbreak : isBreak c = false) (hslash : c = '/' → b = true) (h : IsBody b cs b') :
      IsBody b (c :: cs) b'

variable {b b' : Bool} {c : Char} {cs : Text}

lemma isBreak_iff : isBreak c = true ↔ c = '\n' ∨ c = '\r' ∨ c = '\u2028' ∨ c = '\u2029' := by
  simp [isBreak, or_assoc]

namespace IsBody

lemma after_eq (h : IsBody b cs b') : (⟨b, false⟩ : Mode).after cs = ⟨b', false⟩ := by
  induction h with
  | nil b => rfl
  | escape _ _ ih => simpa using ih
  | opening _ ih => simpa using ih
  | closing _ ih => simpa using ih
  | plain hc _ _ _ ih => rwa [Mode.after_cons, Mode.step_of_ne _ hc]

lemma not_isBreak (h : IsBody b cs b') : ∀ c ∈ cs, isBreak c = false := by
  induction h with
  | nil b => simp
  | escape hc _ ih => simpa [hc] using ⟨rfl, ih⟩
  | opening _ ih => simpa using ⟨rfl, ih⟩
  | closing _ ih => simpa using ⟨rfl, ih⟩
  | plain _ hbreak _ _ ih => simpa [hbreak] using ih

lemma mode_of_slash (h : IsBody b cs b') {front back : Text} (hs : cs = front ++ '/' :: back) :
    ((⟨b, false⟩ : Mode).after front).inClass = true ∨
      ((⟨b, false⟩ : Mode).after front).escaped = true := by
  induction h generalizing front with
  | nil b => simp at hs
  | escape hc _ ih =>
    rcases List.cons_eq_append_iff.mp hs with ⟨-, hcs⟩ | ⟨front, rfl, hcs⟩
    · cases hcs
    · rcases List.cons_eq_append_iff.mp hcs with ⟨rfl, -⟩ | ⟨front, rfl, htail⟩
      · exact Or.inr rfl
      · simpa using ih htail
  | opening _ ih =>
    rcases List.cons_eq_append_iff.mp hs with ⟨-, hcs⟩ | ⟨front, rfl, hcs⟩
    · cases hcs
    · simpa using ih hcs
  | closing _ ih =>
    rcases List.cons_eq_append_iff.mp hs with ⟨-, hcs⟩ | ⟨front, rfl, hcs⟩
    · cases hcs
    · simpa using ih hcs
  | plain hc _ hslash _ ih =>
    rcases List.cons_eq_append_iff.mp hs with ⟨rfl, hcs⟩ | ⟨front, rfl, hcs⟩
    · exact Or.inl (hslash (List.cons.inj hcs).1.symm)
    · rw [Mode.after_cons, Mode.step_of_ne _ hc]
      exact ih hcs

end IsBody

lemma nameBreak_of_not_isBreak (h : isBreak c = false) : nameBreak c = [c] := by
  unfold nameBreak
  split
  · cases h
  · cases h
  · cases h
  · cases h
  · rfl

theorem IsBody.escapeFrom_eq (h : IsBody b cs b') : escapeFrom b cs = cs := by
  induction h with
  | nil b => rfl
  | escape hc _ ih => simp [escapeFrom, nameBreak_of_not_isBreak hc, ih]
  | opening _ ih => simp [escapeFrom, ih]
  | closing _ ih => simp [escapeFrom, ih]
  | @plain b b' c cs hc hbreak hslash _ ih =>
    have hopen : ¬(c = '/' ∧ b = false) := fun h => by simp [hslash h.1] at h
    rw [escapeFrom]
    · simp [hc, hopen, hbreak, ih]
    · exact fun h => absurd h hc.1
    · exact fun _ _ h => absurd h hc.1

lemma isBody_append (ds : Text)
    (hds : ∀ d ∈ ds, (d ≠ '\\' ∧ d ≠ '[' ∧ d ≠ ']') ∧ isBreak d = false ∧ d ≠ '/')
    (h : IsBody b cs b') : IsBody b (ds ++ cs) b' := by
  induction ds with
  | nil => exact h
  | cons d ds ih =>
    obtain ⟨hd, hbreak, hslash⟩ := hds d List.mem_cons_self
    have htail := ih fun e he => hds e (List.mem_cons_of_mem d he)
    exact .plain hd hbreak (fun heq => absurd heq hslash) htail

lemma isBody_nameBreak (c : Char) (h : IsBody b cs b') : IsBody b ('\\' :: (nameBreak c ++ cs)) b' := by
  unfold nameBreak
  split
  · exact .escape rfl h
  · exact .escape rfl h
  · exact .escape rfl (isBody_append "2028".toList (by simp [isBreak]) h)
  · exact .escape rfl (isBody_append "2029".toList (by simp [isBreak]) h)
  · next h1 h2 h3 h4 =>
    refine .escape ?_ h
    rw [Bool.eq_false_iff, ne_eq, isBreak_iff, not_or, not_or, not_or]
    exact ⟨h1, h2, h3, h4⟩

lemma ne_backslash (hnil : c = '\\' → cs = [] → False)
    (hcons : ∀ d ds, c = '\\' → cs = d :: ds → False) : c ≠ '\\' := by
  intro hc
  cases cs with
  | nil => exact hnil hc rfl
  | cons d ds => exact hcons d ds hc rfl

theorem isBody_escapeFrom (b : Bool) (cs : Text) :
    IsBody b (escapeFrom b cs) ((⟨b, false⟩ : Mode).after cs).inClass := by
  fun_induction escapeFrom b cs with
  | case1 b => exact .nil b
  | case2 b => exact .escape rfl (.nil b)
  | case3 b c cs ih => exact isBody_nameBreak c ih
  | case4 b cs _ _ ih => exact .opening ih
  | case5 b cs _ _ _ ih => exact .closing ih
  | case6 b c cs hnil hcons hopen hclose hslash ih =>
    have hc := ne_backslash hnil hcons
    rw [Mode.after_cons, Mode.step_of_ne _ ⟨hc, hopen, hclose⟩]
    exact .escape (hslash.1 ▸ rfl) ih
  | case7 b c cs hnil hcons hopen hclose hslash hbreak ih =>
    have hc := ne_backslash hnil hcons
    rw [Mode.after_cons, Mode.step_of_ne _ ⟨hc, hopen, hclose⟩]
    exact isBody_nameBreak c ih
  | case8 b c cs hnil hcons hopen hclose hslash hbreak ih =>
    have hc := ne_backslash hnil hcons
    rw [Mode.after_cons, Mode.step_of_ne _ ⟨hc, hopen, hclose⟩]
    refine .plain ⟨hc, hopen, hclose⟩ (Bool.eq_false_iff.mpr hbreak) (fun hs => ?_) ih
    simpa [hs] using hslash

theorem isBody_escape (cs : Text) : IsBody false (escape cs) (Mode.start.after cs).inClass := by
  cases cs with
  | nil => exact isBody_escapeFrom false "(?:)".toList
  | cons c cs => exact isBody_escapeFrom false (c :: cs)

lemma escape_ne_nil (cs : Text) : escape cs ≠ [] := by
  cases cs with
  | nil => exact List.cons_ne_nil _ _
  | cons c cs =>
    rw [escape]
    unfold escapeFrom
    split
    · next h => cases h
    · exact List.cons_ne_nil _ _
    · exact List.cons_ne_nil _ _
    · split_ifs <;> exact List.cons_ne_nil _ _

lemma IsBody.escape_eq (h : IsBody false cs b) (hne : cs ≠ []) : RegExp.escape cs = cs := by
  obtain ⟨c, cs, rfl⟩ := List.exists_cons_of_ne_nil hne
  exact h.escapeFrom_eq

lemma mem_knownFlags {flags : Text} (h : validFlags flags = true) : ∀ c ∈ flags, c ∈ knownFlags := by
  simp only [validFlags, Bool.and_eq_true, List.all_eq_true, List.contains_iff_mem] at h
  exact h.1.1

lemma ofSource?_append (body : Text) {flags : Text} (h : '/' ∉ flags) :
    ofSource? ('/' :: body ++ '/' :: flags) = some ⟨String.ofList body, String.ofList flags⟩ := by
  have hflags : ∀ c ∈ flags.reverse, decide (c ≠ '/') = true := by
    intro c hc
    exact decide_eq_true fun heq => h (heq ▸ List.mem_reverse.mp hc)
  have hreverse : (body ++ '/' :: flags).reverse = flags.reverse ++ '/' :: body.reverse := by simp
  rw [List.cons_append, ofSource?, hreverse, List.takeWhile_append_of_pos hflags,
    List.dropWhile_append_of_pos hflags]
  simp

/-- What is written is read back with its body escaped, and written so again. The escaped body is not
empty and holds no line break; each slash in it stands in a class or after its own backslash, and a
character follows the last backslash. -/
theorem ofSource?_source {r : RegExp} (h : r.hasValidFlags = true) :
    let body := escape r.pattern.toList
    ofSource? r.source = some ⟨String.ofList body, r.flags⟩ ∧
      escape body = body ∧ source ⟨String.ofList body, r.flags⟩ = r.source ∧
      body ≠ [] ∧ (∀ c ∈ body, c ≠ '\n' ∧ c ≠ '\r' ∧ c ≠ '\u2028' ∧ c ≠ '\u2029') ∧
      (∀ front back, body = front ++ '/' :: back →
        (Mode.start.after front).inClass = true ∨ (Mode.start.after front).escaped = true) ∧
      (Mode.start.after body).escaped = false := by
  intro body
  have hbody : IsBody false body _ := isBody_escape r.pattern.toList
  have hescape : escape body = body := hbody.escape_eq (escape_ne_nil _)
  refine ⟨?_, hescape, ?_, escape_ne_nil _, fun c hc => ?_,
    fun front back hs => hbody.mode_of_slash hs, ?_⟩
  · have hslash : '/' ∉ r.flags.toList := fun hmem => absurd (mem_knownFlags h _ hmem) (by decide)
    rw [source, ofSource?_append _ hslash, String.ofList_toList]
  · rw [source, source, String.toList_ofList, hescape]
  · have hc := hbody.not_isBreak c hc
    rwa [Bool.eq_false_iff, ne_eq, isBreak_iff, not_or, not_or, not_or] at hc
  · rw [Mode.start, hbody.after_eq]

theorem ofSource?_source_escaped :
    let r : RegExp := ⟨"/[/]\\\n\\", "gi"⟩
    r.hasValidFlags = true ∧ r.source = "/\\/[/]\\n\\\\/gi".toList ∧
      ofSource? r.source = some ⟨"\\/[/]\\n\\\\", "gi"⟩ := by
  intro r
  have h : r.hasValidFlags = true := by decide
  have hread := (ofSource?_source h).1
  have hbody : escape r.pattern.toList = "\\/[/]\\n\\\\".toList := by decide
  rw [hbody, String.ofList_toList] at hread
  exact ⟨h, by decide, hread⟩

end MetaInline.RegExp
