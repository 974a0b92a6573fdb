import QuinMo.Log.Lines

/-!
# Credentials in logged texts

`redactSecrets` replaces, by four regular expressions, the values of JSON members with certain
keys, the rest of YAML lines with certain keys, and the passwords and names in URLs.
-/

namespace QuinMo.Log

open Pattern

/-- The class `\s`, which depends on the engine. -/
structure Blanks where
  is : Char → Bool
  space : is ' ' = true
  newline : is '\n' = true
  visible : ∀ c, 32 < c.toNat → c.toNat < 127 → is c = false

def jsonKeys : List String := ["password", "uuid", "id", "private_key", "pre_shared_key", "auth",
  "auth_str", "token", "secret", "key", "authorization", "cookie"]

def yamlKeys : List String := ["password", "uuid", "id", "private-key", "pre-shared-key", "auth",
  "auth-str", "token", "secret", "key", "authorization", "cookie"]

section
variable (B : Blanks)

/-- `\\.|[^"\\]`. -/
def unit : Pattern :=
  alt (seq (char backslash) (one fun c => !isTerminator c))
    (one fun c => c != quote && c != backslash)

def SENSITIVE_JSON_VALUE : Replacement where
  lineStart := false
  group := seq (char quote) (seq (words jsonKeys) (seq (char quote)
    (seq (star (one B.is)) (seq (char ':') (star (one B.is))))))
  tail := seq (char quote) (seq (star unit) (char quote))
  mark := quote :: ['*', '*', '*', quote]

def SENSITIVE_YAML_VALUE : Replacement where
  lineStart := true
  group := seq (star (one B.is)) (seq (words yamlKeys)
    (seq (star (one B.is)) (seq (char ':') (star (one B.is)))))
  tail := seq (plus (one fun c => !isTerminator c)) lineEnd
  mark := ['*', '*', '*']

/-- `[^"\s:@/]`. -/
def userinfoChar (c : Char) : Bool :=
  !(c == quote || B.is c || c == ':' || c == '@' || c == '/')

/-- `[^"\s@/]`. -/
def passwordChar (c : Char) : Bool := !(c == quote || B.is c || c == '@' || c == '/')

def schemeEnd : Pattern := seq (char ':') (seq (char '/') (char '/'))

def URL_USERINFO_PASSWORD : Replacement where
  lineStart := false
  group := seq schemeEnd (plus (one (userinfoChar B)))
  tail := seq (char ':') (seq (star (one (passwordChar B))) (char '@'))
  mark := [':', '*', '*', '*', '@']

def URL_USERINFO_BARE : Replacement where
  lineStart := false
  group := schemeEnd
  tail := seq (plus (one (userinfoChar B))) (char '@')
  mark := ['*', '*', '*', '@']

def redactSecrets (text : List Char) : List Char :=
  (URL_USERINFO_BARE B).replace ((URL_USERINFO_PASSWORD B).replace
    ((SENSITIVE_YAML_VALUE B).replace ((SENSITIVE_JSON_VALUE B).replace text)))

end

/-- One of the keys, in either case. -/
def Word (w : List Char) : Prop := ∃ word ∈ jsonKeys, w.map Char.toLower = word.toList

instance (w : List Char) : Decidable (Word w) :=
  inferInstanceAs (Decidable (∃ word ∈ jsonKeys, _))

variable {w : List Char} {c : Char}

theorem Word.ne_nil (h : Word w) : w ≠ [] := by
  rintro rfl
  obtain ⟨word, listed, same⟩ := h
  have all : ∀ word ∈ jsonKeys, [] ≠ word.toList := by decide
  exact all word listed same

/-- The letters of a key. -/
theorem Word.letter (h : Word w) (listed : c ∈ w) :
    c.toLower ∈ "abcdefghijklmnopqrstuvwxyz_".toList := by
  obtain ⟨word, inside, same⟩ := h
  have all : ∀ word ∈ jsonKeys, ∀ c ∈ word.toList,
      c ∈ "abcdefghijklmnopqrstuvwxyz_".toList := by decide
  exact all word inside _ (same ▸ List.mem_map_of_mem listed)

theorem letter_range (letter : c.toLower ∈ "abcdefghijklmnopqrstuvwxyz_".toList) :
    64 < c.toNat ∧ c.toNat < 127 := by
  have all : ∀ d ∈ "abcdefghijklmnopqrstuvwxyz_".toList, 64 < d.toNat ∧ d.toNat < 127 := by decide
  have range := all _ letter
  unfold Char.toLower at range
  split at range
  · rename_i upper
    have low : 65 ≤ c.toNat := UInt32.le_iff_toNat_le.mp upper.1
    have high : c.toNat ≤ 90 := UInt32.le_iff_toNat_le.mp upper.2
    omega
  · exact range

theorem Word.visible (h : Word w) (listed : c ∈ w) : 32 < c.toNat ∧ c.toNat < 127 := by
  have range := letter_range (h.letter listed)
  omega

theorem Word.not_mem (h : Word w)
    (other : c.toLower ∉ "abcdefghijklmnopqrstuvwxyz_".toList) : c ∉ w :=
  fun listed => other (h.letter listed)

/-! ## Where JSON members match -/

namespace Blanks

variable (B : Blanks)

theorem quote_visible : B.is quote = false := B.visible _ (by decide) (by decide)

theorem colon_visible : B.is ':' = false := B.visible _ (by decide) (by decide)

theorem spaces (n : Nat) : ∀ e ∈ List.replicate n ' ', B.is e = true := by
  intro e listed
  rw [(List.mem_replicate.mp listed).2]
  exact B.space

end Blanks

/-- Two texts that are equal have the same first visible character. -/
theorem first_visible {B : Blanks} {u v r r' : List Char} {d : Char}
    (blank : ∀ e ∈ u, B.is e = true) (blank' : ∀ e ∈ v, B.is e = true) (visible : B.is c = false)
    (visible' : B.is d = false) (same : u ++ c :: r = v ++ d :: r') : u = v ∧ c = d ∧ r = r' := by
  obtain ⟨front, rest⟩ := Text.append_cut blank blank' (by simpa) (by simpa) same
  exact ⟨front, List.cons.inj rest⟩

theorem first_mark {q : Char} {x c d : List Char} (none : q ∉ w)
    (same : w ++ q :: d = x ++ q :: c) : (x = w ∧ d = c) ∨ ∃ x', x = w ++ q :: x' := by
  rcases List.append_eq_append_iff.mp same with ⟨t, rfl, rest⟩ | ⟨t, rfl, rest⟩
  · cases t with
    | nil => exact .inl ⟨List.append_nil w, (List.cons.inj rest).2⟩
    | cons e t =>
      obtain ⟨rfl, _⟩ := List.cons.inj rest
      exact .inr ⟨t, rfl⟩
  · cases t with
    | nil => exact .inl ⟨(List.append_nil x).symm, (List.cons.inj rest).2.symm⟩
    | cons e t =>
      obtain ⟨rfl, _⟩ := List.cons.inj rest
      exact absurd (List.mem_append_right x List.mem_cons_self) none

theorem mem_star_unit {s r : List Char} : r ∈ (star unit).run s ↔ ∃ x, Units x ∧ s = x ++ r := by
  constructor
  · intro listed
    refine runStar_induction (motive := fun s => ∃ x, Units x ∧ s = x ++ r) ⟨[], .nil, rfl⟩ ?_ listed
    rintro s m stepped ⟨x, units, rfl⟩
    rcases List.mem_append.mp stepped with escaped | plain
    · obtain ⟨m', first, second⟩ := mem_seq.mp escaped
      obtain ⟨c, ends, rfl⟩ := mem_one.mp second
      rw [mem_char.mp first]
      exact ⟨backslash :: c :: x, .escape (by simpa using ends) units, rfl⟩
    · obtain ⟨c, accepted, rfl⟩ := mem_one.mp plain
      simp only [Bool.and_eq_true, bne_iff_ne] at accepted
      exact ⟨c :: x, .plain accepted.1 accepted.2 units, rfl⟩
  · rintro ⟨x, units, rfl⟩
    induction units with
    | nil => exact mem_star_self _ r
    | @escape c x ends _ ih =>
      have stepped : x ++ r ∈ unit.run (backslash :: c :: x ++ r) :=
        List.mem_append_left _ (mem_seq.mpr
          ⟨c :: (x ++ r), mem_char.mpr rfl, mem_one.mpr ⟨c, by simpa using ends, rfl⟩⟩)
      exact mem_star_step stepped (by simp only [List.length_append, List.length_cons]; omega) ih
    | @plain c x noQuote noEscape _ ih =>
      have stepped : x ++ r ∈ unit.run (c :: x ++ r) :=
        List.mem_append_right _ (mem_one.mpr ⟨c, by simp [noQuote, noEscape], rfl⟩)
      exact mem_star_step stepped (by simp) ih

section
variable {B : Blanks}

theorem mem_json_group {s m : List Char} :
    m ∈ (SENSITIVE_JSON_VALUE B).group.run s ↔ ∃ w u v, Word w ∧ (∀ c ∈ u, B.is c = true) ∧
      (∀ c ∈ v, B.is c = true) ∧ s = quote :: (w ++ quote :: (u ++ ':' :: (v ++ m))) := by
  simp only [SENSITIVE_JSON_VALUE, mem_seq, mem_char, mem_words, mem_star_one]
  constructor
  · rintro ⟨_, rfl, _, ⟨w, word, rfl⟩, _, rfl, _, ⟨u, blank, rfl⟩, _, rfl, v, blank', rfl⟩
    exact ⟨w, u, v, word, blank, blank', rfl⟩
  · rintro ⟨w, u, v, word, blank, blank', rfl⟩
    exact ⟨_, rfl, _, ⟨w, word, rfl⟩, _, rfl, _, ⟨u, blank, rfl⟩, _, rfl, v, blank', rfl⟩

theorem mem_json_tail {m r : List Char} :
    r ∈ (SENSITIVE_JSON_VALUE B).tail.run m ↔ ∃ x, Units x ∧ m = quote :: (x ++ quote :: r) := by
  simp only [SENSITIVE_JSON_VALUE, mem_seq, mem_char, mem_star_unit]
  constructor
  · rintro ⟨_, rfl, _, ⟨x, units, rfl⟩, rfl⟩
    exact ⟨x, units, rfl⟩
  · rintro ⟨x, units, rfl⟩
    exact ⟨_, rfl, _, ⟨x, units, rfl⟩, rfl⟩

/-- The text goes on with a colon and a string. -/
def Valued (B : Blanks) (c : List Char) : Prop :=
  ∃ u v r, (∀ e ∈ u, B.is e = true) ∧ (∀ e ∈ v, B.is e = true) ∧ c = u ++ ':' :: (v ++ quote :: r)

theorem json_none {start : Bool} {s : List Char}
    (absent : ∀ w c, Word w → Valued B c → s ≠ quote :: (w ++ quote :: c)) :
    (SENSITIVE_JSON_VALUE B).firstMatch start s = none := by
  refine Replacement.firstMatch_none fun m first r second => ?_
  obtain ⟨w, u, v, word, blank, blank', rfl⟩ := mem_json_group.mp first
  obtain ⟨x, _, rfl⟩ := mem_json_tail.mp second
  exact absent w _ word ⟨u, v, _, blank, blank', rfl⟩ rfl

theorem json_none_of_head {start : Bool} {c : Char} {s : List Char} (other : c ≠ quote) :
    (SENSITIVE_JSON_VALUE B).firstMatch start (c :: s) = none := by
  refine json_none fun w d _ _ same => other (List.cons.inj same).1

variable {b c w : List Char}

/-- A quotation mark before the text `x`, which another one ends. -/
theorem json_none_of_string {start : Bool} {x : List Char} (escaped : Escaped x)
    (quiet : Word x → ¬ Valued B c) :
    (SENSITIVE_JSON_VALUE B).firstMatch start (quote :: (x ++ quote :: c)) = none := by
  refine json_none fun w d word valued same => ?_
  have noQuote : quote ∉ w := word.not_mem (by decide)
  rcases first_mark noQuote (List.cons.inj same).2.symm with ⟨rfl, rfl⟩ | ⟨x', rfl⟩
  · exact quiet word valued
  · have last := escaped w x' rfl
    have noEscape : backslash ∉ w := word.not_mem (by decide)
    exact noEscape (List.mem_of_getLast? last)

/-- No match begins in a string unless what follows its last quotation mark is a key with a
value. -/
theorem string_dead {x : List Char} (escaped : Escaped x) (noWord : ∀ w r, Word w → c ≠ w ++ r)
    (quiet : ∀ w, Word w → (x = w ∨ ∃ y, x = y ++ quote :: w) → ¬ Valued B c) :
    (SENSITIVE_JSON_VALUE B).Dead (quote :: (x ++ [quote])) c := by
  intro p s same some_text start
  cases s with
  | nil => exact absurd rfl some_text
  | cons d s =>
    by_cases other : d = quote
    · subst other
      rcases List.eq_nil_or_concat s with rfl | ⟨s', e, rfl⟩
      · refine json_none fun w r word _ same => ?_
        exact noWord w _ word (List.cons.inj same).2
      · have parts : quote :: x ++ [quote] = (p ++ quote :: s') ++ [e] := by
          rw [List.cons_append, same]
          simp
        obtain ⟨inside, last⟩ := List.append_inj' parts rfl
        obtain rfl := (List.cons.inj last).1
        have tail : quote :: (s' ++ [quote]) ++ c = quote :: (s' ++ quote :: c) := by simp
        rw [List.concat_eq_append, tail]
        cases p with
        | nil =>
          obtain rfl := (List.cons.inj inside).2
          exact json_none_of_string escaped fun word => quiet x word (.inl rfl)
        | cons f p =>
          obtain rfl := (List.cons.inj inside).2
          exact json_none_of_string escaped.after fun word => quiet s' word (.inr ⟨p, rfl⟩)
    · exact json_none_of_head other

/-- No match begins before a quotation mark that a key follows. -/
theorem front_dead {y : List Char} (escaped : Escaped y) (word : Word w) :
    (SENSITIVE_JSON_VALUE B).Dead (quote :: y) (quote :: (w ++ quote :: c)) := by
  have quiet : ¬ Valued B (w ++ quote :: c) := by
    rintro ⟨u, v, r, blank, _, same⟩
    obtain ⟨d, w', rfl⟩ := List.exists_cons_of_ne_nil word.ne_nil
    have letter := word.letter (List.mem_cons_self (a := d) (l := w'))
    have range := word.visible (List.mem_cons_self (a := d) (l := w'))
    have visible := B.visible d range.1 range.2
    obtain ⟨_, colon, _⟩ := first_visible (u := []) nofun blank visible B.colon_visible same
    rw [colon] at letter
    exact absurd letter (by decide)
  intro p s same some_text start
  cases s with
  | nil => exact absurd rfl some_text
  | cons d s =>
    by_cases other : d = quote
    · subst other
      have inside : Escaped s := by
        cases p with
        | nil =>
          obtain rfl := (List.cons.inj same).2
          exact escaped
        | cons f p =>
          obtain rfl := (List.cons.inj same).2
          exact escaped.after
      exact json_none_of_string inside fun _ => quiet
    · exact json_none_of_head other

/-! ## JSON lines -/

/-- What follows the last quotation mark. -/
def lastPart : List Char → List Char
  | [] => []
  | c :: x => if quote ∈ x then lastPart x else if c = quote then x else c :: x

theorem lastPart_noQuote (x : List Char) : quote ∉ lastPart x := by
  induction x with
  | nil => exact List.not_mem_nil
  | cons c x ih =>
    unfold lastPart
    split
    · exact ih
    · rename_i none
      split
      · exact none
      · rename_i other
        exact fun listed => (List.mem_cons.mp listed).elim (fun same => other same.symm) none

theorem lastPart_cases (x : List Char) : lastPart x = x ∨ ∃ y, x = y ++ quote :: lastPart x := by
  induction x with
  | nil => exact .inl rfl
  | cons c x ih =>
    unfold lastPart
    split
    · rename_i inside
      rcases ih with whole | ⟨y, same⟩
      · exact absurd (whole.symm ▸ inside : quote ∈ lastPart x) (lastPart_noQuote x)
      · exact .inr ⟨c :: y, congrArg (c :: ·) same⟩
    · split
      · rename_i first
        exact .inr ⟨[], by rw [first]; rfl⟩
      · exact .inl rfl

theorem lastPart_of_not_mem (none : quote ∉ w) : lastPart w = w := by
  cases w with
  | nil => rfl
  | cons c w =>
    rw [List.mem_cons, not_or] at none
    rw [lastPart, if_neg none.2, if_neg (Ne.symm none.1)]

theorem lastPart_append (none : quote ∉ w) (y : List Char) : lastPart (y ++ quote :: w) = w := by
  induction y with
  | nil => rw [List.nil_append, lastPart, if_neg none, if_pos rfl]
  | cons c y ih => rw [List.cons_append, lastPart, if_pos (by simp), ih]

/-- A key whose value is masked. -/
def sensitive (key : StringText) : Bool := decide (Word (lastPart key.chars))

def stars : StringText where
  chars := ['*', '*', '*']
  units := .plain (by decide) (by decide) (.plain (by decide) (by decide)
    (.plain (by decide) (by decide) .nil))
  noBreak := by decide

namespace Line

/-- The line with the value of a masked key replaced. -/
def mask (l : Line) : Line :=
  match l.key, l.value with
  | some key, .text _ => if sensitive key then { l with value := .text stars } else l
  | _, _ => l

end Line

/-- What may follow a line: nothing, or a line that does not begin with a colon. -/
def Follows (B : Blanks) (b : List Char) : Prop :=
  b = [] ∨ ∃ n d r, b = '\n' :: (List.replicate n ' ' ++ d :: r) ∧ B.is d = false ∧ d ≠ ':'

theorem noWord_of_head {c : Char} (other : c.toLower ∉ "abcdefghijklmnopqrstuvwxyz_".toList)
    (w r : List Char) (word : Word w) : c :: b ≠ w ++ r := by
  intro same
  obtain ⟨d, w', rfl⟩ := List.exists_cons_of_ne_nil word.ne_nil
  obtain ⟨rfl, _⟩ := List.cons.inj same
  exact other (word.letter List.mem_cons_self)

/-- A string that ends its line has no value after it. -/
theorem comma_noWord (follows : Follows B b) (comma : Bool) (w r : List Char)
    (word : Word w) : commaText comma ++ b ≠ w ++ r := by
  cases comma with
  | true => exact noWord_of_head (by decide) w r word
  | false =>
    rcases follows with rfl | ⟨n, d, r', rfl, _⟩
    · intro same
      exact word.ne_nil (List.append_eq_nil_iff.mp same.symm).1
    · exact noWord_of_head (by decide) w r word

theorem not_valued_of_head {c : Char} (visible : B.is c = false) (other : c ≠ ':') :
    ¬ Valued B (c :: b) := by
  rintro ⟨u, v, r, blank, _, same⟩
  exact other (first_visible (u := []) nofun blank visible B.colon_visible same).2.1

theorem comma_not_valued (follows : Follows B b) (comma : Bool) :
    ¬ Valued B (commaText comma ++ b) := by
  cases comma with
  | true => exact not_valued_of_head (B.visible ',' (by decide) (by decide)) (by decide)
  | false =>
    rcases follows with rfl | ⟨n, d, r', rfl, visible, other⟩
    · rintro ⟨u, v, r, _, _, same⟩
      exact absurd same (by simp [commaText])
    · rintro ⟨u, v, r, blank, _, same⟩
      have blanks : ∀ e ∈ '\n' :: List.replicate n ' ', B.is e = true :=
        List.forall_mem_cons.mpr ⟨B.newline, B.spaces n⟩
      exact other (first_visible blanks blank visible B.colon_visible same).2.1

theorem dead_of_noQuote {a : List Char} (none : quote ∉ a) : (SENSITIVE_JSON_VALUE B).Dead a b :=
  Replacement.dead_of_heads fun _ listed _ _ =>
    json_none_of_head fun same => none (same ▸ listed)

theorem spaces_dead (n : Nat) : (SENSITIVE_JSON_VALUE B).Dead (List.replicate n ' ') b :=
  dead_of_noQuote fun listed => absurd (List.mem_replicate.mp listed).2 (by decide)

theorem comma_noQuote (comma : Bool) : quote ∉ commaText comma := by
  cases comma <;> decide

/-- The characters of values without quotation marks. -/
def Bare (c : Char) : Prop := 32 < c.toNat ∧ c.toNat < 127 ∧ c ≠ quote ∧ c ≠ ':'

instance (c : Char) : Decidable (Bare c) := inferInstanceAs (Decidable (_ ∧ _))

theorem bare_of_isDigit {c : Char} (digit : c.isDigit = true) : Bare c := by
  simp only [Char.isDigit, Bool.and_eq_true, decide_eq_true_eq] at digit
  have low : 48 ≤ c.toNat := UInt32.le_iff_toNat_le.mp digit.1
  have high : c.toNat ≤ 57 := UInt32.le_iff_toNat_le.mp digit.2
  refine ⟨by omega, by omega, ?_, ?_⟩
  · rintro rfl
    exact absurd low (by decide)
  · rintro rfl
    exact absurd high (by decide)

theorem plain_bare (p : Plain) : p.text ≠ [] ∧ ∀ c ∈ p.text, Bare c := by
  cases p with
  | number n =>
    have digits : ∀ c ∈ Nat.toDigits 10 n.natAbs, Bare c := fun c listed =>
      bare_of_isDigit (Text.toDigits_isDigit listed)
    change (toString n).toList ≠ [] ∧ ∀ c ∈ (toString n).toList, Bare c
    rw [Text.toList_int]
    split
    · exact ⟨nofun, List.forall_mem_cons.mpr ⟨by decide, digits⟩⟩
    · exact ⟨Nat.toDigits_ne_nil, digits⟩
  | boolean on => cases on <;> decide
  | _ => decide

theorem plain_noQuote (p : Plain) : quote ∉ p.text :=
  fun listed => ((plain_bare p).2 quote listed).2.2.1 rfl

theorem quoted_dead {s : StringText} (follows : Follows B b) (comma : Bool) :
    (SENSITIVE_JSON_VALUE B).Dead (quoted s) (commaText comma ++ b) :=
  string_dead s.units.escaped (comma_noWord follows comma)
    fun _ _ _ => comma_not_valued follows comma

/-- A value at the end of its line is not the start of a match. -/
theorem value_dead (value : Scalar) (follows : Follows B b) (comma : Bool) :
    (SENSITIVE_JSON_VALUE B).Dead (value.written ++ commaText comma) b := by
  refine .append ?_ (dead_of_noQuote (comma_noQuote comma))
  cases value with
  | text s => exact quoted_dead follows comma
  | plain p => exact dead_of_noQuote (plain_noQuote p)

theorem colon_noWord (c w r : List Char) (word : Word w) : ':' :: ' ' :: c ≠ w ++ r :=
  noWord_of_head (by decide) w r word

/-- A key that is not masked, or has no string, is not the start of a match. -/
theorem key_dead {key : StringText} (quiet : sensitive key = true → ¬ Valued B (':' :: ' ' :: c)) :
    (SENSITIVE_JSON_VALUE B).Dead (keyText (some key)) c := by
  have string : (SENSITIVE_JSON_VALUE B).Dead (quoted key) ([':', ' '] ++ c) := by
    refine string_dead key.units.escaped (colon_noWord c) fun w word part => quiet ?_
    have noQuote : quote ∉ w := word.not_mem (by decide)
    have last : lastPart key.chars = w := by
      rcases part with whole | ⟨y, same⟩
      · rw [whole, lastPart_of_not_mem noQuote]
      · rw [same, lastPart_append noQuote]
    rw [sensitive, last]
    exact decide_eq_true word
  exact string.append (dead_of_noQuote (by decide))

theorem plain_not_valued (p : Plain) (c : List Char) :
    ¬ Valued B (':' :: ' ' :: (p.text ++ c)) := by
  rintro ⟨u, v, r, blank, blank', same⟩
  obtain ⟨_, _, rest⟩ :=
    first_visible (u := []) nofun blank B.colon_visible B.colon_visible same
  obtain ⟨some_text, bare⟩ := plain_bare p
  obtain ⟨d, t, head⟩ := List.exists_cons_of_ne_nil some_text
  have first : Bare d := bare d (head ▸ List.mem_cons_self)
  rw [head] at rest
  exact first.2.2.1 (first_visible (B.spaces 1) blank' (B.visible d first.1 first.2.1)
    B.quote_visible rest).2.1

/-- The match at a masked key. -/
theorem sensitive_match {x : List Char} (word : Word w) (units : Units x) (start : Bool) :
    (SENSITIVE_JSON_VALUE B).firstMatch start
      ((quote :: (w ++ quote :: [':', ' '])) ++ ((quote :: (x ++ [quote])) ++ c)) =
        some ((quote :: (x ++ [quote])) ++ c, c) := by
  refine Replacement.firstMatch_unique (.inl rfl) ?_ ?_ ?_
  · refine mem_json_group.mpr ⟨w, [], [' '], word, nofun, B.spaces 1, ?_⟩
    simp
  · exact mem_json_tail.mpr ⟨x, units, by simp⟩
  · intro m' first r' second
    obtain ⟨w', u, v, word', blank, blank', same⟩ := mem_json_group.mp first
    obtain ⟨x', units', rfl⟩ := mem_json_tail.mp second
    have text : w ++ quote :: ':' :: ' ' :: quote :: (x ++ quote :: c) =
        w' ++ quote :: (u ++ ':' :: (v ++ quote :: (x' ++ quote :: r'))) := by simpa using same
    rcases first_mark (word.not_mem (by decide)) text with ⟨rfl, rest⟩ | ⟨t, rfl⟩
    · have mark := B.quote_visible
      obtain ⟨_, _, value⟩ :=
        first_visible (u := []) nofun blank B.colon_visible B.colon_visible rest
      obtain ⟨_, _, string⟩ := first_visible (B.spaces 1) blank' mark mark value
      obtain ⟨rfl, rfl⟩ := units.unique units' string
      simp
    · exact absurd (List.mem_append_right w List.mem_cons_self) (word'.not_mem (by decide))

theorem Escaped.before {a : List Char} (h : Escaped (a ++ b)) : Escaped a := by
  rintro c d rfl
  exact h c (d ++ b) (by simp)

/-- A masked key from its last quotation mark but one. -/
theorem masked_key {key : StringText} (masked : sensitive key = true) :
    ∃ front w, Word w ∧ keyText (some key) = front ++ quote :: (w ++ quote :: [':', ' ']) ∧
      ∀ c, (SENSITIVE_JSON_VALUE B).Dead front (quote :: (w ++ quote :: [':', ' ']) ++ c) := by
  have word : Word (lastPart key.chars) := of_decide_eq_true masked
  have escaped := key.units.escaped
  rcases lastPart_cases key.chars with whole | ⟨y, same⟩
  · refine ⟨[], _, word, ?_, fun c => dead_of_noQuote List.not_mem_nil⟩
    rw [whole, keyText, quoted]
    simp
  · refine ⟨quote :: y, _, word, ?_, fun c => ?_⟩
    · rw [keyText, quoted, same]
      simp [lastPart_append (lastPart_noQuote _)]
    · rw [same] at escaped
      have front := front_dead (B := B) (c := [':', ' '] ++ c) escaped.before word
      simpa using front

namespace Line

/-- The value of the line is masked. -/
def Masked (l : Line) : Prop := ∃ key s, l.key = some key ∧ l.value = .text s ∧ sensitive key = true

theorem mask_of_not_masked {l : Line} (h : ¬ l.Masked) : l.mask = l := by
  obtain ⟨indent, key, value, comma⟩ := l
  cases key with
  | none => rfl
  | some key =>
    cases value with
    | plain p => rfl
    | text s =>
      have clear : sensitive key = false :=
        Bool.eq_false_iff.mpr fun masked => h ⟨key, s, rfl, rfl, masked⟩
      simp [mask, clear]

theorem dead_of_not_masked {l : Line} (h : ¬ l.Masked) {b : List Char} (follows : Follows B b) :
    (SENSITIVE_JSON_VALUE B).Dead l.written b := by
  refine .append (spaces_dead _) (.append ?_ (value_dead l.value follows l.comma))
  cases key : l.key with
  | none => exact dead_of_noQuote List.not_mem_nil
  | some key' =>
    refine key_dead fun masked => ?_
    cases value : l.value with
    | text s => exact absurd ⟨key', s, key, value, masked⟩ h
    | plain p =>
      rw [List.append_assoc]
      exact plain_not_valued p _

end Line

/-- On a line the first expression replaces a masked value and nothing else. -/
theorem json_line (l : Line) (follows : Follows B b) (start : Bool) :
    ∃ start', (SENSITIVE_JSON_VALUE B).go 0 start (l.written ++ b) =
      l.mask.written ++ (SENSITIVE_JSON_VALUE B).go 0 start' b := by
  by_cases masked : l.Masked
  · obtain ⟨indent, key, value, comma⟩ := l
    obtain ⟨key, s, rfl, rfl, masked⟩ := masked
    obtain ⟨front, w, word, same, dead⟩ := masked_key (B := B) masked
    have text : (Line.mk indent (some key) (.text s) comma).written ++ b =
        (List.replicate (2 * indent) ' ' ++ front) ++ ((quote :: (w ++ quote :: [':', ' '])) ++
          ((quote :: (s.chars ++ [quote])) ++ (commaText comma ++ b))) := by
      simp only [Line.written, Line.content, same, Scalar.written, quoted, List.append_assoc]
    obtain ⟨_, skipped⟩ := Replacement.go_dead
      (.append (spaces_dead _) (dead ((quote :: (s.chars ++ [quote])) ++
        (commaText comma ++ b)))) start
    obtain ⟨_, replaced⟩ := Replacement.go_match (e := SENSITIVE_JSON_VALUE B)
      (List.cons_ne_nil _ _) (sensitive_match word s.units _)
    obtain ⟨start', rest⟩ := Replacement.go_dead
      (dead_of_noQuote (B := B) (b := b) (comma_noQuote comma)) _
    refine ⟨start', ?_⟩
    rw [text, skipped, replaced, rest]
    have mask : (Line.mk indent (some key) (.text s) comma).mask =
        ⟨indent, some key, .text stars, comma⟩ := by simp [Line.mask, masked]
    rw [mask]
    simp only [Line.written, Line.content, same, List.append_assoc]
    rfl
  · obtain ⟨start', rest⟩ := Replacement.go_dead (Line.dead_of_not_masked masked follows) start
    exact ⟨start', by rw [rest, Line.mask_of_not_masked masked]⟩

theorem json_break (start : Bool) (b : List Char) :
    ∃ start', (SENSITIVE_JSON_VALUE B).go 0 start ('\n' :: b) =
      '\n' :: (SENSITIVE_JSON_VALUE B).go 0 start' b :=
  Replacement.go_dead (a := ['\n']) (dead_of_noQuote (by decide)) start

theorem line_head (l : Line) : ∃ d r, l.written = List.replicate (2 * l.indent) ' ' ++ d :: r ∧
    B.is d = false ∧ d ≠ ':' := by
  have mark := B.quote_visible
  obtain ⟨indent, key, value, comma⟩ := l
  cases key with
  | some key => exact ⟨quote, _, rfl, mark, by decide⟩
  | none =>
    cases value with
    | text s => exact ⟨quote, _, rfl, mark, by decide⟩
    | plain p =>
      obtain ⟨some_text, bare⟩ := plain_bare p
      obtain ⟨d, t, head⟩ := List.exists_cons_of_ne_nil some_text
      have first : Bare d := bare d (head ▸ List.mem_cons_self)
      refine ⟨d, t ++ commaText comma, ?_, B.visible d first.1 first.2.1, first.2.2.2⟩
      change List.replicate (2 * indent) ' ' ++ (p.text ++ commaText comma) = _
      rw [head]
      rfl

theorem follows_break (l : Line) (rest : List Char) : Follows B ('\n' :: (l.written ++ rest)) := by
  obtain ⟨d, r, same, visible, other⟩ := line_head (B := B) l
  refine .inr ⟨2 * l.indent, d, r ++ rest, ?_, visible, other⟩
  rw [same, List.append_assoc]
  rfl

/-- The text of some lines. -/
def render (lines : List Line) : List Char := join (lines.map Line.written)

theorem json_lines (lines : List Line) :
    (SENSITIVE_JSON_VALUE B).replace (render lines) = render (lines.map Line.mask) := by
  unfold Replacement.replace
  generalize true = start
  induction lines generalizing start with
  | nil => rfl
  | cons l lines ih =>
    cases lines with
    | nil =>
      obtain ⟨start', rest⟩ := json_line (B := B) l (.inl rfl) start
      rw [List.append_nil] at rest
      change (SENSITIVE_JSON_VALUE B).go 0 start l.written = l.mask.written
      rw [rest]
      exact List.append_nil _
    | cons l' lines =>
      have text : ∃ t, render (l' :: lines) = l'.written ++ t := by
        cases lines with
        | nil => exact ⟨[], (List.append_nil _).symm⟩
        | cons l'' lines => exact ⟨_, rfl⟩
      have follows : Follows B ('\n' :: render (l' :: lines)) := by
        obtain ⟨t, same⟩ := text
        rw [same]
        exact follows_break l' t
      obtain ⟨start', first⟩ := json_line l follows start
      obtain ⟨start'', second⟩ := json_break (B := B) start' (render (l' :: lines))
      change (SENSITIVE_JSON_VALUE B).go 0 start (l.written ++ '\n' :: render (l' :: lines)) =
        l.mask.written ++ '\n' :: render ((l' :: lines).map Line.mask)
      rw [first, second, ih start'']

end

end QuinMo.Log
