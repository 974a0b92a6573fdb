import QuinMo.Log.Redact

/-!
# Logged texts, line by line

None of the four expressions sees past a line break of a JSON text, so the text is redacted line
by line.
-/

namespace QuinMo.Log

open Pattern

section
variable {B : Blanks}

/-- The rest of a line is matched up to the line break. -/
theorem yaml_tail_append (m b : List Char) : (SENSITIVE_YAML_VALUE B).tail.run (m ++ '\n' :: b) =
      ((SENSITIVE_YAML_VALUE B).tail.run m).map (· ++ '\n' :: b) := by
  have avoids : (plus (one fun c => !isTerminator c)).Avoids '\n' := ⟨rfl, rfl⟩
  change ((plus _).run _).flatMap lineEnd.run = (((plus _).run _).flatMap lineEnd.run).map _
  rw [run_append avoids, List.flatMap_map, List.map_flatMap]
  apply List.flatMap_congr
  intro r _
  cases r with
  | nil => rfl
  | cons c r =>
    change (if isTerminator c then [c :: r ++ '\n' :: b] else []) =
      (if isTerminator c then [c :: r] else []).map _
    split <;> rfl

theorem yaml_group_avoids : (SENSITIVE_YAML_VALUE B).group.Avoids quote := by
  have mark := B.quote_visible
  exact ⟨mark, words_avoids (by decide), mark, rfl, mark⟩

variable {s b : List Char} {e : Replacement}

/-- From a place before a quotation mark a match does not see the next line. -/
theorem yaml_blind {start : Bool} (quoted : quote ∈ s) :
    (SENSITIVE_YAML_VALUE B).firstMatch start (s ++ '\n' :: b) =
      ((SENSITIVE_YAML_VALUE B).firstMatch start s).map
        fun (m, r) => (m ++ '\n' :: b, r ++ '\n' :: b) := by
  obtain ⟨x, y, rfl⟩ := List.append_of_mem quoted
  refine Replacement.firstMatch_append ?_ fun m => yaml_tail_append m b
  rw [List.append_assoc, List.cons_append, run_append yaml_group_avoids,
    run_append yaml_group_avoids, List.map_map]
  apply List.map_congr_left
  intro m _
  simp

/-- Keys begin with a letter, and with no two letters with which a value begins. -/
theorem yaml_key_start {w : List Char} {word : String} (listed : word ∈ yamlKeys)
    (lower : w.map Char.toLower = word.toList) :
    ∃ d e w', w = d :: e :: w' ∧ d.toLower ∈ "abcdefghijklmnopqrstuvwxyz_".toList ∧
      [d.toLower, e.toLower] ∉ [['t', 'r'], ['f', 'a'], ['n', 'u']] := by
  have starts : ∀ word ∈ yamlKeys, 2 ≤ word.toList.length ∧
      (∀ d ∈ word.toList.take 1, d ∈ "abcdefghijklmnopqrstuvwxyz_".toList) ∧
      word.toList.take 2 ∉ [['t', 'r'], ['f', 'a'], ['n', 'u']] := by decide
  obtain ⟨two, head, pair⟩ := starts word listed
  rw [← lower] at two head pair
  match w, two, head, pair with
  | d :: e :: w', _, head, pair => exact ⟨d, e, w', rfl, head _ List.mem_cons_self, pair⟩

theorem number_head (n : Int) {d : Char}
    (same : (toString n).toList ++ b = d :: s) : d.toNat ≤ 57 := by
  rw [Text.toList_int] at same
  split at same
  · obtain ⟨rfl, _⟩ := List.cons.inj same
    decide
  · cases digits : Nat.toDigits 10 n.natAbs with
    | nil => exact absurd digits Nat.toDigits_ne_nil
    | cons c cs =>
      rw [digits] at same
      obtain ⟨rfl, _⟩ := List.cons.inj same
      have digit := Text.toDigits_isDigit (digits ▸ List.mem_cons_self : c ∈ Nat.toDigits 10 _)
      simp only [Char.isDigit, Bool.and_eq_true, decide_eq_true_eq] at digit
      exact UInt32.le_iff_toNat_le.mp digit.2

/-- A value without quotation marks does not begin like a key. -/
theorem plain_not_key (p : Plain) {w t : List Char} {word : String} (listed : word ∈ yamlKeys)
    (lower : w.map Char.toLower = word.toList) : p.text ++ b ≠ w ++ t := by
  obtain ⟨d, e, w', rfl, letter, pair⟩ := yaml_key_start listed lower
  intro same
  have noLetter : ∀ c s, p.text ++ b = c :: s →
      c.toLower ∉ "abcdefghijklmnopqrstuvwxyz_".toList → False := by
    intro c s start other
    rw [same] at start
    obtain ⟨rfl, _⟩ := List.cons.inj start
    exact other letter
  have noPair : ∀ c c' s, p.text ++ b = c :: c' :: s →
      [c.toLower, c'.toLower] ∈ [['t', 'r'], ['f', 'a'], ['n', 'u']] → False := by
    intro c c' s start other
    rw [same] at start
    obtain ⟨rfl, rest⟩ := List.cons.inj start
    obtain ⟨rfl, _⟩ := List.cons.inj rest
    exact pair other
  cases p with
  | number n =>
    have small := number_head n same
    have large := letter_range letter
    omega
  | boolean on => cases on <;> exact noPair _ _ _ rfl (by decide)
  | null => exact noPair _ _ _ rfl (by decide)
  | _ => exact noLetter _ _ rfl (by decide)

/-- The expression for YAML begins with spaces and a key. -/
theorem mem_yaml_group {n : Nat} {c : Char} {m : List Char} (visible : B.is c = false)
    (listed : m ∈ (SENSITIVE_YAML_VALUE B).group.run (List.replicate n ' ' ++ c :: s)) :
    ∃ w t, (∃ word ∈ yamlKeys, w.map Char.toLower = word.toList) ∧ c :: s = w ++ t := by
  obtain ⟨x, first, rest⟩ := mem_seq.mp listed
  obtain ⟨u, blank, parts⟩ := mem_star_one.mp first
  obtain ⟨t, second, _⟩ := mem_seq.mp rest
  obtain ⟨w, ⟨word, inside, lower⟩, rfl⟩ := mem_words.mp second
  obtain ⟨d, e, w', rfl, letter, _⟩ := yaml_key_start inside lower
  have range := letter_range letter
  obtain ⟨_, rfl, tail⟩ := first_visible (B.spaces n) blank visible
    (B.visible d (by omega) range.2) parts
  exact ⟨_, t, ⟨word, inside, lower⟩, congrArg (c :: ·) tail⟩

theorem yaml_group_plain (n : Nat) (p : Plain) {m : List Char} :
    m ∉ (SENSITIVE_YAML_VALUE B).group.run (List.replicate n ' ' ++ (p.text ++ b)) := by
  intro listed
  obtain ⟨some_text, bare⟩ := plain_bare p
  obtain ⟨c, cs, head⟩ := List.exists_cons_of_ne_nil some_text
  have visible : Bare c := bare c (head ▸ List.mem_cons_self)
  rw [head] at listed
  obtain ⟨w, t, ⟨word, inside, lower⟩, same⟩ :=
    mem_yaml_group (B.visible c visible.1 visible.2.1) listed
  apply plain_not_key p (b := b) (t := t) inside lower
  rw [head]
  exact same

/-- Where no line starts the expression for YAML matches nothing. -/
theorem yaml_off (s : List Char) : (SENSITIVE_YAML_VALUE B).firstMatch false s = none := rfl

theorem bare_not_terminator {c : Char} (bare : Bare c) : isTerminator c = false := by
  obtain ⟨low, high, _⟩ := bare
  have noBreak : c ≠ '\n' ∧ c ≠ '\r' := by
    constructor <;> rintro rfl <;> exact absurd low (by decide)
  simp only [isTerminator, Bool.or_eq_false_iff, beq_eq_false_iff_ne]
  exact ⟨⟨⟨⟨noBreak.1, noBreak.2⟩, by omega⟩, by omega⟩, by omega⟩

/-- After the last quotation mark of a line there is no line terminator. -/
theorem line_parts (l : Line) : ∃ front tail, l.written = front ++ tail ∧
    (∀ c ∈ front.getLast?, c = quote) ∧ ∀ c ∈ tail, isTerminator c = false := by
  obtain ⟨indent, key, value, comma⟩ := l
  have commas : ∀ c ∈ commaText comma, isTerminator c = false := by cases comma <;> decide
  cases value with
  | text s =>
    refine ⟨List.replicate (2 * indent) ' ' ++ (keyText key ++ quoted s), commaText comma, ?_, ?_,
      commas⟩
    · simp [Line.written, Line.content, Scalar.written]
    · simp [quoted, List.getLast?_append, List.getLast?_cons]
  | plain p =>
    have plain : ∀ c ∈ p.text ++ commaText comma, isTerminator c = false :=
      List.forall_mem_append.mpr
        ⟨fun c listed => bare_not_terminator ((plain_bare p).2 c listed), commas⟩
    cases key with
    | none =>
      refine ⟨[], _, (List.nil_append _).symm, by simp, List.forall_mem_append.mpr ⟨?_, plain⟩⟩
      intro c listed
      rw [(List.mem_replicate.mp listed).2]
      decide
    | some key =>
      refine ⟨List.replicate (2 * indent) ' ' ++ quoted key,
        [':', ' '] ++ (p.text ++ commaText comma), ?_, ?_,
        List.forall_mem_append.mpr ⟨by decide, plain⟩⟩
      · simp [Line.written, Line.content, keyText, Scalar.written]
      · simp [quoted, List.getLast?_append, List.getLast?_cons]

theorem quote_of_terminator {l : Line} {p : List Char} {t : Char}
    (same : l.written = p ++ t :: s) (terminator : isTerminator t = true) : quote ∈ s := by
  obtain ⟨front, tail, parts, ends, clear⟩ := line_parts l
  have outside : t ∉ tail := fun inside =>
    absurd ((clear t inside).symm.trans terminator) (by decide)
  rw [parts] at same
  rcases List.append_eq_append_iff.mp same with ⟨q, rfl, later⟩ | ⟨q, rfl, later⟩
  · exact absurd (later ▸ List.mem_append_right _ List.mem_cons_self) outside
  · cases q with
    | nil => exact absurd ((List.nil_append tail ▸ later) ▸ List.mem_cons_self) outside
    | cons d q =>
      obtain ⟨rfl, rfl⟩ := List.cons.inj later
      rcases List.eq_nil_or_concat q with rfl | ⟨q', e, rfl⟩
      · obtain rfl := ends t (by simp)
        cases terminator
      · obtain rfl := ends e (by simp [List.getLast?_append, List.getLast?_cons])
        simp

theorem written_ne_nil (l : Line) : l.written ≠ [] := by
  obtain ⟨indent, key, value, comma⟩ := l
  cases key with
  | some key => simp [Line.written, Line.content, keyText, quoted]
  | none =>
    cases value with
    | text s => simp [Line.written, Line.content, Scalar.written, quoted]
    | plain p => simp [Line.written, Line.content, Scalar.written, (plain_bare p).1]

theorem endsLine_written (l : Line) : Replacement.endsLine l.written = false := by
  rcases List.eq_nil_or_concat l.written with empty | ⟨p, t, same⟩
  · exact absurd empty (written_ne_nil l)
  · rw [List.concat_eq_append] at same
    rw [same, Replacement.endsLine_concat]
    by_contra terminator
    have inside := quote_of_terminator same (Bool.not_eq_false _ ▸ terminator)
    cases inside

theorem yaml_line (l : Line) (b : List Char) :
    (SENSITIVE_YAML_VALUE B).replace (l.written ++ '\n' :: b) =
      (SENSITIVE_YAML_VALUE B).replace l.written ++ '\n' :: (SENSITIVE_YAML_VALUE B).replace b := by
  refine Replacement.replace_lines ?_ ?_
  · intro p s same some_text
    by_cases inside : quote ∈ s
    · exact yaml_blind inside
    rcases List.eq_nil_or_concat p with rfl | ⟨p', t, rfl⟩
    · -- the whole line is one value without quotation marks
      obtain ⟨indent, key, value, comma⟩ := l
      rw [List.nil_append] at same
      subst same
      cases key with
      | some key => exact absurd (by simp [Line.written, Line.content, keyText, quoted]) inside
      | none =>
        cases value with
        | text s => exact absurd (by simp [Line.written, Line.content, Scalar.written, quoted]) inside
        | plain q =>
          have absent : ∀ b', (SENSITIVE_YAML_VALUE B).firstMatch true
              (List.replicate (2 * indent) ' ' ++ (q.text ++ b')) = none := fun b' =>
            Replacement.firstMatch_none fun m listed => absurd listed (yaml_group_plain _ q)
          have alone := absent (commaText comma)
          have before := absent (commaText comma ++ '\n' :: b)
          have text : (Line.mk indent none (.plain q) comma).written =
              List.replicate (2 * indent) ' ' ++ (q.text ++ commaText comma) := rfl
          rw [text, List.append_assoc, List.append_assoc]
          exact before.trans (congrArg (Option.map _) alone).symm
    · rw [List.concat_eq_append, Replacement.endsLine_concat]
      cases terminator : isTerminator t with
      | false => rfl
      | true =>
        have parts : l.written = p' ++ t :: s := by simpa using same
        exact absurd (quote_of_terminator parts terminator) inside
  · rw [endsLine_written l]
    rfl

/-- The expressions for URLs do not see line breaks. -/
theorem url_replace (group : e.group.Avoids '\n') (tail : e.tail.Avoids '\n')
    (colon : ∀ s, e.group.run ('\n' :: s) = []) (a b : List Char) :
    e.replace (a ++ '\n' :: b) = e.replace a ++ '\n' :: e.replace b := by
  refine Replacement.replace_lines ?_ ?_
  · intro p s _ _
    exact Replacement.firstMatch_append (run_append group s b) fun m => run_append tail m b
  · refine Replacement.firstMatch_none fun m listed => ?_
    rw [colon] at listed
    cases listed

theorem userinfoChar_break : userinfoChar B '\n' = false := by
  simp [userinfoChar, B.newline]

theorem passwordChar_break : passwordChar B '\n' = false := by
  simp [passwordChar, B.newline]

theorem password_line (a b : List Char) : (URL_USERINFO_PASSWORD B).replace (a ++ '\n' :: b) =
      (URL_USERINFO_PASSWORD B).replace a ++ '\n' :: (URL_USERINFO_PASSWORD B).replace b :=
  url_replace (e := URL_USERINFO_PASSWORD B)
    ⟨⟨rfl, rfl, rfl⟩, userinfoChar_break, userinfoChar_break⟩ ⟨rfl, passwordChar_break, rfl⟩
    (fun _ => rfl) a b

theorem bare_line (a b : List Char) : (URL_USERINFO_BARE B).replace (a ++ '\n' :: b) =
      (URL_USERINFO_BARE B).replace a ++ '\n' :: (URL_USERINFO_BARE B).replace b :=
  url_replace (e := URL_USERINFO_BARE B) ⟨rfl, rfl, rfl⟩
    ⟨⟨userinfoChar_break, userinfoChar_break⟩, rfl⟩ (fun _ => rfl) a b

/-! ## Whole texts -/

/-- What the later expressions make of a line. -/
def later (B : Blanks) (line : List Char) : List Char :=
  (URL_USERINFO_BARE B).replace ((URL_USERINFO_PASSWORD B).replace
    ((SENSITIVE_YAML_VALUE B).replace line))

/-- What is logged of a line. -/
def logged (B : Blanks) (l : Line) : List Char := later B l.mask.written

theorem replace_join {lines : List (List Char)}
    (local_line : ∀ a ∈ lines, ∀ b, e.replace (a ++ '\n' :: b) = e.replace a ++ '\n' ::
      e.replace b) :
    e.replace (join lines) = join (lines.map e.replace) := by
  induction lines with
  | nil => rfl
  | cons a lines ih =>
    obtain ⟨first, rest⟩ := List.forall_mem_cons.mp local_line
    cases lines with
    | nil => rfl
    | cons a' lines =>
      change e.replace (a ++ '\n' :: join (a' :: lines)) = _
      rw [first, ih rest]
      rfl

/-- A JSON text is redacted line by line. -/
theorem redactSecrets_render (lines : List Line) :
    redactSecrets B (render lines) = join (lines.map (logged B)) := by
  have yaml := @replace_join (SENSITIVE_YAML_VALUE B) ((lines.map Line.mask).map Line.written)
    (List.forall_mem_map.mpr fun l _ => yaml_line l)
  rw [redactSecrets, json_lines, render, yaml, replace_join fun a _ => password_line a,
    replace_join fun a _ => bare_line a, List.map_map, List.map_map, List.map_map, List.map_map]
  rfl

theorem mem_written {l : Line} {c : Char} (listed : c ∈ l.written) : c ∈ [' ', ':', ','] ∨
    (∃ key, l.key = some key ∧ c ∈ quoted key) ∨ c ∈ l.value.written := by
  obtain ⟨indent, key, value, comma⟩ := l
  rcases List.mem_append.mp listed with spaces | listed
  · simp [(List.mem_replicate.mp spaces).2]
  rcases List.mem_append.mp listed with inside | listed
  · cases key with
    | none => cases inside
    | some key =>
      rcases List.mem_append.mp inside with name | colon
      · exact .inr (.inl ⟨key, rfl, name⟩)
      · rw [List.mem_pair] at colon
        rcases colon with rfl | rfl <;> simp
  rcases List.mem_append.mp listed with value | last
  · exact .inr (.inr value)
  · cases comma with
    | true => simp [List.mem_singleton.mp last]
    | false => cases last

theorem quoted_noBreak (s : StringText) : '\n' ∉ quoted s := by
  intro listed
  rcases List.mem_cons.mp listed with first | rest
  · exact absurd first (by decide)
  rcases List.mem_append.mp rest with inside | last
  · exact s.noBreak inside
  · exact absurd (List.mem_singleton.mp last) (by decide)

theorem written_noBreak (l : Line) : '\n' ∉ l.written := by
  intro listed
  rcases mem_written listed with fixed | ⟨key, _, inside⟩ | value
  · exact absurd fixed (by decide)
  · exact quoted_noBreak key inside
  · cases written : l.value with
    | text s =>
      rw [written] at value
      exact quoted_noBreak s value
    | plain p =>
      rw [written] at value
      exact absurd ((plain_bare p).2 _ value).1 (by decide)

theorem replace_noBreak (mark : '\n' ∉ e.mark) (clear : '\n' ∉ s) : '\n' ∉ e.replace s :=
  fun listed => (Replacement.mem_go listed).elim clear mark

/-- What is logged has the line breaks of the text. -/
theorem logged_noBreak (l : Line) : '\n' ∉ logged B l := by
  have stars : '\n' ∉ ['*', '*', '*'] := by decide
  have colon : '\n' ∉ [':', '*', '*', '*', '@'] := by decide
  have at_sign : '\n' ∉ ['*', '*', '*', '@'] := by decide
  have yaml := replace_noBreak (e := SENSITIVE_YAML_VALUE B) stars (written_noBreak l.mask)
  have password := replace_noBreak (e := URL_USERINFO_PASSWORD B) colon yaml
  exact replace_noBreak (e := URL_USERINFO_BARE B) at_sign password

theorem join_inj {as bs : List (List Char)} (clear : ∀ a ∈ as, '\n' ∉ a)
    (clear' : ∀ b ∈ bs, '\n' ∉ b) (some_line : as ≠ []) (some_line' : bs ≠ [])
    (same : join as = join bs) : as = bs := by
  induction as generalizing bs with
  | nil => exact absurd rfl some_line
  | cons a as ih =>
    obtain ⟨first, rest⟩ := List.forall_mem_cons.mp clear
    cases bs with
    | nil => exact absurd rfl some_line'
    | cons b bs =>
      obtain ⟨first', rest'⟩ := List.forall_mem_cons.mp clear'
      cases as with
      | nil =>
        cases bs with
        | nil =>
          rw [show a = b from same]
        | cons b' bs =>
          have line : a = b ++ '\n' :: join (b' :: bs) := same
          exact absurd (line ▸ List.mem_append_right b List.mem_cons_self) first
      | cons a' as =>
        cases bs with
        | nil =>
          have line : a ++ '\n' :: join (a' :: as) = b := same
          exact absurd (line ▸ List.mem_append_right a List.mem_cons_self) first'
        | cons b' bs =>
          have lines : a ++ '\n' :: join (a' :: as) = b ++ '\n' :: join (b' :: bs) := same
          rcases first_mark first lines with ⟨rfl, later⟩ | ⟨x, rfl⟩
          · rw [ih rest rest' nofun nofun later]
          · exact absurd (List.mem_append_right a List.mem_cons_self) first'

/-- Two JSON texts are logged alike exactly if their lines are. -/
theorem redacted_alike {lines lines' : List Line} (some_line : lines ≠ [])
    (some_line' : lines' ≠ []) :
    redactSecrets B (render lines) = redactSecrets B (render lines') ↔
      lines.map (logged B) = lines'.map (logged B) := by
  rw [redactSecrets_render, redactSecrets_render]
  constructor
  · have clear : ∀ lines : List Line, ∀ a ∈ lines.map (logged B), '\n' ∉ a := fun lines =>
      List.forall_mem_map.mpr fun l _ => logged_noBreak l
    exact join_inj (clear lines) (clear lines') (by simpa using some_line)
      (by simpa using some_line')
  · exact congrArg join

/-- Without an `@` there is nothing to mask in a URL. -/
theorem url_unmatched (tail : ∀ m r, r ∈ e.tail.run m → '@' ∈ m)
    (clear : '@' ∉ s) : e.replace s = s := by
  refine Replacement.replace_unmatched fun p t same => Replacement.firstMatch_none ?_
  intro m listed r matched
  have inside := (run_suffix listed).mem (tail m r matched)
  exact clear (same ▸ List.mem_append_right p inside)

theorem password_unmatched (clear : '@' ∉ s) : (URL_USERINFO_PASSWORD B).replace s = s := by
  refine url_unmatched (fun m r matched => ?_) clear
  obtain ⟨m', colon, rest⟩ := mem_seq.mp matched
  obtain ⟨m'', chars, last⟩ := mem_seq.mp rest
  rw [mem_char.mp last] at chars
  exact (run_suffix colon).mem ((run_suffix chars).mem List.mem_cons_self)

theorem bare_unmatched (clear : '@' ∉ s) : (URL_USERINFO_BARE B).replace s = s := by
  refine url_unmatched (fun m r matched => ?_) clear
  obtain ⟨m', chars, last⟩ := mem_seq.mp matched
  rw [mem_char.mp last] at chars
  exact (run_suffix chars).mem List.mem_cons_self

/-- A line with a quotation mark at its beginning has no key of YAML. -/
theorem yaml_unmatched (n : Nat) (clear : ∀ c ∈ s, isTerminator c = false) :
    (SENSITIVE_YAML_VALUE B).replace (List.replicate n ' ' ++ quote :: s) =
      List.replicate n ' ' ++ quote :: s := by
  refine Replacement.replace_unmatched fun p t same => ?_
  rcases List.eq_nil_or_concat p with rfl | ⟨p', d, rfl⟩
  · rw [List.nil_append] at same
    rw [← same]
    refine Replacement.firstMatch_none fun m listed => ?_
    obtain ⟨w, t, ⟨word, inside, lower⟩, parts⟩ := mem_yaml_group B.quote_visible listed
    obtain ⟨d, e, w', rfl, letter, _⟩ := yaml_key_start inside lower
    obtain ⟨rfl, _⟩ := List.cons.inj parts
    exact absurd letter (by decide)
  · have inside : d ∈ List.replicate n ' ' ++ quote :: s := by
      rw [same]
      simp
    have noEnd : isTerminator d = false := by
      rcases List.mem_append.mp inside with space | rest
      · rw [(List.mem_replicate.mp space).2]
        decide
      rcases List.mem_cons.mp rest with rfl | rest
      · decide
      · exact clear d rest
    rw [List.concat_eq_append, Replacement.endsLine_concat, noEnd]
    exact yaml_off t

/-- A text with no `@`, as a URL with a name has, and with no end of a line. -/
def Unsuspicious (s : List Char) : Prop := '@' ∉ s ∧ ∀ c ∈ s, isTerminator c = false

instance (s : List Char) : Decidable (Unsuspicious s) :=
  inferInstanceAs (Decidable (_ ∧ _))

theorem unsuspicious_quoted {s : StringText} (clear : Unsuspicious s.chars) {c : Char}
    (listed : c ∈ quoted s) : c ≠ '@' ∧ isTerminator c = false := by
  rcases List.mem_cons.mp listed with rfl | listed
  · decide
  rcases List.mem_append.mp listed with inside | last
  · exact ⟨fun same => clear.1 (same ▸ inside), clear.2 c inside⟩
  · rw [List.mem_singleton.mp last]
    decide

/-- Such a value is logged as it is behind a key that is not masked. -/
theorem logged_as_written {key s : StringText} (open_key : sensitive key = false)
    (clear_key : Unsuspicious key.chars) (clear : Unsuspicious s.chars) (indent : Nat)
    (comma : Bool) :
    logged B ⟨indent, some key, .text s, comma⟩ =
      (Line.mk indent (some key) (.text s) comma).written := by
  have mask : (Line.mk indent (some key) (.text s) comma).mask =
      ⟨indent, some key, .text s, comma⟩ := by simp [Line.mask, open_key]
  have all : ∀ c ∈ (Line.mk indent (some key) (.text s) comma).written,
      c ≠ '@' ∧ isTerminator c = false := by
    intro c listed
    rcases mem_written listed with fixed | ⟨_, ⟨rfl⟩, inside⟩ | value
    · have all : ∀ c ∈ [' ', ':', ','], c ≠ '@' ∧ isTerminator c = false := by decide
      exact all c fixed
    · exact unsuspicious_quoted clear_key inside
    · exact unsuspicious_quoted clear value
  have noAt : '@' ∉ (Line.mk indent (some key) (.text s) comma).written :=
    fun listed => (all _ listed).1 rfl
  have yaml : (SENSITIVE_YAML_VALUE B).replace
      (Line.mk indent (some key) (.text s) comma).written =
        (Line.mk indent (some key) (.text s) comma).written :=
    yaml_unmatched (2 * indent) fun c listed =>
      (all c (List.mem_append_right _ (List.mem_cons_of_mem _ listed))).2
  rw [logged, later, mask, yaml, password_unmatched noAt, bare_unmatched noAt]

end

end QuinMo.Log
