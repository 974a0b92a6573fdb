import Mathlib.Data.List.Basic

/-!
# Text as Kotlin reads it

The functions have the names and results of the Kotlin standard library: a delimiter that does not
occur leaves the text whole, white space is the Unicode notion, and a number is read with its
sign, in any script's decimal digits, and only inside 32 bits.
-/

namespace QuinMo.Text

/-- What holds of the characters of a text is decided along the text, and not over all
characters there are. -/
instance decidableForallMem (P : Char → Prop) [DecidablePred P] (s : List Char) :
    Decidable (∀ c ∈ s, P c) :=
  List.decidableBAll P s

/-- `Char.isWhitespace`: the separators of Unicode and the ASCII control spaces. -/
def isWhitespace (c : Char) : Bool :=
  let n := c.toNat
  decide (9 ≤ n ∧ n ≤ 13) || decide (0x1c ≤ n ∧ n ≤ 0x20) || n == 0xa0 || n == 0x1680 ||
    decide (0x2000 ≤ n ∧ n ≤ 0x200a) || n == 0x2028 || n == 0x2029 || n == 0x202f ||
    n == 0x205f || n == 0x3000

def isBlank (s : String) : Bool := s.toList.all isWhitespace

def trim (s : String) : String :=
  String.ofList ((s.toList.dropWhile isWhitespace).reverse.dropWhile isWhitespace).reverse

def startsWith (s start : String) : Bool := start.toList.isPrefixOf s.toList

def endsWith (s tail : String) : Bool := tail.toList.isSuffixOf s.toList

def removePrefix (s start : String) : String :=
  if startsWith s start then String.ofList (s.toList.drop start.length) else s

def removeSuffix (s tail : String) : String :=
  if endsWith s tail then String.ofList (s.toList.take (s.length - tail.length)) else s

/-- Split at every character that satisfies `p`. -/
def splitAt (s : String) (p : Char → Bool) : List String :=
  (s.toList.splitOnP p).map String.ofList

def split (s : String) (d : Char) : List String := splitAt s (· == d)

/-- `listByLineOrComma`: trimmed entries, the empty ones dropped. -/
def listByLineOrComma (s : String) : List String :=
  ((splitAt s fun c => c == ',' || c == '\n').map trim).filter (· ≠ "")

variable {c : Char} {a b : List Char} {s : String} {d x rest : List Char} {n m : Nat}

/-- An entry that is left has a character that is no white space. -/
theorem listByLineOrComma_not_blank {it : String} (h : it ∈ listByLineOrComma s) :
    isBlank it = false := by
  obtain ⟨listed, notEmpty⟩ := List.mem_filter.mp h
  obtain ⟨entry, _, rfl⟩ := List.mem_map.mp listed
  unfold trim at notEmpty ⊢
  generalize entry.toList.dropWhile isWhitespace = cs at notEmpty ⊢
  cases rest : cs.reverse.dropWhile isWhitespace with
  | nil => simp [rest] at notEmpty
  | cons c more =>
    have solid : isWhitespace c = false := by
      have left : cs.reverse.dropWhile isWhitespace ≠ [] := by simp [rest]
      have head := List.head_dropWhile_not isWhitespace left
      simpa [rest] using head
    simp [isBlank, solid]

/-- The text before and after the first occurrence of `d`. -/
def breakOn (d : List Char) : List Char → Option (List Char × List Char)
  | [] => if d.isEmpty then some ([], []) else none
  | c :: cs =>
    if d.isPrefixOf (c :: cs) then some ([], (c :: cs).drop d.length)
    else (breakOn d cs).map fun parts => (c :: parts.1, parts.2)

def contains (s d : String) : Bool := (breakOn d.toList s.toList).isSome

def substringBefore (s d : String) : String :=
  match breakOn d.toList s.toList with
  | some parts => String.ofList parts.1
  | none => s

def substringAfter (s d : String) (missing : String) : String :=
  match breakOn d.toList s.toList with
  | some parts => String.ofList parts.2
  | none => missing

/-- The text after the last occurrence of `d`. -/
def substringAfterLast (s : String) (d : Char) (missing : String) : String :=
  if d ∈ s.toList then String.ofList (s.toList.reverse.takeWhile (· ≠ d)).reverse else missing

def substringBeforeLast (s : String) (d : Char) (missing : String) : String :=
  if d ∈ s.toList then String.ofList ((s.toList.reverse.dropWhile (· ≠ d)).drop 1).reverse
  else missing

/-- Replace every occurrence, left to right, without overlaps. `skip` counts the
characters of an occurrence that are still to be passed over. -/
def replaceFrom (old new : List Char) : Nat → List Char → List Char
  | _, [] => []
  | skip + 1, _ :: cs => replaceFrom old new skip cs
  | 0, c :: cs =>
    if old.isPrefixOf (c :: cs) then new ++ replaceFrom old new (old.length - 1) cs
    else c :: replaceFrom old new 0 cs

def replace (s old new : String) : String :=
  String.ofList (replaceFrom old.toList new.toList 0 s.toList)

def replaceFirst (s old new : String) : String :=
  match breakOn old.toList s.toList with
  | some parts => String.ofList (parts.1 ++ new.toList ++ parts.2)
  | none => s

/-- `String.lineSequence`: a line ends at a line feed, a carriage return or both. -/
def lines (s : String) : List String :=
  splitAt (replace s "\r\n" "\n") fun c => c == '\n' || c == '\r'

/-- The code points of the zeros of the scripts `Character.digit` reads. -/
def digitZeros : List Nat :=
  [0x30, 0x660, 0x6f0, 0x7c0, 0x966, 0x9e6, 0xa66, 0xae6, 0xb66, 0xbe6, 0xc66, 0xce6, 0xd66,
    0xde6, 0xe50, 0xed0, 0xf20, 0x1040, 0x1090, 0x17e0, 0x1810, 0x1946, 0x19d0, 0x1a80, 0x1a90,
    0x1b50, 0x1bb0, 0x1c40, 0x1c50, 0xa620, 0xa8d0, 0xa900, 0xa9d0, 0xa9f0, 0xaa50, 0xabf0,
    0xff10]

def digitOf (c : Char) : Option Nat :=
  (digitZeros.find? fun z => decide (z ≤ c.toNat ∧ c.toNat < z + 10)).map fun z => c.toNat - z

/-- The number a row of digits spells, none for a row with another character. -/
def digitsToNat : List Char → Nat → Option Nat
  | [], n => some n
  | c :: cs, n => (digitOf c).bind fun d => digitsToNat cs (n * 10 + d)

/-- `String.toIntOrNull`: an optional sign, at least one digit, no overflow. -/
def toIntOrNull (s : String) : Option Int :=
  let read (digits : List Char) : Option Int :=
    if digits.isEmpty then none else (digitsToNat digits 0).map Int.ofNat
  let value := match s.toList with
    | '-' :: ds => (read ds).map fun n => -n
    | '+' :: ds => read ds
    | ds => read ds
  value.filter fun n => decide (-2147483648 ≤ n ∧ n ≤ 2147483647)

theorem startsWith_append (start rest : String) : startsWith (start ++ rest) start = true := by
  rw [startsWith, List.isPrefixOf_iff_prefix, String.toList_append]
  exact List.prefix_append _ _

theorem removePrefix_append (start rest : String) : removePrefix (start ++ rest) start = rest := by
  rw [removePrefix, if_pos (startsWith_append start rest), String.toList_append,
    ← String.length_toList, List.drop_left, String.ofList_toList]

theorem append_removePrefix {start : String} (h : startsWith s start = true) :
    s = start ++ removePrefix s start := by
  obtain ⟨rest, text⟩ := List.isPrefixOf_iff_prefix.mp h
  obtain rfl : s = start ++ String.ofList rest := by
    apply String.toList_injective
    rw [String.toList_append, String.toList_ofList, text]
  rw [removePrefix_append]

theorem endsWith_append (rest tail : String) : endsWith (rest ++ tail) tail = true := by
  rw [endsWith, List.isSuffixOf_iff_suffix, String.toList_append]
  exact List.suffix_append _ _

theorem removeSuffix_append (rest tail : String) : removeSuffix (rest ++ tail) tail = rest := by
  have before : (rest ++ tail).length - tail.length = rest.toList.length := by
    rw [String.length_append, String.length_toList]
    omega
  rw [removeSuffix, if_pos (endsWith_append rest tail), before, String.toList_append,
    List.take_left, String.ofList_toList]

theorem removeSuffix_append_of {tail : String} (h : endsWith s tail = true) :
    s = removeSuffix s tail ++ tail := by
  obtain ⟨rest, text⟩ := List.isSuffixOf_iff_suffix.mp h
  obtain rfl : s = String.ofList rest ++ tail := by
    apply String.toList_injective
    rw [String.toList_append, String.toList_ofList, text]
  rw [removeSuffix_append]

/-! ## Splitting and joining -/

/-- `joinToString` with a separator of one character. -/
def joinToString (parts : List String) (d : Char) : String :=
  String.ofList ([d].intercalate (parts.map String.toList))

theorem not_mem_splitOnP {p : Char → Bool} {s part : List Char} (h : part ∈ s.splitOnP p) :
    ∀ c ∈ part, p c = false := by
  induction s generalizing part with
  | nil =>
    rw [List.splitOnP_nil, List.mem_singleton] at h
    simp [h]
  | cons a s ih =>
    rw [List.splitOnP_cons_eq_if_modifyHead] at h
    split at h
    · rcases List.mem_cons.mp h with rfl | h
      · simp
      · exact ih h
    · next other =>
      cases parts : s.splitOnP p with
      | nil => exact absurd parts (List.splitOnP_ne_nil p s)
      | cons first rest =>
        rw [parts] at h ih
        rcases List.mem_cons.mp h with rfl | h
        · intro c hc
          rcases List.mem_cons.mp hc with rfl | hc
          · simpa using other
          · exact ih List.mem_cons_self c hc
        · exact ih (List.mem_cons_of_mem _ h)

theorem not_mem_of_mem_split {part : String} {d : Char} (h : part ∈ split s d) :
    d ∉ part.toList := by
  obtain ⟨chars, listed, rfl⟩ := List.mem_map.mp h
  rw [String.toList_ofList]
  intro inside
  have := not_mem_splitOnP listed d inside
  simp at this

theorem split_whole {d : Char} (no : d ∉ s.toList) : split s d = [s] := by
  have whole : s.toList.splitOnP (· == d) = [s.toList] :=
    List.splitOnP_eq_singleton fun c hc => beq_eq_false_iff_ne.mpr fun same => no (same ▸ hc)
  rw [split, splitAt, whole, List.map_singleton, String.ofList_toList]

/-- Splitting what was joined splits each of the parts. -/
theorem split_joinToString {parts : List String} (some_part : parts ≠ []) (d : Char) :
    split (joinToString parts d) d = parts.flatMap (split · d) := by
  induction parts with
  | nil => exact absurd rfl some_part
  | cons part parts ih =>
    cases parts with
    | nil => simp [joinToString]
    | cons next parts =>
      have joined : (joinToString (part :: next :: parts) d).toList =
          part.toList ++ d :: (joinToString (next :: parts) d).toList := by
        simp [joinToString, List.intercalate_cons_cons]
      rw [List.flatMap_cons, ← ih (by simp), split, splitAt, joined,
        List.splitOnP_append_cons _ _ (by simp), List.map_append]
      rfl

section
variable {α : Type} {p : α → Bool} {x y : List α}

theorem takeWhile_cut (own : ∀ c ∈ x, p c = true) (stop : ∀ c ∈ y.head?, p c = false) :
    (x ++ y).takeWhile p = x := by
  rw [List.takeWhile_append_of_pos own]
  cases y with
  | nil => simp
  | cons c y => simp [stop c rfl]

theorem dropWhile_cut (own : ∀ c ∈ x, p c = true) (stop : ∀ c ∈ y.head?, p c = false) :
    (x ++ y).dropWhile p = y := by
  rw [List.dropWhile_append_of_pos own]
  cases y with
  | nil => rfl
  | cons c y => simp [stop c rfl]

/-- A row of such characters ends where another one follows. -/
theorem append_cut {x' y' : List α} (own : ∀ c ∈ x, p c = true) (own' : ∀ c ∈ x', p c = true)
    (stop : ∀ c ∈ y.head?, p c = false) (stop' : ∀ c ∈ y'.head?, p c = false)
    (h : x ++ y = x' ++ y') : x = x' ∧ y = y' := by
  have same : x = x' := by
    rw [← takeWhile_cut own stop, ← takeWhile_cut own' stop', h]
  refine ⟨same, ?_⟩
  rw [same] at h
  exact List.append_cancel_left h

end

/-- No occurrence of `d` starts inside `x` when `rest` follows. -/
def Clear (d x rest : List Char) : Prop := ∀ a c b, x = a ++ c :: b → ¬ d <+: c :: b ++ rest

/-- What starts a text before a character it has not starts the part before. -/
theorem prefix_before (stop : c ∉ d) (h : d <+: x ++ c :: rest) : d <+: x := by
  obtain ⟨more, eq⟩ := h
  rcases List.append_eq_append_iff.mp eq with ⟨tail, whole, _⟩ | ⟨tail, rfl, past⟩
  · exact ⟨tail, whole.symm⟩
  · cases tail with
    | nil => simp
    | cons e tail =>
      cases past
      simp at stop

theorem breakOn_clear (h : Clear d x rest) :
    breakOn d (x ++ rest) = (breakOn d rest).map fun parts => (x ++ parts.1, parts.2) := by
  induction x with
  | nil => simp
  | cons c x ih =>
    have tail := ih fun a e b eq => h (c :: a) e b (by rw [eq, List.cons_append])
    have front : d.isPrefixOf (c :: (x ++ rest)) = false := by
      rw [← Bool.not_eq_true, List.isPrefixOf_iff_prefix]
      exact h [] c x rfl
    rw [List.cons_append, breakOn, front, if_neg Bool.false_ne_true, tail, Option.map_map]
    rfl

theorem breakOn_front : breakOn (c :: d) (c :: d ++ rest) = some ([], rest) := by
  have front : (c :: d).isPrefixOf (c :: (d ++ rest)) = true :=
    List.isPrefixOf_iff_prefix.mpr (List.prefix_append (c :: d) rest)
  rw [List.cons_append, breakOn, if_pos front]
  simp

theorem replaceFirst_found {old : String} (new : String)
    (h : breakOn old.toList s.toList = some (a, b)) :
    replaceFirst s old new = String.ofList (a ++ new.toList ++ b) := by
  rw [replaceFirst, h]

theorem replaceFirst_front {old new : String} {s : List Char} (some_text : old.toList ≠ []) :
    replaceFirst (old ++ String.ofList s) old new = new ++ String.ofList s := by
  obtain ⟨c, d, front⟩ := List.exists_cons_of_ne_nil some_text
  have found : breakOn old.toList (old ++ String.ofList s).toList = some ([], s) := by
    rw [String.toList_append, String.toList_ofList, front, breakOn_front]
  rw [replaceFirst_found new found, ← String.toList_inj]
  simp

theorem Clear.append {y : List Char} (h : Clear d x (y ++ rest)) (g : Clear d y rest) :
    Clear d (x ++ y) rest := by
  intro a c b eq
  rcases List.append_eq_append_iff.mp eq with ⟨more, rfl, own⟩ | ⟨more, own, eq'⟩
  · exact g more c b own
  · cases more with
    | nil =>
      rw [List.nil_append] at eq'
      exact g [] c b eq'.symm
    | cons e more =>
      rw [List.cons_append, List.cons.injEq] at eq'
      obtain ⟨rfl, rfl⟩ := eq'
      have := h a c more own
      rwa [List.cons_append, List.append_assoc, ← List.cons_append]

theorem breakOn_append {s : List Char} (h : breakOn d s = some (a, b)) : s = a ++ d ++ b := by
  induction s generalizing a b with
  | nil =>
    unfold breakOn at h
    split at h <;> simp_all
  | cons c s ih =>
    unfold breakOn at h
    split at h
    · rename_i front
      obtain ⟨rest, text⟩ := List.isPrefixOf_iff_prefix.mp front
      cases h
      rw [← text]
      simp
    · obtain ⟨parts, rest, eq⟩ := Option.map_eq_some_iff.mp h
      cases eq
      rw [ih rest]
      simp

theorem substringAfter_found {d : String} {missing : String}
    (h : breakOn d.toList s.toList = some (a, b)) : substringAfter s d missing =
      String.ofList b := by
  rw [substringAfter, h]

theorem substringBefore_found {d : String}
    (h : breakOn d.toList s.toList = some (a, b)) : substringBefore s d = String.ofList a := by
  rw [substringBefore, h]

/-- Replacing one character. -/
theorem replaceFrom_char (d : Char) (new s : List Char) :
    replaceFrom [d] new 0 s = s.flatMap fun c => if c = d then new else [c] := by
  induction s with
  | nil => rfl
  | cons c s ih =>
    rw [replaceFrom, List.flatMap_cons, ← ih]
    by_cases own : c = d
    · subst own
      simp
    · have other : ¬ d = c := fun eq => own eq.symm
      simp [own, other]

theorem clear_of_not_mem (h : c ∉ x) : Clear (c :: d) x rest := by
  rintro a e b rfl occurs
  rw [List.cons_append, List.cons_prefix_cons] at occurs
  exact h (by rw [occurs.1]; simp)

/-- The text is cut at the first occurrence. -/
theorem breakOn_first (no : c ∉ x) : breakOn (c :: d) (x ++ (c :: d ++ rest)) = some (x, rest) := by
  rw [breakOn_clear (clear_of_not_mem no), breakOn_front]
  simp

theorem breakOn_char (first : c ∉ a) : breakOn [c] (a ++ c :: b) = some (a, b) := by
  have front : breakOn [c] (c :: b) = some ([], b) := breakOn_front
  rw [breakOn_clear (clear_of_not_mem first), front]
  simp

/-- `String.toLowerCase` of the root locale: what is in lower case stays, and white
space has no case. -/
structure LowerCase where
  lower : String → String
  isBlank_lower : ∀ s, isBlank (lower s) = isBlank s
  lower_lower : ∀ s, lower (lower s) = lower s
  lower_letters : ∀ s, s.toList.all Char.isLower = true → lower s = s

def asciiLowercase (s : String) : String := String.ofList (s.toList.map Char.toLower)

theorem char_between {low : Nat} (above : low ≤ c.toNat) (below : c.toNat < low + n) :
    ∃ k : Fin n, c = Char.ofNat (low + k) := by
  have same : low + (c.toNat - low) = c.toNat := by omega
  exact ⟨⟨c.toNat - low, by omega⟩, by simp [same]⟩

theorem capital_or_toLower (c : Char) : (∃ k : Fin 26, c = Char.ofNat (65 + k)) ∨ c.toLower = c := by
  by_cases upper : c.val ≥ 'A'.val ∧ c.val ≤ 'Z'.val
  · have low : 65 ≤ c.toNat := upper.1
    have high : c.toNat ≤ 90 := upper.2
    exact .inl (char_between low (by omega))
  · right
    unfold Char.toLower
    rw [dif_neg upper]

theorem isWhitespace_toLower (c : Char) : isWhitespace c.toLower = isWhitespace c := by
  rcases capital_or_toLower c with ⟨k, rfl⟩ | stays
  · revert k
    decide
  · rw [stays]

theorem toLower_toLower (c : Char) : c.toLower.toLower = c.toLower := by
  rcases capital_or_toLower c with ⟨k, rfl⟩ | stays
  · revert k
    decide
  · rw [stays, stays]

theorem isBlank_asciiLowercase (s : String) : isBlank (asciiLowercase s) = isBlank s := by
  simp [isBlank, asciiLowercase, List.all_map, Function.comp_def, isWhitespace_toLower]

/-- Lower case by the ASCII letters alone. -/
def LowerCase.ascii : LowerCase where
  lower := asciiLowercase
  isBlank_lower := isBlank_asciiLowercase
  lower_lower s := by
    simp only [asciiLowercase, String.toList_ofList, List.map_map, Function.comp_def, toLower_toLower]
  lower_letters s h := by
    have stays : ∀ c ∈ s.toList, c.toLower = c := by
      intro c hc
      rcases capital_or_toLower c with ⟨k, rfl⟩ | stays
      · have capital : ∀ k : Fin 26, (Char.ofNat (65 + k)).isLower = false := by decide
        have lower := List.all_eq_true.mp h _ hc
        rw [capital k] at lower
        cases lower
      · exact stays
    rw [asciiLowercase, List.map_congr_left stays, List.map_id', String.ofList_toList]

/-! ## Numbers inside names -/

theorem toDigits_isDigit {k : Nat} (hc : c ∈ Nat.toDigits 10 k) : c.isDigit = true :=
  Nat.isDigit_of_mem_toDigits (by decide) (by decide) hc

theorem toDigits_inj (same : Nat.toDigits 10 m = Nat.toDigits 10 n) : m = n := by
  rw [← Nat.ofDigitChars_ten_toDigits (n := m), same, Nat.ofDigitChars_ten_toDigits]

/-- The digits of a number end where a character that is no digit follows. -/
theorem digits_cut
    (stopA : ∀ c ∈ a.head?, c.isDigit = false) (stopB : ∀ c ∈ b.head?, c.isDigit = false)
    (h : Nat.toDigits 10 m ++ a = Nat.toDigits 10 n ++ b) : m = n ∧ a = b := by
  obtain ⟨same, rest⟩ := append_cut (fun _ => toDigits_isDigit) (fun _ => toDigits_isDigit)
    stopA stopB h
  exact ⟨toDigits_inj same, rest⟩

/-- The digits at the end of a text start where a character that is no digit precedes. -/
theorem digits_cut_end
    (stopA : ∀ c ∈ a.getLast?, c.isDigit = false) (stopB : ∀ c ∈ b.getLast?, c.isDigit = false)
    (h : a ++ Nat.toDigits 10 m = b ++ Nat.toDigits 10 n) : m = n := by
  have reversed := congrArg List.reverse h
  rw [List.reverse_append, List.reverse_append] at reversed
  have same := (append_cut (fun c hc => toDigits_isDigit (List.mem_reverse.mp hc))
    (fun c hc => toDigits_isDigit (List.mem_reverse.mp hc)) (by simpa using stopA)
    (by simpa using stopB) reversed).1
  exact toDigits_inj (List.reverse_inj.mp same)

theorem toString_nat_inj (h : toString m = toString n) : m = n := by
  have digits : Nat.toDigits 10 m ++ [] = Nat.toDigits 10 n ++ [] := by
    rw [List.append_nil, List.append_nil, ← Nat.toList_repr, ← Nat.toList_repr]
    exact congrArg String.toList h
  exact (digits_cut (by simp) (by simp) digits).1

theorem toList_int (n : Int) : (toString n).toList =
    if n < 0 then '-' :: Nat.toDigits 10 n.natAbs else Nat.toDigits 10 n.natAbs := by
  cases n with
  | ofNat n =>
    have : ¬ Int.ofNat n < 0 := by simp
    simp only [this, if_false]
    exact Nat.toList_repr
  | negSucc n =>
    simp only [Int.negSucc_lt_zero, if_true, Int.natAbs_negSucc]
    change ("-" ++ (n + 1).repr).toList = _
    rw [String.toList_append, Nat.toList_repr]
    rfl

/-- A written integer ends where a character that is no digit follows. -/
theorem int_cut {m n : Int}
    (stopA : ∀ c ∈ a.head?, c.isDigit = false) (stopB : ∀ c ∈ b.head?, c.isDigit = false)
    (h : (toString m).toList ++ a = (toString n).toList ++ b) : m = n ∧ a = b := by
  have noSign (k : Nat) (t u : List Char) : '-' :: t ≠ Nat.toDigits 10 k ++ u := by
    intro eq
    cases digits : Nat.toDigits 10 k with
    | nil => exact Nat.toDigits_ne_nil digits
    | cons c cs =>
      rw [digits, List.cons_append, List.cons.injEq] at eq
      have digit : c.isDigit = true :=
        Nat.isDigit_of_mem_toDigits (by decide) (by decide) (digits ▸ List.mem_cons_self)
      rw [← eq.1] at digit
      exact absurd digit (by decide)
  rw [toList_int, toList_int] at h
  split at h <;> split at h
  · rw [List.cons_append, List.cons_append, List.cons.injEq] at h
    obtain ⟨same, rest⟩ := digits_cut stopA stopB h.2
    exact ⟨by omega, rest⟩
  · exact absurd h (noSign _ _ _)
  · exact absurd h.symm (noSign _ _ _)
  · obtain ⟨same, rest⟩ := digits_cut stopA stopB h
    exact ⟨by omega, rest⟩

theorem toString_int_inj {m n : Int} (h : toString m = toString n) : m = n := by
  have digits : (toString m).toList ++ [] = (toString n).toList ++ [] := by rw [h]
  exact (int_cut (by simp) (by simp) digits).1

theorem not_mem_toString_int (digit : c.isDigit = false) (sign : c ≠ '-') (n : Int) :
    c ∉ (toString n).toList := by
  have digits : c ∉ Nat.toDigits 10 n.natAbs := by
    intro listed
    rw [toDigits_isDigit listed] at digit
    cases digit
  rw [toList_int]
  split
  · rw [List.mem_cons, not_or]
    exact ⟨sign, digits⟩
  · exact digits

/-- The last occurrence of a character is in one place. -/
theorem last_cut {y : List Char} (noA : c ∉ a) (noB : c ∉ b)
    (h : x ++ c :: a = y ++ c :: b) : x = y ∧ a = b := by
  rcases List.append_eq_append_iff.mp h with ⟨m, later, rest⟩ | ⟨m, later, rest⟩
  · cases m with
    | nil =>
      rw [List.append_nil] at later
      exact ⟨later.symm, (List.cons.inj rest).2⟩
    | cons d m =>
      rw [List.cons_append, List.cons.injEq] at rest
      exact absurd (rest.2 ▸ List.mem_append_right m List.mem_cons_self) noA
  · cases m with
    | nil =>
      rw [List.append_nil] at later
      exact ⟨later, (List.cons.inj rest).2.symm⟩
    | cons d m =>
      rw [List.cons_append, List.cons.injEq] at rest
      exact absurd (rest.2 ▸ List.mem_append_right m List.mem_cons_self) noB

theorem digit_cases (digit : c.isDigit = true) : ∃ k : Fin 10, c = Char.ofNat (48 + k) := by
  simp only [Char.isDigit, Bool.and_eq_true, decide_eq_true_eq] at digit
  have low : 48 ≤ c.toNat := digit.1
  have high : c.toNat ≤ 57 := digit.2
  exact char_between low (by omega)

theorem digitOf_digit (digit : c.isDigit = true) : digitOf c = some (c.toNat - 48) := by
  obtain ⟨k, rfl⟩ := digit_cases digit
  revert k
  decide

theorem digitsToNat_digits {digits : List Char} (isDigit : ∀ c ∈ digits, c.isDigit = true)
    (n : Nat) : digitsToNat digits n = some (Nat.ofDigitChars 10 digits n) := by
  induction digits generalizing n with
  | nil => rfl
  | cons c digits ih =>
    rw [digitsToNat, digitOf_digit (isDigit c List.mem_cons_self), Nat.ofDigitChars_cons,
      Nat.mul_comm]
    exact ih (fun d hd => isDigit d (List.mem_cons_of_mem _ hd)) _

theorem toIntOrNull_digits (some_digit : s ≠ "") (isDigit : ∀ c ∈ s.toList, c.isDigit = true)
    (high : Nat.ofDigitChars 10 s.toList 0 ≤ 2147483647) :
    toIntOrNull s = some (Nat.ofDigitChars 10 s.toList 0 : Int) := by
  unfold toIntOrNull
  have read := digitsToNat_digits isDigit 0
  cases digits : s.toList with
  | nil => exact absurd (String.toList_eq_nil_iff.mp digits) some_digit
  | cons c cs =>
    rw [digits] at isDigit read high
    have digit : c.isDigit = true := isDigit c List.mem_cons_self
    have noMinus : c ≠ '-' := by rintro rfl; cases digit
    have noPlus : c ≠ '+' := by rintro rfl; cases digit
    split
    · rename_i h; cases h; exact absurd rfl noMinus
    · rename_i h; cases h; exact absurd rfl noPlus
    · simp only [List.isEmpty_cons, Bool.false_eq_true, if_false, read, Option.map_some]
      have low : -2147483648 ≤ (Nat.ofDigitChars 10 (c :: cs) 0 : Int) := by omega
      have within : (Nat.ofDigitChars 10 (c :: cs) 0 : Int) ≤ 2147483647 := by omega
      simp [low, within]

/-- A number is read back as it was written. -/
theorem toIntOrNull_toString {n : Int} (low : -2147483648 ≤ n) (high : n ≤ 2147483647) :
    toIntOrNull (toString n) = some n := by
  have text := toList_int n
  by_cases negative : n < 0
  · have read : digitsToNat (Nat.toDigits 10 n.natAbs) 0 = some n.natAbs := by
      rw [digitsToNat_digits (fun _ => toDigits_isDigit), Nat.ofDigitChars_ten_toDigits]
    have some_digit : (Nat.toDigits 10 n.natAbs).isEmpty = false := by
      simp [Nat.toDigits_ne_nil]
    have value : -Int.ofNat n.natAbs = n := by
      rw [Int.ofNat_eq_natCast]
      omega
    unfold toIntOrNull
    rw [text]
    simp only [if_pos negative, some_digit, read, Option.map_some, value, Bool.false_eq_true,
      if_false]
    simp [low, high]
  · rw [if_neg negative] at text
    have some_digit : toString n ≠ "" := by
      intro empty
      rw [empty] at text
      exact Nat.toDigits_ne_nil text.symm
    have value : Nat.ofDigitChars 10 (toString n).toList 0 = n.natAbs := by
      rw [text, Nat.ofDigitChars_ten_toDigits]
    have digits : ∀ c ∈ (toString n).toList, c.isDigit = true := by
      rw [text]
      exact fun _ => toDigits_isDigit
    rw [toIntOrNull_digits some_digit digits (by omega), value]
    exact congrArg some (by omega)

end QuinMo.Text
