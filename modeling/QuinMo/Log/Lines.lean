import QuinMo.Lib.Pattern
import QuinMo.Lib.Text

/-!
# JSON in lines

A pretty-printed JSON text has every member and every element on a line of its own. In the text of
a string no quotation mark stands without a backslash before it, and no line ends.
-/

namespace QuinMo.Log

def quote : Char := '\x22'

def backslash : Char := '\x5c'

/-- A row of characters and escapes. -/
inductive Units : List Char → Prop where
  | nil : Units []
  | escape {c : Char} {x : List Char} (ends : isTerminator c = false) (rest : Units x) :
      Units (backslash :: c :: x)
  | plain {c : Char} {x : List Char} (noQuote : c ≠ quote) (noEscape : c ≠ backslash)
      (rest : Units x) : Units (c :: x)

/-- The text of a string ends at the first quotation mark that is not escaped. -/
theorem Units.unique {x y r r' : List Char} (h : Units x) (g : Units y)
    (same : x ++ quote :: r = y ++ quote :: r') : x = y ∧ r = r' := by
  induction h generalizing y with
  | nil =>
    cases g with
    | nil => exact ⟨rfl, (List.cons.inj same).2⟩
    | escape => exact absurd (List.cons.inj same).1 (by decide)
    | plain noQuote => exact absurd (List.cons.inj same).1.symm noQuote
  | escape _ _ ih =>
    cases g with
    | nil => exact absurd (List.cons.inj same).1 (by decide)
    | escape _ rest =>
      obtain ⟨sameChar, sameRest⟩ := List.cons.inj (List.cons.inj same).2
      obtain ⟨rfl, rfl⟩ := ih rest sameRest
      exact ⟨by rw [sameChar], rfl⟩
    | plain _ noEscape => exact absurd (List.cons.inj same).1.symm noEscape
  | plain noQuote noEscape _ ih =>
    cases g with
    | nil => exact absurd (List.cons.inj same).1 noQuote
    | escape => exact absurd (List.cons.inj same).1 noEscape
    | plain _ _ rest =>
      obtain ⟨sameChar, sameRest⟩ := List.cons.inj same
      obtain ⟨rfl, rfl⟩ := ih rest sameRest
      exact ⟨by rw [sameChar], rfl⟩

/-- Every quotation mark has a backslash before it. -/
def Escaped (x : List Char) : Prop := ∀ a b, x = a ++ quote :: b → a.getLast? = some backslash

theorem Units.escaped {x : List Char} (h : Units x) : Escaped x := by
  induction h with
  | nil =>
    intro a b same
    cases a <;> cases same
  | @escape c x _ _ ih =>
    intro a b same
    match a, same with
    | [], same => exact absurd (List.cons.inj same).1 (by decide)
    | [d], same => rw [← (List.cons.inj same).1]; rfl
    | d :: d' :: a, same =>
      have rest := ih a b (List.cons.inj (List.cons.inj same).2).2
      rw [List.getLast?_cons_cons, List.getLast?_cons]
      simp [rest]
  | plain noQuote _ _ ih =>
    intro a b same
    cases a with
    | nil => exact absurd (List.cons.inj same).1 noQuote
    | cons d a =>
      have rest := ih a b (List.cons.inj same).2
      rw [List.getLast?_cons]
      simp [rest]

/-- So has every one after a quotation mark. -/
theorem Escaped.after {a b : List Char} (h : Escaped (a ++ quote :: b)) : Escaped b := by
  intro c d same
  have last := h (a ++ quote :: c) d (by rw [same]; simp)
  cases c with
  | nil =>
    rw [List.getLast?_append] at last
    have same : quote = backslash := Option.some.inj last
    exact absurd same (by decide)
  | cons e c =>
    rw [List.getLast?_append, List.getLast?_cons_cons] at last
    simpa using last

/-- What stands between the quotation marks of a string. -/
@[ext]
structure StringText where
  chars : List Char
  units : Units chars
  noBreak : '\n' ∉ chars
  deriving DecidableEq, Repr

/-- What is written without quotation marks. -/
inductive Plain where
  | openObject
  | closeObject
  | openArray
  | closeArray
  | emptyObject
  | emptyArray
  | number (n : Int)
  | boolean (on : Bool)
  | null
  deriving DecidableEq, Repr

def Plain.text : Plain → List Char
  | openObject => ['\x7b']
  | closeObject => ['\x7d']
  | openArray => ['[']
  | closeArray => [']']
  | emptyObject => ['\x7b', '\x7d']
  | emptyArray => ['[', ']']
  | number n => (toString n).toList
  | boolean on => if on then "true".toList else "false".toList
  | null => "null".toList

inductive Scalar where
  | text (s : StringText)
  | plain (p : Plain)
  deriving DecidableEq, Repr

structure Line where
  indent : Nat
  key : Option StringText
  value : Scalar
  comma : Bool
  deriving DecidableEq, Repr

def quoted (s : StringText) : List Char := quote :: (s.chars ++ [quote])

def Scalar.written : Scalar → List Char
  | text s => quoted s
  | plain p => p.text

def keyText : Option StringText → List Char
  | none => []
  | some key => quoted key ++ [':', ' ']

def commaText (comma : Bool) : List Char := if comma then [','] else []

namespace Line

def content (l : Line) : List Char := keyText l.key ++ (l.value.written ++ commaText l.comma)

def written (l : Line) : List Char := List.replicate (2 * l.indent) ' ' ++ l.content

end Line

/-- The lines of a text, with line breaks between them. -/
def join : List (List Char) → List Char
  | [] => []
  | [l] => l
  | l :: l' :: ls => l ++ '\n' :: join (l' :: ls)

end QuinMo.Log
