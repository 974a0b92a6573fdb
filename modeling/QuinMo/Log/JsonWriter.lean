import QuinMo.Log.Outbounds

/-!
# A printer

It escapes what a string cannot hold as it is, and nothing else. A text without control characters
and separators of lines is written like this by Gson, which the app uses.
-/

namespace QuinMo.Log

def escapeChar (c : Char) : List Char :=
  if c = quote ∨ c = backslash then [backslash, c]
  else if c = '\n' then [backslash, 'n']
  else [c]

def escapeString (s : String) : List Char := s.toList.flatMap escapeChar

/-- The two forms in which a character is written; each tells the character. -/
inductive Written (c : Char) : List Char → Prop where
  | plain (noQuote : c ≠ quote) (noEscape : c ≠ backslash) (noBreak : c ≠ '\n') : Written c [c]
  | escape {d : Char} (mark : d ∈ [quote, backslash, 'n'])
      (value : c = if d = 'n' then '\n' else d) : Written c [backslash, d]

theorem escapeChar_written (c : Char) : Written c (escapeChar c) := by
  unfold escapeChar
  split
  · rename_i special
    rcases special with rfl | rfl <;> exact .escape (by decide) (by decide)
  · rename_i ordinary
    obtain ⟨noQuote, noEscape⟩ := not_or.mp ordinary
    split
    · rename_i same
      exact .escape (by decide) same
    · rename_i noBreak
      exact .plain noQuote noEscape noBreak

theorem Written.noBreak {c : Char} {u : List Char} (h : Written c u) : '\n' ∉ u := by
  cases h with
  | plain _ _ noBreak => simpa using noBreak.symm
  | @escape d mark _ =>
    have all : ∀ d ∈ [quote, backslash, 'n'], '\n' ∉ [backslash, d] := by decide
    exact all d mark

theorem Written.inj {c d : Char} {u v x y : List Char} (h : Written c u) (g : Written d v)
    (same : u ++ x = v ++ y) : c = d ∧ x = y := by
  cases h with
  | plain _ noEscape =>
    cases g with
    | plain => exact List.cons.inj same
    | escape => exact absurd (List.cons.inj same).1 noEscape
  | escape _ value =>
    cases g with
    | plain _ noEscape => exact absurd (List.cons.inj same).1.symm noEscape
    | escape _ value' =>
      obtain ⟨rfl, rest⟩ := List.cons.inj (List.cons.inj same).2
      exact ⟨value.trans value'.symm, rest⟩

theorem Written.ne_nil {c : Char} {u : List Char} (h : Written c u) : u ≠ [] := by
  cases h <;> exact List.cons_ne_nil _ _

theorem escape_units (s : String) : Units (escapeString s) := by
  unfold escapeString
  induction s.toList with
  | nil => exact .nil
  | cons c cs ih =>
    have written := escapeChar_written c
    rw [List.flatMap_cons]
    generalize escapeChar c = u at written
    cases written with
    | plain noQuote noEscape _ => exact .plain noQuote noEscape ih
    | @escape d mark _ =>
      have all : ∀ d ∈ [quote, backslash, 'n'], isTerminator d = false := by decide
      exact .escape (all d mark) ih

theorem escape_noBreak (s : String) : '\n' ∉ escapeString s := by
  intro listed
  obtain ⟨c, _, inside⟩ := List.mem_flatMap.mp listed
  exact (escapeChar_written c).noBreak inside

/-- The text of a string tells the string. -/
theorem escape_inj {s t : String} (same : escapeString s = escapeString t) : s = t := by
  suffices all : ∀ cs ds : List Char, cs.flatMap escapeChar = ds.flatMap escapeChar → cs = ds from
    String.toList_inj.mp (all _ _ same)
  intro cs
  induction cs with
  | nil =>
    intro ds same
    cases ds with
    | nil => rfl
    | cons d ds =>
      rw [List.flatMap_cons] at same
      exact absurd (List.append_eq_nil_iff.mp same.symm).1 (escapeChar_written d).ne_nil
  | cons c cs ih =>
    intro ds same
    cases ds with
    | nil =>
      rw [List.flatMap_cons] at same
      exact absurd (List.append_eq_nil_iff.mp same).1 (escapeChar_written c).ne_nil
    | cons d ds =>
      obtain ⟨rfl, rest⟩ := (escapeChar_written c).inj (escapeChar_written d) same
      rw [ih ds rest]

theorem mem_escape {s : String} {c : Char} (listed : c ∈ escapeString s)
    (special : c = '@' ∨ isTerminator c = true) : c ∈ s.toList := by
  obtain ⟨d, inside, part⟩ := List.mem_flatMap.mp listed
  have written := escapeChar_written d
  generalize escapeChar d = u at part written
  cases written with
  | plain => rwa [List.mem_singleton.mp part]
  | @escape e mark _ =>
    have all : ∀ e ∈ [quote, backslash, 'n'], ∀ c ∈ [backslash, e],
        ¬ (c = '@' ∨ isTerminator c = true) := by decide
    exact absurd special (all e mark c part)

theorem escapeChar_letter {c : Char} (letter : c.isLower ∨ c = '_') : escapeChar c = [c] := by
  have other (d : Char) (mark : ¬ (d.isLower ∨ d = '_')) : c ≠ d := by
    rintro rfl
    exact mark letter
  have ordinary : ¬ (c = quote ∨ c = backslash) :=
    not_or.mpr ⟨other quote (by decide), other backslash (by decide)⟩
  rw [escapeChar, if_neg ordinary, if_neg (other '\n' (by decide))]

/-- One member or element a line, and strings escaped as above. -/
def jsonWriter : Printer where
  escape := fun s => ⟨escapeString s, escape_units s, escape_noBreak s⟩
  print := fun j =>
    render (j.lines (fun s => ⟨escapeString s, escape_units s, escape_noBreak s⟩) 0 none false)

theorem jsonWriter_pretty : jsonWriter.Pretty where
  layout := fun _ => rfl
  letters := by
    intro s letters
    change s.toList.flatMap escapeChar = s.toList
    generalize s.toList = cs at letters
    induction cs with
    | nil => rfl
    | cons c cs ih =>
      obtain ⟨first, rest⟩ := List.forall_mem_cons.mp letters
      rw [List.flatMap_cons, escapeChar_letter first, ih rest]
      rfl
  injective := fun _ _ same => escape_inj (congrArg StringText.chars same)
  special := fun _ _ inside special => mem_escape inside special

end QuinMo.Log
