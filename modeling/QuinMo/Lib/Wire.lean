import Mathlib.Algebra.Order.Ring.Int
import QuinMo.Lib.Utf16

/-!
# Reading back what was written

Values are written one after the other, and a reader takes them from the front of its input: the
list of the values, or the bytes of an encoding.
-/

namespace QuinMo

/-- A value as it was written. -/
inductive Token where
  | int (n : Int)
  | long (n : Int)
  | string (s : Option String)
  | boolean (on : Bool)
  | block (bytes : List UInt8)
  deriving DecidableEq, Repr

/-- An input from which values can be read. -/
class Source (I : Type) where
  nextInt : I → Option (Int × I)
  nextLong : I → Option (Int × I)
  nextString : I → Option (Option String × I)
  nextBoolean : I → Option (Bool × I)
  nextBlock : I → Option (List UInt8 × I)

/-- An input to which values can be put back, and are read as they were if it holds them. -/
class Stream (I : Type) extends Source I where
  push : Token → I → I
  Holds : Token → Prop
  nextInt_push : ∀ n rest, Holds (.int n) → nextInt (push (.int n) rest) = some (n, rest)
  nextLong_push : ∀ n rest, Holds (.long n) → nextLong (push (.long n) rest) = some (n, rest)
  nextString_push : ∀ s rest, Holds (.string s) →
    nextString (push (.string s) rest) = some (s, rest)
  nextBoolean_push : ∀ on rest, Holds (.boolean on) →
    nextBoolean (push (.boolean on) rest) = some (on, rest)
  nextBlock_push : ∀ bytes rest, Holds (.block bytes) →
    nextBlock (push (.block bytes) rest) = some (bytes, rest)

/-- A reader takes values from the front of its input, and fails when it cannot. -/
abbrev Reader (I : Type) := StateT I Option

variable {I α β : Type}

section
variable [Source I]

def readInt : Reader I Int := Source.nextInt

def readLong : Reader I Int := Source.nextLong

def readString : Reader I (Option String) := Source.nextString

def readBoolean : Reader I Bool := Source.nextBoolean

def readBlock : Reader I (List UInt8) := Source.nextBlock

/-- What an older layout does not have is not read. -/
def readIf (c : Prop) [Decidable c] (r : Reader I α) : Reader I (Option α) :=
  if c then some <$> r else pure none

/-- Reading fails unless this holds of what was read. -/
def require (c : Prop) [Decidable c] : Reader I Unit := if c then pure () else failure

def readTimes (r : Reader I α) : Nat → Reader I (List α)
  | 0 => pure []
  | n + 1 => do
    let a ← r
    let rest ← readTimes r n
    return a :: rest

end

/-- Reading a null where a text is needed fails. -/
def readText [Source I] : Reader I String := do
  match ← readString with
  | some s => pure s
  | none => failure

section
variable [Stream I]

def pushAll (written : List Token) (rest : I) : I := written.foldr Stream.push rest

/-- The reader takes exactly what was written, if the input holds it, and makes this of it. -/
def Reads (r : Reader I α) (written : List Token) (a : α) : Prop :=
  (∀ t ∈ written, Stream.Holds (I := I) t) →
    ∀ rest : I, r.run (pushAll written rest) = some (a, rest)

@[simp] theorem pushAll_nil (rest : I) : pushAll [] rest = rest := rfl

@[simp] theorem pushAll_cons (t : Token) (written : List Token) (rest : I) :
    pushAll (t :: written) rest = Stream.push t (pushAll written rest) := rfl

@[simp] theorem pushAll_append (first second : List Token) (rest : I) :
    pushAll (first ++ second) rest = pushAll first (pushAll second rest) :=
  List.foldr_append

section
variable {n : Int} {s : Option String} {text : String} {on : Bool} {bytes : List UInt8} (rest : I)

@[simp] theorem readInt_push (held : Stream.Holds (I := I) (.int n)) :
    readInt.run (Stream.push (.int n) rest) = some (n, rest) :=
  Stream.nextInt_push n rest held

@[simp] theorem readLong_push (held : Stream.Holds (I := I) (.long n)) :
    readLong.run (Stream.push (.long n) rest) = some (n, rest) :=
  Stream.nextLong_push n rest held

@[simp] theorem readString_push (held : Stream.Holds (I := I) (.string s)) :
    readString.run (Stream.push (.string s) rest) = some (s, rest) :=
  Stream.nextString_push s rest held

@[simp] theorem readBoolean_push (held : Stream.Holds (I := I) (.boolean on)) :
    readBoolean.run (Stream.push (.boolean on) rest) = some (on, rest) :=
  Stream.nextBoolean_push on rest held

@[simp] theorem readBlock_push (held : Stream.Holds (I := I) (.block bytes)) :
    readBlock.run (Stream.push (.block bytes) rest) = some (bytes, rest) :=
  Stream.nextBlock_push bytes rest held

@[simp] theorem run_readInt (f : Int → Reader I β) (held : Stream.Holds (I := I) (.int n)) :
    (readInt >>= f).run (Stream.push (.int n) rest) = (f n).run rest := by
  rw [StateT.run_bind, readInt_push rest held]
  rfl

@[simp] theorem run_readLong (f : Int → Reader I β) (held : Stream.Holds (I := I) (.long n)) :
    (readLong >>= f).run (Stream.push (.long n) rest) = (f n).run rest := by
  rw [StateT.run_bind, readLong_push rest held]
  rfl

@[simp] theorem run_readString (f : Option String → Reader I β)
    (held : Stream.Holds (I := I) (.string s)) :
    (readString >>= f).run (Stream.push (.string s) rest) = (f s).run rest := by
  rw [StateT.run_bind, readString_push rest held]
  rfl

@[simp] theorem run_readBoolean (f : Bool → Reader I β)
    (held : Stream.Holds (I := I) (.boolean on)) :
    (readBoolean >>= f).run (Stream.push (.boolean on) rest) = (f on).run rest := by
  rw [StateT.run_bind, readBoolean_push rest held]
  rfl

@[simp] theorem run_readBlock (f : List UInt8 → Reader I β)
    (held : Stream.Holds (I := I) (.block bytes)) :
    (readBlock >>= f).run (Stream.push (.block bytes) rest) = (f bytes).run rest := by
  rw [StateT.run_bind, readBlock_push rest held]
  rfl

@[simp] theorem run_readText (f : String → Reader I β)
    (held : Stream.Holds (I := I) (.string (some text))) :
    (readText >>= f).run (Stream.push (.string (some text)) rest) = (f text).run rest := by
  rw [StateT.run_bind, readText, run_readString rest _ held]
  rfl

@[simp] theorem readText_push (held : Stream.Holds (I := I) (.string (some text))) :
    readText.run (Stream.push (.string (some text)) rest) = some (text, rest) := by
  rw [readText, run_readString rest _ held]
  rfl

end

/-- One reader after the other reads what was written one after the other. -/
theorem Reads.bind {r : Reader I α} {f : α → Reader I β} {first second : List Token} {a : α} {b : β}
    (h : Reads r first a) (g : Reads (f a) second b) : Reads (r >>= f) (first ++ second) b := by
  intro held rest
  obtain ⟨heldFirst, heldSecond⟩ := List.forall_mem_append.mp held
  rw [pushAll_append, StateT.run_bind, h heldFirst]
  exact g heldSecond rest

theorem readTimes_reads {r : Reader I α} (write : α → Token) (h : ∀ a, Reads r [write a] a)
    (values : List α) : Reads (readTimes r values.length) (values.map write) values := by
  induction values with
  | nil => exact fun _ _ => rfl
  | cons a values ih =>
    refine (h a).bind ?_
    intro held rest
    have tail := ih held rest
    simp only [StateT.run_bind, tail]
    rfl

end

/-! ## Lists of values -/

instance : Stream (List Token) where
  nextInt | .int n :: rest => some (n, rest) | _ => none
  nextLong | .long n :: rest => some (n, rest) | _ => none
  nextString | .string s :: rest => some (s, rest) | _ => none
  nextBoolean | .boolean on :: rest => some (on, rest) | _ => none
  nextBlock | .block bytes :: rest => some (bytes, rest) | _ => none
  push := List.cons
  Holds _ := True
  nextInt_push _ _ _ := rfl
  nextLong_push _ _ _ := rfl
  nextString_push _ _ _ := rfl
  nextBoolean_push _ _ _ := rfl
  nextBlock_push _ _ _ := rfl

theorem pushAll_tokens (written rest : List Token) : pushAll written rest = written ++ rest := by
  induction written with
  | nil => rfl
  | cons t written ih => exact congrArg (t :: ·) ih

/-- A reader of values takes off what was written. -/
theorem Reads.run_append {r : Reader (List Token) α} {written : List Token} {a : α}
    (h : Reads r written a) (rest : List Token) : r.run (written ++ rest) = some (a, rest) := by
  rw [← pushAll_tokens]
  exact h (fun _ _ => trivial) rest

/-- The values that a machine has: numbers of 32 and 64 bits, and texts and blocks whose length, in
units of UTF-16 and in bytes, is a number of 32 bits with room for one more. -/
def Token.Fits : Token → Prop
  | .int n => -2 ^ 31 ≤ n ∧ n < 2 ^ 31
  | .long n => -2 ^ 63 ≤ n ∧ n < 2 ^ 63
  | .string none => True
  | .string (some s) => (Utf16.encode s.toList).length < 2 ^ 31 - 1
  | .boolean _ => True
  | .block bytes => bytes.length < 2 ^ 31 - 1

instance : (t : Token) → Decidable t.Fits
  | .int _ | .long _ => inferInstanceAs (Decidable (_ ∧ _))
  | .string none | .boolean _ => inferInstanceAs (Decidable True)
  | .string (some _) | .block _ => inferInstanceAs (Decidable (_ < _))

/-- A format under which the values of a machine are read back from the front of the bytes. -/
structure Encoding where
  bytes : Token → List UInt8
  nextInt : List UInt8 → Option (Int × List UInt8)
  nextLong : List UInt8 → Option (Int × List UInt8)
  nextString : List UInt8 → Option (Option String × List UInt8)
  nextBoolean : List UInt8 → Option (Bool × List UInt8)
  nextBlock : List UInt8 → Option (List UInt8 × List UInt8)
  nextInt_bytes : ∀ n rest, (Token.int n).Fits → nextInt (bytes (.int n) ++ rest) = some (n, rest)
  nextLong_bytes : ∀ n rest, (Token.long n).Fits →
    nextLong (bytes (.long n) ++ rest) = some (n, rest)
  nextString_bytes : ∀ s rest, (Token.string s).Fits →
    nextString (bytes (.string s) ++ rest) = some (s, rest)
  nextBoolean_bytes : ∀ on rest, nextBoolean (bytes (.boolean on) ++ rest) = some (on, rest)
  nextBlock_bytes : ∀ block rest, (Token.block block).Fits →
    nextBlock (bytes (.block block) ++ rest) = some (block, rest)

namespace Encoding

/-- Bytes that are read in the format. -/
def Input (_ : Encoding) : Type := List UInt8

variable (E : Encoding)

instance : Stream E.Input where
  nextInt := E.nextInt
  nextLong := E.nextLong
  nextString := E.nextString
  nextBoolean := E.nextBoolean
  nextBlock := E.nextBlock
  push t rest := List.append (E.bytes t) rest
  Holds := Token.Fits
  nextInt_push := E.nextInt_bytes
  nextLong_push := E.nextLong_bytes
  nextString_push := E.nextString_bytes
  nextBoolean_push on rest _ := E.nextBoolean_bytes on rest
  nextBlock_push := E.nextBlock_bytes

def write (written : List Token) : List UInt8 := written.flatMap E.bytes

/-- What is read, and the bytes that are left. -/
def read (r : Reader E.Input α) (bytes : List UInt8) : Option (α × List UInt8) := r.run bytes

variable {E}

theorem pushAll_eq (written : List Token) (rest : List UInt8) :
    pushAll (I := E.Input) written rest = E.write written ++ rest := by
  induction written with
  | nil => rfl
  | cons t written ih =>
    have head := congrArg (E.bytes t ++ ·) ih
    rw [write, List.flatMap_cons, List.append_assoc]
    exact head

theorem read_write {r : Reader E.Input α} {written : List Token} {a : α} (h : Reads r written a)
    (fits : ∀ t ∈ written, t.Fits) : E.read r (E.write written) = some (a, []) := by
  have whole := pushAll_eq (E := E) written []
  rw [List.append_nil] at whole
  rw [← whole]
  exact h fits []

/-- Two values that are written alike are read alike. -/
theorem eq_of_write {r : Reader E.Input α} {first second : List Token} {a b : α}
    (h : Reads r first a) (g : Reads r second b) (fits : ∀ t ∈ first, t.Fits)
    (fits' : ∀ t ∈ second, t.Fits) (same : E.write first = E.write second) : a = b := by
  have left := read_write h fits
  rw [same, read_write g fits'] at left
  cases left
  rfl

theorem ne_nil_of_next {β : Type} {next : List UInt8 → Option (β × List UInt8)}
    {x y : List UInt8} {a b : β} (first : ∀ rest, next (x ++ rest) = some (a, rest))
    (second : ∀ rest, next (y ++ rest) = some (b, rest)) (differs : a ≠ b) : x ≠ [] := by
  rintro rfl
  have read := first (y ++ [])
  rw [List.nil_append, second] at read
  exact differs (congrArg Prod.fst (Option.some.inj read)).symm

/-- No value is written as nothing, or it would be read in place of any other. -/
theorem bytes_ne_nil {t : Token} (fits : t.Fits) : E.bytes t ≠ [] := by
  cases t with
  | int n =>
    obtain ⟨m, fits', differs⟩ : ∃ m, (Token.int m).Fits ∧ n ≠ m := by
      by_cases zero : n = 0
      · exact ⟨1, by decide, by omega⟩
      · exact ⟨0, by decide, zero⟩
    exact ne_nil_of_next (E.nextInt_bytes n · fits) (E.nextInt_bytes m · fits') differs
  | long n =>
    obtain ⟨m, fits', differs⟩ : ∃ m, (Token.long m).Fits ∧ n ≠ m := by
      by_cases zero : n = 0
      · exact ⟨1, by decide, by omega⟩
      · exact ⟨0, by decide, zero⟩
    exact ne_nil_of_next (E.nextLong_bytes n · fits) (E.nextLong_bytes m · fits') differs
  | string s =>
    obtain ⟨m, fits', differs⟩ : ∃ m, (Token.string m).Fits ∧ s ≠ m := by
      cases s with
      | none => exact ⟨some "", by decide, nofun⟩
      | some s => exact ⟨none, trivial, nofun⟩
    exact ne_nil_of_next (E.nextString_bytes s · fits) (E.nextString_bytes m · fits') differs
  | boolean on =>
    exact ne_nil_of_next (E.nextBoolean_bytes on) (E.nextBoolean_bytes (!on)) (by cases on <;> decide)
  | block bytes =>
    obtain ⟨m, fits', differs⟩ : ∃ m, (Token.block m).Fits ∧ bytes ≠ m := by
      cases bytes with
      | nil => exact ⟨[0], by decide, nofun⟩
      | cons _ _ => exact ⟨[], by decide, nofun⟩
    exact ne_nil_of_next (E.nextBlock_bytes bytes · fits) (E.nextBlock_bytes m · fits') differs

/-- There are at least as many bytes as values. -/
theorem length_le_write {written : List Token} (fits : ∀ t ∈ written, t.Fits) :
    written.length ≤ (E.write written).length := by
  induction written with
  | nil => exact Nat.zero_le _
  | cons t written ih =>
    obtain ⟨own, rest⟩ := List.forall_mem_cons.mp fits
    have some_bytes := List.length_pos_iff.mpr (bytes_ne_nil (E := E) own)
    have tail := ih rest
    rw [write, List.flatMap_cons, List.length_append, List.length_cons]
    rw [write] at tail
    omega

end Encoding

end QuinMo
