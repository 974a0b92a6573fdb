import Mathlib.Algebra.Order.Ring.Int
import QuinMo.Lib.Wire

/-!
# The formats of Kryo and of parcels

Both write numbers with the low byte first. Kryo writes a short text of ASCII as it is, with the
high bit of its last byte set, and puts one byte before a short block; a parcel has a count, the
units of the text and a zero, and fills up to a multiple of four bytes. What Kryo does with longer
texts and blocks is not followed here: they have a count of four bytes before them.
-/

namespace QuinMo.Binary

def littleEndian : Nat → Nat → List UInt8
  | 0, _ => []
  | size + 1, n => UInt8.ofNat n :: littleEndian size (n / 256)

def ofLittleEndian : List UInt8 → Nat
  | [] => 0
  | byte :: bytes => byte.toNat + 256 * ofLittleEndian bytes

theorem ofLittleEndian_littleEndian {size n : Nat} (small : n < 256 ^ size) :
    ofLittleEndian (littleEndian size n) = n := by
  induction size generalizing n with
  | zero =>
    rw [Nat.pow_zero] at small
    exact (Nat.lt_one_iff.mp small).symm
  | succ size ih =>
    have rest : n / 256 < 256 ^ size := by
      rw [Nat.pow_succ] at small
      omega
    rw [littleEndian, ofLittleEndian, ih rest, UInt8.toNat_ofNat']
    omega

theorem length_littleEndian (size n : Nat) : (littleEndian size n).length = size := by
  induction size generalizing n with
  | zero => rfl
  | succ size ih => rw [littleEndian, List.length_cons, ih]

def nextBytes (size : Nat) (input : List UInt8) : Option (List UInt8 × List UInt8) :=
  if size ≤ input.length then some (input.take size, input.drop size) else none

theorem nextBytes_append {size : Nat} {bytes : List UInt8} (whole : bytes.length = size)
    (rest : List UInt8) : nextBytes size (bytes ++ rest) = some (bytes, rest) := by
  subst whole
  rw [nextBytes, if_pos (by simp), List.take_left, List.drop_left]

/-- A signed number of so many bytes. -/
def number (size : Nat) (n : Int) : List UInt8 := littleEndian size (n % 256 ^ size).toNat

def nextNumber (size : Nat) (input : List UInt8) : Option (Int × List UInt8) :=
  (nextBytes size input).map fun (bytes, rest) =>
    (Int.bmod (ofLittleEndian bytes) (256 ^ size), rest)

theorem nextNumber_number {size : Nat} {n : Int} (low : -(256 ^ size : Int) ≤ 2 * n)
    (high : 2 * n < 256 ^ size) (rest : List UInt8) :
    nextNumber size (number size n ++ rest) = some (n, rest) := by
  have positive : (0 : Int) < 256 ^ size := Int.pow_pos (by decide)
  have cast : ((256 ^ size : Nat) : Int) = 256 ^ size := by push_cast; rfl
  have small : (n % 256 ^ size).toNat < 256 ^ size := by
    have := Int.emod_lt_of_pos n positive
    omega
  have value : Int.bmod (n % 256 ^ size).toNat (256 ^ size) = n := by
    rw [Int.toNat_of_nonneg (Int.emod_nonneg _ positive.ne'), ← cast, Int.emod_bmod]
    apply Int.bmod_eq_of_le <;> omega
  rw [nextNumber, number, nextBytes_append (length_littleEndian _ _), Option.map_some]
  dsimp only
  rw [ofLittleEndian_littleEndian small, value]

theorem nextNumber_int {n : Int} (fits : (Token.int n).Fits) (rest : List UInt8) :
    nextNumber 4 (number 4 n ++ rest) = some (n, rest) := by
  obtain ⟨low, high⟩ := fits
  exact nextNumber_number (by omega) (by omega) rest

theorem nextNumber_long {n : Int} (fits : (Token.long n).Fits) (rest : List UInt8) :
    nextNumber 8 (number 8 n ++ rest) = some (n, rest) := by
  obtain ⟨low, high⟩ := fits
  exact nextNumber_number (by omega) (by omega) rest

theorem toNat_ofNat {n : Nat} (small : n < 256) : (UInt8.ofNat n).toNat = n := by
  rw [UInt8.toNat_ofNat']
  omega

/-- Two bytes for each unit of a text. -/
def unitPairs (us : List Nat) : List UInt8 := us.flatMap (littleEndian 2)

def nextUnits : Nat → List UInt8 → Option (List Nat × List UInt8)
  | 0, input => some ([], input)
  | count + 1, low :: high :: rest =>
    (nextUnits count rest).map fun (us, rest) => (ofLittleEndian [low, high] :: us, rest)
  | _, _ => none

theorem nextUnits_unitPairs {us : List Nat} (small : ∀ u ∈ us, u < 0x10000) (rest : List UInt8) :
    nextUnits us.length (unitPairs us ++ rest) = some (us, rest) := by
  induction us with
  | nil => rfl
  | cons u us ih =>
    obtain ⟨own, others⟩ := List.forall_mem_cons.mp small
    have value : ofLittleEndian (littleEndian 2 u) = u := ofLittleEndian_littleEndian own
    change (nextUnits us.length (unitPairs us ++ rest)).map
      (fun (us, rest) => (ofLittleEndian (littleEndian 2 u) :: us, rest)) = _
    rw [ih others, value, Option.map_some]

def textOf (us : List Nat) : Option String := some (String.ofList (Utf16.decode us))

def nextText (count : Nat) (input : List UInt8) : Option (Option String × List UInt8) :=
  (nextUnits count input).map fun (us, rest) => (textOf us, rest)

theorem textOf_encode (s : String) : textOf (Utf16.encode s.toList) = some s := by
  rw [textOf, Utf16.decode_encode, String.ofList_toList]

theorem nextText_unitPairs (s : String) (rest : List UInt8) :
    nextText (Utf16.encode s.toList).length (unitPairs (Utf16.encode s.toList) ++ rest) =
      some (some s, rest) := by
  rw [nextText, nextUnits_unitPairs (fun u => Utf16.encode_lt), Option.map_some]
  dsimp only
  rw [textOf_encode]

/-- The units as they are, the last one with its high bit set. -/
def asciiBytes : List Nat → List UInt8
  | [] => []
  | [u] => [UInt8.ofNat (u + 128)]
  | u :: v :: us => UInt8.ofNat u :: asciiBytes (v :: us)

def nextAscii : List UInt8 → Option (List Nat × List UInt8)
  | [] => none
  | byte :: rest =>
    if byte.toNat < 128 then (nextAscii rest).map fun (us, rest) => (byte.toNat :: us, rest)
    else some ([byte.toNat - 128], rest)

theorem nextAscii_asciiBytes {us : List Nat} (some_unit : us ≠ []) (ascii : ∀ u ∈ us, u < 128)
    (rest : List UInt8) : nextAscii (asciiBytes us ++ rest) = some (us, rest) := by
  induction us with
  | nil => exact absurd rfl some_unit
  | cons u us ih =>
    obtain ⟨own, others⟩ := List.forall_mem_cons.mp ascii
    cases us with
    | nil =>
      rw [asciiBytes, List.singleton_append, nextAscii, toNat_ofNat (by omega), if_neg (by omega),
        Nat.add_sub_cancel]
    | cons v us =>
      rw [asciiBytes, List.cons_append, nextAscii, toNat_ofNat (by omega), if_pos own,
        ih (by simp) others]
      rfl

/-- A null, an empty text and a long one are told by their first byte. -/
def stringBytes : Option String → List UInt8
  | none => [0x80]
  | some s =>
    let us := Utf16.encode s.toList
    if us = [] then [0x81]
    else if 1 < us.length ∧ us.length ≤ 32 ∧ ∀ u ∈ us, u < 128 then asciiBytes us
    else 0x82 :: (number 4 us.length ++ unitPairs us)

def nextString : List UInt8 → Option (Option String × List UInt8)
  | [] => none
  | byte :: rest =>
    if byte.toNat < 128 then (nextAscii (byte :: rest)).map fun (us, rest) => (textOf us, rest)
    else if byte = 0x80 then some (none, rest)
    else if byte = 0x81 then some (some "", rest)
    else do
      let (count, rest) ← nextNumber 4 rest
      nextText count.toNat rest

theorem nextNumber_length {n : Nat} (small : n < 2 ^ 31 - 1) (rest : List UInt8) :
    nextNumber 4 (number 4 n ++ rest) = some ((n : Int), rest) :=
  nextNumber_int ⟨by omega, by omega⟩ rest

theorem nextString_asciiBytes {us : List Nat} (two : 1 < us.length) (ascii : ∀ u ∈ us, u < 128)
    (rest : List UInt8) : nextString (asciiBytes us ++ rest) = some (textOf us, rest) := by
  match us, two with
  | u :: v :: more, _ =>
    have read := nextAscii_asciiBytes (by simp) ascii rest
    have first : (UInt8.ofNat u).toNat < 128 := by
      have own : u < 128 := ascii u (by simp)
      rw [toNat_ofNat (by omega)]
      exact own
    rw [asciiBytes, List.cons_append] at read ⊢
    rw [nextString, if_pos first, read, Option.map_some]

theorem nextString_stringBytes {s : Option String} (fits : (Token.string s).Fits)
    (rest : List UInt8) : nextString (stringBytes s ++ rest) = some (s, rest) := by
  cases s with
  | none => rfl
  | some s =>
    unfold stringBytes
    dsimp only
    split
    · rename_i empty
      have none : textOf (Utf16.encode s.toList) = textOf [] := congrArg textOf empty
      rw [textOf_encode] at none
      rw [none]
      rfl
    · split
      · rename_i short
        rw [nextString_asciiBytes short.1 short.2.2, textOf_encode]
      · rw [List.cons_append, nextString, if_neg (by decide), if_neg (by decide),
          if_neg (by decide), List.append_assoc, nextNumber_length fits]
        exact nextText_unitPairs s rest

/-- One byte for a short length. -/
def blockBytes (bytes : List UInt8) : List UInt8 :=
  if bytes.length < 128 then UInt8.ofNat bytes.length :: bytes
  else 0x80 :: (number 4 bytes.length ++ bytes)

def nextBlock : List UInt8 → Option (List UInt8 × List UInt8)
  | [] => none
  | byte :: rest =>
    if byte.toNat < 128 then nextBytes byte.toNat rest
    else do
      let (count, rest) ← nextNumber 4 rest
      nextBytes count.toNat rest

theorem nextBlock_blockBytes {bytes : List UInt8} (fits : (Token.block bytes).Fits)
    (rest : List UInt8) : nextBlock (blockBytes bytes ++ rest) = some (bytes, rest) := by
  unfold blockBytes
  split
  · rename_i short
    rw [List.cons_append, nextBlock, toNat_ofNat (by omega), if_pos short]
    exact nextBytes_append rfl rest
  · rw [List.cons_append, nextBlock, if_neg (by decide), List.append_assoc,
      nextNumber_length fits]
    exact nextBytes_append rfl rest

/-- Kryo's output and input, as they write and read the primitive types and what is short. -/
def kryo : Encoding where
  bytes
    | .int n => number 4 n
    | .long n => number 8 n
    | .string s => stringBytes s
    | .boolean on => [if on then 1 else 0]
    | .block bytes => blockBytes bytes
  nextInt := nextNumber 4
  nextLong := nextNumber 8
  nextString := nextString
  nextBoolean
    | [] => none
    | byte :: rest => some (byte == 1, rest)
  nextBlock := nextBlock
  nextInt_bytes _ rest fits := nextNumber_int fits rest
  nextLong_bytes _ rest fits := nextNumber_long fits rest
  nextString_bytes _ rest fits := nextString_stringBytes fits rest
  nextBoolean_bytes on rest := by cases on <;> rfl
  nextBlock_bytes _ rest fits := nextBlock_blockBytes fits rest

/-- Zeros up to a multiple of four bytes. -/
def padding (size : Nat) : List UInt8 := List.replicate ((4 - size % 4) % 4) 0

def parcelString : Option String → List UInt8
  | none => number 4 (-1)
  | some s =>
    let us := Utf16.encode s.toList
    number 4 us.length ++ (unitPairs us ++ (0 :: 0 :: padding (2 * us.length + 2)))

def nextParcelString (input : List UInt8) : Option (Option String × List UInt8) := do
  let (count, rest) ← nextNumber 4 input
  if count < 0 then return (none, rest)
  else
    let (s, rest) ← nextText count.toNat rest
    let (_, rest) ← nextBytes (2 + (padding (2 * count.toNat + 2)).length) rest
    return (s, rest)

theorem nextParcelString_parcelString {s : Option String} (fits : (Token.string s).Fits)
    (rest : List UInt8) : nextParcelString (parcelString s ++ rest) = some (s, rest) := by
  cases s with
  | none =>
    rw [parcelString, nextParcelString, nextNumber_number (by decide) (by decide)]
    rfl
  | some s =>
    unfold parcelString nextParcelString
    dsimp only
    rw [List.append_assoc, List.append_assoc, nextNumber_length fits]
    simp only [Option.bind_eq_bind, Option.bind_some, Int.toNat_natCast, nextText_unitPairs]
    rw [if_neg (by omega), nextBytes_append (by rw [List.length_cons, List.length_cons]; omega)]
    rfl

def nextByteArray (input : List UInt8) : Option (List UInt8 × List UInt8) := do
  let (count, rest) ← nextNumber 4 input
  if count < 0 then none
  else
    let (bytes, rest) ← nextBytes count.toNat rest
    let (_, rest) ← nextBytes (padding count.toNat).length rest
    return (bytes, rest)

/-- A parcel of Android; a truth value is a number. -/
def parcel : Encoding where
  bytes
    | .int n => number 4 n
    | .long n => number 8 n
    | .string s => parcelString s
    | .boolean on => number 4 (if on then 1 else 0)
    | .block bytes => number 4 bytes.length ++ (bytes ++ padding bytes.length)
  nextInt := nextNumber 4
  nextLong := nextNumber 8
  nextString := nextParcelString
  nextBoolean input := (nextNumber 4 input).map fun (n, rest) => (n != 0, rest)
  nextBlock := nextByteArray
  nextInt_bytes _ rest fits := nextNumber_int fits rest
  nextLong_bytes _ rest fits := nextNumber_long fits rest
  nextString_bytes s rest fits := nextParcelString_parcelString fits rest
  nextBoolean_bytes on rest := by
    cases on <;> rw [nextNumber_number (by decide) (by decide)] <;> rfl
  nextBlock_bytes block rest fits := by
    rw [nextByteArray, List.append_assoc, List.append_assoc, nextNumber_length fits]
    simp only [Option.bind_eq_bind, Option.bind_some, Int.toNat_natCast, nextBytes_append rfl]
    exact if_neg (by omega)

end QuinMo.Binary
