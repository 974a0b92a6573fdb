import Mathlib.Data.Finset.Dedup
import Mathlib.Data.Finset.Lattice.Lemmas
import QuinMo.Lib.Utf8
import QuinMo.Model.Settings

/-!
# Sets of texts in settings

A set of texts is stored as the bytes of each, with their count before them. The reader stops when
no bytes remain, and throws when a count or a text runs over the end.
-/

namespace QuinMo.KeyValuePair

/-- `String.toByteArray`. -/
def toByteArray (s : String) : List UInt8 := Utf8.encode s.toList

/-- The text that `String(ByteArray)` reads. -/
def ofByteArray (bytes : List UInt8) : String := String.ofList (Utf8.decode bytes)

theorem ofByteArray_toByteArray (s : String) : ofByteArray (toByteArray s) = s := by
  rw [ofByteArray, toByteArray, Utf8.decode_encode, String.ofList_toList]

/-- The texts of a set in the order in which they are gone through. -/
structure Enumeration (value : Finset String) where
  order : List String
  nodup : order.Nodup
  whole : order.toFinset = value

def TYPE_STRING_SET : Int := 6

/-- `ByteBuffer.putInt`. -/
def putInt (n : Int) : List UInt8 := [byteOf n 3, byteOf n 2, byteOf n 1, byteOf n 0]

/-- The stream after the texts were written to it. -/
def writeTexts (order : List String) : List UInt8 :=
  order.flatMap fun v => putInt (toByteArray v).length ++ toByteArray v

def putStringSet (key : String) (order : List String) : KeyValuePair :=
  ⟨key, .bytes TYPE_STRING_SET (writeTexts order)⟩

/-- One round of the reader: `ByteArray(buffer.int)` and `buffer.get(chArr)`. -/
def readEntry (buffer : List UInt8) : Except String (List UInt8 × List UInt8) :=
  if buffer.length < 4 then .error "BufferUnderflowException"
  else
    let size := Int.bmod (bigEndian (buffer.take 4)) (256 ^ 4)
    let buffer := buffer.drop 4
    if size < 0 then .error "NegativeArraySizeException"
    else if buffer.length < size then .error "BufferUnderflowException"
    else .ok (buffer.take size.toNat, buffer.drop size.toNat)

/-- The rounds while the buffer has something left. Each takes four bytes at least, so the
rounds that are allowed are enough if they are as many as the bytes. -/
def readTexts :
    Nat → List UInt8 → Finset String → Except String (Finset String × List UInt8)
  | _, [], result => .ok (result, [])
  | 0, buffer, result => .ok (result, buffer)
  | rounds + 1, buffer, result => do
    let (chArr, buffer) ← readEntry buffer
    readTexts rounds buffer (insert (ofByteArray chArr) result)

def stringSet (p : KeyValuePair) : Except String (Option (Finset String)) :=
  if p.value.valueType = TYPE_STRING_SET then
    (readTexts p.value.array.length p.value.array ∅).map fun read => some read.1
  else .ok none

theorem bigEndian_putInt {n : Nat} (small : n < 2 ^ 31) : bigEndian (putInt n) = n := by
  simp only [putInt, byteOf, bigEndian, List.foldl_cons, List.foldl_nil, UInt8.toNat_ofNat']
  omega

theorem readEntry_written (bytes rest : List UInt8) (small : bytes.length < 2 ^ 31) :
    readEntry (putInt bytes.length ++ bytes ++ rest) = .ok (bytes, rest) := by
  have count : (putInt bytes.length ++ bytes ++ rest).take 4 = putInt bytes.length := rfl
  have after : (putInt bytes.length ++ bytes ++ rest).drop 4 = bytes ++ rest := rfl
  have size : Int.bmod (bytes.length : Nat) (256 ^ 4) = bytes.length :=
    Int.bmod_eq_of_le (by omega) (by omega)
  have enough : ¬ (putInt bytes.length ++ bytes ++ rest).length < 4 := by
    simp only [putInt, List.length_append, List.length_cons, List.length_nil]
    omega
  have whole : ¬ ((bytes ++ rest).length : Int) < bytes.length := by
    rw [List.length_append]
    omega
  simp only [readEntry, if_neg enough, count, after, bigEndian_putInt small, size, if_neg whole,
    Int.toNat_natCast, List.take_left, List.drop_left]
  exact if_neg (by omega)

theorem readTexts_written (order : List String) (rounds : Nat) (result : Finset String)
    (small : ∀ v ∈ order, (toByteArray v).length < 2 ^ 31)
    (enough : (writeTexts order).length ≤ rounds) :
    readTexts rounds (writeTexts order) result = .ok (result ∪ order.toFinset, []) := by
  induction order generalizing rounds result with
  | nil => simp [writeTexts, readTexts]
  | cons v order ih =>
    obtain ⟨own, others⟩ := List.forall_mem_cons.mp small
    have split : writeTexts (v :: order) =
        putInt (toByteArray v).length ++ toByteArray v ++ writeTexts order :=
      List.flatMap_cons
    rw [split] at enough ⊢
    simp only [List.length_append] at enough
    have four : (putInt (toByteArray v).length).length = 4 := rfl
    obtain ⟨rounds, rfl⟩ : ∃ n, rounds = n + 1 := ⟨rounds - 1, by omega⟩
    have round := readEntry_written (toByteArray v) (writeTexts order) own
    have first : readTexts (rounds + 1) (putInt (toByteArray v).length ++ toByteArray v ++
        writeTexts order) result = readTexts rounds (writeTexts order)
          (insert (ofByteArray (toByteArray v)) result) := by
      rw [readTexts, round]
      · rfl
      · exact nofun
    rw [first, ih rounds _ others (by omega), ofByteArray_toByteArray, List.toFinset_cons,
      Finset.insert_union, Finset.union_insert]

/-- A set of texts whose bytes fit an array each comes back whatever the order in which they were
written, and the reader has then come exactly to the end. -/
theorem stringSet_putStringSet (key : String) (value : Finset String) (e : Enumeration value)
    (small : ∀ v ∈ value, (toByteArray v).length < 2 ^ 31) :
    (putStringSet key e.order).stringSet = .ok (some value) ∧
      readTexts (writeTexts e.order).length (writeTexts e.order) ∅ = .ok (value, []) := by
  have fits : ∀ v ∈ e.order, (toByteArray v).length < 2 ^ 31 := by
    intro v listed
    apply small
    rw [← e.whole]
    exact List.mem_toFinset.mpr listed
  have read := readTexts_written e.order _ ∅ fits (Nat.le_refl _)
  rw [Finset.empty_union, e.whole] at read
  refine ⟨?_, read⟩
  simp only [stringSet, putStringSet, SettingValue.valueType, SettingValue.array, ↓reduceIte, read]
  rfl

/-- The empty text and one of two bytes for a character are among the texts. -/
theorem accented_set_comes_back :
    (putStringSet "apps" ["", "é", "ab"]).stringSet = .ok (some {"", "é", "ab"}) ∧
      readTexts (writeTexts ["", "é", "ab"]).length (writeTexts ["", "é", "ab"]) ∅ =
        .ok ({"", "é", "ab"}, []) :=
  stringSet_putStringSet "apps" {"", "é", "ab"} ⟨["", "é", "ab"], by decide, by decide⟩ (by decide)

end QuinMo.KeyValuePair
