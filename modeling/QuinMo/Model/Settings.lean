import Mathlib.Algebra.Order.Ring.Int
import Mathlib.Data.List.Nodup

/-!
# The table of settings

A setting is stored as a type and an array of bytes. A number that was put as a `Long` is kept as
the number here, and has its eight bytes where the array is asked for.
-/

namespace QuinMo

/-- A `Long`, or a value of any other type with its bytes. -/
inductive SettingValue where
  | long (value : Int)
  | bytes (valueType : Int) (value : List UInt8)
  deriving DecidableEq, Repr

structure KeyValuePair where
  key : String
  value : SettingValue
  deriving DecidableEq, Repr

def TYPE_INT : Int := 3

def TYPE_LONG : Int := 4

/-- The number of bytes from the high end. -/
def bigEndian (bytes : List UInt8) : Nat := bytes.foldl (fun n byte => n * 256 + byte.toNat) 0

/-- Byte `i` of a number from the low end. -/
def byteOf (value : Int) (i : Nat) : UInt8 := UInt8.ofNat ((value % 2 ^ 64).toNat / 256 ^ i)

/-- `ByteBuffer.wrap(value)` and then `int` or `long`. -/
def readNumber (size : Nat) (value : List UInt8) : Except String (Option Int) :=
  if value.length < size then .error "BufferUnderflowException"
  else .ok (some (Int.bmod (bigEndian (value.take size)) (256 ^ size)))

namespace SettingValue

/-- The column `valueType`. -/
def valueType : SettingValue → Int
  | long _ => TYPE_LONG
  | bytes valueType _ => valueType

/-- The column `value`, of which `ByteBuffer.putLong` writes the eight bytes of a number. -/
def array : SettingValue → List UInt8
  | long value => [byteOf value 7, byteOf value 6, byteOf value 5, byteOf value 4, byteOf value 3,
      byteOf value 2, byteOf value 1, byteOf value 0]
  | bytes _ value => value

/-- A value by its columns. -/
def ofColumns (valueType : Int) (array : List UInt8) : SettingValue :=
  if valueType = TYPE_LONG ∧ array.length = 8 then long (Int.bmod (bigEndian array) (2 ^ 64))
  else bytes valueType array

/-- Numbers are of 64 bits, and the bytes of one are not kept as bytes. -/
def Fits : SettingValue → Prop
  | long value => -2 ^ 63 ≤ value ∧ value < 2 ^ 63
  | bytes valueType value => ¬ (valueType = TYPE_LONG ∧ value.length = 8)

instance : DecidablePred Fits
  | long _ => inferInstanceAs (Decidable (_ ∧ _))
  | bytes _ _ => inferInstanceAs (Decidable (¬ (_ ∧ _)))

theorem bigEndian_array (value : Int) : bigEndian (long value).array = (value % 2 ^ 64).toNat := by
  simp only [array, byteOf, bigEndian, List.foldl_cons, List.foldl_nil, UInt8.toNat_ofNat']
  omega

theorem ofColumns_columns {v : SettingValue} (fits : v.Fits) : ofColumns v.valueType v.array = v := by
  cases v with
  | bytes valueType value => exact if_neg fits
  | long value =>
    obtain ⟨low, high⟩ := fits
    have number : ((value % 2 ^ 64).toNat : Int).bmod (2 ^ 64) = value := by
      rw [Int.toNat_of_nonneg (Int.emod_nonneg _ (by decide))]
      have power : ((2 ^ 64 : Nat) : Int) = 2 ^ 64 := by decide
      rw [← power, Int.emod_bmod]
      exact Int.bmod_eq_of_le (by omega) (by omega)
    have whole : (long value).valueType = TYPE_LONG ∧ (long value).array.length = 8 := ⟨rfl, rfl⟩
    rw [ofColumns, if_pos whole, bigEndian_array, number]

end SettingValue

/-- `KeyValuePair.long`. -/
def KeyValuePair.long (p : KeyValuePair) : Except String (Option Int) :=
  match p.value with
  | .long value => .ok (some value)
  | .bytes valueType value =>
    if valueType = TYPE_INT then readNumber 4 value
    else if valueType = TYPE_LONG then readNumber 8 value
    else .ok none

def getLong (settings : List KeyValuePair) (key : String) : Except String (Option Int) :=
  match settings.find? (·.key == key) with
  | none => .ok none
  | some p => p.long

/-- `@Insert(onConflict = REPLACE)`. -/
def putLong (settings : List KeyValuePair) (key : String) (value : Int) : List KeyValuePair :=
  settings.filter (·.key ≠ key) ++ [⟨key, .long value⟩]

/-- `Key.PROFILE_ID`. -/
def PROFILE_ID : String := "profileId"

/-- `Key.PROFILE_GROUP`. -/
def PROFILE_GROUP : String := "profileGroup"

theorem find_putLong (settings : List KeyValuePair) (key : String) (value : Int) :
    (putLong settings key value).find? (·.key == key) = some ⟨key, .long value⟩ := by
  unfold putLong
  rw [List.find?_append]
  have absent : (settings.filter (·.key ≠ key)).find? (·.key == key) = none := by
    simp [List.find?_eq_none]
  rw [absent]
  simp

theorem getLong_putLong (settings : List KeyValuePair) (key : String) (value : Int) :
    getLong (putLong settings key value) key = .ok (some value) := by
  simp [getLong, find_putLong, KeyValuePair.long]

/-- Another setting is as it was. -/
theorem getLong_putLong_of_ne (settings : List KeyValuePair) {key other : String} (value : Int)
    (apart : other ≠ key) : getLong (putLong settings key value) other = getLong settings other := by
  have found : (putLong settings key value).find? (·.key == other) =
      settings.find? (·.key == other) := by
    have last : [(⟨key, .long value⟩ : KeyValuePair)].find? (·.key == other) = none := by
      simp [apart.symm]
    rw [putLong, List.find?_append, last, Option.or_none, List.find?_filter]
    congr 1
    funext p
    by_cases same : p.key = other
    · simp [same, apart]
    · simp [same]
  rw [getLong, getLong, found]

theorem find_setting {settings : List KeyValuePair} (distinct : (settings.map (·.key)).Nodup)
    {key : String} {p : KeyValuePair} :
    settings.find? (·.key == key) = some p ↔ p ∈ settings ∧ p.key = key := by
  constructor
  · intro found
    exact ⟨List.mem_of_find?_eq_some found, by simpa using List.find?_some found⟩
  · rintro ⟨listed, rfl⟩
    cases found : settings.find? (·.key == p.key) with
    | none => simpa using List.find?_eq_none.mp found p listed
    | some q =>
      have same : q.key = p.key := by simpa using List.find?_some found
      rw [List.inj_on_of_nodup_map distinct (List.mem_of_find?_eq_some found) listed same]

/-- What a setting is does not depend on the order of the rows. -/
theorem getLong_perm {settings settings' : List KeyValuePair}
    (distinct : (settings.map (·.key)).Nodup) (perm : settings'.Perm settings) (key : String) :
    getLong settings' key = getLong settings key := by
  have distinct' := (perm.map (·.key)).nodup_iff.mpr distinct
  have found : settings'.find? (·.key == key) = settings.find? (·.key == key) := by
    apply Option.ext
    intro p
    rw [find_setting distinct, find_setting distinct', perm.mem_iff]
  rw [getLong, getLong, found]

end QuinMo
