import QuinMo.Lib.Text

/-!
# Texts as bytes

The bytes of a text in UTF-8, and a reader that never fails.
-/

namespace QuinMo.Utf8

def encode (s : List Char) : List UInt8 := s.flatMap String.utf8EncodeChar

/-- What is no UTF-8 form is read byte by byte, as U+FFFD. `skip` counts the bytes of a
form that are still to be passed over. -/
def decodeFrom : Nat → List UInt8 → List Char
  | _, [] => []
  | skip + 1, _ :: bytes => decodeFrom skip bytes
  | 0, b :: bytes =>
    match (b :: bytes).toByteArray.utf8DecodeChar? 0 with
    | some c => c :: decodeFrom (c.utf8Size - 1) bytes
    | none => '�' :: decodeFrom 0 bytes

def decode (bytes : List UInt8) : List Char := decodeFrom 0 bytes

theorem decodeFrom_skip (passed bytes : List UInt8) :
    decodeFrom passed.length (passed ++ bytes) = decodeFrom 0 bytes := by
  induction passed with
  | nil => rfl
  | cons b passed ih => simpa [decodeFrom] using ih

theorem encodeChar_ne_nil (c : Char) : String.utf8EncodeChar c ≠ [] := by
  intro none
  have size := String.length_utf8EncodeChar c
  rw [none] at size
  exact absurd size.symm (Nat.ne_of_gt c.utf8Size_pos)

theorem decode_encode (s : List Char) : decode (encode s) = s := by
  unfold decode
  induction s with
  | nil => rfl
  | cons c s ih =>
    have read : (String.utf8EncodeChar c ++ encode s).toByteArray.utf8DecodeChar? 0 = some c := by
      rw [List.toByteArray_append]
      exact ByteArray.utf8DecodeChar?_utf8EncodeChar_append
    have size := String.length_utf8EncodeChar c
    have whole : encode (c :: s) = String.utf8EncodeChar c ++ encode s := List.flatMap_cons
    rw [whole]
    obtain ⟨b, more, form⟩ := List.exists_cons_of_ne_nil (encodeChar_ne_nil c)
    rw [form, List.length_cons] at size
    rw [form, List.cons_append] at read
    have rest : c.utf8Size - 1 = more.length := by omega
    rw [form, List.cons_append, decodeFrom, read]
    simp only [rest, decodeFrom_skip, ih]

end QuinMo.Utf8
