import Mathlib.Data.List.Basic

/-!
# Texts as units of UTF-16

A character beyond the first plane is two units, a high and a low surrogate.
-/

namespace QuinMo.Utf16

def units (c : Char) : List Nat :=
  if c.toNat < 0x10000 then [c.toNat]
  else [0xd800 + (c.toNat - 0x10000) / 1024, 0xdc00 + (c.toNat - 0x10000) % 1024]

def encode (s : List Char) : List Nat := s.flatMap units

/-- Two surrogates are one character. -/
def decode : List Nat → List Char
  | [] => []
  | [u] => [Char.ofNat u]
  | u :: v :: rest =>
    if 0xd800 ≤ u ∧ u < 0xdc00 then
      Char.ofNat (0x10000 + (u - 0xd800) * 1024 + (v - 0xdc00)) :: decode rest
    else Char.ofNat u :: decode (v :: rest)

theorem char_cases (c : Char) : c.toNat < 0xd800 ∨ 0xdfff < c.toNat ∧ c.toNat < 0x110000 :=
  c.valid

theorem units_lt {c : Char} {u : Nat} (h : u ∈ units c) : u < 0x10000 := by
  have range := char_cases c
  unfold units at h
  split at h
  · rw [List.mem_singleton.mp h]
    assumption
  · rcases List.mem_pair.mp h with own | own <;> omega

theorem encode_lt {s : List Char} {u : Nat} (h : u ∈ encode s) : u < 0x10000 := by
  obtain ⟨c, _, own⟩ := List.mem_flatMap.mp h
  exact units_lt own

/-- A character of one unit is no surrogate, so that the units after it are left alone. -/
theorem decode_units (c : Char) (rest : List Nat) :
    decode (units c ++ rest) = c :: decode rest := by
  have range := char_cases c
  unfold units
  split
  · cases rest with
    | nil => simp [decode]
    | cons v rest =>
      have plain : ¬ (0xd800 ≤ c.toNat ∧ c.toNat < 0xdc00) := by omega
      simp only [List.singleton_append, decode, if_neg plain, Char.ofNat_toNat]
  · have high : 0xd800 ≤ 0xd800 + (c.toNat - 0x10000) / 1024 ∧
        0xd800 + (c.toNat - 0x10000) / 1024 < 0xdc00 := by omega
    have whole : 0x10000 + (0xd800 + (c.toNat - 0x10000) / 1024 - 0xd800) * 1024 +
        (0xdc00 + (c.toNat - 0x10000) % 1024 - 0xdc00) = c.toNat := by omega
    simp only [List.cons_append, List.nil_append, decode, if_pos high, whole, Char.ofNat_toNat]

theorem decode_encode (s : List Char) : decode (encode s) = s := by
  induction s with
  | nil => rfl
  | cons c s ih =>
    rw [encode, List.flatMap_cons, decode_units]
    exact congrArg (c :: ·) ih

end QuinMo.Utf16
