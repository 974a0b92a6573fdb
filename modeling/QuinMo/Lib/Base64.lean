import QuinMo.Lib.Text

/-!
# Base64

The plain and the URL-safe alphabet, and the decoder of Android's `Base64`: it passes over
characters outside its alphabet and takes a text without padding.
-/

namespace QuinMo.Base64

/-- The character of six bits; the last two differ between the alphabets. -/
def symbol (urlSafe : Bool) (n : Nat) : Char :=
  if n < 26 then Char.ofNat (65 + n)
  else if n < 52 then Char.ofNat (71 + n)
  else if n < 62 then Char.ofNat (n - 4)
  else if n = 62 then (if urlSafe then '-' else '+')
  else (if urlSafe then '_' else '/')

def value (urlSafe : Bool) (c : Char) : Option Nat :=
  (List.range 64).find? fun n => symbol urlSafe n == c

/-- Three bytes make four characters. -/
def encode (urlSafe padding : Bool) : List UInt8 → List Char
  | [] => []
  | [a] =>
    [symbol urlSafe (a.toNat / 4), symbol urlSafe (a.toNat % 4 * 16)] ++
      (if padding then ['=', '='] else [])
  | [a, b] =>
    [symbol urlSafe (a.toNat / 4), symbol urlSafe (a.toNat % 4 * 16 + b.toNat / 16),
      symbol urlSafe (b.toNat % 16 * 4)] ++ (if padding then ['='] else [])
  | a :: b :: c :: rest =>
    [symbol urlSafe (a.toNat / 4), symbol urlSafe (a.toNat % 4 * 16 + b.toNat / 16),
      symbol urlSafe (b.toNat % 16 * 4 + c.toNat / 64), symbol urlSafe (c.toNat % 64)] ++
      encode urlSafe padding rest

/-- The states of the decoder: so many characters of a group were read, one more `=` has to
come, or nothing more. -/
inductive State where
  | start
  | one
  | two
  | three
  | padding
  | finished
  deriving DecidableEq, Repr

def byte (n : Nat) : UInt8 := UInt8.ofNat (n % 256)

/-- The bytes that are complete with this character; `bits` are those of the group so far. -/
def step (urlSafe : Bool) (state : State) (bits : Nat) (c : Char) :
    Option (List UInt8 × State × Nat) :=
  match value urlSafe c with
  | some d =>
    let all := bits * 64 + d
    match state with
    | .start => some ([], .one, d)
    | .one => some ([], .two, all)
    | .two => some ([], .three, all)
    | .three => some ([byte (all / 65536), byte (all / 256), byte all], .start, 0)
    | .padding | .finished => none
  | none =>
    if c = '=' then
      match state with
      | .two => some ([byte (bits / 16)], .padding, 0)
      | .three => some ([byte (bits / 1024), byte (bits / 4)], .finished, 0)
      | .padding => some ([], .finished, 0)
      | .start | .one | .finished => none
    else some ([], state, bits)

def finish (state : State) (bits : Nat) : Option (List UInt8) :=
  match state with
  | .start | .finished => some []
  | .two => some [byte (bits / 16)]
  | .three => some [byte (bits / 1024), byte (bits / 4)]
  | .one | .padding => none

def decodeFrom (urlSafe : Bool) (state : State) (bits : Nat) : List Char → Option (List UInt8)
  | [] => finish state bits
  | c :: cs =>
    (step urlSafe state bits c).bind fun (out, state, bits) =>
      (decodeFrom urlSafe state bits cs).map (out ++ ·)

def decode (urlSafe : Bool) (s : List Char) : Option (List UInt8) :=
  decodeFrom urlSafe .start 0 s

theorem value_symbol : ∀ urlSafe, ∀ n < 64, value urlSafe (symbol urlSafe n) = some n := by decide

theorem value_padding : ∀ urlSafe, value urlSafe '=' = none := by decide

theorem byte_toNat {n : Nat} {a : UInt8} (h : n % 256 = a.toNat) : byte n = a := by
  rw [byte, h, UInt8.ofNat_toNat]

theorem decode_encode (urlSafe padding : Bool) (bytes : List UInt8) :
    decode urlSafe (encode urlSafe padding bytes) = some bytes := by
  unfold decode
  fun_induction encode urlSafe padding bytes with
  | case1 => rfl
  | case2 a =>
    have small := a.toNat_lt
    have first := value_symbol urlSafe (a.toNat / 4) (by omega)
    have second := value_symbol urlSafe (a.toNat % 4 * 16) (by omega)
    have whole : byte ((a.toNat / 4 * 64 + a.toNat % 4 * 16) / 16) = a := byte_toNat (by omega)
    cases padding <;> simp [decodeFrom, step, finish, first, second, value_padding, whole]
  | case3 a b =>
    have smallA := a.toNat_lt
    have smallB := b.toNat_lt
    have first := value_symbol urlSafe (a.toNat / 4) (by omega)
    have second := value_symbol urlSafe (a.toNat % 4 * 16 + b.toNat / 16) (by omega)
    have third := value_symbol urlSafe (b.toNat % 16 * 4) (by omega)
    have wholeA : byte (((a.toNat / 4 * 64 + (a.toNat % 4 * 16 + b.toNat / 16)) * 64 +
        b.toNat % 16 * 4) / 1024) = a := byte_toNat (by omega)
    have wholeB : byte (((a.toNat / 4 * 64 + (a.toNat % 4 * 16 + b.toNat / 16)) * 64 +
        b.toNat % 16 * 4) / 4) = b := byte_toNat (by omega)
    cases padding <;>
      simp [decodeFrom, step, finish, first, second, third, value_padding, wholeA, wholeB]
  | case4 a b c rest ih =>
    have smallA := a.toNat_lt
    have smallB := b.toNat_lt
    have smallC := c.toNat_lt
    have first := value_symbol urlSafe (a.toNat / 4) (by omega)
    have second := value_symbol urlSafe (a.toNat % 4 * 16 + b.toNat / 16) (by omega)
    have third := value_symbol urlSafe (b.toNat % 16 * 4 + c.toNat / 64) (by omega)
    have fourth := value_symbol urlSafe (c.toNat % 64) (by omega)
    have all : ((a.toNat / 4 * 64 + (a.toNat % 4 * 16 + b.toNat / 16)) * 64 +
        (b.toNat % 16 * 4 + c.toNat / 64)) * 64 + c.toNat % 64 =
          a.toNat * 65536 + b.toNat * 256 + c.toNat := by omega
    have wholeA : byte ((a.toNat * 65536 + b.toNat * 256 + c.toNat) / 65536) = a :=
      byte_toNat (by omega)
    have wholeB : byte ((a.toNat * 65536 + b.toNat * 256 + c.toNat) / 256) = b :=
      byte_toNat (by omega)
    have wholeC : byte (a.toNat * 65536 + b.toNat * 256 + c.toNat) = c := byte_toNat (by omega)
    simp [decodeFrom, step, first, second, third, fourth, all, wholeA, wholeB, wholeC, ih]

end QuinMo.Base64
