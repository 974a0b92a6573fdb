import Mathlib.Data.List.Basic

/-!
# Compressed streams

A compressor that gives its whole stream at once, and a decompressor that fills a buffer until it
has come to the end. Of the code itself only the length of a stream is known.
-/

namespace QuinMo

structure Zlib where
  /-- The whole stream for an input. -/
  stream : List UInt8 → List UInt8
  Inflater : Type
  setInput : List UInt8 → Inflater
  finished : Inflater → Bool
  /-- Fill a buffer. -/
  inflate : Inflater → List UInt8 × Inflater

namespace Zlib

/-- These bytes are still to come, one buffer after the other, none of them empty. -/
inductive Yields (Z : Zlib) : Z.Inflater → List UInt8 → Prop
  | done {s : Z.Inflater} : Z.finished s = true → Yields Z s []
  | more {s : Z.Inflater} {rest : List UInt8} : Z.finished s = false → (Z.inflate s).1 ≠ [] →
      Yields Z (Z.inflate s).2 rest → Yields Z s ((Z.inflate s).1 ++ rest)

/-- What is assumed of a compressor: nothing is lost, and an input that cannot be compressed
costs five bytes for each block of 16 KiB and thirteen for the stream. -/
structure Lossless (Z : Zlib) : Prop where
  restores : ∀ input, input ≠ [] → Yields Z (Z.setInput (Z.stream input)) input
  bound : ∀ input,
    (Z.stream input).length ≤ input.length + 5 * ((input.length + 16383) / 16384) + 13

/-- A buffer of four times the input is large enough for all but tiny inputs. -/
theorem Lossless.fits {Z : Zlib} (h : Z.Lossless) {input : List UInt8} (size : 6 ≤ input.length) :
    (Z.stream input).length ≤ 4 * input.length := by
  have bound := h.bound input
  omega

section
variable (input stream : List UInt8)

/-- The library on one input, whose stream was taken from it. Every other input is only kept,
behind a zero byte, with which no stream of the library starts. -/
def sample : Zlib where
  stream data := if data = input then stream else 0 :: data
  Inflater := List UInt8
  setInput s := if s = stream then input else s.tail
  finished := List.isEmpty
  inflate s := (s.take 1024, s.drop 1024)

theorem sample_yields (data : List UInt8) : (sample input stream).Yields data data := by
  induction size : data.length using Nat.strongRecOn generalizing data with
  | ind n ih =>
    cases data with
    | nil => exact .done rfl
    | cons byte data =>
      have shorter : ((byte :: data).drop 1024).length < n := by
        rw [← size, List.length_drop, List.length_cons]
        omega
      have more : (sample input stream).Yields (byte :: data)
          ((byte :: data).take 1024 ++ (byte :: data).drop 1024) :=
        .more rfl (by simp [sample]) (ih _ shorter _ rfl)
      rwa [List.take_append_drop] at more

theorem sample_lossless {input stream : List UInt8} (apart : stream.head? ≠ some 0)
    (bound : stream.length ≤ input.length + 13) : (sample input stream).Lossless where
  restores data _ := by
    have back : (sample input stream).setInput ((sample input stream).stream data) = data := by
      by_cases same : data = input
      · simp [sample, same]
      · have other : 0 :: data ≠ stream := by
          rintro rfl
          exact apart rfl
        simp [sample, same, other]
    rw [back]
    exact sample_yields input stream data
  bound data := by
    by_cases same : data = input
    · simp only [sample, if_pos same]
      rw [same]
      omega
    · simp only [sample, if_neg same, List.length_cons]
      omega

end

end Zlib

end QuinMo
