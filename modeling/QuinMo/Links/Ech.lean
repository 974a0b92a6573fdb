import Mathlib.Data.List.Infix
import QuinMo.Links.Outbound

/-!
# ECH configs as texts

sing-box wants an ECH config as a PEM block, the other cores as bare base64. Both marks of a block
have spaces and no line break; what stands between them has line breaks and no space.
-/

namespace QuinMo.Links

open Text

theorem clear_line {d line rest : List Char} (stop : '\n' ∉ d)
    (inside : ∀ b ∈ line.tails, ¬ d <+: b) : Clear d line ('\n' :: rest) := by
  rintro a c b rfl occurs
  exact inside (c :: b) ((List.mem_tails _ _).mpr ⟨a, rfl⟩) (prefix_before stop occurs)

/-- A mark with a space does not begin in lines that have none. -/
theorem clear_gap {d gap rest : List Char} (stop : '\n' ∉ d) (space : ' ' ∈ d) (plain : ' ' ∉ gap) :
    Clear d (gap ++ ['\n']) rest := by
  intro a c b eq occurs
  obtain ⟨line, own⟩ : ∃ line, c :: b = line ++ ['\n'] :=
    (List.eq_nil_or_concat' (c :: b)).elim nofun fun ⟨line, e, same⟩ => by
      rw [same, ← List.append_assoc] at eq
      rw [(List.append_inj' eq rfl).2]
      exact ⟨line, same⟩
  rw [own, List.append_assoc] at occurs
  rw [own, ← List.append_assoc] at eq
  refine plain ?_
  rw [(List.append_inj' eq rfl).1]
  exact List.mem_append_right _ ((prefix_before stop occurs).subset space)

/-- A mark that begins nowhere before is found where it is put. -/
theorem occurs_last {d x a b : List Char} (clear : Clear d x d)
    (eq : x ++ d = a ++ d ++ b) : b = [] := by
  rw [List.append_assoc] at eq
  rcases List.append_eq_append_iff.mp eq with ⟨more, _, rest⟩ | ⟨more, rfl, rest⟩
  · have size := congrArg List.length rest
    simp only [List.length_append] at size
    exact List.length_eq_zero_iff.mp (by omega)
  · cases more with
    | nil => simpa using rest
    | cons c more => exact absurd ⟨b, rest⟩ (clear a c more rfl)

theorem absent_of_clear {d x a b : List Char} (clear : Clear d x []) (some_text : d ≠ []) :
    x ≠ a ++ d ++ b := by
  rintro rfl
  obtain ⟨c, d, rfl⟩ := List.exists_cons_of_ne_nil some_text
  exact clear a c (d ++ b) (by simp) ⟨b, by simp⟩

theorem breakOn_here {d x : List Char} (rest : List Char) (clear : Clear d x (d ++ rest))
    (some_text : d ≠ []) : breakOn d (x ++ (d ++ rest)) = some (x, rest) := by
  obtain ⟨c, d, rfl⟩ := List.exists_cons_of_ne_nil some_text
  rw [breakOn_clear clear, breakOn_front]
  simp

theorem go_flatten {α : Type} (n : Nat) (xs : List α) (acc₁ : Array α) (acc₂ : Array (List α)) :
    (List.toChunks.go n xs acc₁ acc₂).flatten = acc₂.toList.flatten ++ acc₁.toList ++ xs := by
  induction xs generalizing acc₁ acc₂ with
  | nil => simp [List.toChunks.go]
  | cons x xs ih =>
    rw [List.toChunks.go]
    split <;> simp [ih]

theorem flatten_toChunks {α : Type} (n : Nat) (xs : List α) : (xs.toChunks n).flatten = xs := by
  unfold List.toChunks
  split
  · rfl
  · simp
  · simp [go_flatten]

theorem intercalate_lines (first last : List Char) (between : List (List Char)) :
    ['\n'].intercalate (first :: (between ++ [last])) =
      first ++ (between.flatMap ('\n' :: ·) ++ ['\n'] ++ last) := by
  induction between generalizing first with
  | nil => simp [List.intercalate_cons_cons]
  | cons line between ih =>
    rw [List.cons_append, List.intercalate_cons_cons, ih]
    simp

def pemChunks (s : String) : List (List Char) := (echAsBase64 s).toList.toChunks 64

/-- The lines between the marks, each after a line break. -/
def pemLines (s : String) : List Char := (pemChunks s).flatMap ('\n' :: ·)

theorem echAsPem_joined (s : String) : echAsPem s =
    joinToString (ECH_PEM_HEADER :: ((pemChunks s).map String.ofList ++ [ECH_PEM_FOOTER])) '\n' := by
  rw [← String.toList_inj, echAsPem, String.toList_intercalate, joinToString, String.toList_ofList,
    String.toList_ofList, List.cons_append, pemChunks]

theorem toList_echAsPem (s : String) : (echAsPem s).toList =
    ECH_PEM_HEADER.toList ++ (pemLines s ++ ['\n'] ++ ECH_PEM_FOOTER.toList) := by
  have texts : (pemChunks s).map (String.toList ∘ String.ofList) = pemChunks s := by
    simp [Function.comp_def]
  rw [echAsPem_joined, joinToString, String.toList_ofList, List.map_cons, List.map_append,
    List.map_map, texts, List.map_singleton, intercalate_lines, pemLines]

theorem mem_pemChunks {s : String} {line : List Char} {c : Char} (listed : line ∈ pemChunks s)
    (inside : c ∈ line) : isWhitespace c = false := by
  have own : c ∈ (echAsBase64 s).toList := by
    rw [← flatten_toChunks 64 (echAsBase64 s).toList]
    exact List.mem_flatten.mpr ⟨line, listed, inside⟩
  rw [echAsBase64, String.toList_ofList] at own
  simpa using (List.mem_filter.mp own).2

theorem space_not_mem_pemLines (s : String) : ' ' ∉ pemLines s := by
  intro h
  obtain ⟨line, listed, inside⟩ := List.mem_flatMap.mp h
  rcases List.mem_cons.mp inside with lineBreak | inside
  · exact absurd lineBreak (by decide)
  · exact absurd (mem_pemChunks listed inside) (by decide)

theorem filter_pemLines (s : String) :
    (pemLines s ++ ['\n']).filter (!isWhitespace ·) = (echAsBase64 s).toList := by
  have solid : (echAsBase64 s).toList.filter (!isWhitespace ·) = (echAsBase64 s).toList := by
    rw [echAsBase64, String.toList_ofList, List.filter_filter]
    simp
  have lines : ∀ chunks : List (List Char),
      (chunks.flatMap ('\n' :: ·)).filter (!isWhitespace ·) =
        chunks.flatten.filter (!isWhitespace ·) := by
    intro chunks
    induction chunks with
    | nil => rfl
    | cons line chunks ih =>
      rw [List.flatMap_cons, List.flatten_cons, List.filter_append, List.filter_append, ih]
      rfl
  rw [List.filter_append, pemLines, lines, pemChunks, flatten_toChunks, solid]
  exact List.append_nil _

/-- A text that is one block: its first line is the header, its last the footer, and neither
mark is in it anywhere else. -/
structure OneBlock (pem : String) : Prop where
  lines : ∃ body, split pem '\n' = ECH_PEM_HEADER :: (body ++ [ECH_PEM_FOOTER])
  header : ∀ a b, pem.toList = a ++ ECH_PEM_HEADER.toList ++ b → a = []
  footer : ∀ a b, pem.toList = a ++ ECH_PEM_FOOTER.toList ++ b → b = []

theorem pemLines_front (s : String) (rest : List Char) :
    ∃ more, pemLines s ++ ['\n'] ++ rest = '\n' :: more := by
  unfold pemLines
  cases pemChunks s with
  | nil => exact ⟨rest, rfl⟩
  | cons line chunks => exact ⟨_, rfl⟩

theorem split_echAsPem (s : String) : split (echAsPem s) '\n' =
    ECH_PEM_HEADER :: ((pemChunks s).map String.ofList ++ [ECH_PEM_FOOTER]) := by
  have whole : ∀ line ∈ ECH_PEM_HEADER :: ((pemChunks s).map String.ofList ++ [ECH_PEM_FOOTER]),
      split line '\n' = [line] := by
    intro line listed
    rw [List.mem_cons, List.mem_append, List.mem_singleton, List.mem_map] at listed
    rcases listed with rfl | ⟨chars, chunk, rfl⟩ | rfl
    · exact split_whole (by decide)
    · refine split_whole fun inside => ?_
      rw [String.toList_ofList] at inside
      exact absurd (mem_pemChunks chunk inside) (by decide)
    · exact split_whole (by decide)
  rw [echAsPem_joined, split_joinToString (List.cons_ne_nil _ _), List.flatMap_congr whole,
    List.flatMap_singleton']

/-- After its first character the header does not begin again. -/
theorem header_once (s : String) : Clear ECH_PEM_HEADER.toList
    (ECH_PEM_HEADER.toList.tail ++ (pemLines s ++ ['\n'] ++ ECH_PEM_FOOTER.toList)) [] := by
  obtain ⟨more, front⟩ := pemLines_front s ECH_PEM_FOOTER.toList
  refine Clear.append ?_ (Clear.append (clear_gap (by decide) (by decide)
    (space_not_mem_pemLines s)) ?_)
  · rw [List.append_nil, front]
    exact clear_line (by decide) (by decide)
  · intro a c b eq occurs
    have size := occurs.length_le
    have all := congrArg List.length eq
    have shorter : ECH_PEM_FOOTER.toList.length < ECH_PEM_HEADER.toList.length := by decide
    simp only [List.length_append, List.length_nil, Nat.add_zero] at size all
    omega

theorem footer_clear (s : String) :
    Clear ECH_PEM_FOOTER.toList (pemLines s ++ ['\n']) ECH_PEM_FOOTER.toList :=
  clear_gap (by decide) (by decide) (space_not_mem_pemLines s)

theorem echAsPem_oneBlock (s : String) : OneBlock (echAsPem s) where
  lines := ⟨_, split_echAsPem s⟩
  header a b eq := by
    rw [toList_echAsPem] at eq
    cases a with
    | nil => rfl
    | cons c a =>
      have tail := congrArg List.tail eq
      rw [List.tail_append_of_ne_nil (by decide)] at tail
      exact absurd tail (absent_of_clear (header_once s) (by decide))
  footer a b eq := by
    rw [toList_echAsPem, ← List.append_assoc] at eq
    refine occurs_last (Clear.append ?_ (footer_clear s)) eq
    obtain ⟨more, front⟩ := pemLines_front s ECH_PEM_FOOTER.toList
    rw [front]
    exact clear_line (by decide) (by decide)

theorem breakOn_header (s : String) : breakOn ECH_PEM_HEADER.toList (echAsPem s).toList =
    some ([], pemLines s ++ ['\n'] ++ ECH_PEM_FOOTER.toList) := by
  have nothing : ∀ rest, Clear ECH_PEM_HEADER.toList [] rest := fun _ a _ _ eq => by simp at eq
  have found := breakOn_here (pemLines s ++ ['\n'] ++ ECH_PEM_FOOTER.toList) (nothing _) (by decide)
  rwa [List.nil_append, ← toList_echAsPem] at found

theorem echPemBody_echAsPem (s : String) :
    echPemBody (echAsPem s) = String.ofList (pemLines s ++ ['\n']) := by
  have closed : breakOn ECH_PEM_FOOTER.toList
      (String.ofList (pemLines s ++ ['\n'] ++ ECH_PEM_FOOTER.toList)).toList =
        some (pemLines s ++ ['\n'], []) := by
    have clear := footer_clear s
    rw [← List.append_nil ECH_PEM_FOOTER.toList] at clear
    rw [String.toList_ofList, ← List.append_nil ECH_PEM_FOOTER.toList]
    exact breakOn_here [] clear (by decide)
  have single : breakOn ECH_PEM_HEADER.toList (pemLines s ++ ['\n']) = none := by
    have clear : Clear ECH_PEM_HEADER.toList (pemLines s ++ ['\n']) [] :=
      clear_gap (by decide) (by decide) (space_not_mem_pemLines s)
    have none := breakOn_clear clear
    rwa [List.append_nil] at none
  rw [echPemBody, substringAfter_found (breakOn_header s), substringBefore_found closed,
    substringBefore, String.toList_ofList, single]

theorem echAsBase64_echAsPem (s : String) : echAsBase64 (echAsPem s) = echAsBase64 s := by
  have marked : contains (echAsPem s) ECH_PEM_HEADER = true := by
    rw [contains, breakOn_header]
    rfl
  rw [echAsBase64, if_pos marked, echPemBody_echAsPem, String.toList_ofList, filter_pemLines,
    String.ofList_toList]

/-- Whatever a profile holds, its PEM form is one block that stands for the same base64. -/
theorem ech_conversions_agree (s : String) :
    OneBlock (echAsPem s) ∧ echAsBase64 (echAsPem s) = echAsBase64 s ∧
      echAsPem (echAsPem s) = echAsPem s := by
  refine ⟨echAsPem_oneBlock s, echAsBase64_echAsPem s, ?_⟩
  rw [echAsPem, echAsBase64_echAsPem]
  rfl

end QuinMo.Links
