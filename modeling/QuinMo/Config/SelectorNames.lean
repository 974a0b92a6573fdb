import QuinMo.Config.BuildChain

/-!
# The tags of selector members

A display name of the shape of a generated tag is changed before numbers are appended, so a name
that gets that shape by its number is not: `selectorTags_safe_iff` says for which names.
-/

namespace QuinMo.Config

open Text

/-- The tags a build issues for display names, in their order. -/
def selectorTags (names : List String) : List String :=
  names.foldl (fun selectorNames name => selectorNames ++ [selectorName selectorNames name]) []

theorem selectorTags_concat (names : List String) (name : String) : selectorTags (names ++ [name]) =
      selectorTags names ++ [selectorName (selectorTags names) name] := by
  rw [selectorTags, List.foldl_concat]
  rfl

/-- `g-` and digits, or `c-`, digits and anything. -/
def generatedShape : List Char → Bool
  | 'g' :: '-' :: ds => !ds.isEmpty && ds.all Char.isDigit
  | 'c' :: '-' :: d :: _ => d.isDigit
  | _ => false

def hasGeneratedShape (name : String) : Bool := generatedShape name.toList

/-- The name that is tried first. -/
def selectorBase (name_ : String) : String :=
  if matchesGeneratedTagShape name_ then "p-" ++ name_ else name_

def selectorTaken (selectorNames : List String) (name : String) : Bool :=
  decide (name ∈ selectorNames) || decide (name ∈ reservedSelectorTags)

/-- The loop ends, and the tag is the candidate it ends with. -/
theorem selectorName_ends (selectorNames : List String) (name_ : String) :
    ∃ count, Fresh.Ends (selectorTaken selectorNames) (selectorCandidate (selectorBase name_)) 0
        count ∧
      selectorName selectorNames name_ = selectorCandidate (selectorBase name_) count := by
  have fresh : selectorTaken selectorNames (selectorName selectorNames name_) = false := by
    have fresh := selectorName_fresh selectorNames name_
    simp [selectorTaken, fresh]
  exact ⟨_, Fresh.search_ends fresh, rfl⟩

theorem selectorTags_nodup (names : List String) : (selectorTags names).Nodup := by
  induction names using List.reverseRecOn with
  | nil => exact List.nodup_nil
  | append_singleton names name ih =>
    rw [selectorTags_concat]
    refine ih.append (List.nodup_singleton _) ?_
    rw [List.disjoint_singleton]
    exact (selectorName_fresh _ _).1

theorem selectorTags_not_reserved (names : List String) :
    ∀ tag ∈ selectorTags names, tag ∉ reservedSelectorTags := by
  induction names using List.reverseRecOn with
  | nil => simp [selectorTags]
  | append_singleton names name ih =>
    intro tag listed
    rw [selectorTags_concat] at listed
    rcases List.mem_append.mp listed with before | last
    · exact ih tag before
    · rw [List.mem_singleton.mp last]
      exact (selectorName_fresh _ _).2

/-- A name that the pattern does not match only because `.` stops at the end of a line. -/
def CutShort (name : String) : Prop :=
  hasGeneratedShape name = true ∧ matchesGeneratedTagShape name = false

instance (name : String) : Decidable (CutShort name) := by
  unfold CutShort
  infer_instance

theorem toList_numbered (base : String) (count : Nat) :
    (base ++ "-" ++ toString count).toList = base.toList ++ '-' :: Nat.toDigits 10 count := by
  have digits : (toString count).toList = Nat.toDigits 10 count := Nat.toList_repr
  rw [String.toList_append, String.toList_append, digits]
  simp

/-- A number gives the shape to two names, and otherwise leaves that of `c-` and a digit. -/
theorem generatedShape_numbered (base : List Char) (count : Nat) :
    generatedShape (base ++ '-' :: Nat.toDigits 10 count) = true ↔
      base = ['g'] ∨ base = ['c'] ∨
        ∃ d rest, base = 'c' :: '-' :: d :: rest ∧ d.isDigit = true := by
  have digits : ∀ c ∈ Nat.toDigits 10 count, c.isDigit = true := fun c mem => toDigits_isDigit mem
  obtain ⟨d, ds, form⟩ := List.exists_cons_of_ne_nil (l := Nat.toDigits 10 count) (by simp)
  rw [form] at digits ⊢
  constructor
  · intro shape
    unfold generatedShape at shape
    split at shape
    · rename_i tail eq
      rw [Bool.and_eq_true, List.all_eq_true] at shape
      match base with
      | [] => cases eq
      | [a] =>
        cases eq
        exact .inl rfl
      | a :: b :: rest =>
        cases eq
        have minus := shape.2 '-' (List.mem_append_right _ List.mem_cons_self)
        exact absurd minus (by decide)
    · rename_i e tail eq
      match base with
      | [] => cases eq
      | [a] =>
        cases eq
        exact .inr (.inl rfl)
      | [a, b] =>
        cases eq
        exact absurd shape (by decide)
      | a :: b :: c :: rest =>
        cases eq
        exact .inr (.inr ⟨e, rest, rfl, shape⟩)
    · cases shape
  · rintro (rfl | rfl | ⟨e, rest, rfl, digit⟩)
    · change (!(d :: ds).isEmpty && (d :: ds).all Char.isDigit) = true
      rw [List.all_eq_true.mpr digits]
      rfl
    · exact digits d List.mem_cons_self
    · exact digit

theorem matches_iff (name : String) : matchesGeneratedTagShape name = false →
    (hasGeneratedShape name = true ↔
      ∃ d rest, name.toList = 'c' :: '-' :: d :: rest ∧ d.isDigit = true) := by
  intro plain
  unfold matchesGeneratedTagShape at plain
  split at plain
  · rename_i ds form
    rw [hasGeneratedShape, form]
    simp [generatedShape, plain]
  · rename_i d rest form
    rw [hasGeneratedShape, form]
    simp [generatedShape]
  · rename_i other other'
    constructor
    · intro shape
      unfold hasGeneratedShape generatedShape at shape
      split at shape
      · exact absurd ‹_› (other _)
      · exact ⟨_, _, ‹_›, shape⟩
      · cases shape
    · rintro ⟨d, rest, form, _⟩
      exact absurd form (other' d rest)

theorem toList_candidate (base : String) (count : Nat) :
    (selectorCandidate base (count + 1)).toList =
      base.toList ++ '-' :: Nat.toDigits 10 (count + 1) := by
  rw [← toList_numbered, selectorCandidate, if_neg (Nat.succ_ne_zero count)]

/-- A tag with the shape comes from a name that was issued before, or is cut short. -/
theorem selectorName_shape_iff (selectorNames : List String) (name_ : String) :
    hasGeneratedShape (selectorName selectorNames name_) = true ↔
      (name_ = "g" ∨ name_ = "c") ∧ name_ ∈ selectorNames ∨ CutShort name_ := by
  obtain ⟨count, ends, eq⟩ := selectorName_ends selectorNames name_
  rw [eq]
  cases shape : matchesGeneratedTagShape name_ with
  | true =>
    -- a name that starts with a `p` has no such shape, whatever follows
    have other : ∀ rest, generatedShape ('p' :: rest) = false := fun _ => rfl
    have base : (selectorBase name_).toList = 'p' :: '-' :: name_.toList := by
      rw [selectorBase, if_pos shape, String.toList_append]
      rfl
    refine iff_of_false ?_ ?_
    · rw [hasGeneratedShape, Bool.not_eq_true]
      cases count with
      | zero => exact base ▸ other _
      | succ count =>
        rw [toList_candidate, base]
        exact other _
    · rintro (⟨rfl | rfl, _⟩ | ⟨_, plain⟩)
      · exact absurd shape (by decide)
      · exact absurd shape (by decide)
      · rw [shape] at plain
        cases plain
  | false =>
    have base : selectorBase name_ = name_ := by
      rw [selectorBase, shape]
      rfl
    rw [base] at ends ⊢
    cases count with
    | zero =>
      have free := ends.not_taken
      have new : name_ ∉ selectorNames := by
        intro listed
        simp [selectorTaken, selectorCandidate, listed] at free
      simp [selectorCandidate, CutShort, shape, new]
    | succ count =>
      have busy := ends.first_taken (Nat.succ_pos count)
      have listed : name_ = "g" ∨ name_ = "c" → name_ ∈ selectorNames := by
        intro letter
        have free : name_ ∉ reservedSelectorTags := by
          rcases letter with rfl | rfl <;> decide
        simpa [selectorTaken, selectorCandidate, free] using busy
      have g : name_.toList = ['g'] ↔ name_ = "g" :=
        ⟨fun h => String.toList_inj.mp h, fun h => h ▸ rfl⟩
      have c : name_.toList = ['c'] ↔ name_ = "c" :=
        ⟨fun h => String.toList_inj.mp h, fun h => h ▸ rfl⟩
      rw [hasGeneratedShape, toList_candidate, generatedShape_numbered, CutShort,
        matches_iff name_ shape, g, c, ← or_assoc, and_iff_left_of_imp listed]
      simp [shape]

theorem selectorName_letter_iff {letter : String} (h : letter = "g" ∨ letter = "c")
    {selectorNames : List String} (new : letter ∉ selectorNames) (name_ : String) :
    selectorName selectorNames name_ = letter ↔ name_ = letter := by
  obtain ⟨count, ends, eq⟩ := selectorName_ends selectorNames name_
  rw [eq]
  have no_minus : '-' ∉ letter.toList := by
    rcases h with rfl | rfl <;> decide
  have free : letter ∉ reservedSelectorTags := by
    rcases h with rfl | rfl <;> decide
  constructor
  · intro same
    cases count with
    | zero =>
      change selectorBase name_ = letter at same
      unfold selectorBase at same
      split at same
      · exact absurd (by rw [← same]; simp) no_minus
      · exact same
    | succ count =>
      rw [← same, toList_candidate] at no_minus
      exact absurd (List.mem_append_right _ List.mem_cons_self) no_minus
  · rintro rfl
    have base : selectorBase name_ = name_ := by
      rcases h with rfl | rfl <;> decide
    rw [base] at ends ⊢
    cases count with
    | zero => rfl
    | succ count =>
      have busy := ends.first_taken (Nat.succ_pos count)
      simp [selectorTaken, selectorCandidate, new, free] at busy

theorem letter_mem_selectorTags {letter : String} (h : letter = "g" ∨ letter = "c")
    (names : List String) : letter ∈ selectorTags names ↔ letter ∈ names := by
  induction names using List.reverseRecOn with
  | nil => simp [selectorTags]
  | append_singleton names name ih =>
    rw [selectorTags_concat, List.mem_append, List.mem_append, ih, List.mem_singleton,
      List.mem_singleton]
    by_cases before : letter ∈ names
    · simp [before]
    · have new : letter ∉ selectorTags names := fun listed => before (ih.mp listed)
      have issued := selectorName_letter_iff h new name
      rw [eq_comm, issued, eq_comm]

/-- The loop ends for every name, the tags are distinct and not reserved, and none has the
shape of a tag that the builder makes. -/
structure SafeTags (names : List String) : Prop where
  ends : ∀ selectorNames name_, ∃ count,
    Fresh.Ends (selectorTaken selectorNames) (selectorCandidate (selectorBase name_)) 0 count ∧
      selectorName selectorNames name_ = selectorCandidate (selectorBase name_) count
  distinct : (selectorTags names).Nodup
  notReserved : ∀ tag ∈ selectorTags names, tag ∉ reservedSelectorTags
  notGenerated : ∀ tag ∈ selectorTags names, hasGeneratedShape tag = false

theorem notGenerated_iff (names : List String) :
    (∀ tag ∈ selectorTags names, hasGeneratedShape tag = false) ↔
      names.count "g" ≤ 1 ∧ names.count "c" ≤ 1 ∧ ∀ name ∈ names, ¬ CutShort name := by
  induction names using List.reverseRecOn with
  | nil => simp [selectorTags]
  | append_singleton names name ih =>
    have last : hasGeneratedShape (selectorName (selectorTags names) name) = false ↔
        ¬ ((name = "g" ∨ name = "c") ∧ name ∈ names ∨ CutShort name) := by
      rw [← Bool.not_eq_true, selectorName_shape_iff]
      by_cases letter : name = "g" ∨ name = "c"
      · rw [letter_mem_selectorTags letter]
      · simp [letter]
    have again : ∀ letter, (names ++ [name]).count letter ≤ 1 ↔
        names.count letter ≤ 1 ∧ ¬ (name = letter ∧ name ∈ names) := by
      intro letter
      rw [List.count_append, List.count_singleton]
      by_cases same : name = letter
      · subst same
        have listed : 0 < names.count name ↔ name ∈ names := List.count_pos_iff
        simp only [beq_self_eq_true, if_true, true_and, ← listed]
        omega
      · simp [same]
    rw [selectorTags_concat, again, again]
    simp only [List.mem_append, List.mem_singleton, or_imp, forall_and, forall_eq, ih, last]
    tauto

theorem selectorTags_safe_iff (names : List String) :
    SafeTags names ↔
      names.count "g" ≤ 1 ∧ names.count "c" ≤ 1 ∧ ∀ name ∈ names, ¬ CutShort name := by
  rw [← notGenerated_iff]
  constructor
  · exact fun safe => safe.notGenerated
  · intro notGenerated
    exact ⟨selectorName_ends, selectorTags_nodup names, selectorTags_not_reserved names,
      notGenerated⟩

/-- Whatever the profiles are called, the tags are distinct and not reserved. -/
theorem selectorTags_usable (names : List String) : (selectorTags names).Nodup ∧
    ∀ tag ∈ selectorTags names, tag ∉ reservedSelectorTags :=
  ⟨selectorTags_nodup names, selectorTags_not_reserved names⟩

/-- Two profiles called `g` give the tag of a profile with the id 1. -/
theorem second_name_generated :
    selectorTags ["g", "g"] = ["g", "g-" ++ toString (1 : Int)] ∧ ¬ SafeTags ["g", "g"] := by
  refine ⟨by decide, fun safe => ?_⟩
  exact absurd (safe.notGenerated "g-1" (by decide)) (by decide)

end QuinMo.Config
