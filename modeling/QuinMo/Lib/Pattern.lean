import Mathlib.Data.List.Basic

/-!
# Regular expressions and replacement

Backtracking lists the matches from a place in the order in which they are tried, each as the text
that is left. A replacement puts a mark in the place of the second part of each match.
-/

namespace QuinMo

/-- The characters that end a line. -/
def isTerminator (c : Char) : Bool :=
  c == '\n' || c == '\r' || c.toNat == 0x85 || c.toNat == 0x2028 || c.toNat == 0x2029

inductive Pattern where
  /-- A character of a class. -/
  | one (accepts : Char → Bool)
  | empty
  | seq (first second : Pattern)
  | alt (first second : Pattern)
  /-- As often as possible. -/
  | star (body : Pattern)
  /-- `$`, at the end of a line. -/
  | lineEnd

namespace Pattern

/-- Repeated steps, longest first. -/
def runStar (step : List Char → List (List Char)) : Nat → List Char → List (List Char)
  | 0, s => [s]
  | n + 1, s => ((step s).filter (·.length < s.length)).flatMap (runStar step n) ++ [s]

/-- What is left of the text after each match. -/
def run : Pattern → List Char → List (List Char)
  | one _, [] => []
  | one accepts, c :: s => if accepts c then [s] else []
  | empty, s => [s]
  | seq first second, s => (first.run s).flatMap second.run
  | alt first second, s => first.run s ++ second.run s
  | star body, s => runStar body.run s.length s
  | lineEnd, s => if s.head?.all isTerminator then [s] else []

/-- A character itself. -/
def char (c : Char) : Pattern := one (· == c)

/-- `+`. -/
def plus (body : Pattern) : Pattern := seq body (star body)

/-- Letters in either case. -/
def ignoringCase (word : String) : Pattern :=
  word.toList.foldr (fun c rest => seq (one (·.toLower == c)) rest) empty

/-- One of the words. -/
def words : List String → Pattern
  | [] => one fun _ => false
  | w :: ws => alt (ignoringCase w) (words ws)

section
variable {step : List Char → List (List Char)}

/-- A step that does not see what follows does not see it when it is repeated. -/
theorem runStar_append {w : List Char} (blind : ∀ x, step (x ++ w) = (step x).map (· ++ w))
    (n : Nat) (x : List Char) (enough : x.length ≤ n) (m : Nat) (enough' : x.length + w.length ≤ m) :
    runStar step m (x ++ w) = (runStar step n x).map (· ++ w) := by
  have shorter : ∀ x : List Char, (step (x ++ w)).filter (·.length < (x ++ w).length) =
      ((step x).filter (·.length < x.length)).map (· ++ w) := by
    intro x
    rw [blind, List.filter_map]
    congr 1
    apply List.filter_congr
    intro r _
    simp
  induction n generalizing x m with
  | zero =>
    rw [List.length_eq_zero_iff.mp (Nat.le_zero.mp enough)] at *
    cases m with
    | zero =>
      rw [List.length_eq_zero_iff.mp (Nat.le_zero.mp (Nat.le_trans (Nat.le_add_left _ _) enough'))]
      rfl
    | succ m =>
      change ((step ([] ++ w)).filter _).flatMap _ ++ [[] ++ w] = _
      rw [shorter]
      simp [runStar]
  | succ n ih =>
    cases m with
    | zero =>
      have none : x = [] := List.length_eq_zero_iff.mp (by omega)
      have nothing : w = [] := List.length_eq_zero_iff.mp (by omega)
      simp [runStar, none, nothing]
    | succ m =>
      rw [runStar, runStar, shorter, List.map_append, List.flatMap_map, List.map_flatMap]
      congr 1
      apply List.flatMap_congr
      intro r listed
      have less : r.length < x.length := by simpa using (List.mem_filter.mp listed).2
      exact ih r (by omega) m (by omega)

/-- Steps enough for the whole text are enough. -/
theorem runStar_fuel {n : Nat} {s : List Char} (enough : s.length ≤ n) :
    runStar step n s = runStar step s.length s := by
  have blind : ∀ x, step (x ++ []) = (step x).map (· ++ []) := fun x => by simp
  have same := runStar_append blind s.length s (Nat.le_refl _) n (by simpa using enough)
  simpa using same

/-- What holds at the end of the repetition and is carried back over each step holds at its
start. -/
theorem runStar_induction {motive : List Char → Prop} {r : List Char} (refl : motive r)
    (back : ∀ s m, m ∈ step s → motive m → motive s) {n : Nat} {s : List Char}
    (listed : r ∈ runStar step n s) : motive s := by
  induction n generalizing s with
  | zero =>
    rw [List.mem_singleton.mp listed] at refl
    exact refl
  | succ n ih =>
    rcases List.mem_append.mp listed with later | last
    · obtain ⟨m, stepped, rest⟩ := List.mem_flatMap.mp later
      exact back s m (List.mem_filter.mp stepped).1 (ih rest)
    · rw [List.mem_singleton.mp last] at refl
      exact refl

end

theorem mem_star_self (body : Pattern) (s : List Char) : s ∈ (star body).run s := by
  change s ∈ runStar body.run s.length s
  cases s.length with
  | zero => exact List.mem_singleton_self s
  | succ n => exact List.mem_append_right _ (List.mem_singleton_self s)

variable {s r : List Char}

theorem mem_star_step {body : Pattern} {m : List Char} (stepped : m ∈ body.run s)
    (less : m.length < s.length) (rest : r ∈ (star body).run m) : r ∈ (star body).run s := by
  obtain ⟨n, size⟩ : ∃ n, s.length = n + 1 := ⟨s.length - 1, by omega⟩
  change r ∈ runStar body.run s.length s
  rw [size]
  refine List.mem_append_left _ (List.mem_flatMap.mpr ⟨m, ?_, ?_⟩)
  · exact List.mem_filter.mpr ⟨stepped, by simpa using less⟩
  · rw [runStar_fuel (by omega)]
    exact rest

theorem mem_seq {first second : Pattern} :
    r ∈ (seq first second).run s ↔ ∃ m ∈ first.run s, r ∈ second.run m :=
  List.mem_flatMap

theorem mem_one {accepts : Char → Bool} :
    r ∈ (one accepts).run s ↔ ∃ c, accepts c = true ∧ s = c :: r := by
  cases s with
  | nil => simp [run]
  | cons c s =>
    simp only [run]
    split
    · rename_i accepted
      rw [List.mem_singleton]
      constructor
      · rintro rfl
        exact ⟨c, accepted, rfl⟩
      · rintro ⟨_, _, same⟩
        exact (List.cons.inj same).2.symm
    · rename_i refused
      simp only [List.not_mem_nil, false_iff]
      rintro ⟨d, accepted, same⟩
      rw [(List.cons.inj same).1] at refused
      exact refused accepted

theorem mem_char {c : Char} : r ∈ (char c).run s ↔ s = c :: r := by
  rw [char, mem_one]
  constructor
  · rintro ⟨d, same, rfl⟩
    rw [beq_iff_eq.mp same]
  · rintro rfl
    exact ⟨c, beq_self_eq_true c, rfl⟩

/-- Repeated characters of a class. -/
theorem mem_star_one {accepts : Char → Bool} :
    r ∈ (star (one accepts)).run s ↔ ∃ u, (∀ c ∈ u, accepts c = true) ∧ s = u ++ r := by
  constructor
  · intro listed
    refine runStar_induction (motive := fun s => ∃ u, (∀ c ∈ u, accepts c = true) ∧ s = u ++ r)
      ⟨[], nofun, rfl⟩ ?_ listed
    rintro s m stepped ⟨u, all, rfl⟩
    obtain ⟨c, accepted, rfl⟩ := mem_one.mp stepped
    exact ⟨c :: u, List.forall_mem_cons.mpr ⟨accepted, all⟩, rfl⟩
  · rintro ⟨u, all, rfl⟩
    induction u with
    | nil => exact mem_star_self _ r
    | cons c u ih =>
      obtain ⟨accepted, rest⟩ := List.forall_mem_cons.mp all
      exact mem_star_step (mem_one.mpr ⟨c, accepted, rfl⟩) (Nat.lt_succ_self _) (ih rest)

theorem mem_ignoringCase {word : String} :
    r ∈ (ignoringCase word).run s ↔ ∃ w, w.map Char.toLower = word.toList ∧ s = w ++ r := by
  unfold ignoringCase
  generalize word.toList = cs
  induction cs generalizing s with
  | nil =>
    simp only [List.foldr_nil, run, List.mem_singleton, List.map_eq_nil_iff]
    constructor
    · rintro rfl
      exact ⟨[], rfl, rfl⟩
    · rintro ⟨w, rfl, rfl⟩
      rfl
  | cons c cs ih =>
    rw [List.foldr_cons, mem_seq]
    constructor
    · rintro ⟨m, first, rest⟩
      obtain ⟨d, lower, rfl⟩ := mem_one.mp first
      obtain ⟨w, lowers, rfl⟩ := ih.mp rest
      exact ⟨d :: w, by rw [List.map_cons, lowers, beq_iff_eq.mp lower], rfl⟩
    · rintro ⟨w, lowers, rfl⟩
      cases w with
      | nil => cases lowers
      | cons d w =>
        rw [List.map_cons] at lowers
        obtain ⟨lower, lowers⟩ := List.cons.inj lowers
        exact ⟨w ++ r, mem_one.mpr ⟨d, beq_iff_eq.mpr lower, rfl⟩, ih.mpr ⟨w, lowers, rfl⟩⟩

theorem mem_words {list : List String} : r ∈ (words list).run s ↔
      ∃ w, (∃ word ∈ list, w.map Char.toLower = word.toList) ∧ s = w ++ r := by
  induction list with
  | nil =>
    rw [words, mem_one]
    simp
  | cons word list ih =>
    change r ∈ _ ++ _ ↔ _
    rw [List.mem_append, mem_ignoringCase, ih]
    constructor
    · rintro (⟨w, lower, same⟩ | ⟨w, ⟨other, listed, lower⟩, same⟩)
      · exact ⟨w, ⟨word, List.mem_cons_self, lower⟩, same⟩
      · exact ⟨w, ⟨other, List.mem_cons_of_mem _ listed, lower⟩, same⟩
    · rintro ⟨w, ⟨other, listed, lower⟩, same⟩
      rcases List.mem_cons.mp listed with rfl | listed
      · exact .inl ⟨w, lower, same⟩
      · exact .inr ⟨w, ⟨other, listed, lower⟩, same⟩

/-- No class of the pattern has the character, and the pattern looks at no end of a line. -/
def Avoids (q : Char) : Pattern → Prop
  | one accepts => accepts q = false
  | empty => True
  | seq first second => first.Avoids q ∧ second.Avoids q
  | alt first second => first.Avoids q ∧ second.Avoids q
  | star body => body.Avoids q
  | lineEnd => False

theorem run_append {q : Char} {p : Pattern} (avoids : p.Avoids q) (x z : List Char) :
    p.run (x ++ q :: z) = (p.run x).map (· ++ q :: z) := by
  induction p generalizing x with
  | one accepts =>
    cases x with
    | nil =>
      change (if accepts q then [z] else []) = []
      rw [show accepts q = false from avoids]
      rfl
    | cons c x =>
      change (if accepts c then [x ++ q :: z] else []) = (if accepts c then [x] else []).map _
      split <;> rfl
  | empty => rfl
  | seq first second ih ih' =>
    change (first.run _).flatMap second.run = ((first.run x).flatMap second.run).map _
    rw [ih avoids.1, List.flatMap_map, List.map_flatMap]
    exact List.flatMap_congr fun m _ => ih' avoids.2 m
  | alt first second ih ih' =>
    change first.run _ ++ second.run _ = (first.run x ++ second.run x).map _
    rw [ih avoids.1, ih' avoids.2, List.map_append]
  | star body ih =>
    exact runStar_append (ih avoids) _ x (Nat.le_refl _) _ (by simp)
  | lineEnd => exact avoids.elim

theorem words_avoids {q : Char} {list : List String}
    (avoids : ∀ word ∈ list, ∀ c ∈ word.toList, q.toLower ≠ c) : (words list).Avoids q := by
  induction list with
  | nil => exact rfl
  | cons word list ih =>
    refine ⟨?_, ih fun other listed => avoids other (List.mem_cons_of_mem _ listed)⟩
    have all := avoids word List.mem_cons_self
    unfold ignoringCase
    generalize word.toList = cs at all
    induction cs with
    | nil => trivial
    | cons c cs ih =>
      obtain ⟨first, rest⟩ := List.forall_mem_cons.mp all
      exact ⟨beq_eq_false_iff_ne.mpr first, ih rest⟩

/-- What is left of a text is its end. -/
theorem run_suffix {p : Pattern} (listed : r ∈ p.run s) : r <:+ s := by
  induction p generalizing s r with
  | one accepts =>
    obtain ⟨c, _, rfl⟩ := mem_one.mp listed
    exact List.suffix_cons c r
  | empty => exact List.mem_singleton.mp listed ▸ List.suffix_refl _
  | seq first second ih ih' =>
    obtain ⟨m, left, right⟩ := mem_seq.mp listed
    exact (ih' right).trans (ih left)
  | alt first second ih ih' => exact (List.mem_append.mp listed).elim ih ih'
  | star body ih =>
    exact runStar_induction (motive := fun s => r <:+ s) (List.suffix_refl r)
      (fun s m stepped rest => rest.trans (ih stepped)) listed
  | lineEnd =>
    cases s with
    | nil => exact List.mem_singleton.mp listed ▸ List.suffix_refl _
    | cons c s =>
      change r ∈ (if isTerminator c then [c :: s] else []) at listed
      split at listed
      · exact List.mem_singleton.mp listed ▸ List.suffix_refl _
      · cases listed

end Pattern

/-! ## Replacement -/

/-- A pattern of two parts, of which the first is kept and the second replaced. -/
structure Replacement where
  /-- `^`: only at the start of a line. -/
  lineStart : Bool
  group : Pattern
  tail : Pattern
  mark : List Char

namespace Replacement

variable (e : Replacement)

/-- The first match from a place: what is left after the first part and after both. -/
def firstMatch (start : Bool) (s : List Char) : Option (List Char × List Char) :=
  if e.lineStart && !start then none
  else (e.group.run s).findSome? fun m => (e.tail.run m).head?.map fun r => (m, r)

/-- Go through the text; some characters of the last match may still have to be left out. -/
def go : Nat → Bool → List Char → List Char
  | _, _, [] => []
  | skip + 1, _, c :: s => go skip (isTerminator c) s
  | 0, start, c :: s =>
    match e.firstMatch start (c :: s) with
    | some (m, r) => (c :: s).take (s.length + 1 - m.length) ++
        (e.mark ++ go (s.length - r.length) (isTerminator c) s)
    | none => c :: go 0 (isTerminator c) s

def replace (s : List Char) : List Char := e.go 0 true s

/-- Whether a line starts after this text. -/
def endsLine (p : List Char) : Bool := p.getLast?.all isTerminator

theorem endsLine_concat (p : List Char) (c : Char) : endsLine (p ++ [c]) = isTerminator c := by
  simp [endsLine]

variable {e}

variable {b : List Char} {start : Bool} {a s : List Char}

theorem firstMatch_none
    (absent : ∀ m ∈ e.group.run s, ∀ r, r ∉ e.tail.run m) : e.firstMatch start s = none := by
  unfold firstMatch
  split
  · rfl
  · rw [List.findSome?_eq_none_iff]
    intro m listed
    rw [Option.map_eq_none_iff, List.head?_eq_none_iff]
    exact List.eq_nil_iff_forall_not_mem.mpr (absent m listed)

/-- The only match is the first one. -/
theorem firstMatch_unique {m r : List Char} (tried : e.lineStart = false ∨ start)
    (first : m ∈ e.group.run s) (second : r ∈ e.tail.run m)
    (unique : ∀ m' ∈ e.group.run s, ∀ r' ∈ e.tail.run m', m' = m ∧ r' = r) :
    e.firstMatch start s = some (m, r) := by
  have here : (e.lineStart && !start) = false := by
    rcases tried with free | started
    · simp [free]
    · simp [started]
  have all : ∀ m' ∈ e.group.run s, ∀ found,
      ((e.tail.run m').head?.map fun r => (m', r)) = some found → found = (m, r) := by
    intro m' listed found same
    obtain ⟨r', head, rfl⟩ := Option.map_eq_some_iff.mp same
    obtain ⟨rfl, rfl⟩ := unique m' listed r' (List.mem_of_head? head)
    rfl
  unfold firstMatch
  rw [here]
  cases found : (e.group.run s).findSome? fun m => (e.tail.run m).head?.map fun r => (m, r) with
  | some pair =>
    obtain ⟨m', listed, same⟩ := List.exists_of_findSome?_eq_some found
    simp [all m' listed pair same]
  | none =>
    have absent := List.findSome?_eq_none_iff.mp found m first
    rw [Option.map_eq_none_iff, List.head?_eq_none_iff] at absent
    rw [absent] at second
    cases second

/-- A match that does not see what follows. -/
theorem firstMatch_append (group : e.group.run (s ++ b) = (e.group.run s).map (· ++ b))
    (tail : ∀ m, e.tail.run (m ++ b) = (e.tail.run m).map (· ++ b)) :
    e.firstMatch start (s ++ b) = (e.firstMatch start s).map fun (m, r) => (m ++ b, r ++ b) := by
  unfold firstMatch
  split
  · rfl
  · rw [group, List.findSome?_map, List.map_findSome?]
    congr 1
    funext m
    simp only [Function.comp_apply, tail, List.head?_map, Option.map_map]
    rfl

theorem mem_go {skip : Nat} {c : Char} (listed : c ∈ e.go skip start s) : c ∈ s ∨ c ∈ e.mark := by
  induction s generalizing skip start with
  | nil =>
    cases skip <;> cases listed
  | cons d s ih =>
    cases skip with
    | succ skip =>
      rcases ih listed with old | new
      · exact .inl (List.mem_cons_of_mem _ old)
      · exact .inr new
    | zero =>
      unfold go at listed
      split at listed
      · rcases List.mem_append.mp listed with kept | rest
        · exact .inl (List.mem_of_mem_take kept)
        rcases List.mem_append.mp rest with marked | rest
        · exact .inr marked
        rcases ih rest with old | new
        · exact .inl (List.mem_cons_of_mem _ old)
        · exact .inr new
      · rcases List.mem_cons.mp listed with rfl | rest
        · exact .inl List.mem_cons_self
        rcases ih rest with old | new
        · exact .inl (List.mem_cons_of_mem _ old)
        · exact .inr new

/-- No match begins in the text `a` when `b` follows. -/
def Dead (e : Replacement) (a b : List Char) : Prop :=
  ∀ p s, a = p ++ s → s ≠ [] → ∀ start, e.firstMatch start (s ++ b) = none

theorem Dead.append {a' : List Char} (h : e.Dead a (a' ++ b)) (h' : e.Dead a' b) :
    e.Dead (a ++ a') b := by
  intro p s same some_text start
  rcases List.append_eq_append_iff.mp same with ⟨q, rfl, rfl⟩ | ⟨q, rfl, rfl⟩
  · exact h' q s rfl some_text start
  · by_cases nothing : q = []
    · subst nothing
      exact h' [] a' rfl some_text start
    · rw [List.append_assoc]
      exact h p q rfl nothing start

/-- Characters with which no match begins. -/
theorem dead_of_heads
    (head : ∀ c ∈ a, ∀ start s, e.firstMatch start (c :: s) = none) : e.Dead a b := by
  rintro p s rfl some_text start
  cases s with
  | nil => exact absurd rfl some_text
  | cons c s => exact head c (by simp) start _

/-- What matches from no place of a text is left as it is. -/
theorem go_dead (dead : e.Dead a b) (start : Bool) :
    ∃ start', e.go 0 start (a ++ b) = a ++ e.go 0 start' b := by
  induction a generalizing start with
  | nil => exact ⟨start, rfl⟩
  | cons c a ih =>
    obtain ⟨start', rest⟩ := ih (fun p s same some => dead (c :: p) s (by rw [same]; rfl) some)
      (isTerminator c)
    refine ⟨start', ?_⟩
    have none := dead [] (c :: a) rfl nofun start
    rw [List.cons_append] at none
    rw [List.cons_append, go, none]
    exact congrArg (c :: ·) rest

/-- The characters of a match that are left out. -/
theorem go_skip (x b : List Char) (start : Bool) :
    ∃ start', e.go x.length start (x ++ b) = e.go 0 start' b := by
  induction x generalizing start with
  | nil => exact ⟨start, rfl⟩
  | cons c x ih => exact ih (isTerminator c)

/-- A match that takes the text `x` with its first part and `y` with its second. -/
theorem go_match {x y : List Char} (some_text : x ≠ [])
    (found : e.firstMatch start (x ++ (y ++ b)) = some (y ++ b, b)) :
    ∃ start', e.go 0 start (x ++ (y ++ b)) = x ++ (e.mark ++ e.go 0 start' b) := by
  cases x with
  | nil => exact absurd rfl some_text
  | cons c x =>
    obtain ⟨start', rest⟩ := go_skip (e := e) (x ++ y) b (isTerminator c)
    refine ⟨start', ?_⟩
    have kept : (x ++ (y ++ b)).length + 1 - (y ++ b).length = (c :: x).length := by
      simp
      omega
    have skipped : (x ++ (y ++ b)).length - b.length = (x ++ y).length := by
      simp
      omega
    rw [List.cons_append] at found
    rw [List.cons_append, go, found]
    change (c :: x ++ (y ++ b)).take _ ++ _ = _
    rw [kept, List.take_left, skipped, ← List.append_assoc x, rest]

/-- A text without matches is left as it is. -/
theorem replace_unmatched
    (absent : ∀ p s, a = p ++ s → e.firstMatch (endsLine p) s = none) : e.replace a = a := by
  suffices general : ∀ p s, a = p ++ s → e.go 0 (endsLine p) s = s from general [] a rfl
  intro p s
  induction s generalizing p with
  | nil => intro _; rfl
  | cons c s ih =>
    intro same
    have rest := ih (p ++ [c]) (by rw [same]; simp)
    rw [endsLine_concat] at rest
    rw [go, absent p (c :: s) same, rest]

/-- Where matches do not see past a line break, the lines are replaced one by one. -/
theorem replace_lines
    (blind : ∀ p s, a = p ++ s → s ≠ [] → e.firstMatch (endsLine p) (s ++ '\n' :: b) =
      (e.firstMatch (endsLine p) s).map fun (m, r) => (m ++ '\n' :: b, r ++ '\n' :: b))
    (none : e.firstMatch (endsLine a) ('\n' :: b) = none) :
    e.replace (a ++ '\n' :: b) = e.replace a ++ '\n' :: e.replace b := by
  suffices general : ∀ p s skip, a = p ++ s → skip ≤ s.length →
      e.go skip (endsLine p) (s ++ '\n' :: b) =
        e.go skip (endsLine p) s ++ '\n' :: e.go 0 true b by
    exact general [] a 0 rfl (Nat.zero_le _)
  intro p s
  induction s generalizing p with
  | nil =>
    rintro skip same bound
    rw [Nat.le_zero.mp bound]
    rw [List.append_nil] at same
    subst same
    have broken : e.go 0 (endsLine a) ('\n' :: b) = '\n' :: e.go 0 true b := by
      rw [go, none]
      rfl
    exact broken
  | cons c s ih =>
    rintro skip same bound
    have later : ∀ skip, skip ≤ s.length →
        e.go skip (isTerminator c) (s ++ '\n' :: b) =
          e.go skip (isTerminator c) s ++ '\n' :: e.go 0 true b := by
      intro skip bound
      have rest := ih (p ++ [c]) skip (by rw [same, List.append_assoc]; rfl) bound
      rwa [endsLine_concat] at rest
    cases skip with
    | succ skip => exact later skip (Nat.le_of_succ_le_succ bound)
    | zero =>
      have here := blind p (c :: s) same nofun
      rw [List.cons_append] at here
      rw [List.cons_append, go, go, here]
      cases e.firstMatch (endsLine p) (c :: s) with
      | none => exact congrArg (c :: ·) (later 0 (Nat.zero_le _))
      | some found =>
        obtain ⟨m, r⟩ := found
        have kept : (s ++ '\n' :: b).length + 1 - (m ++ '\n' :: b).length =
            s.length + 1 - m.length := by
          simp
          omega
        have skipped : (s ++ '\n' :: b).length - (r ++ '\n' :: b).length =
            s.length - r.length := by
          simp
          omega
        change (c :: s ++ '\n' :: b).take ((s ++ '\n' :: b).length + 1 - (m ++ '\n' :: b).length) ++
          (e.mark ++ e.go ((s ++ '\n' :: b).length - (r ++ '\n' :: b).length) _ _) =
            (c :: s).take (s.length + 1 - m.length) ++ (e.mark ++ _) ++ _
        rw [kept, skipped, later _ (Nat.sub_le _ _), List.take_append_of_le_length (by simp)]
        simp only [List.append_assoc]

end Replacement

end QuinMo
