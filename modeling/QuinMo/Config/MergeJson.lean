import Mathlib.Data.List.Pairwise
import QuinMo.Lib.LinkedMap
import QuinMo.Lib.Text

/-!
# Custom JSON

`Util.mergeMap` puts custom JSON over a generated object. A list under `+k` or `k+` is added to
the list at `k`, objects are merged where both sides have one, every other value takes the place
of the one that is there.
-/

namespace QuinMo.MergeJson

open Text LinkedMap

/-- A JSON value as Gson reads it into maps and lists. -/
inductive Json where
  | null
  | boolean (value : Bool)
  | number (text : String)
  | string (text : String)
  | array (elements : List Json)
  | object (members : List (String × Json))

abbrev Members := List (String × Json)

/-- The list that is there, empty when there is none. -/
def currentList : Option Json → List Json
  | some (.array elements) => elements
  | _ => []

mutual

def mergeMap : Members → Members → Members
  | dst, [] => dst
  | dst, member :: src => mergeMap (mergeMember dst member) src

def mergeMember : Members → String × Json → Members
  | dst, (k, v) => mergeValue dst k v

def mergeValue : Members → String → Json → Members
  | dst, k, .object v =>
    match dst.lookup k with
    | some (.object current) => put dst k (.object (mergeMap current v))
    | _ => put dst k (.object v)
  | dst, k, .array v =>
    if startsWith k "+" then
      let dstKey := removePrefix k "+"
      put dst dstKey (.array (v ++ currentList (dst.lookup dstKey)))
    else if endsWith k "+" then
      let dstKey := removeSuffix k "+"
      put dst dstKey (.array (currentList (dst.lookup dstKey) ++ v))
    else put dst k (.array v)
  | dst, k, .null => put dst k .null
  | dst, k, .boolean v => put dst k (.boolean v)
  | dst, k, .number v => put dst k (.number v)
  | dst, k, .string v => put dst k (.string v)

end

inductive Directive where
  | prepend (key : String)
  | append (key : String)
  | plain
  deriving DecidableEq, Repr

/-- A plus in front comes first: `+k+` prepends to `k+`. -/
def directive (k : String) : Directive :=
  if startsWith k "+" then .prepend (removePrefix k "+")
  else if endsWith k "+" then .append (removeSuffix k "+")
  else .plain

/-- The key of the result that a member is for. -/
def target (k : String) : Json → String
  | .array _ =>
    match directive k with
    | .prepend key => key
    | .append key => key
    | .plain => k
  | _ => k

/-- The value it gets, where `current` is the one that is there. -/
def written (current : Option Json) (k : String) : Json → Json
  | .object v =>
    match current with
    | some (.object there) => .object (mergeMap there v)
    | _ => .object v
  | .array v =>
    match directive k with
    | .prepend _ => .array (v ++ currentList current)
    | .append _ => .array (currentList current ++ v)
    | .plain => .array v
  | v => v

theorem mergeValue_eq (dst : Members) (k : String) (v : Json) :
    mergeValue dst k v = put dst (target k v) (written (dst.lookup (target k v)) k v) := by
  cases v with
  | object v =>
    rw [mergeValue]
    simp only [target, written]
    split <;> rfl
  | array v =>
    rw [mergeValue]
    by_cases front : startsWith k "+" = true
    · simp only [target, written, directive, front, if_true]
    · by_cases back : endsWith k "+" = true
      · simp only [target, written, directive, front, back, if_true, if_false, Bool.false_eq_true]
      · simp only [target, written, directive, front, back, if_false, Bool.false_eq_true]
  | _ => rfl

/-- The three keys that are about `k`. -/
def Family (k key : String) : Prop := key = k ∨ key = "+" ++ k ∨ key = k ++ "+"

/-- No two members of the object are about one key. -/
def Orderly (members : Members) : Prop :=
  members.Pairwise fun a b => ∀ k, Family k a.1 → ¬ Family k b.1

variable {k : String} {src : Members} {path : List String}

theorem directive_prepend {key : String} (h : directive k = .prepend key) : k = "+" ++ key := by
  unfold directive at h
  split at h
  · next front =>
    cases h
    exact append_removePrefix front
  · split at h <;> cases h

theorem directive_append {key : String} (h : directive k = .append key) : k = key ++ "+" := by
  unfold directive at h
  split at h
  · cases h
  · split at h
    · next back =>
      cases h
      exact removeSuffix_append_of back
    · cases h

theorem directive_plus (key : String) : directive ("+" ++ key) = .prepend key := by
  rw [directive, if_pos (startsWith_append "+" key), removePrefix_append]

theorem directive_plus_after {key : String} (front : startsWith (key ++ "+") "+" = false) :
    directive (key ++ "+") = .append key := by
  rw [directive, front, if_neg Bool.false_ne_true, if_pos (endsWith_append key "+"),
    removeSuffix_append]

theorem target_family (k : String) (v : Json) : Family (target k v) k := by
  unfold target
  split
  · split
    · next key h => exact Or.inr (Or.inl (directive_prepend h))
    · next key h => exact Or.inr (Or.inr (directive_append h))
    · exact Or.inl rfl
  · exact Or.inl rfl

/-- A directive is for another key than its own. -/
theorem target_ne_of_directive (h : directive k ≠ .plain) (v : List Json) :
    target k (.array v) ≠ k := by
  have longer : ∀ key : String, key ≠ "+" ++ key ∧ key ≠ key ++ "+" := by
    intro key
    constructor <;>
    · intro same
      have lengths := congrArg String.length same
      rw [String.length_append] at lengths
      simp at lengths
  simp only [target]
  split
  · next key isPrepend =>
    rw [directive_prepend isPrepend]
    exact (longer key).1
  · next key isAppend =>
    rw [directive_append isAppend]
    exact (longer key).2
  · next plain => exact absurd plain h

theorem mergeMap_cons (dst src : Members) (k : String) (v : Json) : mergeMap dst ((k, v) :: src) =
      mergeMap (put dst (target k v) (written (dst.lookup (target k v)) k v)) src := by
  rw [mergeMap, mergeMember, mergeValue_eq]

/-- A key that no member is for keeps its value. -/
theorem mergeMap_untouched {x : String} (none_for : ∀ member ∈ src, target member.1 member.2 ≠ x)
    (dst : Members) : (mergeMap dst src).lookup x = dst.lookup x := by
  induction src generalizing dst with
  | nil => rfl
  | cons member src ih =>
    obtain ⟨k, v⟩ := member
    have other : x ≠ target k v := Ne.symm (none_for (k, v) List.mem_cons_self)
    rw [mergeMap_cons, ih (fun m hm => none_for m (List.mem_cons_of_mem _ hm)), lookup_put,
      if_neg other]

/-- The key a member is for gets the value it writes: no other member comes near it. -/
theorem mergeMap_written (orderly : Orderly src) {v : Json} (h : (k, v) ∈ src) (dst : Members) :
    (mergeMap dst src).lookup (target k v) = some (written (dst.lookup (target k v)) k v) := by
  induction src generalizing dst with
  | nil => cases h
  | cons member src ih =>
    obtain ⟨k', v'⟩ := member
    obtain ⟨apart, rest⟩ := List.pairwise_cons.mp orderly
    rw [mergeMap_cons]
    rcases List.mem_cons.mp h with same | later
    · cases same
      rw [mergeMap_untouched, lookup_put, if_pos rfl]
      intro m hm same
      exact apart m hm _ (target_family k v) (same ▸ target_family m.1 m.2)
    · have other : target k v ≠ target k' v' := fun same =>
        apart (k, v) later _ (target_family k' v') (same ▸ target_family k v)
      rw [ih rest later, lookup_put, if_neg other]

/-- The object at a path of keys. -/
def find : Members → List String → Option Members
  | members, [] => some members
  | members, k :: path =>
    match members.lookup k with
    | some (.object inner) => find inner path
    | _ => none

/-- One object of the result, where `dst` is the object at its place that was there and
`src` the one of the custom JSON. -/
structure Merged (dst src result : Members) : Prop where
  unmentioned : ∀ x, (∀ member ∈ src, target member.1 member.2 ≠ x) →
    result.lookup x = dst.lookup x
  replaced : ∀ k v, (k, v) ∈ src → (∀ inner, v ≠ .object inner) →
    (∀ list, v = .array list → directive k = .plain) → result.lookup k = some v
  prepended : ∀ k list, ("+" ++ k, .array list) ∈ src →
    result.lookup k = some (.array (list ++ currentList (dst.lookup k)))
  appended : ∀ k list, (k ++ "+", .array list) ∈ src → startsWith (k ++ "+") "+" = false →
    result.lookup k = some (.array (currentList (dst.lookup k) ++ list))
  resolved : ∀ k list, (k, .array list) ∈ src → directive k ≠ .plain → result.lookup k = none

/-- At every path where the custom JSON has an object the result has one, merged with the
object that was there, or with nothing. -/
def MergedEverywhere (dst src result : Members) : Prop :=
  ∀ path inner, find src path = some inner →
    ∃ merged, find result path = some merged ∧ Merged ((find dst path).getD []) inner merged

/-- No object of the custom JSON has two members about one key. -/
def OrderlyEverywhere (src : Members) : Prop :=
  ∀ path inner, find src path = some inner → Orderly inner

/-- No object has a key with a plus in front or at its end. -/
def PlainEverywhere (dst : Members) : Prop :=
  ∀ path inner, find dst path = some inner → ∀ member ∈ inner, directive member.1 = .plain

def HoldsDirective (members : Members) : Prop :=
  ∃ k list, (k, Json.array list) ∈ members ∧ directive k ≠ .plain

/-- Every object with a directive has a counterpart to be merged with. -/
def Covered (dst src : Members) : Prop :=
  ∀ path inner, find src path = some inner → HoldsDirective inner → (find dst path).isSome = true

/-! ## One object -/

theorem Orderly.same (orderly : Orderly src) {a b : String × Json} (ha : a ∈ src)
    (hb : b ∈ src) {x : String} (fa : Family x a.1) (fb : Family x b.1) : a = b := by
  by_contra apart
  have symmetric : Std.Symm fun a b : String × Json => ∀ k, Family k a.1 → ¬ Family k b.1 :=
    ⟨fun a b h k hb ha => h k ha hb⟩
  exact List.Pairwise.forall orderly ha hb apart x fa fb

theorem Orderly.lookup (orderly : Orderly src) {v : Json} :
    src.lookup k = some v ↔ (k, v) ∈ src := by
  have distinct : (src.map (·.1)).Nodup := by
    rw [List.Nodup, List.pairwise_map]
    exact orderly.imp fun apart same => apart _ (Or.inl rfl) (Or.inl same.symm)
  exact (mem_iff_lookup distinct).symm

theorem mergeMap_merged {dst : Members} (orderly : Orderly src)
    (plain : ∀ member ∈ dst, directive member.1 = .plain) : Merged dst src (mergeMap dst src) where
  unmentioned x none_for := mergeMap_untouched none_for dst
  replaced := by
    intro k v h noObject noDirective
    have result := mergeMap_written orderly h dst
    cases v with
    | object inner => exact absurd rfl (noObject inner)
    | array list =>
      simp only [target, written, noDirective list rfl] at result
      exact result
    | _ => exact result
  prepended := by
    intro k list h
    have result := mergeMap_written orderly h dst
    simp only [target, written, directive_plus] at result
    exact result
  appended := by
    intro k list h front
    have result := mergeMap_written orderly h dst
    simp only [target, written, directive_plus_after front] at result
    exact result
  resolved := by
    intro k list h isDirective
    have none_for : ∀ member ∈ src, target member.1 member.2 ≠ k := by
      intro member hm same
      have itself := orderly.same hm h (same ▸ target_family member.1 member.2) (Or.inl rfl)
      subst itself
      exact target_ne_of_directive isDirective list same
    rw [mergeMap_untouched none_for, ← Option.not_isSome_iff_eq_none]
    intro there
    rw [← containsKey_lookup, containsKey_iff] at there
    obtain ⟨member, hm, rfl⟩ := List.mem_map.mp there
    exact isDirective (plain member hm)

/-- An object without directives is what it merges to on its own. -/
theorem merged_alone (orderly : Orderly src) (none_held : ¬ HoldsDirective src) :
    Merged [] src src where
  unmentioned := by
    intro x none_for
    rw [List.lookup_nil, ← Option.not_isSome_iff_eq_none]
    intro there
    obtain ⟨v, found⟩ := Option.isSome_iff_exists.mp there
    have held := orderly.lookup.mp found
    have own : target x v = x := by
      cases v with
      | array list =>
        by_cases plain : directive x = .plain
        · simp only [target, plain]
        · exact absurd ⟨x, list, held, plain⟩ none_held
      | _ => rfl
    exact none_for (x, v) held own
  replaced k v h _ _ := orderly.lookup.mpr h
  prepended k list h :=
    absurd ⟨_, list, h, by rw [directive_plus]; exact nofun⟩ none_held
  appended k list h front :=
    absurd ⟨_, list, h, by rw [directive_plus_after front]; exact nofun⟩ none_held
  resolved k list h isDirective := absurd ⟨k, list, h, isDirective⟩ none_held

theorem find_cons {members : Members} {inner : Members} (h : find members (k :: path) = some inner) :
    ∃ next, members.lookup k = some (.object next) ∧ find next path = some inner := by
  rw [find] at h
  split at h
  · next next found => exact ⟨next, found, h⟩
  · cases h

theorem find_object {members : Members} {next : Members}
    (h : members.lookup k = some (.object next)) (path : List String) :
    find members (k :: path) = find next path := by
  rw [find, h]

theorem OrderlyEverywhere.inner {next : Members} (orderly : OrderlyEverywhere src)
    (h : src.lookup k = some (.object next)) : OrderlyEverywhere next :=
  fun path inner found => orderly (k :: path) inner ((find_object h path).trans found)

theorem mergeMap_object {next : Members} (orderly : OrderlyEverywhere src)
    (h : src.lookup k = some (.object next)) (dst : Members) :
    (mergeMap dst src).lookup k = some (written (dst.lookup k) k (.object next)) := by
  have here : Orderly src := orderly [] src rfl
  exact mergeMap_written here (here.lookup.mp h) dst

/-- Where both sides have an object the result has the merged one. -/
theorem find_mergeMap_both {dst d s : Members}
    (orderly : OrderlyEverywhere src) (hs : find src path = some s) (hd : find dst path = some d) :
    find (mergeMap dst src) path = some (mergeMap d s) := by
  induction path generalizing dst src with
  | nil =>
    cases hs
    cases hd
    rfl
  | cons k path ih =>
    obtain ⟨nextS, foundS, restS⟩ := find_cons hs
    obtain ⟨nextD, foundD, restD⟩ := find_cons hd
    have result := mergeMap_object orderly foundS dst
    rw [foundD] at result
    rw [find_object result path]
    exact ih (orderly.inner foundS) restS restD

/-- Where only the custom JSON has one the result has it as it stands. -/
theorem find_mergeMap_alone {dst s : Members}
    (orderly : OrderlyEverywhere src) (hs : find src path = some s) (hd : find dst path = none) :
    find (mergeMap dst src) path = some s := by
  induction path generalizing dst src with
  | nil => cases hd
  | cons k path ih =>
    obtain ⟨next, found, rest⟩ := find_cons hs
    have result := mergeMap_object orderly found dst
    cases there : dst.lookup k with
    | some value =>
      cases value with
      | object current =>
        rw [there] at result
        rw [find_object there] at hd
        rw [find_object result path]
        exact ih (orderly.inner found) rest hd
      | _ =>
        rw [there] at result
        rw [find_object result path]
        exact rest
    | none =>
      rw [there] at result
      rw [find_object result path]
      exact rest

/-- Merging does what it should exactly when every object with a directive meets an
object that is there. -/
theorem mergeMap_iff {dst src : Members} (orderly : OrderlyEverywhere src)
    (plain : PlainEverywhere dst) :
    MergedEverywhere dst src (mergeMap dst src) ↔ Covered dst src := by
  constructor
  · rintro merged path inner found ⟨k, list, held, isDirective⟩
    by_contra missing
    rw [Option.not_isSome_iff_eq_none] at missing
    obtain ⟨result, at_path, law⟩ := merged path inner found
    rw [find_mergeMap_alone orderly found missing] at at_path
    cases at_path
    have there := (orderly path inner found).lookup.mpr held
    rw [law.resolved k list held isDirective] at there
    cases there
  · intro covered path inner found
    cases there : find dst path with
    | some d =>
      refine ⟨_, find_mergeMap_both orderly found there, ?_⟩
      exact mergeMap_merged (orderly path inner found) (plain path d there)
    | none =>
      refine ⟨inner, find_mergeMap_alone orderly found there, ?_⟩
      refine merged_alone (orderly path inner found) fun held => ?_
      have := covered path inner found held
      rw [there] at this
      cases this

/-- A list inside an object inside an object. -/
def nested (outer inner : String) (list : List Json) : Members :=
  [(outer, .object [(inner, .array list)])]

theorem find_nested {outer : String} {list : List Json} {found : Members}
    (h : find (nested outer k list) path = some found) :
    path = [] ∧ found = nested outer k list ∨ path = [outer] ∧ found = [(k, .array list)] := by
  cases path with
  | nil => exact Or.inl ⟨rfl, (Option.some.inj h).symm⟩
  | cons first path =>
    obtain ⟨next, there, rest⟩ := find_cons h
    simp only [nested, List.lookup_cons, List.lookup_nil] at there
    split at there
    · next same =>
      obtain rfl : first = outer := by simpa using same
      obtain rfl := Json.object.inj (Option.some.inj there)
      cases path with
      | nil => exact Or.inr ⟨rfl, (Option.some.inj rest).symm⟩
      | cons second path =>
        obtain ⟨next, deeper, -⟩ := find_cons rest
        simp only [List.lookup_cons, List.lookup_nil] at deeper
        split at deeper <;> cases deeper
    · cases there

theorem nested_orderly (outer k : String) (list : List Json) :
    OrderlyEverywhere (nested outer k list) := by
  intro path inner h
  rcases find_nested h with ⟨-, rfl⟩ | ⟨-, rfl⟩ <;> exact List.pairwise_singleton _ _

theorem nested_plain {outer : String} (list : List Json) (plainOuter : directive outer = .plain)
    (plainKey : directive k = .plain) : PlainEverywhere (nested outer k list) := by
  intro path inner h member hm
  rcases find_nested h with ⟨-, rfl⟩ | ⟨-, rfl⟩
  · rw [List.mem_singleton.mp hm]
    exact plainOuter
  · rw [List.mem_singleton.mp hm]
    exact plainKey

/-- TLS options that are there get the protocol in front of their own. -/
theorem alpn_merged :
    MergedEverywhere (nested "tls" "alpn" [.string "h2"]) (nested "tls" "+alpn" [.string "h3"])
      (mergeMap (nested "tls" "alpn" [.string "h2"]) (nested "tls" "+alpn" [.string "h3"])) := by
  refine (mergeMap_iff (nested_orderly _ _ _) (nested_plain _ (by decide) (by decide))).mpr ?_
  intro path inner h _
  rcases find_nested h with ⟨rfl, -⟩ | ⟨rfl, -⟩ <;> rfl

/-- Without TLS options the directive itself is written. -/
theorem alpn_left_over :
    OrderlyEverywhere (nested "tls" "+alpn" [.string "h3"]) ∧ PlainEverywhere [] ∧
      find (mergeMap [] (nested "tls" "+alpn" [.string "h3"])) ["tls"] =
        some [("+alpn", .array [.string "h3"])] ∧
      ¬ MergedEverywhere [] (nested "tls" "+alpn" [.string "h3"])
        (mergeMap [] (nested "tls" "+alpn" [.string "h3"])) := by
  have plain : PlainEverywhere [] := by
    intro path inner h member hm
    cases path with
    | nil =>
      cases h
      cases hm
    | cons k path => cases h
  refine ⟨nested_orderly _ _ _, plain, rfl, ?_⟩
  intro merged
  obtain ⟨result, there, law⟩ := merged ["tls"] [("+alpn", .array [.string "h3"])] rfl
  cases there
  have gone := law.resolved "+alpn" [.string "h3"] List.mem_cons_self (by decide)
  cases gone

end QuinMo.MergeJson
