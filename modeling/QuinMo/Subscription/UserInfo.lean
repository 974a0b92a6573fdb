import Mathlib.Data.List.Infix
import QuinMo.Subscription.GroupEditing

/-!
# The figures of a subscription

The header `Subscription-Userinfo` is a row of fields `name=value` with semicolons between them.
`doUpdate` searches the text for a name, an equals sign and digits, wherever they are, so it also
finds the end of a longer name.
-/

namespace QuinMo.Subscription.UserInfo

open GroupEditing

structure Field where
  spaces : Nat
  name : List Char
  value : List Char
  name_plain : '=' ∉ name
  value_plain : '=' ∉ value ∧ ';' ∉ value

def Field.text (f : Field) : List Char :=
  List.replicate f.spaces ' ' ++ f.name ++ '=' :: f.value

def header : List Field → List Char
  | [] => []
  | f :: rest => f.text ++ rest.flatMap fun g => ';' :: g.text

/-- The digits the value begins with. -/
def Field.digits (f : Field) : List Char := f.value.takeWhile Char.isDigit

def Field.number (f : Field) : Nat := f.digits.foldl (fun n c => 10 * n + (c.toNat - 48)) 0

/-- The first field whose name ends like this and whose value begins with a digit. -/
def firstEnding (key : String) (fields : List Field) : Option Field :=
  fields.find? fun f => key.toList.isSuffixOf f.name && !f.digits.isEmpty

/-- What a field counts: nothing if it is too large for a Long. -/
def counted : Option Field → Int
  | some f => if f.number < 9223372036854775808 then f.number else 0
  | none => 0

/-- The field of this name. -/
def named (key : String) (fields : List Field) : Option Field :=
  fields.find? fun f => f.name = key.toList

/-- The number a field states, if it is there. -/
def stated (key : String) (fields : List Field) : Int :=
  match named key fields with
  | some f => f.number
  | none => 0

section
variable {key x y v tail : List Char}

theorem digitsOf_skip {c : Char} (no : ¬ key <+: c :: y) : digitsOf key (c :: y) =
    digitsOf key y := by
  have off : key.isPrefixOf (c :: y) = false := by
    rw [← Bool.not_eq_true, List.isPrefixOf_iff_prefix]
    exact no
  simp [digitsOf, off]

theorem prefix_name (plain : '=' ∉ key) (plain' : '=' ∉ x) :
    key ++ ['='] <+: x ++ '=' :: y ↔ key = x := by
  constructor
  · rintro ⟨t, same⟩
    rw [List.append_assoc] at same
    have own : ∀ {z : List Char}, '=' ∉ z → ∀ c ∈ z, (c != '=') = true := fun plain c listed =>
      bne_iff_ne.mpr fun same => plain (same ▸ listed)
    exact (Text.append_cut (own plain) (own plain') (by simp) (by simp) same).1
  · rintro rfl
    exact ⟨y, by simp⟩

/-- What comes after a field: nothing, or a semicolon and more. -/
def Ends (tail : List Char) : Prop := ∀ c ∈ tail.head?, c = ';'

theorem not_prefix_value (plain : ';' ∉ key) (plain' : '=' ∉ v) (ends : Ends tail) :
    ¬ key ++ ['='] <+: v ++ tail := by
  rintro ⟨t, same⟩
  rw [List.append_assoc] at same
  rcases List.append_eq_append_iff.mp same with ⟨z, rfl, rest⟩ | ⟨z, rfl, rest⟩
  · cases z with
    | nil => exact absurd (ends '=' (by rw [← List.nil_append tail, ← rest]; rfl)) (by decide)
    | cons c z =>
      obtain ⟨rfl, _⟩ := List.cons.inj rest
      exact plain' (List.mem_append_right _ List.mem_cons_self)
  · cases z with
    | nil => exact absurd (ends '=' (by rw [rest]; rfl)) (by decide)
    | cons c z =>
      obtain rfl := ends c (by rw [rest]; rfl)
      exact plain (List.mem_append_right _ List.mem_cons_self)

theorem digitsOf_value (plain : ';' ∉ key) (plain' : '=' ∉ v) (ends : Ends tail) :
    digitsOf (key ++ ['=']) (v ++ tail) = digitsOf (key ++ ['=']) tail := by
  induction v with
  | nil => rfl
  | cons c v ih =>
    have no : ¬ key ++ ['='] <+: c :: (v ++ tail) := not_prefix_value plain plain' ends
    rw [List.mem_cons, not_or] at plain'
    rw [List.cons_append, digitsOf_skip no, ih plain'.2]

theorem digitsOf_name (plain : '=' ∉ key) (some_key : key ≠ []) (plain' : '=' ∉ x) :
    digitsOf (key ++ ['=']) (x ++ '=' :: y) =
      if key <:+ x ∧ y.takeWhile Char.isDigit ≠ [] then y.takeWhile Char.isDigit
      else digitsOf (key ++ ['=']) y := by
  induction x with
  | nil =>
    have no : ¬ key ++ ['='] <+: [] ++ '=' :: y :=
      fun starts => some_key ((prefix_name plain plain').mp starts)
    rw [if_neg (by simp [some_key])]
    exact digitsOf_skip no
  | cons c x ih =>
    have here : key ++ ['='] <+: c :: (x ++ '=' :: y) ↔ key = c :: x := prefix_name plain plain'
    rw [List.mem_cons, not_or] at plain'
    simp only [List.suffix_cons_iff, List.cons_append]
    by_cases whole : key = c :: x
    · have on : (key ++ ['=']).isPrefixOf (c :: (x ++ '=' :: y)) = true :=
        List.isPrefixOf_iff_prefix.mpr (here.mpr whole)
      have rest : (c :: (x ++ '=' :: y)).drop (key ++ ['=']).length = y := by simp [whole]
      rw [digitsOf, rest, on]
      by_cases none : y.takeWhile Char.isDigit = []
      · simp [none, ih plain'.2]
      · simp [none, whole]
    · rw [digitsOf_skip (mt here.mp whole), ih plain'.2]
      simp [whole]

/-- A field is found if its name ends in the key and digits follow. -/
theorem digitsOf_field {f : Field} (plain : '=' ∉ key ∧ ';' ∉ key ∧ ' ' ∉ key) (some_key : key ≠ [])
    (ends : Ends tail) :
    digitsOf (key ++ ['=']) (f.text ++ tail) =
      if key <:+ f.name ∧ f.digits ≠ [] then f.digits else digitsOf (key ++ ['=']) tail := by
  have spaces : '=' ∉ List.replicate f.spaces ' ' ++ f.name := by
    simp [f.name_plain]
  have suffix : key <:+ List.replicate f.spaces ' ' ++ f.name ↔ key <:+ f.name := by
    induction f.spaces with
    | zero => rfl
    | succ n ih =>
      rw [List.replicate_succ, List.cons_append, List.suffix_cons_iff, ih, or_iff_right]
      intro same
      exact plain.2.2 (same ▸ List.mem_cons_self)
  have digits : (f.value ++ tail).takeWhile Char.isDigit = f.digits := by
    unfold Field.digits
    induction f.value with
    | nil =>
      cases tail with
      | nil => rfl
      | cons c tail => rw [ends c rfl]; rfl
    | cons c v ih => rw [List.cons_append, List.takeWhile_cons, List.takeWhile_cons, ih]
  rw [Field.text, List.append_assoc, List.cons_append, digitsOf_name plain.1 some_key spaces,
    digits, digitsOf_value plain.2.1 f.value_plain.1 ends]
  simp only [suffix]

theorem ends_rest (rest : List Field) : Ends (rest.flatMap fun g => ';' :: g.text) := by
  cases rest with
  | nil => exact nofun
  | cons g rest => exact fun c first => (Option.some.inj first).symm

end

section
variable {fields : List Field}

/-- The names that are asked for. -/
def keys : List String := ["upload", "download", "total", "expire"]

theorem key_plain : ∀ key ∈ keys,
    ('=' ∉ key.toList ∧ ';' ∉ key.toList ∧ ' ' ∉ key.toList) ∧ key.toList ≠ [] := by
  decide

theorem digitsOf_header {key : String} (asked : key ∈ keys) (fields : List Field) :
    digitsOf (key.toList ++ ['=']) (header fields) =
      ((firstEnding key fields).map Field.digits).getD [] := by
  obtain ⟨plain, some_key⟩ := key_plain key asked
  have field : ∀ (f : Field) rest, digitsOf (key.toList ++ ['=']) (header (f :: rest)) =
      if key.toList <:+ f.name ∧ f.digits ≠ [] then f.digits
      else digitsOf (key.toList ++ ['=']) (rest.flatMap fun g => ';' :: g.text) :=
    fun f rest => digitsOf_field plain some_key (ends_rest rest)
  induction fields with
  | nil => rfl
  | cons f rest ih =>
    have later : digitsOf (key.toList ++ ['=']) (rest.flatMap fun g => ';' :: g.text) =
        digitsOf (key.toList ++ ['=']) (header rest) := by
      cases rest with
      | nil => rfl
      | cons g rest =>
        apply digitsOf_skip
        exact not_prefix_value (v := []) plain.2.1 List.not_mem_nil fun c first =>
          (Option.some.inj first).symm
    have test : (key.toList.isSuffixOf f.name && !f.digits.isEmpty) =
        decide (key.toList <:+ f.name ∧ f.digits ≠ []) := by
      rw [Bool.eq_iff_iff]
      simp
    rw [field, later, ih]
    simp only [firstEnding, List.find?_cons, test]
    by_cases found : key.toList <:+ f.name ∧ f.digits ≠ []
    · rw [if_pos found, decide_eq_true found]
      rfl
    · rw [if_neg found, decide_eq_false found]

theorem userinfoValue_header (key : String) (asked : key ∈ keys) (fields : List Field) :
    userinfoValue (String.ofList (header fields)) key = counted (firstEnding key fields) := by
  have text : (key ++ "=").toList = key.toList ++ ['='] := by simp
  rw [userinfoValue, text, String.toList_ofList, digitsOf_header asked]
  cases firstEnding key fields <;> rfl

/-! ## The figures -/

/-- The fields of the asked names state numbers, as small as figures are. -/
structure Figures (fields : List Field) : Prop where
  upload : stated "upload" fields < 4611686018427387904
  download : stated "download" fields < 4611686018427387904
  total : stated "total" fields < 4611686018427387904
  expire : stated "expire" fields < 1099511627776

/-- What the header says is what is stored. -/
structure Exact (fields : List Field) (info : Info) : Prop where
  used : info.bytesUsed = stated "upload" fields + stated "download" fields
  remaining : (named "total" fields).isSome →
    info.bytesRemaining = stated "total" fields - info.bytesUsed
  expiry : info.expiryDate = stated "expire" fields

/-- The first field that ends like a name counts what the field of that name states, and the
expiry fits 32 bits. -/
structure Undisturbed (fields : List Field) : Prop where
  used : counted (firstEnding "upload" fields) + counted (firstEnding "download" fields) =
    stated "upload" fields + stated "download" fields
  total : (named "total" fields).isSome →
    counted (firstEnding "total" fields) = stated "total" fields
  expiry : stated "expire" fields < 2147483648 ∧
    (counted (firstEnding "expire" fields) - stated "expire" fields) % 4294967296 = 0

theorem counted_range (f : Option Field) : 0 ≤ counted f ∧ counted f < 9223372036854775808 := by
  unfold counted
  split
  · split <;> omega
  · omega

theorem toLong_small {n : Int} (low : -9223372036854775808 ≤ n) (high : n < 9223372036854775808) :
    toLong n = n := by
  unfold toLong
  apply Int.bmod_eq_of_le <;> omega

theorem stated_nonneg (key : String) (fields : List Field) : 0 ≤ stated key fields := by
  unfold stated
  split <;> omega

theorem toLong_eq_iff {n m : Int} (low : 0 ≤ n) (high : n < 18446744073709551616) (low' : 0 ≤ m)
    (high' : m < 9223372036854775808) : toLong n = m ↔ n = m := by
  unfold toLong Int.bmod
  dsimp only
  split <;> omega

theorem toInt_eq_iff {n m : Int} (low : 0 ≤ m) :
    toInt n = m ↔ m < 2147483648 ∧ (n - m) % 4294967296 = 0 := by
  unfold toInt Int.bmod
  dsimp only
  split <;> omega

theorem info_counts {flight : Flight} {response : Response} (online : flight.contentLink = false)
    (received : response.userinfo = String.ofList (header fields)) :
    (flight.info response).bytesUsed =
        toLong (counted (firstEnding "upload" fields) + counted (firstEnding "download" fields)) ∧
      (flight.info response).bytesRemaining =
        toLong (counted (firstEnding "total" fields) - (flight.info response).bytesUsed) ∧
      (flight.info response).expiryDate = toInt (counted (firstEnding "expire" fields)) := by
  simp only [Flight.info, online, received, Bool.false_eq_true, if_false,
    userinfoValue_header "upload" (by decide), userinfoValue_header "download" (by decide),
    userinfoValue_header "total" (by decide), userinfoValue_header "expire" (by decide), and_self]

theorem figures_exact_iff (figures : Figures fields) {row : GroupEditing.Row} {flight : Flight}
    {response : Response} {s : SubscriptionBean} (online : flight.contentLink = false)
    (received : response.userinfo = String.ofList (header fields))
    (stored : (row.commit flight response).subscription = some s) :
    Exact fields s.info ↔ Undisturbed fields := by
  obtain ⟨bean, -, rfl⟩ := Option.map_eq_some_iff.mp stored
  change Exact fields (flight.info response) ↔ _
  obtain ⟨sum, difference, narrowed⟩ := info_counts online received
  have up := counted_range (firstEnding "upload" fields)
  have down := counted_range (firstEnding "download" fields)
  have whole := counted_range (firstEnding "total" fields)
  have up' := stated_nonneg "upload" fields
  have down' := stated_nonneg "download" fields
  obtain ⟨small, small', small'', -⟩ := figures
  have used_iff : (flight.info response).bytesUsed =
      stated "upload" fields + stated "download" fields ↔ _ :=
    sum ▸ toLong_eq_iff (by omega) (by omega) (by omega) (by omega)
  have expiry_iff : (flight.info response).expiryDate = stated "expire" fields ↔ _ :=
    narrowed ▸ toInt_eq_iff (stated_nonneg "expire" fields)
  have left : (flight.info response).bytesUsed =
      stated "upload" fields + stated "download" fields →
      (flight.info response).bytesRemaining =
        counted (firstEnding "total" fields) - (flight.info response).bytesUsed := by
    intro used
    rw [difference, toLong_small] <;> omega
  constructor
  · rintro ⟨used, remaining, expiry⟩
    refine ⟨used_iff.mp used, fun given => ?_, expiry_iff.mp expiry⟩
    have := remaining given
    have := left used
    omega
  · rintro ⟨used, total, expiry⟩
    have used := used_iff.mpr used
    refine ⟨used, fun given => ?_, expiry_iff.mpr expiry⟩
    rw [left used, total given]

end

def field (spaces : Nat) (name : String) (value : Nat) (plain : '=' ∉ name.toList)
    (digits : '=' ∉ (toString value).toList ∧ ';' ∉ (toString value).toList) : Field :=
  ⟨spaces, name.toList, (toString value).toList, plain, digits⟩

/-- What an update from a link stores. -/
def downloaded (fields : List Field) : Info :=
  Flight.info ⟨false, "", false, false⟩ ⟨"", String.ofList (header fields), none, true, 0, []⟩

/-- A field whose name ends in `upload`, before the upload itself. -/
def disturbed : List Field :=
  [field 0 "myupload" 5 (by decide) (by decide), field 1 "upload" 3 (by decide) (by decide)]

theorem disturbed_counts_wrong : header disturbed = "myupload=5; upload=3".toList ∧
    Figures disturbed ∧ ¬ Exact disturbed (downloaded disturbed) := by
  refine ⟨by decide, ⟨by decide, by decide, by decide, by decide⟩, fun exact => ?_⟩
  exact absurd exact.used (by decide)

theorem reversed_counts_right : Exact disturbed.reverse (downloaded disturbed.reverse) := by
  have stored : (Row.commit ⟨none, .subscription, 0, false, 0, 0, "", some .defaults⟩
      ⟨false, "", false, false⟩
      ⟨"", String.ofList (header disturbed.reverse), none, true, 0, []⟩).subscription =
      some { SubscriptionBean.defaults with info := downloaded disturbed.reverse } := rfl
  apply (figures_exact_iff ⟨by decide, by decide, by decide, by decide⟩ rfl rfl stored).mpr
  constructor <;> decide

end QuinMo.Subscription.UserInfo
