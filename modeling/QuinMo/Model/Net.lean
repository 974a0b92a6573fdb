import QuinMo.Lib.Text

/-!
# Host addresses

The address tests of `NGUtil`, regular expressions in the source, and the brackets of `Nets`.
-/

namespace QuinMo.Net

open Text

def isHexDigit (c : Char) : Bool :=
  c.isDigit || decide ('a' ≤ c ∧ c ≤ 'f') || decide ('A' ≤ c ∧ c ≤ 'F')

/-- `[0-9A-Fa-f]{1,4}`. -/
def isHexGroup (cs : List Char) : Bool :=
  decide (0 < cs.length ∧ cs.length ≤ 4) && cs.all isHexDigit

/-- `[01]?[0-9]?[0-9]|2[0-4][0-9]|25[0-5]`. -/
def isOctet : List Char → Bool
  | [a] => a.isDigit
  | [a, b] => a.isDigit && b.isDigit
  | ['2', '5', c] => decide ('0' ≤ c ∧ c ≤ '5')
  | ['2', b, c] => decide ('0' ≤ b ∧ b ≤ '4') && c.isDigit
  | [a, b, c] => (a == '0' || a == '1') && b.isDigit && c.isDigit
  | _ => false

def isIpv4Address (value : String) : Bool :=
  let parts := value.toList.splitOnP (· == '.')
  parts.length == 4 && parts.all isOctet

/-- One side of a double colon: `A?(:A)*`. -/
def isIpv6Side (cs : List Char) : Bool :=
  match cs.splitOnP (· == ':') with
  | [] => true
  | p :: ps => (p.isEmpty || isHexGroup p) && ps.all isHexGroup

def isIpv6Address (value : String) : Bool :=
  let cs := value.toList
  -- the text between a leading bracket and the last closing one
  let addr :=
    if cs.head? = some '[' ∧ ']' ∈ cs then
      ((cs.tail.reverse.dropWhile (· ≠ ']')).drop 1).reverse
    else cs
  let compressed := (List.range addr.length).any fun i =>
    (addr.drop i).take 2 == [':', ':'] && isIpv6Side (addr.take i) && isIpv6Side (addr.drop (i + 2))
  let full := addr.splitOnP (· == ':')
  compressed || (full.length == 8 && full.all isHexGroup)

def isIpAddress (value : String) : Bool := isIpv4Address value || isIpv6Address value

/-- Strip pairs of outer brackets, at most `fuel` of them. -/
def unwrapFrom : Nat → List Char → List Char
  | 0, cs => cs
  | fuel + 1, cs =>
    if cs.head? = some '[' ∧ cs.getLast? = some ']' then unwrapFrom fuel cs.tail.dropLast else cs

/-- Every round takes two characters off, so the length of the text bounds the rounds. -/
def unwrapIPV6Host (s : String) : String :=
  String.ofList (unwrapFrom s.toList.length s.toList)

theorem unwrapFrom_bare {fuel : Nat} {cs : List Char} (enough : cs.length ≤ fuel) :
    ¬ ((unwrapFrom fuel cs).head? = some '[' ∧ (unwrapFrom fuel cs).getLast? = some ']') := by
  induction fuel generalizing cs with
  | zero =>
    have nil : cs = [] := List.length_eq_zero_iff.mp (by omega)
    simp [unwrapFrom, nil]
  | succ fuel ih =>
    rw [unwrapFrom]
    split
    · apply ih
      rw [List.length_dropLast, List.length_tail]
      omega
    · rename_i bare
      exact bare

theorem isPrefixOf_singleton (c : Char) (cs : List Char) :
    [c].isPrefixOf cs = true ↔ cs.head? = some c := by
  cases cs with
  | nil => simp
  | cons d ds =>
    simp only [List.isPrefixOf_cons_cons, List.isPrefixOf_nil_left, Bool.and_true, beq_iff_eq,
      List.head?_cons, Option.some.injEq]
    exact eq_comm

theorem startsWith_bracket (s : String) : startsWith s "[" = true ↔ s.toList.head? = some '[' :=
  isPrefixOf_singleton '[' s.toList

theorem endsWith_bracket (s : String) : endsWith s "]" = true ↔ s.toList.getLast? = some ']' := by
  rw [← List.head?_reverse]
  exact isPrefixOf_singleton ']' s.toList.reverse

/-- No brackets are left around an unwrapped host. -/
theorem unwrapIPV6Host_bare (s : String) :
    (startsWith (unwrapIPV6Host s) "[" && endsWith (unwrapIPV6Host s) "]") = false := by
  have bare := unwrapFrom_bare (Nat.le_refl s.toList.length)
  rw [Bool.and_eq_false_iff, ← Bool.not_eq_true, ← Bool.not_eq_true, ← not_and_or,
    startsWith_bracket, endsWith_bracket, unwrapIPV6Host, String.toList_ofList]
  exact bare

theorem unwrapIPV6Host_of_bare {s : String}
    (bare : (startsWith s "[" && endsWith s "]") = false) : unwrapIPV6Host s = s := by
  rw [Bool.and_eq_false_iff, ← Bool.not_eq_true, ← Bool.not_eq_true, ← not_and_or,
    startsWith_bracket, endsWith_bracket] at bare
  unfold unwrapIPV6Host
  cases hs : s.toList.length with
  | zero => simp [unwrapFrom]
  | succ fuel =>
    rw [unwrapFrom, if_neg bare]
    simp

def wrapIPV6Host (s : String) : String :=
  let unwrapped := unwrapIPV6Host s
  if isIpv6Address unwrapped then "[" ++ unwrapped ++ "]" else s

end QuinMo.Net
