import QuinMo.Lib.Text

/-!
# HTTP URLs

What a program relies on that leaves its URLs to a library: which parts a URL has, how the library
prints them, and that it reads what it prints. The library is a parameter.
-/

namespace QuinMo.Url

/-- The parts of a URL. `rest` is the path and what follows it, as it is printed. -/
structure Parts where
  scheme : String
  username : String
  password : String
  host : String
  port : Int
  rest : String
  deriving DecidableEq, Repr

/-- The functions of the library; those that throw give `none`. A builder takes the parts one by
one, a URL shows them decoded. -/
structure Library where
  Builder : Type
  HttpUrl : Type
  /-- A builder that has a scheme. -/
  start : String → Builder
  withUsername : Builder → String → Builder
  withPassword : Builder → String → Builder
  withHost : Builder → String → Option Builder
  withPort : Builder → Int → Option Builder
  build : Builder → Option HttpUrl
  newBuilder : HttpUrl → Builder
  parts : HttpUrl → Parts
  defaultPort : String → Int
  toText : HttpUrl → String
  parse : String → Option HttpUrl
  /-- The host that a URL has when its builder was given this text, none if it is no host. -/
  canonicalHost : String → Option String
  /-- How a character of a user name is printed. -/
  encodeUsername : Char → List Char
  encodePassword : Char → List Char

namespace Library
variable (L : Library)

/-- A builder with these credentials and this endpoint. -/
def endpoint (scheme username password host : String) (port : Int) : Option L.Builder := do
  let b ← L.withHost (L.withPassword (L.withUsername (L.start scheme) username) password) host
  L.withPort b port

end Library

/-- The user name, a colon and the password if there is one, and an at sign; nothing if there is
neither. -/
def userInfo (encodeUsername encodePassword : Char → List Char) (username password : String) :
    List Char :=
  if username = "" ∧ password = "" then []
  else username.toList.flatMap encodeUsername ++
    (if password = "" then [] else ':' :: password.toList.flatMap encodePassword) ++ ['@']

/-- A host with a colon is an IPv6 address and stands in brackets. -/
def hostText (host : String) : List Char :=
  if ':' ∈ host.toList then '[' :: host.toList ++ [']'] else host.toList

def portText (port : Int) : List Char := ':' :: (toString port).toList

def Library.userInfo (L : Library) (p : Parts) : List Char :=
  Url.userInfo L.encodeUsername L.encodePassword p.username p.password

/-- What follows the scheme when the port is written out, default or not. -/
def Library.spelled (L : Library) (p : Parts) : List Char :=
  L.userInfo p ++ hostText p.host ++ portText p.port ++ p.rest.toList

def ValidPort (port : Int) : Prop := 1 ≤ port ∧ port ≤ 65535
  deriving Decidable

/-- The two schemes of an HTTP URL. -/
def IsHttp (scheme : String) : Prop := scheme = "http" ∨ scheme = "https"
  deriving Decidable

/-- The library prints the parts it was given, and reads what it prints. -/
structure Library.Lawful (L : Library) : Prop where
  isHttp : ∀ u, IsHttp (L.parts u).scheme
  defaultPort_http : L.defaultPort "http" = 80
  defaultPort_https : L.defaultPort "https" = 443
  /-- A builder with valid parts makes a URL with these parts. -/
  built : ∀ {scheme host canonical port} (username password), IsHttp scheme →
    L.canonicalHost host = some canonical → ValidPort port →
    ∃ u rest, (L.endpoint scheme username password host port).bind L.build = some u ∧
      L.parts u = ⟨scheme, username, password, canonical, port, rest⟩
  /-- The builder of a URL takes another port and keeps the rest. -/
  rebuilt : ∀ u {port}, ValidPort port →
    ∃ v, (L.withPort (L.newBuilder u) port).bind L.build = some v ∧
      L.parts v = { L.parts u with port }
  /-- The default port is not printed. -/
  printed : ∀ u, (L.toText u).toList = (L.parts u).scheme.toList ++ "://".toList ++
    (L.userInfo (L.parts u) ++ hostText (L.parts u).host ++
      (if (L.parts u).port = L.defaultPort (L.parts u).scheme then []
        else portText (L.parts u).port) ++ (L.parts u).rest.toList)
  /-- The text of a URL reads as that URL, also with other credentials and another port. -/
  read : ∀ u (username password) {port}, ValidPort port →
    ∃ v, L.parse ((L.parts u).scheme ++ "://" ++
        String.ofList (L.spelled { L.parts u with username, password, port })) = some v ∧
      L.parts v = { L.parts u with username, password, port }
  colon_username : ∀ c, ':' ∉ L.encodeUsername c
  colon_password : ∀ c, ':' ∉ L.encodePassword c
  digit_password : ∀ c, c.isDigit = true → L.encodePassword c = [c]
  other_password : ∀ c, c.isDigit = false →
    ∃ first more, L.encodePassword c = first :: more ∧ first.isDigit = false
  /-- A group of an IPv6 address has at most four digits. -/
  groups : ∀ u a b, (L.parts u).host.toList = a ++ ':' :: b →
    (b.takeWhile (· ≠ ':')).length ≤ 4

/-- Digits start a coded text only if they start the text. -/
theorem prefix_flatMap {e : Char → List Char} (digit : ∀ c, c.isDigit = true → e c = [c])
    (other : ∀ c, c.isDigit = false → ∃ first more, e c = first :: more ∧ first.isDigit = false)
    {ds s : List Char} (digits : ∀ d ∈ ds, d.isDigit = true) :
    ds <+: s.flatMap e ↔ ds <+: s := by
  induction ds generalizing s with
  | nil => simp
  | cons d ds ih =>
    obtain ⟨own, rest⟩ := List.forall_mem_cons.mp digits
    cases s with
    | nil => rfl
    | cons c s =>
      rw [List.flatMap_cons]
      cases kind : c.isDigit with
      | true =>
        rw [digit c kind, List.singleton_append, List.cons_prefix_cons, List.cons_prefix_cons]
        exact and_congr_right fun _ => ih rest
      | false =>
        obtain ⟨first, more, form, noDigit⟩ := other c kind
        rw [form, List.cons_append, List.cons_prefix_cons, List.cons_prefix_cons]
        refine iff_of_false ?_ ?_
        · rintro ⟨rfl, _⟩
          exact absurd (own.symm.trans noDigit) (by simp)
        · rintro ⟨rfl, _⟩
          exact absurd (own.symm.trans kind) (by simp)

theorem flatMap_digits {e : Char → List Char} (digit : ∀ c, c.isDigit = true → e c = [c])
    {ds : List Char} (digits : ∀ d ∈ ds, d.isDigit = true) : ds.flatMap e = ds := by
  induction ds with
  | nil => rfl
  | cons d ds ih =>
    obtain ⟨own, rest⟩ := List.forall_mem_cons.mp digits
    rw [List.flatMap_cons, digit d own, ih rest, List.singleton_append]

/-! ## A library for names

Only names of lower-case letters, digits, dots and hyphens are hosts, and a URL has no path. Of the
credentials no more is put in code than the marks that end a part. -/

def isNameChar (c : Char) : Bool := c.isLower || c.isDigit || c == '.' || c == '-'

def IsName (host : String) : Prop := host ≠ "" ∧ host.toList.all isNameChar = true
  deriving Decidable

def encodeMark (c : Char) : List Char :=
  if c = '%' then ['%', '2', '5']
  else if c = ':' then ['%', '3', 'A']
  else if c = '/' then ['%', '2', 'F']
  else if c = '@' then ['%', '4', '0']
  else [c]

def decodeMarks : List Char → List Char
  | '%' :: '2' :: '5' :: s => '%' :: decodeMarks s
  | '%' :: '3' :: 'A' :: s => ':' :: decodeMarks s
  | '%' :: '2' :: 'F' :: s => '/' :: decodeMarks s
  | '%' :: '4' :: '0' :: s => '@' :: decodeMarks s
  | c :: s => c :: decodeMarks s
  | [] => []

def IsPlain (p : Parts) : Prop :=
  IsHttp p.scheme ∧ IsName p.host ∧ ValidPort p.port ∧ p.rest = "/"
  deriving Decidable

def defaultPort (scheme : String) : Int :=
  if scheme = "http" then 80 else if scheme = "https" then 443 else -1

/-- The credentials before an at sign, and what is left. -/
def readUserInfo (authority : List Char) : (String × String) × List Char :=
  let (info, endpoint) := (Text.breakOn ['@'] authority).getD ([], authority)
  let (username, password) := (Text.breakOn [':'] info).getD (info, [])
  ((String.ofList (decodeMarks username), String.ofList (decodeMarks password)), endpoint)

/-- Find the parts by their delimiters. -/
def readParts (s : List Char) : Option Parts := do
  let (scheme, after) ← Text.breakOn "://".toList s
  let ((username, password), endpoint) := readUserInfo (after.takeWhile (· ≠ '/'))
  let (host, digits) := (Text.breakOn [':'] endpoint).getD
    (endpoint, (toString (defaultPort (String.ofList scheme))).toList)
  let port ← Text.toIntOrNull (String.ofList digits)
  return {
    scheme := String.ofList scheme
    username, password, port
    host := String.ofList host
    rest := String.ofList (after.dropWhile (· ≠ '/')) }

def plain (p : Parts) : Option { p // IsPlain p } := if h : IsPlain p then some ⟨p, h⟩ else none

/-- A builder is a URL that may lack its host and has port `0` while none is set. -/
def names : Library where
  Builder := Parts
  HttpUrl := { p // IsPlain p }
  start scheme := ⟨scheme, "", "", "", 0, "/"⟩
  withUsername b username := { b with username }
  withPassword b password := { b with password }
  withHost b host := if IsName host then some { b with host } else none
  withPort b port := if ValidPort port then some { b with port } else none
  build b := plain { b with port := if b.port = 0 then defaultPort b.scheme else b.port }
  newBuilder u := u.val
  parts u := u.val
  defaultPort := defaultPort
  toText u := u.val.scheme ++ "://" ++ String.ofList
    (userInfo encodeMark encodeMark u.val.username u.val.password ++ hostText u.val.host ++
      (if u.val.port = defaultPort u.val.scheme then [] else portText u.val.port) ++
        u.val.rest.toList)
  parse s := (readParts s.toList).bind plain
  canonicalHost host := if IsName host then some host else none
  encodeUsername := encodeMark
  encodePassword := encodeMark

/-- A mark is put in code, and any other character is left as it is. -/
theorem encodeMark_cases (c : Char) :
    c ∈ ['%', ':', '/', '@'] ∨ c ∉ ['%', ':', '/', '@'] ∧ encodeMark c = [c] := by
  by_cases mark : c ∈ ['%', ':', '/', '@']
  · exact .inl mark
  · refine .inr ⟨mark, ?_⟩
    simp only [List.mem_cons, List.not_mem_nil, or_false, not_or] at mark
    simp [encodeMark, mark]

theorem decodeMarks_encodeMark (c : Char) (s : List Char) :
    decodeMarks (encodeMark c ++ s) = c :: decodeMarks s := by
  rcases encodeMark_cases c with mark | ⟨other, form⟩
  · simp only [List.mem_cons, List.not_mem_nil, or_false] at mark
    rcases mark with rfl | rfl | rfl | rfl <;> rfl
  · have noPercent : c ≠ '%' := fun same => other (by simp [same])
    rw [form, List.singleton_append, decodeMarks]
    all_goals exact fun _ same => absurd same noPercent

theorem decode_coded (s : String) :
    String.ofList (decodeMarks (s.toList.flatMap encodeMark)) = s := by
  have read (cs : List Char) : decodeMarks (cs.flatMap encodeMark) = cs := by
    induction cs with
    | nil => rfl
    | cons c cs ih => rw [List.flatMap_cons, decodeMarks_encodeMark, ih]
  rw [read, String.ofList_toList]

/-- A mark that ends a part does not occur in a code. -/
theorem not_mem_encodeMark {d : Char} (ends : d ∈ [':', '/', '@']) (c : Char) :
    d ∉ encodeMark c := by
  rcases encodeMark_cases c with mark | ⟨other, form⟩
  · have all : ∀ d ∈ [':', '/', '@'], ∀ c ∈ ['%', ':', '/', '@'], d ∉ encodeMark c := by decide
    exact all d ends c mark
  · rw [form, List.mem_singleton]
    rintro rfl
    exact other (List.mem_cons_of_mem _ ends)

theorem not_mem_coded {d : Char} (ends : d ∈ [':', '/', '@']) (s : List Char) :
    d ∉ s.flatMap encodeMark := by
  intro h
  obtain ⟨c, _, mem⟩ := List.mem_flatMap.mp h
  exact not_mem_encodeMark ends c mem

theorem breakOn_absent {d : Char} {x : List Char} (absent : d ∉ x) :
    Text.breakOn [d] x = none := by
  have clear : Text.Clear [d] x [] := Text.clear_of_not_mem absent
  have cut := Text.breakOn_clear clear
  rwa [List.append_nil] at cut

theorem not_mem_portText {d : Char} (digit : d.isDigit = false) (sign : d ≠ '-') (colon : d ≠ ':')
    (port : Int) : d ∉ portText port :=
  List.not_mem_cons_of_ne_of_not_mem colon (Text.not_mem_toString_int digit sign port)

theorem readUserInfo_append (username password : String) {endpoint : List Char}
    (noAt : '@' ∉ endpoint) :
    readUserInfo (userInfo encodeMark encodeMark username password ++ endpoint) =
      ((username, password), endpoint) := by
  have noColon := not_mem_coded (d := ':') (by decide) username.toList
  have noAt' (s : String) := not_mem_coded (d := '@') (by decide) s.toList
  unfold userInfo
  split
  · rename_i both
    rw [both.1, both.2]
    simp only [readUserInfo, List.nil_append, breakOn_absent noAt]
    rfl
  · split
    · rename_i empty
      have cut := Text.breakOn_char (b := endpoint) (noAt' username)
      rw [List.append_nil, List.append_assoc, List.singleton_append]
      simp only [readUserInfo, cut, Option.getD_some, breakOn_absent noColon, Option.getD_none,
        decode_coded, empty]
      rfl
    · have cut : Text.breakOn ['@'] (username.toList.flatMap encodeMark ++
          ':' :: password.toList.flatMap encodeMark ++ '@' :: endpoint) =
            some (username.toList.flatMap encodeMark ++
              ':' :: password.toList.flatMap encodeMark, endpoint) := by
        refine Text.breakOn_char fun mem => ?_
        rcases List.mem_append.mp mem with name | secret
        · exact noAt' username name
        · rcases List.mem_cons.mp secret with colon | secret
          · exact absurd colon (by decide)
          · exact noAt' password secret
      rw [List.append_assoc _ ['@'], List.singleton_append]
      simp only [readUserInfo, cut, Option.getD_some, Text.breakOn_char noColon, decode_coded]

theorem slash_userInfo (username password : String) :
    '/' ∉ userInfo encodeMark encodeMark username password := by
  have coded := not_mem_coded (d := '/') (by decide)
  unfold userInfo
  split
  · exact List.not_mem_nil
  · split <;> simp [coded]

theorem not_mem_name {d : Char} (other : isNameChar d = false) {host : String} (name : IsName host) :
    d ∉ host.toList := by
  intro mem
  exact absurd ((List.all_eq_true.mp name.2 _ mem).symm.trans other) (by simp)

theorem hostText_name {host : String} (name : IsName host) : hostText host = host.toList :=
  if_neg (not_mem_name (by decide) name)

theorem readParts_spelled {p : Parts} (valid : IsPlain p) :
    readParts (p.scheme.toList ++ "://".toList ++ names.spelled p) = some p := by
  obtain ⟨http, name, ⟨low, high⟩, root⟩ := valid
  have noColon : ':' ∉ p.scheme.toList := by
    rcases http with h | h <;> rw [h] <;> decide
  have scheme : Text.breakOn "://".toList (p.scheme.toList ++ "://".toList ++ names.spelled p) =
      some (p.scheme.toList, names.spelled p) := by
    rw [List.append_assoc]
    exact Text.breakOn_first noColon
  let endpoint := p.host.toList ++ portText p.port
  have spelled : names.spelled p =
      userInfo encodeMark encodeMark p.username p.password ++ endpoint ++ ['/'] := by
    simp only [Library.spelled, Library.userInfo, hostText_name name, root, endpoint]
    rw [List.append_assoc _ p.host.toList]
    rfl
  have slash : ∀ c ∈ userInfo encodeMark encodeMark p.username p.password ++ endpoint,
      decide (c ≠ '/') = true := by
    rintro c mem
    rw [decide_eq_true_eq]
    rintro rfl
    rcases List.mem_append.mp mem with info | mem
    · exact slash_userInfo _ _ info
    · rcases List.mem_append.mp mem with host | port
      · exact not_mem_name (by decide) name host
      · exact not_mem_portText (by decide) (by decide) (by decide) _ port
  have noAt : '@' ∉ endpoint := by
    intro mem
    rcases List.mem_append.mp mem with host | port
    · exact not_mem_name (by decide) name host
    · exact not_mem_portText (by decide) (by decide) (by decide) _ port
  have authority := Text.takeWhile_cut (y := ['/']) slash (by simp)
  have rest := Text.dropWhile_cut (y := ['/']) slash (by simp)
  have host : Text.breakOn [':'] endpoint = some (p.host.toList, (toString p.port).toList) :=
    Text.breakOn_char (not_mem_name (by decide) name)
  have port : Text.toIntOrNull (toString p.port) = some p.port :=
    Text.toIntOrNull_toString (by omega) (by omega)
  have path : String.ofList ['/'] = p.rest := by rw [root]
  rw [readParts, scheme]
  simp only [Option.bind_eq_bind, Option.bind_some, spelled, authority, rest,
    readUserInfo_append _ _ noAt, host, Option.getD_some, String.ofList_toList, port, path]
  rfl

theorem plain_of {p : Parts} (valid : IsPlain p) : plain p = some ⟨p, valid⟩ := dif_pos valid

theorem names_lawful : names.Lawful where
  isHttp u := u.property.1
  defaultPort_http := rfl
  defaultPort_https := rfl
  built := by
    intro scheme host canonical port username password http valid range
    obtain ⟨name, same⟩ : IsName host ∧ host = canonical := by
      simpa [names, Option.ite_none_right_eq_some] using valid
    subst same
    have set : port ≠ 0 := by
      have := range.1
      omega
    have made : IsPlain ⟨scheme, username, password, host, port, "/"⟩ := ⟨http, name, range, rfl⟩
    refine ⟨⟨_, made⟩, "/", ?_, rfl⟩
    simp [Library.endpoint, names, name, range, set, plain_of made]
  rebuilt := by
    intro u port range
    have set : port ≠ 0 := by
      have := range.1
      omega
    have made : IsPlain { u.val with port } := ⟨u.property.1, u.property.2.1, range, u.property.2.2.2⟩
    refine ⟨⟨_, made⟩, ?_, rfl⟩
    simp [names, range, set, plain_of made]
  printed := by
    intro u
    simp only [names, String.toList_append, String.toList_ofList]
    rfl
  read := by
    intro u username password port range
    have made : IsPlain { u.val with username, password, port } :=
      ⟨u.property.1, u.property.2.1, range, u.property.2.2.2⟩
    refine ⟨⟨_, made⟩, ?_, rfl⟩
    have text := readParts_spelled made
    change (readParts _).bind plain = _
    rw [String.toList_append, String.toList_append, String.toList_ofList (l := names.spelled _)]
    exact (congrArg (·.bind plain) text).trans (plain_of made)
  colon_username := not_mem_encodeMark (by decide)
  colon_password := not_mem_encodeMark (by decide)
  digit_password c digit := by
    rcases encodeMark_cases c with mark | ⟨_, form⟩
    · have all : ∀ c ∈ ['%', ':', '/', '@'], c.isDigit = false := by decide
      rw [all c mark] at digit
      cases digit
    · exact form
  other_password c other := by
    rcases encodeMark_cases c with mark | ⟨_, form⟩
    · have all : ∀ c ∈ ['%', ':', '/', '@'], (encodeMark c).head? = some '%' := by decide
      obtain ⟨more, form⟩ := List.head?_eq_some_iff.mp (all c mark)
      exact ⟨'%', more, form, rfl⟩
    · exact ⟨c, [], form, other⟩
  groups u a b host := by
    have colon : ':' ∈ u.val.host.toList := by
      rw [show u.val.host.toList = a ++ ':' :: b from host]
      simp
    exact absurd colon (not_mem_name (by decide) u.property.2.1)

end QuinMo.Url
