import QuinMo.Lib.HttpUrl

/-!
# Share links as URLs

A URL leaves out the default port of its own scheme, so that port is first printed as a
placeholder and then replaced at the first place the placeholder is found. A password can start
with it. Everything about URLs is left to the library.
-/

namespace QuinMo.Links
open Url

variable (L : Library)

def toLink (b : L.Builder) (scheme : String) (appendDefaultPort : Bool) : Option String := do
  let url ← L.build b
  let defaultPort := L.defaultPort (L.parts url).scheme
  let replace := appendDefaultPort && (L.parts url).port == defaultPort
  let url ← if replace then (L.withPort (L.newBuilder url) 14514).bind L.build else some url
  let link := Text.replaceFirst (L.toText url) ((L.parts url).scheme ++ "://") (scheme ++ "://")
  return if replace then Text.replaceFirst link ":14514" (":" ++ toString defaultPort) else link

/-- The digits of the placeholder. -/
def placeholder : List Char := ['1', '4', '5', '1', '4']

theorem clear_colon {rest : List Char} (h : ¬ placeholder <+: rest) :
    Text.Clear (':' :: placeholder) [':'] rest := by
  intro a e b eq
  cases a with
  | nil =>
    cases eq
    simpa [List.cons_prefix_cons] using h
  | cons f a => simp at eq

section
variable {L} (lawful : L.Lawful) {u : L.HttpUrl}
include lawful

theorem clear_coded (username : String) (rest : List Char) :
    Text.Clear (':' :: placeholder) (username.toList.flatMap L.encodeUsername) rest := by
  apply Text.clear_of_not_mem
  intro mem
  obtain ⟨c, _, own⟩ := List.mem_flatMap.mp mem
  exact lawful.colon_username c own

theorem clear_password {password : String} (safe : ¬ placeholder <+: password.toList)
    (rest : List Char) : Text.Clear (':' :: placeholder)
      ([':'] ++ (password.toList.flatMap L.encodePassword ++ ['@'])) rest := by
  have noColon : ':' ∉ password.toList.flatMap L.encodePassword ++ ['@'] := by
    intro mem
    rcases List.mem_append.mp mem with coded | mark
    · obtain ⟨c, _, own⟩ := List.mem_flatMap.mp coded
      exact lawful.colon_password c own
    · exact absurd mark (by decide)
  refine Text.Clear.append (clear_colon fun h => safe ?_) (Text.clear_of_not_mem noColon)
  rw [List.append_assoc, List.singleton_append] at h
  exact (prefix_flatMap lawful.digit_password lawful.other_password (by decide)).mp
    (Text.prefix_before (by decide) h)

theorem clear_userInfo {p : Parts} (safe : ¬ placeholder <+: p.password.toList)
    (rest : List Char) : Text.Clear (':' :: placeholder) (L.userInfo p) rest := by
  unfold Library.userInfo Url.userInfo
  split
  · exact Text.clear_of_not_mem List.not_mem_nil
  · rw [List.append_assoc]
    refine Text.Clear.append (clear_coded lawful _ _) ?_
    split
    · exact Text.clear_of_not_mem (by decide)
    · exact clear_password lawful safe rest

/-- The groups of an address are too short for the placeholder. -/
theorem clear_hostText (rest : List Char) :
    Text.Clear (':' :: placeholder) (hostText (L.parts u).host) rest := by
  have clearHost (rest : List Char) :
      Text.Clear (':' :: placeholder) (L.parts u).host.toList (']' :: rest) := by
    intro a c b eq occurs
    obtain ⟨rfl, digits⟩ := List.cons_prefix_cons.mp occurs
    obtain ⟨more, rfl⟩ := Text.prefix_before (by decide) digits
    have short := lawful.groups u a _ eq
    have long : 5 ≤ ((placeholder ++ more).takeWhile (· ≠ ':')).length := by
      simp [placeholder]
    omega
  unfold hostText
  split
  · refine Text.Clear.append (x := '[' :: (L.parts u).host.toList) ?_
      (Text.clear_of_not_mem (by decide))
    exact Text.Clear.append (x := ['[']) (Text.clear_of_not_mem (by decide)) (clearHost rest)
  · exact Text.clear_of_not_mem (by assumption)

end

theorem clear_scheme {scheme : List Char} (noColon : ':' ∉ scheme) (rest : List Char) :
    Text.Clear (':' :: placeholder) (scheme ++ "://".toList) rest := by
  have slashes : Text.Clear (':' :: placeholder) ([':'] ++ ['/', '/']) rest :=
    Text.Clear.append (clear_colon (by simp [placeholder])) (Text.clear_of_not_mem (by decide))
  exact .append (Text.clear_of_not_mem noColon) slashes

section
variable {L} (lawful : L.Lawful) {b : L.Builder} {u : L.HttpUrl} (built : L.build b = some u)
include lawful

omit lawful in
theorem replaceScheme (scheme : String) {text : List Char}
    (printed : (L.toText u).toList = (L.parts u).scheme.toList ++ "://".toList ++ text) :
    Text.replaceFirst (L.toText u) ((L.parts u).scheme ++ "://") (scheme ++ "://") =
      scheme ++ "://" ++ String.ofList text := by
  have whole : L.toText u = (L.parts u).scheme ++ "://" ++ String.ofList text := by
    rw [← String.toList_inj, printed]
    simp
  rw [whole]
  apply Text.replaceFirst_front
  simp

theorem defaultPort_ne {scheme : String} (known : IsHttp scheme) :
    L.defaultPort scheme ≠ 14514 := by
  rcases known with rfl | rfl
  · rw [lawful.defaultPort_http]
    decide
  · rw [lawful.defaultPort_https]
    decide

/-- A default port is written with digits. -/
theorem defaultPort_digits {scheme : String} (known : IsHttp scheme) :
    (toString (L.defaultPort scheme)).toList ≠ [] ∧
      ∀ c ∈ (toString (L.defaultPort scheme)).toList, c.isDigit = true := by
  rcases known with rfl | rfl
  · rw [lawful.defaultPort_http]
    decide
  · rw [lawful.defaultPort_https]
    decide

include built

/-- The port is printed anyway. -/
theorem toLink_of_other (other : (L.parts u).port ≠ L.defaultPort (L.parts u).scheme)
    (scheme : String) :
    toLink L b scheme true = some (scheme ++ "://" ++ String.ofList (L.spelled (L.parts u))) := by
  have printed := lawful.printed u
  rw [if_neg other] at printed
  have off : ((L.parts u).port == L.defaultPort (L.parts u).scheme) = false :=
    beq_eq_false_iff_ne.mpr other
  simp only [toLink, built, Option.bind_eq_bind, Option.bind_some, Bool.true_and, off,
    Bool.false_eq_true, if_false, replaceScheme scheme printed]
  rfl

/-- The URL is printed with the placeholder, and the first one found becomes the port. -/
theorem toLink_of_default (default : (L.parts u).port = L.defaultPort (L.parts u).scheme)
    (scheme : String) :
    toLink L b scheme true = some (Text.replaceFirst
      (scheme ++ "://" ++ String.ofList (L.spelled { L.parts u with port := 14514 })) ":14514"
        (":" ++ toString (L.parts u).port)) := by
  obtain ⟨v, rebuilt, parts⟩ := lawful.rebuilt u (show ValidPort 14514 by decide)
  have printed := lawful.printed v
  rw [parts, if_neg (defaultPort_ne lawful (lawful.isHttp u)).symm] at printed
  have scheme_v : (L.parts v).scheme = (L.parts u).scheme := by rw [parts]
  have link := replaceScheme (u := v) scheme (by rw [scheme_v]; exact printed)
  simp only [toLink, built, Option.bind_eq_bind, Option.bind_some, Bool.true_and, default,
    beq_self_eq_true, if_true, rebuilt, link]
  rfl

/-- A link has its port written out, unless the password is taken for the placeholder. -/
theorem toLink_explicit {scheme : String} (noColon : ':' ∉ scheme.toList)
    (safe : (L.parts u).port = L.defaultPort (L.parts u).scheme →
      ¬ placeholder <+: (L.parts u).password.toList) :
    toLink L b scheme true = some (scheme ++ "://" ++ String.ofList (L.spelled (L.parts u))) := by
  by_cases default : (L.parts u).port = L.defaultPort (L.parts u).scheme
  · let front := scheme.toList ++ "://".toList ++ (L.userInfo (L.parts u) ++
      hostText (L.parts u).host)
    have marked :
        (scheme ++ "://" ++ String.ofList (L.spelled { L.parts u with port := 14514 })).toList =
          front ++ (':' :: placeholder ++ (L.parts u).rest.toList) := by
      have port : portText 14514 = ':' :: placeholder := by decide
      simp [Library.spelled, port, front, Library.userInfo]
    have clear : Text.Clear (':' :: placeholder) front
        (':' :: placeholder ++ (L.parts u).rest.toList) :=
      .append (clear_scheme noColon _)
        (.append (clear_userInfo lawful (safe default) _) (clear_hostText lawful _))
    have found : Text.breakOn ":14514".toList
        (scheme ++ "://" ++ String.ofList (L.spelled { L.parts u with port := 14514 })).toList =
          some (front, (L.parts u).rest.toList) := by
      have written : ":14514".toList = ':' :: placeholder := by decide
      rw [marked, written, Text.breakOn_clear clear, Text.breakOn_front]
      simp
    rw [toLink_of_default lawful built default, Text.replaceFirst_found _ found]
    refine congrArg some (String.toList_inj.mp ?_)
    simp [front, Library.spelled, portText]
  · exact toLink_of_other lawful built default scheme

/-- A password that starts with the placeholder gets the port, and the placeholder stays where the
port should be. -/
theorem toLink_overwritten {scheme : String} (noColon : ':' ∉ scheme.toList)
    (default : (L.parts u).port = L.defaultPort (L.parts u).scheme) {rest : List Char}
    (starts : (L.parts u).password.toList = placeholder ++ rest) :
    toLink L b scheme true = some (scheme ++ "://" ++ String.ofList (L.spelled { L.parts u with
      password := toString (L.parts u).port ++ String.ofList rest, port := 14514 })) := by
  let name := (L.parts u).username.toList.flatMap L.encodeUsername
  let tail := rest.flatMap L.encodePassword ++ ['@'] ++ hostText (L.parts u).host ++
    portText 14514 ++ (L.parts u).rest.toList
  obtain ⟨some_digit, digits⟩ := defaultPort_digits lawful (lawful.isHttp u)
  rw [← default] at some_digit digits
  have text {password : String} {front : List Char} (isDigit : ∀ c ∈ front, c.isDigit = true)
      (some_digit : front ≠ []) (same : password.toList = front ++ rest) :
      L.spelled { L.parts u with password, port := 14514 } = name ++ (':' :: front ++ tail) := by
    have given : password ≠ "" := by
      rintro rfl
      exact some_digit (List.append_eq_nil_iff.mp same.symm).1
    simp [Library.spelled, Library.userInfo, Url.userInfo, given, same,
      flatMap_digits lawful.digit_password isDigit, name, tail]
  have marked :
      (scheme ++ "://" ++ String.ofList (L.spelled { L.parts u with port := 14514 })).toList =
        scheme.toList ++ "://".toList ++ name ++ (':' :: placeholder ++ tail) := by
    have own : L.spelled { L.parts u with port := 14514 } = _ := text (by decide) (by decide) starts
    rw [own]
    simp
  have clear : Text.Clear (':' :: placeholder) (scheme.toList ++ "://".toList ++ name)
      (':' :: placeholder ++ tail) :=
    .append (clear_scheme noColon _) (clear_coded lawful _ _)
  have found : Text.breakOn ":14514".toList
      (scheme ++ "://" ++ String.ofList (L.spelled { L.parts u with port := 14514 })).toList =
        some (scheme.toList ++ "://".toList ++ name, tail) := by
    have written : ":14514".toList = ':' :: placeholder := by decide
    rw [marked, written, Text.breakOn_clear clear, Text.breakOn_front]
    simp
  rw [toLink_of_default lawful built default, Text.replaceFirst_found _ found,
    text digits some_digit (by simp)]
  refine congrArg some (String.toList_inj.mp ?_)
  simp

end

/-! ## What survives -/

/-- The link, with its scheme replaced back, reads as these credentials and this endpoint,
and its port is written out. -/
def Survives (base scheme username password host : String) (port : Int) (link : String) : Prop :=
  ∃ u, L.parse (Text.replaceFirst link (scheme ++ "://") (base ++ "://")) = some u ∧
    (L.parts u).username = username ∧ (L.parts u).password = password ∧
    (L.parts u).host = host ∧ (L.parts u).port = port ∧
    ∃ before after, link.toList = before ++ hostText host ++ portText port ++ after

/-- What `toLink` makes of these credentials and this endpoint. -/
def linkOf (base scheme username password host : String) (port : Int) : Option String :=
  (L.endpoint base username password host port).bind (toLink L · scheme true)

/-- A link that spells a URL, but for its credentials and port, reads as what it spells. -/
theorem parse_link {L : Library} (lawful : L.Lawful) (scheme : String) (u : L.HttpUrl) (p : Parts)
    (spells : p = { L.parts u with username := p.username, password := p.password, port := p.port })
    (range : ValidPort p.port) :
    ∃ v, L.parse (Text.replaceFirst (scheme ++ "://" ++ String.ofList (L.spelled p))
        (scheme ++ "://") (p.scheme ++ "://")) = some v ∧ L.parts v = p := by
  have some_text : (scheme ++ "://").toList ≠ [] := by simp
  have read := lawful.read u p.username p.password range
  rw [← spells] at read
  rw [Text.replaceFirst_front some_text, show p.scheme = (L.parts u).scheme by rw [spells]]
  exact read

section
variable {L} (lawful : L.Lawful) {base scheme : String} (known : IsHttp base)
  (noColon : ':' ∉ scheme.toList) (username : String) {password host canonical : String}
  (valid : L.canonicalHost host = some canonical) {port : Int} (range : ValidPort port)
include lawful known noColon valid range

/-- The link of a safe password reads as what it was made of, with the canonical host. -/
theorem linkOf_reads (safe : ¬ (port = L.defaultPort base ∧ placeholder <+: password.toList)) :
    ∃ link u before after, linkOf L base scheme username password host port = some link ∧
      L.parse (Text.replaceFirst link (scheme ++ "://") (base ++ "://")) = some u ∧
      (L.parts u).username = username ∧ (L.parts u).password = password ∧
      (L.parts u).host = canonical ∧ (L.parts u).port = port ∧
      link.toList = before ++ hostText canonical ++ portText port ++ after := by
  obtain ⟨u, rest, made, parts⟩ := lawful.built username password known valid range
  obtain ⟨b, endpoint, built⟩ := Option.bind_eq_some_iff.mp made
  have text := toLink_explicit lawful built noColon (by rw [parts]; exact fun h g => safe ⟨h, g⟩)
  obtain ⟨v, read, same⟩ := parse_link lawful scheme u (L.parts u) rfl
    (by rw [parts]; exact range)
  rw [parts] at text read same
  refine ⟨_, v, scheme.toList ++ "://".toList ++
    Url.userInfo L.encodeUsername L.encodePassword username password, rest.toList, ?_, read, ?_⟩
  · rw [linkOf, endpoint, Option.bind_some, text]
  · rw [same]
    refine ⟨rfl, rfl, rfl, rfl, ?_⟩
    simp [Library.spelled, Library.userInfo]

/-- Where the password is taken for the placeholder, the link reads as another port. -/
theorem linkOf_loses_port (default : port = L.defaultPort base)
    (starts : placeholder <+: password.toList) :
    ∃ link u, linkOf L base scheme username password host port = some link ∧
      L.parse (Text.replaceFirst link (scheme ++ "://") (base ++ "://")) = some u ∧
      (L.parts u).port = 14514 := by
  obtain ⟨more, starts⟩ := starts
  obtain ⟨u, rest, made, parts⟩ := lawful.built username password known valid range
  obtain ⟨b, endpoint, built⟩ := Option.bind_eq_some_iff.mp made
  have text := toLink_overwritten lawful built noColon (by rw [parts]; exact default)
    (by rw [parts]; exact starts.symm)
  obtain ⟨v, read, same⟩ := parse_link lawful scheme u
    { L.parts u with password := toString (L.parts u).port ++ String.ofList more, port := 14514 }
    rfl (show ValidPort 14514 by decide)
  rw [show base = (L.parts u).scheme by rw [parts]]
  refine ⟨_, v, ?_, read, by rw [same]⟩
  rw [linkOf, show (L.parts u).scheme = base by rw [parts], endpoint, Option.bind_some, text]

end

end QuinMo.Links
