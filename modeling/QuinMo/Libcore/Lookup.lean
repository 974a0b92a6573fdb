import QuinMo.Config.DnsAddress

/-!
# The resolver of a group's node domains

`LookupHost` and the config builder both take a nameserver's address apart by hand, the one with
`net.SplitHostPort`, the other in `makeDnsServer`.
-/

namespace QuinMo.Libcore

open Text Config

def indexOf (c : Char) (text : List Char) : Option Nat :=
  if c ∈ text then some (text.idxOf c) else none

def lastIndexOf (c : Char) (text : List Char) : Option Nat :=
  if c ∈ text then some (text.length - 1 - text.reverse.idxOf c) else none

/-- `net.SplitHostPort`, with the reasons it gives. -/
def splitHostPort (hostport : String) : Except String (String × String) :=
  let text := hostport.toList
  match lastIndexOf ':' text with
  | none => .error "missing port in address"
  | some i =>
    let parts (host : List Char) (j k : Nat) : Except String (String × String) :=
      if '[' ∈ text.drop j then .error "unexpected '[' in address"
      else if ']' ∈ text.drop k then .error "unexpected ']' in address"
      else .ok (String.ofList host, String.ofList (text.drop (i + 1)))
    if text.head? = some '[' then
      -- the first ']' is expected just before the last ':'
      match indexOf ']' text with
      | none => .error "missing ']' in address"
      | some last =>
        if last + 1 = text.length then .error "missing port in address"
        else if last + 1 = i then parts ((text.take last).drop 1) 1 (last + 1)
        else if text[last + 1]? = some ':' then .error "too many colons in address"
        else .error "missing port in address"
    else if ':' ∈ text.take i then .error "too many colons in address"
    else parts (text.take i) 0 0

/-- `net.JoinHostPort`: a host with a colon is an IPv6 address. -/
def joinHostPort (host port : String) : String :=
  if ':' ∈ host.toList then "[" ++ host ++ "]:" ++ port else host ++ ":" ++ port

def isBracket (c : Char) : Bool := c = '[' || c = ']'

/-- `strings.Trim(s, "[]")`. -/
def trimBrackets (s : String) : String :=
  String.ofList ((s.toList.dropWhile isBracket).reverse.dropWhile isBracket).reverse

def withDefaultPort (address port : String) : String :=
  match splitHostPort address with
  | .ok _ => address
  | .error _ => joinHostPort (trimBrackets address) port

/-- How `lookupHostType` sends its query. -/
inductive Exchange where
  | dial (net address : String) (serverName : Option String)
  | https (server : String)
  | unsupported (message : String)
  deriving DecidableEq, Repr

def lookupHostType (server : String) : Exchange :=
  let scheme := if contains server "://" then substringBefore server "://" else "udp"
  let address := substringAfter server "://" server
  if scheme = "udp" ∨ scheme = "tcp" then .dial scheme (withDefaultPort address "53") none
  else if scheme = "tls" then
    let address := withDefaultPort address "853"
    -- a failed split leaves the empty host
    let host := match splitHostPort address with
      | .ok parts => parts.1
      | .error _ => ""
    .dial "tcp-tls" address (some host)
  else if scheme = "https" then .https server
  else .unsupported ("unsupported DNS server: " ++ server)

/-- The port a dialler reads off a row of digits, unless it is too large; a name would have to be
looked up. -/
def portNumber (port : String) : Option Nat :=
  if port.toList.all Char.isDigit then
    (some (Nat.ofDigitChars 10 port.toList 0)).filter (· ≤ 65535)
  else none

/-- The host and port the query is sent to, as the dialler takes the address apart. -/
def dials (server : String) : Option (String × Int) :=
  match lookupHostType server with
  | .dial _ address _ =>
    match splitHostPort address with
    | .ok (host, port) => (portNumber port).map fun number => (host, (number : Int))
    | .error _ => none
  | _ => none

/-! ## How Go splits and joins -/

section

variable {a b : List Char} {c : Char} {host port : String}

theorem lastIndexOf_found (last : c ∉ b) : lastIndexOf c (a ++ c :: b) = some a.length := by
  have position : (a ++ c :: b).reverse.idxOf c = b.length := by
    have turned : (a ++ c :: b).reverse = b.reverse ++ (c :: a.reverse) := by simp
    rw [turned, List.idxOf_append_of_notMem (by simpa using last)]
    simp
  rw [lastIndexOf, if_pos (by simp), position]
  simp only [List.length_append, List.length_cons, Option.some.injEq]
  omega

theorem indexOf_found (first : c ∉ a) : indexOf c (a ++ c :: b) = some a.length := by
  rw [indexOf, if_pos (by simp), List.idxOf_append_of_notMem first]
  simp

/-- What is needed of a port text: it is taken as the part after the last colon. -/
def Digits (port : List Char) : Prop := ∀ c ∈ port, c.isDigit = true

theorem Digits.not_mem (digits : Digits a) (other : c.isDigit = false) : c ∉ a := by
  intro h
  rw [digits c h] at other
  cases other

/-- No bracket in the text. -/
def Bare (host : List Char) : Prop := '[' ∉ host ∧ ']' ∉ host

theorem splitHostPort_no_colon (no : ':' ∉ host.toList) :
    splitHostPort host = .error "missing port in address" := by
  simp [splitHostPort, lastIndexOf, no]

theorem splitHostPort_host (bare : Bare host.toList) (no : ':' ∉ host.toList)
    (digits : Digits port.toList) : splitHostPort (host ++ ":" ++ port) = .ok (host, port) := by
  have text : (host ++ ":" ++ port).toList = host.toList ++ ':' :: port.toList := by simp
  have openFree : '[' ∉ host.toList ++ ':' :: port.toList := by
    simp [bare.1, digits.not_mem (show '['.isDigit = false from by decide)]
  have closeFree : ']' ∉ host.toList ++ ':' :: port.toList := by
    simp [bare.2, digits.not_mem (show ']'.isDigit = false from by decide)]
  have head : (host.toList ++ ':' :: port.toList).head? ≠ some '[' :=
    fun h => openFree (List.mem_of_mem_head? h)
  have colonFree : ':' ∉ (host.toList ++ ':' :: port.toList).take host.toList.length := by
    rw [List.take_left' rfl]
    exact no
  unfold splitHostPort
  simp only [text, lastIndexOf_found (digits.not_mem (show ':'.isDigit = false from by decide)),
    head, if_false, colonFree, List.drop_zero, openFree, closeFree]
  simp

theorem splitHostPort_bracketed (bare : Bare host.toList) (digits : Digits port.toList) :
    splitHostPort ("[" ++ host ++ "]:" ++ port) = .ok (host, port) := by
  have text : ("[" ++ host ++ "]:" ++ port).toList =
      ('[' :: host.toList ++ [']']) ++ ':' :: port.toList := by simp
  have last := lastIndexOf_found (a := '[' :: host.toList ++ [']'])
    (digits.not_mem (show ':'.isDigit = false from by decide))
  have closing : indexOf ']' ('[' :: host.toList ++ ']' :: ':' :: port.toList) =
      some (host.toList.length + 1) := by
    rw [indexOf_found (by simp [bare.2])]
    simp
  have openFree : '[' ∉ host.toList ++ ']' :: ':' :: port.toList := by
    simp [bare.1, digits.not_mem (show '['.isDigit = false from by decide)]
  have closeFree : ']' ∉ (':' :: port.toList) := by
    simp [digits.not_mem (show ']'.isDigit = false from by decide)]
  unfold splitHostPort
  simp only [text, last]
  rw [List.append_assoc, List.singleton_append, closing]
  simp [openFree, closeFree, List.drop_append, List.drop_eq_nil_of_le]

theorem splitHostPort_closed (bare : Bare host.toList) :
    splitHostPort ("[" ++ host ++ "]") = .error "missing port in address" := by
  have text : ("[" ++ host ++ "]").toList = '[' :: host.toList ++ [']'] := by simp
  have closing : indexOf ']' ('[' :: host.toList ++ [']']) = some (host.toList.length + 1) := by
    rw [indexOf_found (by simp [bare.2])]
    simp
  unfold splitHostPort
  simp only [text, closing]
  split
  · rfl
  · simp

theorem last_of_mem {text : List Char} (h : c ∈ text) :
    ∃ before after, text = before ++ c :: after ∧ c ∉ after := by
  obtain ⟨after, before, turned, first⟩ :=
    List.eq_append_cons_of_mem (List.mem_reverse.mpr h)
  refine ⟨before.reverse, after.reverse, ?_, by simpa using first⟩
  rw [← List.reverse_reverse text, turned]
  simp

theorem splitHostPort_v6 (bare : Bare host.toList) (colons : 2 ≤ host.toList.count ':') :
    splitHostPort host = .error "too many colons in address" := by
  have some_colon : ':' ∈ host.toList := List.count_pos_iff.mp (by omega)
  obtain ⟨before, after, text, last⟩ := last_of_mem some_colon
  have head : host.toList.head? ≠ some '[' := fun h => bare.1 (List.mem_of_mem_head? h)
  rw [text] at head colons
  have another : ':' ∈ before := by
    rw [List.count_append, List.count_cons_self, List.count_eq_zero.mpr last] at colons
    exact List.count_pos_iff.mp (by omega)
  unfold splitHostPort
  simp only [text, lastIndexOf_found last, head, if_false, List.take_left' rfl, another, if_true]

/-- What is joined is split again. -/
theorem splitHostPort_joinHostPort (bare : Bare host.toList) (digits : Digits port.toList) :
    splitHostPort (joinHostPort host port) = .ok (host, port) := by
  unfold joinHostPort
  split
  · exact splitHostPort_bracketed bare digits
  · rename_i colon
    exact splitHostPort_host bare colon digits

theorem Bare.isBracket (bare : Bare a) (h : c ∈ a) : isBracket c = false := by
  have noOpen : c ≠ '[' := fun same => bare.1 (same ▸ h)
  have noClose : c ≠ ']' := fun same => bare.2 (same ▸ h)
  simp [Libcore.isBracket, noOpen, noClose]

theorem trimBrackets_around {s : String} (text : s.toList = a ++ host.toList ++ b)
    (opening : ∀ c ∈ a, isBracket c = true) (closing : ∀ c ∈ b, isBracket c = true)
    (bare : Bare host.toList) : trimBrackets s = host := by
  suffices trimmed : ((a ++ host.toList ++ b).dropWhile isBracket).reverse.dropWhile isBracket =
      host.toList.reverse by
    rw [trimBrackets, text, trimmed, List.reverse_reverse, String.ofList_toList]
  by_cases empty : host.toList = []
  · have all : (a ++ b ++ []).dropWhile isBracket = [] :=
      dropWhile_cut (fun c h => (List.mem_append.mp h).elim (opening c) (closing c)) (by simp)
    rw [List.append_nil] at all
    rw [empty, List.append_nil, all]
    rfl
  · have front : (a ++ host.toList ++ b).dropWhile isBracket = host.toList ++ b := by
      rw [List.append_assoc]
      refine dropWhile_cut opening fun c h => ?_
      rw [List.head?_append_of_ne_nil host.toList empty] at h
      exact bare.isBracket (List.mem_of_mem_head? h)
    rw [front, List.reverse_append]
    refine dropWhile_cut (fun c h => closing c (List.mem_reverse.mp h)) fun c h => ?_
    exact bare.isBracket (List.mem_reverse.mp (List.mem_of_mem_head? h))

end

/-! ## The addresses both read -/

/-- A domain name or an IPv4 address: a text without colons, brackets and slashes. -/
def HostText (host : String) : Prop :=
  ':' ∉ host.toList ∧ '[' ∉ host.toList ∧ ']' ∉ host.toList ∧ '/' ∉ host.toList

/-- An IPv6 address: at least two colons, no brackets and slashes. -/
def IPv6Text (host : String) : Prop :=
  2 ≤ host.toList.count ':' ∧ '[' ∉ host.toList ∧ ']' ∉ host.toList ∧ '/' ∉ host.toList

instance (host : String) : Decidable (IPv6Text host) := inferInstanceAs (Decidable (_ ∧ _))

/-- The decimal digits of a port. -/
def PortText (text : String) (port : Nat) : Prop :=
  text ≠ "" ∧ Digits text.toList ∧ Nat.ofDigitChars 10 text.toList 0 = port ∧
    1 ≤ port ∧ port ≤ 65535

/-- The authority names the host, and the port if it gives one. -/
inductive Spells : String → String → Option Nat → Prop
  | host {host : String} (name : HostText host) : Spells host host none
  | hostPort {host text : String} {port : Nat} (name : HostText host) (number : PortText text port) :
      Spells (host ++ ":" ++ text) host (some port)
  | v6 {host : String} (address : IPv6Text host) : Spells host host none
  | bracketed {host : String} (address : IPv6Text host) : Spells ("[" ++ host ++ "]") host none
  | bracketedPort {host text : String} {port : Nat} (address : IPv6Text host)
      (number : PortText text port) : Spells ("[" ++ host ++ "]:" ++ text) host (some port)

/-- An entry without a scheme is a udp server. -/
inductive Entry : String → String → String → Prop
  | plain {authority : String} : Entry authority "udp" authority
  | scheme {scheme authority : String} (known : scheme ∈ ["udp", "tcp", "tls"]) :
      Entry (scheme ++ "://" ++ authority) scheme authority

/-- The port of a server that is given none. -/
def defaultPort (type : String) : Nat := if type = "tls" then 853 else 53

/-- The host and port of a server in the config. -/
def reaches (server : DNSServer) : Option (String × Int) :=
  server.server.map fun host => (host, server.server_port.getD (defaultPort server.type))

theorem Spells.no_slash {authority host : String} {port : Option Nat}
    (h : Spells authority host port) : '/' ∉ authority.toList := by
  have slash : ∀ {text : String} {n : Nat}, PortText text n → '/' ∉ text.toList :=
    fun number => number.2.1.not_mem (by decide)
  cases h with
  | host name => exact name.2.2.2
  | hostPort name number => simp [name.2.2.2, slash number]
  | v6 address => exact address.2.2.2
  | bracketed address => simp [address.2.2.2]
  | bracketedPort address number => simp [address.2.2.2, slash number]

theorem HostText.bare {host : String} (name : HostText host) : Bare host.toList :=
  ⟨name.2.1, name.2.2.1⟩

theorem IPv6Text.bare {host : String} (address : IPv6Text host) : Bare host.toList :=
  ⟨address.2.1, address.2.2.1⟩

theorem withDefaultPort_joined {authority host port reason : String}
    (fails : splitHostPort authority = .error reason) (trimmed : trimBrackets authority = host)
    (bare : Bare host.toList) (digits : Digits port.toList) :
    splitHostPort (withDefaultPort authority port) = .ok (host, port) := by
  rw [withDefaultPort, fails]
  dsimp only
  rw [trimmed]
  exact splitHostPort_joinHostPort bare digits

theorem withDefaultPort_kept {authority host text port : String}
    (splits : splitHostPort authority = .ok (host, text)) :
    splitHostPort (withDefaultPort authority port) = .ok (host, text) := by
  rw [withDefaultPort, splits]
  exact splits

theorem PortText.portNumber {text : String} {port : Nat} (number : PortText text port) :
    portNumber text = some port := by
  obtain ⟨_, digits, value, _, high⟩ := number
  rw [Libcore.portNumber, if_pos (List.all_eq_true.mpr digits), value, Option.filter_some,
    if_pos (by simpa using high)]

variable {own : Option Nat}

/-- The address is dialled at its host, and at its own port or the one put in. -/
theorem Spells.withDefaultPort {authority host port : String} {n : Nat}
    (h : Spells authority host own) (digits : Digits port.toList)
    (value : portNumber port = some n) :
    ∃ text, splitHostPort (withDefaultPort authority port) = .ok (host, text) ∧
      portNumber text = some (own.getD n) := by
  have alone : ∀ {authority host : String} {reason}, splitHostPort authority = .error reason →
      trimBrackets authority = host → Bare host.toList →
      ∃ text, splitHostPort (Libcore.withDefaultPort authority port) = .ok (host, text) ∧
        portNumber text = some n :=
    fun fails trimmed bare => ⟨port, withDefaultPort_joined fails trimmed bare digits, value⟩
  have trims : ∀ {host : String}, Bare host.toList → trimBrackets host = host :=
    fun bare => trimBrackets_around (a := []) (b := []) (by simp) (by simp) (by simp) bare
  cases h with
  | host name => exact alone (splitHostPort_no_colon name.1) (trims name.bare) name.bare
  | @hostPort host text number name digitsOf =>
    have splits := splitHostPort_host name.bare name.1 digitsOf.2.1
    exact ⟨text, withDefaultPort_kept splits, digitsOf.portNumber⟩
  | v6 address =>
    exact alone (splitHostPort_v6 address.bare address.1) (trims address.bare) address.bare
  | bracketed address =>
    have trimmed := trimBrackets_around (s := "[" ++ host ++ "]") (a := ['[']) (b := [']'])
      (by simp) (by decide) (by decide) address.bare
    exact alone (splitHostPort_closed address.bare) trimmed address.bare
  | @bracketedPort host text number address digitsOf =>
    have splits := splitHostPort_bracketed address.bare digitsOf.2.1
    exact ⟨text, withDefaultPort_kept splits, digitsOf.portNumber⟩

theorem PortText.spelled {text : String} {port : Nat} (number : PortText text port) :
    spelled text = some text ∧ ((some text).bind toIntOrNull).filter (0 < ·) =
      some (port : Int) := by
  obtain ⟨solid, digits, value, low, high⟩ := number
  have reads := toIntOrNull_digits solid digits (by omega)
  rw [value] at reads
  have positive : 0 < port := by omega
  exact ⟨if_neg solid, by simp [reads, positive]⟩

theorem startsWith_bracket {s : String} (bare : '[' ∉ s.toList) : startsWith s "[" = false := by
  rw [← Bool.not_eq_true]
  intro starts
  rw [startsWith, List.isPrefixOf_iff_prefix] at starts
  exact bare (starts.subset (show '[' ∈ "[".toList from by decide))

theorem takeWhile_closing {host rest : List Char} (bare : Bare host) :
    (host ++ ']' :: rest).takeWhile (· ≠ ']') = host := by
  refine takeWhile_cut (fun c h => ?_) (by simp)
  simpa using fun same : c = ']' => bare.2 (same ▸ h)

/-- `makeDnsServer` takes the same host, and the port if there is one. -/
theorem Spells.readAuthority {authority host : String} (h : Spells authority host own) :
    ∃ read, readAuthority authority = some read ∧ read.host = host ∧
      read.portKept = own.map Int.ofNat := by
  unfold Config.readAuthority
  cases h with
  | host name =>
    have none_of : authority.toList.count ':' ≠ 1 := by
      rw [List.count_eq_zero.mpr name.1]
      decide
    rw [startsWith_bracket name.2.1, if_neg Bool.false_ne_true, if_neg none_of]
    exact ⟨_, rfl, rfl, rfl⟩
  | @hostPort host text number name digits =>
    have colon : ':' ∉ text.toList := digits.2.1.not_mem (by decide)
    have openFree : '[' ∉ text.toList := digits.2.1.not_mem (by decide)
    have list : (host ++ ":" ++ text).toList = host.toList ++ ':' :: text.toList := by simp
    have one : (host ++ ":" ++ text).toList.count ':' = 1 := by
      rw [list, List.count_append, List.count_cons_self, List.count_eq_zero.mpr name.1,
        List.count_eq_zero.mpr colon]
    have cut : breakOn ":".toList (host ++ ":" ++ text).toList =
      some (host.toList, text.toList) := by
      rw [list]
      exact breakOn_char name.1
    rw [startsWith_bracket (by simp [list, name.2.1, openFree]), if_neg Bool.false_ne_true,
      if_pos one, substringBefore_found cut, substringAfter_found cut, String.ofList_toList,
      String.ofList_toList]
    refine ⟨_, rfl, rfl, ?_⟩
    rw [Authority.portKept, digits.spelled.1]
    exact digits.spelled.2
  | v6 address =>
    have many : authority.toList.count ':' ≠ 1 := by
      have := address.1
      omega
    rw [startsWith_bracket address.2.1, if_neg Bool.false_ne_true, if_neg many]
    exact ⟨_, rfl, rfl, rfl⟩
  | bracketed address =>
    have list : ("[" ++ host ++ "]").toList = '[' :: (host.toList ++ [']']) := by simp
    have opens : startsWith ("[" ++ host ++ "]") "[" = true := by simp [startsWith]
    have silent : breakOn "]:".toList ("[" ++ host ++ "]").toList = none := by
      have closed : ']' ∉ '[' :: host.toList := by simp [address.2.2.1]
      rw [list]
      exact breakOn_clear (d := [']', ':']) (clear_of_not_mem closed)
    rw [if_pos opens, if_pos (by simp)]
    refine ⟨_, rfl, ?_, ?_⟩
    · dsimp only
      rw [list, List.tail_cons, takeWhile_closing address.bare, String.ofList_toList]
    · rw [Authority.portKept, substringAfter, silent]
      rfl
  | @bracketedPort host text number address digits =>
    have list : ("[" ++ host ++ "]:" ++ text).toList =
        '[' :: (host.toList ++ ']' :: ':' :: text.toList) := by simp
    have opens : startsWith ("[" ++ host ++ "]:" ++ text) "[" = true := by
      rw [startsWith, List.isPrefixOf_iff_prefix, list]
      exact ⟨_, rfl⟩
    have cut : breakOn "]:".toList ("[" ++ host ++ "]:" ++ text).toList =
        some ('[' :: host.toList, text.toList) := by
      have closed : ']' ∉ '[' :: host.toList := by simp [address.2.2.1]
      rw [list]
      exact breakOn_first closed
    rw [if_pos opens, if_pos (by simp), substringAfter_found cut, String.ofList_toList]
    refine ⟨_, rfl, ?_, ?_⟩
    · dsimp only
      rw [list, List.tail_cons, takeWhile_closing address.bare, String.ofList_toList]
    · rw [Authority.portKept, digits.spelled.1]
      exact digits.spelled.2

theorem Entry.breakOn_scheme {entry scheme authority : String} (h : Entry entry scheme authority)
    (noSlash : '/' ∉ authority.toList) :
    (entry = authority ∧ scheme = "udp" ∧ breakOn "://".toList entry.toList = none) ∨
      (scheme ∈ ["udp", "tcp", "tls"] ∧
        breakOn "://".toList entry.toList = some (scheme.toList, authority.toList)) := by
  cases h with
  | plain =>
    refine Or.inl ⟨rfl, rfl, ?_⟩
    cases found : breakOn "://".toList entry.toList with
    | none => rfl
    | some parts =>
      have text := breakOn_append (a := parts.1) (b := parts.2) found
      exact absurd (by rw [text]; simp) noSlash
  | scheme known =>
    refine Or.inr ⟨known, ?_⟩
    have noColon : ':' ∉ scheme.toList := by
      have all : ∀ s ∈ ["udp", "tcp", "tls"], ':' ∉ s.toList := by decide
      exact all scheme known
    have list : (scheme ++ "://" ++ authority).toList =
        scheme.toList ++ (':' :: ['/', '/'] ++ authority.toList) := by simp
    rw [list]
    exact breakOn_first noColon

theorem ne_local_of_kept {env : Env} {text entry : String}
    (kept : entry ∈ usableNameservers env text) : entry ≠ "local" := by
  have passed := (List.mem_filter.mp (mem_of_distinctBy kept)).2
  rintro rfl
  simp at passed

theorem schemes_dial {entry scheme authority host : String} (h : Entry entry scheme authority)
    (spells : Spells authority host own) :
    dials entry = some (host, ((own.getD (defaultPort scheme) : Nat) : Int)) := by
  have split : (if contains entry "://" then substringBefore entry "://" else "udp") = scheme ∧
      substringAfter entry "://" entry = authority := by
    rcases h.breakOn_scheme spells.no_slash with ⟨rfl, rfl, none_of⟩ | ⟨-, found⟩
    · rw [contains, substringAfter, none_of]
      exact ⟨rfl, rfl⟩
    · rw [substringBefore_found found, substringAfter_found found, contains, found,
        String.ofList_toList, String.ofList_toList]
      exact ⟨rfl, rfl⟩
  have known : scheme = "udp" ∨ scheme = "tcp" ∨ scheme = "tls" := by
    cases h with
    | plain => exact Or.inl rfl
    | scheme known => simpa using known
  unfold dials lookupHostType
  dsimp only
  rw [split.1, split.2]
  by_cases tls : scheme = "tls"
  · obtain ⟨text, splits, number⟩ := spells.withDefaultPort (n := 853)
      (show ∀ c ∈ "853".toList, c.isDigit = true from by decide) (by decide)
    subst tls
    simp [splits, number, defaultPort]
  · obtain ⟨text, splits, number⟩ := spells.withDefaultPort (n := 53)
      (show ∀ c ∈ "53".toList, c.isDigit = true from by decide) (by decide)
    have plain : scheme = "udp" ∨ scheme = "tcp" := by tauto
    simp [plain, splits, number, defaultPort, tls]

/-- The entry is read by `makeDnsServer` as well. -/
theorem Entry.makeDnsServer {entry scheme authority host : String}
    (h : Entry entry scheme authority) (spells : Spells authority host own)
    (network : entry ≠ "local") (tag : String) :
    ∃ server, makeDnsServer entry tag = .ok server ∧ server.type = scheme ∧
      server.server = some host ∧ server.server_port = own.map Int.ofNat := by
  obtain ⟨read, reads, host_eq, port_eq⟩ := spells.readAuthority
  unfold Config.makeDnsServer
  rcases h.breakOn_scheme spells.no_slash with ⟨rfl, rfl, none_of⟩ | ⟨known, found⟩
  · have plain : (!contains entry "://") = true := by
      rw [contains, none_of]
      rfl
    rw [if_pos plain, if_neg network, setAuthority_eq, reads]
    exact ⟨_, rfl, rfl, congrArg some host_eq, port_eq⟩
  · have stream : scheme ∈ ["tcp", "udp", "tls", "quic"] := by
      have all : ∀ s ∈ ["udp", "tcp", "tls"], s ∈ ["tcp", "udp", "tls", "quic"] := by decide
      exact all scheme known
    have split : ¬ (!contains entry "://") = true := by
      rw [contains, found]
      exact Bool.false_ne_true
    rw [if_neg split, substringBefore_found found, substringAfter_found found,
      String.ofList_toList, String.ofList_toList]
    dsimp only
    rw [if_pos stream, setAuthority_eq, reads]
    exact ⟨_, rfl, rfl, congrArg some host_eq, port_eq⟩

/-- Forced resolving dials, for every usable entry that names a host over udp, tcp or
tls, the host and port of the server in the config. -/
theorem lookup_dials_as_config {env : Env} {text entry scheme authority host : String}
    {port : Option Nat} (kept : entry ∈ usableNameservers env text)
    (h : Entry entry scheme authority) (spells : Spells authority host port) (tag : String) :
    ∃ server, makeDnsServer entry tag = .ok server ∧ dials entry = reaches server ∧
      dials entry = some (host, ((port.getD (defaultPort scheme) : Nat) : Int)) := by
  obtain ⟨server, made, type, name, number⟩ := h.makeDnsServer spells (ne_local_of_kept kept) tag
  refine ⟨server, made, ?_, schemes_dial h spells⟩
  rw [schemes_dial h spells, reaches, name, number, type]
  cases port <;> rfl

def emptyDevice : Env :=
  .device { proxies := .empty, groups := .empty, rules := [] } .initial fun _ => none

theorem lookup_dials_bracketed :
    "tls://[2620:fe::fe]:8853" ∈
        usableNameservers emptyDevice "system\ntls://[2620:fe::fe]:8853#h3" ∧
      ∃ server, makeDnsServer "tls://[2620:fe::fe]:8853" "dns-group-0" = .ok server ∧
        dials "tls://[2620:fe::fe]:8853" = reaches server ∧
        dials "tls://[2620:fe::fe]:8853" = some ("2620:fe::fe", 8853) := by
  have kept : "tls://[2620:fe::fe]:8853" ∈
      usableNameservers emptyDevice "system\ntls://[2620:fe::fe]:8853#h3" := by decide
  have address : IPv6Text "2620:fe::fe" := by decide
  have number : PortText "8853" 8853 :=
    ⟨by decide, show ∀ c ∈ "8853".toList, c.isDigit = true from by decide, by decide, by decide,
      by decide⟩
  have entry : Entry "tls://[2620:fe::fe]:8853" "tls" "[2620:fe::fe]:8853" :=
    show Entry ("tls" ++ "://" ++ "[2620:fe::fe]:8853") _ _ from .scheme (by decide)
  exact ⟨kept, lookup_dials_as_config kept entry (.bracketedPort address number) "dns-group-0"⟩

end QuinMo.Libcore
