import QuinMo.Config.Nameserver

/-!
# What a DNS address says

Which part of an address is the authority, which host it names and which port it spells out. A
port that is no number or not positive is dropped without a word.
-/

namespace QuinMo.Config

open Text

/-- The host of an authority and the port it spells out, if it does. -/
structure Authority where
  host : String
  port : Option String
  deriving DecidableEq, Repr

/-- Nothing after the colon is no port. -/
def spelled (text : String) : Option String := if text = "" then none else some text

/-- `[v6]:port`, `host:port`, or a host alone; none for a bracket left open. -/
def readAuthority (authority : String) : Option Authority :=
  if startsWith authority "[" then
    if ']' ∈ authority.toList then
      some { host := String.ofList (authority.toList.tail.takeWhile (· ≠ ']'))
             port := spelled (substringAfter authority "]:" "") }
    else none
  else if authority.toList.count ':' = 1 then
    some { host := substringBefore authority ":"
           port := spelled (substringAfter authority ":" authority) }
  else some { host := authority, port := none }

/-- The part of an address that names the server; none for `local` and for a scheme
nothing is made of. -/
def authorityOf (address : String) : Option String :=
  if !contains address "://" then if address = "local" then none else some address
  else
    let rest := substringAfter address "://" address
    let scheme := substringBefore address "://"
    if scheme ∈ ["tcp", "udp", "tls", "quic"] then some rest
    else if scheme ∈ ["https", "h3"] then some (substringBefore rest "/")
    else none

/-- What the address says of a server that is reached over the network. -/
def readAddress (address : String) : Option Authority :=
  (authorityOf address).bind readAuthority

/-- The port a server gets: a positive number, or the default of its type. -/
def Authority.portKept (authority : Authority) : Option Int :=
  (authority.port.bind toIntOrNull).filter (0 < ·)

theorem spelled_toIntOrNull (text : String) :
    (spelled text).bind toIntOrNull = toIntOrNull text := by
  unfold spelled
  split
  · next empty =>
    subst empty
    rfl
  · rfl

/-- A server is made of what the authority says. -/
theorem setAuthority_eq (address authority : String) (server : DNSServer) :
    setAuthority address authority server =
      match readAuthority authority with
      | some read => .ok { server with server := some read.host, server_port := read.portKept }
      | none => .error (.unsupportedDns address) := by
  unfold setAuthority readAuthority Authority.portKept
  by_cases bracket : startsWith authority "[" = true
  · by_cases closed : ']' ∈ authority.toList
    · simp only [bracket, closed, if_true, spelled_toIntOrNull]
      rfl
    · simp only [bracket, closed, if_true, if_false]
      rfl
  · by_cases one : authority.toList.count ':' = 1
    · simp only [bracket, one, if_true, if_false, spelled_toIntOrNull, Bool.false_eq_true]
      rfl
    · simp only [bracket, one, if_false, Bool.false_eq_true]
      rfl

/-- Of an address that is read a server is made, with its host and port. -/
theorem makeDnsServer_read {address : String} {read : Authority}
    (h : readAddress address = some read) (tag : String) :
    ∃ server, makeDnsServer address tag = .ok server ∧ server.type ≠ "local" ∧
      server.server = some read.host ∧ server.server_port = read.portKept := by
  obtain ⟨authority, found, reads⟩ := Option.bind_eq_some_iff.mp h
  unfold authorityOf at found
  unfold makeDnsServer
  split at found
  · next plain =>
    split at found
    · cases found
    · next network =>
      obtain rfl := Option.some.inj found
      rw [if_pos plain, if_neg network, setAuthority_eq, reads]
      exact ⟨_, rfl, by simp, rfl, rfl⟩
  · next scheme =>
    rw [if_neg scheme]
    dsimp only at found ⊢
    split at found
    · next stream =>
      obtain rfl := Option.some.inj found
      rw [if_pos stream, setAuthority_eq, reads]
      refine ⟨_, rfl, ?_, rfl, rfl⟩
      intro isLocal
      have named : substringBefore address "://" = "local" := isLocal
      rw [named] at stream
      exact absurd stream (by decide)
    · next stream =>
      split at found
      · next web =>
        obtain rfl := Option.some.inj found
        rw [if_neg stream, if_pos web, setAuthority_eq, reads]
        refine ⟨_, rfl, ?_, rfl, rfl⟩
        intro isLocal
        have named : substringBefore address "://" = "local" := isLocal
        rw [named] at web
        exact absurd web (by decide)
      · cases found

/-- Of an address that is not read only the local server is made. -/
theorem makeDnsServer_unread {address tag : String} {server : DNSServer}
    (unread : readAddress address = none) (made : makeDnsServer address tag = .ok server) :
    server.type = "local" := by
  unfold readAddress authorityOf at unread
  unfold makeDnsServer at made
  split at made
  · next plain =>
    rw [if_pos plain] at unread
    split at made
    · cases made
      rfl
    · next network =>
      rw [if_neg network, Option.bind_some] at unread
      rw [setAuthority_eq, unread] at made
      cases made
  · next scheme =>
    rw [if_neg scheme] at unread
    dsimp only at made unread
    split at made
    · next stream =>
      rw [if_pos stream, Option.bind_some] at unread
      rw [setAuthority_eq, unread] at made
      cases made
    · next stream =>
      rw [if_neg stream] at unread
      split at made
      · next web =>
        rw [if_pos web, Option.bind_some] at unread
        rw [setAuthority_eq, unread] at made
        cases made
      · cases made

/-- The server can be dialled, and has the port the address spells out. -/
def Meaningful (address : String) (server : DNSServer) : Prop :=
  (server.type = "local" ∨
    (∃ host, server.server = some host ∧ host ≠ "") ∧
      ∀ port, server.server_port = some port → 1 ≤ port ∧ port ≤ 65535) ∧
  ∀ read text, readAddress address = some read → read.port = some text →
    ∃ port, toIntOrNull text = some port ∧ server.server_port = some port

/-- The authority names a host, and a port that it spells out is one. -/
def Authority.Sound (authority : Authority) : Prop :=
  authority.host ≠ "" ∧ ∀ text, authority.port = some text →
    ∃ port, toIntOrNull text = some port ∧ 1 ≤ port ∧ port ≤ 65535

theorem Authority.Sound.portKept {authority : Authority} (sound : authority.Sound) {text : String}
    (spells : authority.port = some text) :
    ∃ port, toIntOrNull text = some port ∧ authority.portKept = some port ∧
      1 ≤ port ∧ port ≤ 65535 := by
  obtain ⟨port, number, low, high⟩ := sound.2 text spells
  refine ⟨port, number, ?_, low, high⟩
  have positive : 0 < port := by omega
  simp [Authority.portKept, spells, number, positive]

theorem Authority.portKept_none {authority : Authority} (silent : authority.port = none) :
    authority.portKept = none := by
  simp [Authority.portKept, silent]

/-- Every server made of an address means something exactly when the address is not
read at all, or read to a host and to no port or one of the ports there are. -/
theorem makeDnsServer_meaningful_iff (address tag : String) :
    (∀ server, makeDnsServer address tag = .ok server → Meaningful address server) ↔
      ∀ read, readAddress address = some read → read.Sound := by
  constructor
  · intro meaningful read h
    obtain ⟨server, made, network, host, port⟩ := makeDnsServer_read h tag
    obtain ⟨dialled, spells⟩ := meaningful server made
    obtain ⟨⟨name, named, solid⟩, range⟩ := dialled.resolve_left network
    refine ⟨?_, fun text spelledOut => ?_⟩
    · rw [host] at named
      exact Option.some.inj named ▸ solid
    · obtain ⟨number, reads, kept⟩ := spells read text h spelledOut
      exact ⟨number, reads, range number kept⟩
  · intro sound server made
    cases h : readAddress address with
    | none =>
      refine ⟨Or.inl (makeDnsServer_unread h made), ?_⟩
      intro read text found
      rw [h] at found
      cases found
    | some read =>
      obtain ⟨same, again, -, host, port⟩ := makeDnsServer_read h tag
      obtain rfl : same = server := Except.ok.inj (again.symm.trans made)
      have good := sound read h
      refine ⟨Or.inr ⟨⟨read.host, host, good.1⟩, fun number kept => ?_⟩, ?_⟩
      · cases spells : read.port with
        | none =>
          rw [port, Authority.portKept_none spells] at kept
          cases kept
        | some text =>
          obtain ⟨own, -, keeps, range⟩ := good.portKept spells
          rw [port, keeps] at kept
          exact Option.some.inj kept ▸ range
      · intro other text found spells
        obtain rfl : read = other := Option.some.inj (h.symm.trans found)
        obtain ⟨own, number, keeps, -⟩ := good.portKept spells
        exact ⟨own, number, port.trans keeps⟩

/-- A port out of range is written as it stands, one that is no number becomes the
default port, and an empty address becomes a server without a name. -/
theorem makeDnsServer_takes_anything :
    makeDnsServer "dns.example:70000" "dns" =
        .ok { type := "udp", tag := "dns", server := some "dns.example",
              server_port := some 70000 } ∧
      makeDnsServer "dns.example:53a" "dns" =
        .ok { type := "udp", tag := "dns", server := some "dns.example" } ∧
      makeDnsServer "udp://" "dns" =
        .ok { type := "udp", tag := "dns", server := some "" } ∧
      ∃ server, makeDnsServer "dns.example:53a" "dns" = .ok server ∧
        ¬ Meaningful "dns.example:53a" server := by
  refine ⟨by decide, by decide, by decide, ?_⟩
  refine ⟨{ type := "udp", tag := "dns", server := some "dns.example" }, by decide, ?_⟩
  rintro ⟨-, spells⟩
  obtain ⟨port, -, kept⟩ := spells { host := "dns.example", port := some "53a" } "53a"
    (by decide) rfl
  cases kept

end QuinMo.Config
