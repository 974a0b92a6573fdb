import QuinMo.Model.Bean
import QuinMo.Model.BeanClasses
import QuinMo.Profiles.Positions

/-!
# Removing duplicates

Two profiles are duplicates if their texts are equal: the config of a custom config, and otherwise
address, port and display type. A stored chain has no address of its own, so all chains have the
same text.
-/

namespace QuinMo.Profiles

open Text

variable {L : LowerCase} {J : JSONObjects}

/-- The kinds of profiles with a server, as the app tells them apart. -/
inductive ServerKind where
  | socks4
  | socks4a
  | socks5
  | http
  | https
  | shadowsocks
  | vmess
  | vless
  | trojan
  | trojanGo
  | mieru
  | naive
  | hysteria (protocolVersion : Int)
  | ssh
  | wireGuard
  | tuic
  | shadowTLS
  | anyTLS
  | neko
  deriving DecidableEq, Repr

/-- The kind of a profile and where it leads to. -/
inductive Endpoint where
  | server (kind : ServerKind) (address : String) (firstPort : Int)
  | chain (proxies : List Int)
  | config (config : String)
  deriving DecidableEq, Repr

def socksKind (protocol : Int) : ServerKind :=
  if protocol = 0 then .socks4 else if protocol = 1 then .socks4a else .socks5

def v2rayKind (b : V2Ray.StandardV2RayBean) : ServerKind :=
  match b.ofClass with
  | .vmess alterId => if alterId = -1 then .vless else .vmess
  | .trojan _ => .trojan
  | .http _ _ => if b.security = "tls" then .https else .http
  | .shadowTls _ _ => .shadowTLS

def endpoint (b : FullBean (beanLayout L J)) : Endpoint :=
  match b with
  | ⟨.standardV2Ray, (b : V2Ray.StandardV2RayBean), _, _, _⟩ =>
    .server (v2rayKind b) b.serverAddress b.serverPort
  | ⟨.socks, (b : SOCKSBean.Fields), _, _, _⟩ =>
    .server (socksKind b.protocol) b.serverAddress b.serverPort
  | ⟨.shadowsocks, (b : ShadowsocksBean.Fields), _, _, _⟩ =>
    .server .shadowsocks b.serverAddress b.serverPort
  | ⟨.trojanGo, (b : TrojanGoBean.Fields), _, _, _⟩ =>
    .server .trojanGo b.serverAddress b.serverPort
  | ⟨.mieru, (b : MieruBean.Fields), _, _, _⟩ => .server .mieru b.serverAddress b.serverPort
  | ⟨.naive, (b : NaiveBean.Fields), _, _, _⟩ => .server .naive b.serverAddress b.serverPort
  | ⟨.hysteria, (b : HysteriaBean.Fields), _, _, _⟩ =>
    .server (.hysteria b.protocolVersion) b.serverAddress (getFirstPort b.serverPorts)
  | ⟨.ssh, (b : SSHBean.Fields), _, _, _⟩ => .server .ssh b.serverAddress b.serverPort
  | ⟨.wireGuard, (b : WireGuardBean.Fields), _, _, _⟩ =>
    .server .wireGuard b.serverAddress b.serverPort
  | ⟨.tuic, (b : TuicBean.Fields), _, _, _⟩ => .server .tuic b.serverAddress b.serverPort
  | ⟨.anyTls, (b : AnyTLSBean.Fields), _, _, _⟩ => .server .anyTLS b.serverAddress b.serverPort
  | ⟨.neko, (b : NekoBean.Fields J), _, _, _⟩ => .server .neko b.serverAddress b.serverPort
  | ⟨.chain, (b : ChainBean.Fields), _, _, _⟩ => .chain b.proxies
  | ⟨.config, (b : ConfigBean.Fields), _, _, _⟩ => .config b.config

/-- What the display types depend on besides the bean: the translated word for a chain, and
the display type of a custom config, which looks into its JSON. -/
structure Words where
  chainName : String
  configType : ConfigBean.Fields → String

/-- `proxy_chain` in the languages of the app. -/
def chainNames : List String :=
  ["Proxy Chain", "Cadena del proxy", "Rantai Proksi", "زنجیره پراکسی", "Vekil Sunucu Zinciri",
    "Ланцюжок проксі", "Прокси-цепочка", "链式代理", "代理鏈結", "Mellomtjenerkjede",
    "سلسلة البروکسی"]

def protocolName (b : SOCKSBean.Fields) : String :=
  if b.protocol = 0 then "SOCKS4" else if b.protocol = 1 then "SOCKS4A" else "SOCKS5"

def displayType (w : Words) (b : FullBean (beanLayout L J)) : String :=
  match b with
  | ⟨.standardV2Ray, (b : V2Ray.StandardV2RayBean), _, _, _⟩ =>
    match b.ofClass with
    | .vmess alterId => if alterId = -1 then "VLESS" else "VMess"
    | .trojan _ => "Trojan"
    | .http _ _ => if b.security = "tls" then "HTTPS" else "HTTP"
    | .shadowTls _ _ => "ShadowTLS"
  | ⟨.socks, (b : SOCKSBean.Fields), _, _, _⟩ => protocolName b
  | ⟨.shadowsocks, _, _, _, _⟩ => "Shadowsocks"
  | ⟨.trojanGo, _, _, _, _⟩ => "Trojan-Go"
  | ⟨.mieru, _, _, _, _⟩ => "Mieru"
  | ⟨.naive, _, _, _, _⟩ => "Naïve"
  | ⟨.hysteria, (b : HysteriaBean.Fields), _, _, _⟩ => "Hysteria" ++ toString b.protocolVersion
  | ⟨.ssh, _, _, _, _⟩ => "SSH"
  | ⟨.wireGuard, _, _, _, _⟩ => "WireGuard"
  | ⟨.tuic, _, _, _, _⟩ => "TUIC"
  | ⟨.anyTls, _, _, _, _⟩ => "AnyTLS"
  | ⟨.neko, _, _, _, _⟩ => "invalid"
  | ⟨.chain, _, _, _, _⟩ => w.chainName
  | ⟨.config, (b : ConfigBean.Fields), _, _, _⟩ => w.configType b

/-- The fields of `AbstractBean`. -/
def serverOf (b : FullBean (beanLayout L J)) : String × Int :=
  match b with
  | ⟨.standardV2Ray, (b : V2Ray.StandardV2RayBean), _, _, _⟩ => (b.serverAddress, b.serverPort)
  | ⟨.socks, (b : SOCKSBean.Fields), _, _, _⟩ => (b.serverAddress, b.serverPort)
  | ⟨.shadowsocks, (b : ShadowsocksBean.Fields), _, _, _⟩ => (b.serverAddress, b.serverPort)
  | ⟨.trojanGo, (b : TrojanGoBean.Fields), _, _, _⟩ => (b.serverAddress, b.serverPort)
  | ⟨.mieru, (b : MieruBean.Fields), _, _, _⟩ => (b.serverAddress, b.serverPort)
  | ⟨.naive, (b : NaiveBean.Fields), _, _, _⟩ => (b.serverAddress, b.serverPort)
  | ⟨.hysteria, (b : HysteriaBean.Fields), _, _, _⟩ => (b.serverAddress, b.serverPort)
  | ⟨.ssh, (b : SSHBean.Fields), _, _, _⟩ => (b.serverAddress, b.serverPort)
  | ⟨.wireGuard, (b : WireGuardBean.Fields), _, _, _⟩ => (b.serverAddress, b.serverPort)
  | ⟨.tuic, (b : TuicBean.Fields), _, _, _⟩ => (b.serverAddress, b.serverPort)
  | ⟨.anyTls, (b : AnyTLSBean.Fields), _, _, _⟩ => (b.serverAddress, b.serverPort)
  | ⟨.neko, (b : NekoBean.Fields J), _, _, _⟩ => (b.serverAddress, b.serverPort)
  | ⟨.chain, (b : ChainBean.Fields), _, _, _⟩ => (b.serverAddress, b.serverPort)
  | ⟨.config, (b : ConfigBean.Fields), _, _, _⟩ => (b.serverAddress, b.serverPort)

/-- `Deduplication.hash` without its first branch. -/
def serverHash (address : String) (port : Int) (type : String) : String :=
  address ++ ":" ++ toString port ++ ":" ++ type

/-- `Deduplication(bean, displayType()).hash()`. -/
def hash (w : Words) (b : FullBean (beanLayout L J)) : String :=
  match b with
  | ⟨.config, (b : ConfigBean.Fields), _, _, _⟩ => b.config
  | ⟨.hysteria, (h : HysteriaBean.Fields), _, _, _⟩ =>
    serverHash (serverOf b).1 (getFirstPort h.serverPorts) (displayType w b)
  | b => serverHash (serverOf b).1 (serverOf b).2 (displayType w b)

def ServerKind.text : ServerKind → String
  | .socks4 => "SOCKS4"
  | .socks4a => "SOCKS4A"
  | .socks5 => "SOCKS5"
  | .http => "HTTP"
  | .https => "HTTPS"
  | .shadowsocks => "Shadowsocks"
  | .vmess => "VMess"
  | .vless => "VLESS"
  | .trojan => "Trojan"
  | .trojanGo => "Trojan-Go"
  | .mieru => "Mieru"
  | .naive => "Naïve"
  | .hysteria protocolVersion => "Hysteria" ++ toString protocolVersion
  | .ssh => "SSH"
  | .wireGuard => "WireGuard"
  | .tuic => "TUIC"
  | .shadowTLS => "ShadowTLS"
  | .anyTLS => "AnyTLS"
  | .neko => "invalid"

/-- The text of a stored profile; every stored chain has the default address. -/
def Endpoint.text (w : Words) : Endpoint → String
  | .server kind address firstPort => serverHash address firstPort kind.text
  | .chain _ => serverHash "127.0.0.1" 1080 w.chainName
  | .config written => written

/-- What is read back from the database after a bean was written. -/
def Stored (b : FullBean (beanLayout L J)) : Prop :=
  ∃ c : FullBean (beanLayout L J), b = FullBean.initializeDefaultValues c.written

theorem hash_of_not_chain (w : Words) {b : FullBean (beanLayout L J)} (other : b.kind ≠ .chain) :
    hash w b = (endpoint b).text w := by
  obtain ⟨kind, fields, name, outbound, config⟩ := b
  cases kind with
  | chain => exact absurd rfl other
  | standardV2Ray =>
    simp only [hash, endpoint, Endpoint.text, serverOf, displayType, v2rayKind]
    split
    · split <;> rfl
    · rfl
    · split <;> rfl
    · rfl
  | socks =>
    simp only [hash, endpoint, Endpoint.text, serverOf, displayType, protocolName, socksKind]
    split
    · rfl
    · split <;> rfl
  | _ => rfl

theorem hash_stored (w : Words) {b : FullBean (beanLayout L J)} (stored : Stored b) :
    hash w b = (endpoint b).text w := by
  by_cases chain : b.kind = .chain
  · obtain ⟨⟨kind, fields, name, outbound, config⟩, rfl⟩ := stored
    cases chain
    rfl
  · exact hash_of_not_chain w chain

/-! ## The text determines the endpoint -/

/-- The kinds whose texts are fixed. -/
def fixedKinds : List ServerKind :=
  [.socks4, .socks4a, .socks5, .http, .https, .shadowsocks, .vmess, .vless, .trojan, .trojanGo,
    .mieru, .naive, .ssh, .wireGuard, .tuic, .shadowTLS, .anyTLS, .neko]

theorem hysteria_or_fixed (kind : ServerKind) :
    (∃ version, kind = .hysteria version) ∨ kind ∈ fixedKinds := by
  cases kind with
  | hysteria version => exact .inl ⟨version, rfl⟩
  | _ => exact .inr (by decide)

def isHysteria (text : String) : Bool := "Hysteria".toList.isPrefixOf text.toList

theorem isHysteria_version (version : Int) :
    isHysteria (ServerKind.hysteria version).text = true := by
  simp [isHysteria, ServerKind.text, String.toList_append]

theorem fixed_not_hysteria : ∀ kind ∈ fixedKinds, isHysteria kind.text = false := by
  decide

theorem fixed_texts : (fixedKinds.map ServerKind.text).Nodup := by
  decide

theorem chainName_apart : ∀ name ∈ chainNames,
    isHysteria name = false ∧ name ∉ fixedKinds.map ServerKind.text ∧ ':' ∉ name.toList := by
  decide

theorem fixed_no_colon : ∀ kind ∈ fixedKinds, ':' ∉ kind.text.toList := by
  decide

theorem ServerKind.text_inj {k k' : ServerKind} (same : k.text = k'.text) : k = k' := by
  rcases hysteria_or_fixed k with ⟨version, rfl⟩ | fixed <;>
    rcases hysteria_or_fixed k' with ⟨version', rfl⟩ | fixed'
  · have chars := congrArg String.toList same
    simp only [ServerKind.text, String.toList_append] at chars
    have digits := String.toList_inj.mp (List.append_cancel_left chars)
    rw [toString_int_inj digits]
  · have := fixed_not_hysteria k' fixed'
    rw [← same, isHysteria_version] at this
    cases this
  · have := fixed_not_hysteria k fixed
    rw [same, isHysteria_version] at this
    cases this
  · exact List.inj_on_of_nodup_map fixed_texts fixed fixed' same

theorem ServerKind.no_colon (k : ServerKind) : ':' ∉ k.text.toList := by
  rcases hysteria_or_fixed k with ⟨version, rfl⟩ | fixed
  · rw [ServerKind.text, String.toList_append, List.mem_append, not_or]
    exact ⟨by decide, not_mem_toString_int (by decide) (by decide) version⟩
  · exact fixed_no_colon k fixed

theorem ServerKind.text_ne_chainName (k : ServerKind) {name : String} (known : name ∈ chainNames) :
    k.text ≠ name := by
  obtain ⟨noHysteria, notFixed, _⟩ := chainName_apart name known
  rcases hysteria_or_fixed k with ⟨version, rfl⟩ | fixed
  · intro same
    rw [← same, isHysteria_version] at noHysteria
    cases noHysteria
  · intro same
    exact notFixed (same ▸ List.mem_map_of_mem fixed)

theorem serverHash_inj {address address' type type' : String} {port port' : Int}
    (no : ':' ∉ type.toList) (no' : ':' ∉ type'.toList)
    (same : serverHash address port type = serverHash address' port' type') :
    address = address' ∧ port = port' ∧ type = type' := by
  have chars (a : String) (n : Int) (t : String) : (serverHash a n t).toList =
      (a.toList ++ ':' :: (toString n).toList) ++ ':' :: t.toList := by
    have colon : ":".toList = [':'] := rfl
    simp [serverHash, String.toList_append, colon]
  have lists := congrArg String.toList same
  rw [chars, chars] at lists
  obtain ⟨front, back⟩ := last_cut no no' lists
  have port_no (n : Int) := not_mem_toString_int (c := ':') (by decide) (by decide) n
  obtain ⟨first, middle⟩ := last_cut (port_no port) (port_no port') front
  exact ⟨String.toList_inj.mp first, toString_int_inj (String.toList_inj.mp middle),
    String.toList_inj.mp back⟩

/-- Two texts are the same only for the same endpoint, for chains, and for a custom config
against another profile. -/
theorem Endpoint.of_text {w : Words} (known : w.chainName ∈ chainNames) {e e' : Endpoint}
    (same : e.text w = e'.text w) : e = e' ∨ (∃ m n, e = .chain m ∧ e' = .chain n) ∨
      (∃ written, e = .config written ∧ ∀ t, e' ≠ .config t) ∨
      (∃ written, e' = .config written ∧ ∀ t, e ≠ .config t) := by
  have noColon := (chainName_apart w.chainName known).2.2
  cases e with
  | server kind address port =>
    cases e' with
    | server kind' address' port' =>
      obtain ⟨rfl, rfl, texts⟩ := serverHash_inj kind.no_colon kind'.no_colon same
      rw [ServerKind.text_inj texts]
      exact .inl rfl
    | chain n =>
      have := (serverHash_inj kind.no_colon noColon same).2.2
      exact absurd this (kind.text_ne_chainName known)
    | config written => exact .inr (.inr (.inr ⟨written, rfl, nofun⟩))
  | chain m =>
    cases e' with
    | server kind' address' port' =>
      have := (serverHash_inj noColon kind'.no_colon same).2.2
      exact absurd this.symm (kind'.text_ne_chainName known)
    | chain n => exact .inr (.inl ⟨m, n, rfl, rfl⟩)
    | config written => exact .inr (.inr (.inr ⟨written, rfl, nofun⟩))
  | config written =>
    cases e' with
    | server kind' address' port' => exact .inr (.inr (.inl ⟨written, rfl, nofun⟩))
    | chain n => exact .inr (.inr (.inl ⟨written, rfl, nofun⟩))
    | config written' => exact .inl (congrArg Endpoint.config same)

abbrev StoredProfile (L : LowerCase) (J : JSONObjects) := ProxyEntity (FullBean (beanLayout L J))

structure Clearing (L : LowerCase) (J : JSONObjects) where
  uniqueProxies : List String
  toClear : List (StoredProfile L J)

def clearRound (w : Words) (c : Clearing L J) (pf : StoredProfile L J) : Clearing L J :=
  if hash w pf.bean ∈ c.uniqueProxies then { c with toClear := c.toClear ++ [pf] }
  else { c with uniqueProxies := c.uniqueProxies ++ [hash w pf.bean] }

/-- The profiles that `action_remove_duplicate` asks to delete. -/
def toClear (w : Words) (profiles : List (StoredProfile L J)) : List (StoredProfile L J) :=
  (profiles.foldl (clearRound w) ⟨[], []⟩).toClear

section
variable {w : Words} {c : Clearing L J} {pf : StoredProfile L J}

theorem clearRound_known (known : hash w pf.bean ∈ c.uniqueProxies) :
    clearRound w c pf = { c with toClear := c.toClear ++ [pf] } := if_pos known

theorem clearRound_new (new : hash w pf.bean ∉ c.uniqueProxies) :
    clearRound w c pf = { c with uniqueProxies := c.uniqueProxies ++ [hash w pf.bean] } := if_neg new

end

theorem foldl_clearRound (w : Words) (profiles : List (StoredProfile L J)) (c : Clearing L J) :
    (∀ text, text ∈ (profiles.foldl (clearRound w) c).uniqueProxies ↔
      text ∈ c.uniqueProxies ∨ text ∈ profiles.map (hash w ·.bean)) ∧
    ∃ more, (profiles.foldl (clearRound w) c).toClear = c.toClear ++ more ∧
      ∀ pf ∈ more, pf ∈ profiles := by
  induction profiles generalizing c with
  | nil => exact ⟨by simp, [], by simp, fun _ listed => absurd listed List.not_mem_nil⟩
  | cons pf profiles ih =>
    obtain ⟨texts, more, cleared, inside⟩ := ih (clearRound w c pf)
    rw [List.foldl_cons]
    by_cases known : hash w pf.bean ∈ c.uniqueProxies
    · rw [clearRound_known known] at texts cleared ⊢
      refine ⟨?_, pf :: more, by simp [cleared], ?_⟩
      · intro text
        rw [texts, List.map_cons, List.mem_cons]
        constructor
        · rintro (h | h)
          · exact .inl h
          · exact .inr (.inr h)
        · rintro (h | rfl | h)
          · exact .inl h
          · exact .inl known
          · exact .inr h
      · intro x listed
        rcases List.mem_cons.mp listed with rfl | listed
        · exact List.mem_cons_self
        · exact List.mem_cons_of_mem _ (inside x listed)
    · rw [clearRound_new known] at texts cleared ⊢
      refine ⟨?_, more, cleared, fun x listed => List.mem_cons_of_mem _ (inside x listed)⟩
      intro text
      rw [texts, List.map_cons, List.mem_cons, List.mem_append, List.mem_singleton, or_assoc]

/-- A profile is to be deleted if an earlier one has its text. -/
theorem mem_toClear {w : Words} {before after : List (StoredProfile L J)} {pf : StoredProfile L J}
    (once : (before ++ pf :: after).Nodup) :
    pf ∈ toClear w (before ++ pf :: after) ↔ hash w pf.bean ∈ before.map (hash w ·.bean) := by
  obtain ⟨texts, early, cleared, inside⟩ := foldl_clearRound w before ⟨[], []⟩
  have apart := List.nodup_append.mp once
  have notBefore : pf ∉ before := fun h => apart.2.2 pf h pf List.mem_cons_self rfl
  have notAfter : pf ∉ after := (List.nodup_cons.mp apart.2.1).1
  have notEarly : pf ∉ (before.foldl (clearRound w) ⟨[], []⟩).toClear := by
    rw [cleared, List.nil_append]
    exact fun h => notBefore (inside pf h)
  rw [toClear, List.foldl_append, List.foldl_cons]
  obtain ⟨_, late, clearedLate, insideLate⟩ := foldl_clearRound w after
    (clearRound w (before.foldl (clearRound w) ⟨[], []⟩) pf)
  have notLate : pf ∉ late := fun h => notAfter (insideLate pf h)
  rw [clearedLate, List.mem_append, or_iff_left notLate]
  have texts := texts (hash w pf.bean)
  rw [or_iff_right List.not_mem_nil] at texts
  rw [← texts]
  by_cases known : hash w pf.bean ∈ (before.foldl (clearRound w) ⟨[], []⟩).uniqueProxies
  · rw [clearRound_known known]
    exact iff_of_true (List.mem_append_right _ (List.mem_singleton_self pf)) known
  · rw [clearRound_new known]
    exact iff_of_false notEarly known

/-! ## Only duplicates -/

/-- Every profile on the delete list has an earlier one with its endpoint that stays, and the
first profile of an endpoint stays. -/
structure OnlyDuplicates (profiles cleared : List (StoredProfile L J)) : Prop where
  kept : ∀ before pf after, profiles = before ++ pf :: after → pf ∈ cleared →
    ∃ q ∈ before, q ∉ cleared ∧ endpoint q.bean = endpoint pf.bean
  first : ∀ before pf after, profiles = before ++ pf :: after →
    (∀ q ∈ before, endpoint q.bean ≠ endpoint pf.bean) → pf ∉ cleared

/-- No two profiles with different endpoints have the same text. -/
def TextsTell (w : Words) (profiles : List (StoredProfile L J)) : Prop :=
  ∀ p ∈ profiles, ∀ q ∈ profiles, hash w p.bean = hash w q.bean →
    endpoint p.bean = endpoint q.bean

/-- The first profile with a text stays. -/
theorem exists_first {w : Words} {before after : List (StoredProfile L J)} {pf : StoredProfile L J}
    (once : (before ++ pf :: after).Nodup) (known : hash w pf.bean ∈ before.map (hash w ·.bean)) :
    ∃ q ∈ before, q ∉ toClear w (before ++ pf :: after) ∧ hash w q.bean = hash w pf.bean := by
  obtain ⟨texts, more, split, fresh⟩ := List.eq_append_cons_of_mem known
  obtain ⟨early, rest, rfl, rfl, restTexts⟩ := List.map_eq_append_iff.mp split
  obtain ⟨q, late, rfl, same, rfl⟩ := List.map_eq_cons_iff.mp restTexts
  refine ⟨q, List.mem_append_right _ List.mem_cons_self, ?_, same⟩
  rw [List.append_assoc, List.cons_append] at once ⊢
  rw [mem_toClear once, same]
  exact fresh

theorem onlyDuplicates_iff_textsTell {w : Words} {profiles : List (StoredProfile L J)}
    (once : profiles.Nodup) (stored : ∀ p ∈ profiles, Stored p.bean) :
    OnlyDuplicates profiles (toClear w profiles) ↔ TextsTell w profiles := by
  have text {p : StoredProfile L J} (hp : p ∈ profiles) := hash_stored w (stored p hp)
  constructor
  · intro right
    -- Each profile has the endpoint of the first one with its text.
    have first : ∀ p ∈ profiles, ∃ q ∈ profiles, q ∉ toClear w profiles ∧
        hash w q.bean = hash w p.bean ∧ endpoint q.bean = endpoint p.bean := by
      intro p hp
      by_cases cleared : p ∈ toClear w profiles
      · obtain ⟨before, after, rfl⟩ := List.append_of_mem hp
        obtain ⟨q, hq, stays, same⟩ := right.kept before p after rfl cleared
        have inside := List.mem_append_left (p :: after) hq
        exact ⟨q, inside, stays, by rw [text inside, text hp, same], same⟩
      · exact ⟨p, hp, cleared, rfl, rfl⟩
    -- Only one profile with a text stays.
    have unique : ∀ p ∈ profiles, ∀ q ∈ profiles, p ∉ toClear w profiles →
        q ∉ toClear w profiles → hash w p.bean = hash w q.bean → p = q := by
      intro p hp q hq stays stays' same
      obtain ⟨before, after, rfl⟩ := List.append_of_mem hp
      rw [List.mem_append, List.mem_cons] at hq
      rcases hq with early | rfl | late
      · rw [mem_toClear once] at stays
        exact absurd (same ▸ List.mem_map_of_mem early) stays
      · rfl
      · obtain ⟨middle, tail, rfl⟩ := List.append_of_mem late
        have shape : before ++ p :: (middle ++ q :: tail) =
            (before ++ p :: middle) ++ q :: tail := by simp
        rw [shape] at once stays'
        rw [mem_toClear once, ← same] at stays'
        exact absurd (List.mem_map_of_mem (List.mem_append_right _ List.mem_cons_self)) stays'
    intro p hp q hq same
    obtain ⟨p', hp', staysP, textP, endP⟩ := first p hp
    obtain ⟨q', hq', staysQ, textQ, endQ⟩ := first q hq
    have one := unique p' hp' q' hq' staysP staysQ (by rw [textP, textQ, same])
    rw [← endP, ← endQ, one]
  · intro tell
    have kept : ∀ before pf after, profiles = before ++ pf :: after → pf ∈ toClear w profiles →
        ∃ q ∈ before, q ∉ toClear w profiles ∧ endpoint q.bean = endpoint pf.bean := by
      rintro before pf after rfl cleared
      obtain ⟨q, hq, stays, same⟩ := exists_first once ((mem_toClear once).mp cleared)
      refine ⟨q, hq, stays, ?_⟩
      exact tell q (List.mem_append_left _ hq) pf (List.mem_append_right _ List.mem_cons_self) same
    refine ⟨kept, ?_⟩
    intro before pf after shape apart cleared
    obtain ⟨q, hq, _, same⟩ := kept before pf after shape cleared
    exact apart q hq same

/-- What a group needs for its texts to tell its profiles apart. -/
structure Separable (w : Words) (profiles : List (StoredProfile L J)) : Prop where
  /-- All chains have the same members. -/
  chains : ∀ p ∈ profiles, ∀ q ∈ profiles, ∀ m n,
    endpoint p.bean = .chain m → endpoint q.bean = .chain n → m = n
  /-- No custom config is the text of a profile of another kind. -/
  configs : ∀ p ∈ profiles, ∀ q ∈ profiles, ∀ written,
    endpoint p.bean = .config written → (∀ t, endpoint q.bean ≠ .config t) →
      written ≠ hash w q.bean

theorem textsTell_iff {w : Words} (known : w.chainName ∈ chainNames)
    {profiles : List (StoredProfile L J)} (stored : ∀ p ∈ profiles, Stored p.bean) :
    TextsTell w profiles ↔ Separable w profiles := by
  constructor
  · intro tell
    refine ⟨?_, ?_⟩
    · intro p hp q hq m n chainP chainQ
      have same : hash w p.bean = hash w q.bean := by
        rw [hash_stored w (stored p hp), hash_stored w (stored q hq), chainP, chainQ]
        rfl
      have ends := tell p hp q hq same
      rw [chainP, chainQ] at ends
      exact Endpoint.chain.inj ends
    · intro p hp q hq written config other same
      have texts : hash w p.bean = hash w q.bean := by
        rw [hash_stored w (stored p hp), config]
        exact same
      have ends := tell p hp q hq texts
      rw [config] at ends
      exact other written ends.symm
  · intro separable p hp q hq same
    have texts : (endpoint p.bean).text w = (endpoint q.bean).text w := by
      rw [← hash_stored w (stored p hp), ← hash_stored w (stored q hq), same]
    rcases Endpoint.of_text known texts with ends | ⟨m, n, chainP, chainQ⟩ |
      ⟨written, config, other⟩ | ⟨written, config, other⟩
    · exact ends
    · rw [chainP, chainQ, separable.chains p hp q hq m n chainP chainQ]
    · have text : hash w p.bean = written := by
        rw [hash_stored w (stored p hp), config]
        rfl
      exact absurd (text.symm.trans same) (separable.configs p hp q hq written config other)
    · have text : hash w q.bean = written := by
        rw [hash_stored w (stored q hq), config]
        rfl
      exact absurd (text.symm.trans same.symm) (separable.configs q hq p hp written config other)

/-- The action removes only duplicates of a group exactly if the chains of the group have the
same members and no custom config is the text of a profile of another kind. -/
theorem removes_only_duplicates_iff {w : Words} (known : w.chainName ∈ chainNames)
    {s : Store (FullBean (beanLayout L J))} {groupId : Int}
    (stored : ∀ p ∈ s.getByGroup groupId, Stored p.bean) :
    OnlyDuplicates (s.getByGroup groupId) (toClear w (s.getByGroup groupId)) ↔
      Separable w (s.getByGroup groupId) := by
  rw [onlyDuplicates_iff_textsTell (s.getByGroup_nodup groupId) stored]
  exact textsTell_iff known stored

/-! Two chains with different members in one group, and the same node twice. -/

def sampleWords : Words := ⟨"Proxy Chain", fun _ => "sing-box config"⟩

def sampleChain (proxies : List Int) : FullBean (beanLayout .ascii emptyObjects) where
  kind := .chain
  fields := (⟨"127.0.0.1", 1080, proxies⟩ : ChainBean.Fields)
  name := ""
  customOutboundJson := ""
  customConfigJson := ""

def sampleConfig (config : String) : FullBean (beanLayout .ascii emptyObjects) where
  kind := .config
  fields := (⟨"127.0.0.1", 1080, 0, config⟩ : ConfigBean.Fields)
  name := ""
  customOutboundJson := ""
  customConfigJson := ""

theorem sampleChain_stored (proxies : List Int) : Stored (sampleChain proxies) :=
  ⟨sampleChain proxies, rfl⟩

theorem sampleConfig_stored (config : String) : Stored (sampleConfig config) := by
  have address : V2Ray.defaultAddress (some "127.0.0.1") = "127.0.0.1" := by decide
  refine ⟨sampleConfig config, ?_⟩
  change _ = ({ sampleConfig config with
    fields := (⟨V2Ray.defaultAddress (some "127.0.0.1"), 1080, 0, config⟩ : ConfigBean.Fields) } :
    FullBean (beanLayout .ascii emptyObjects))
  rw [address]
  rfl

/-- Two profiles of group 7. -/
def samplePair (a b : FullBean (beanLayout .ascii emptyObjects)) :
    Store (FullBean (beanLayout .ascii emptyObjects)) where
  proxies := {
    rows := [.fresh 1 7 1 a, .fresh 2 7 2 b]
    unique := (by decide : ([1, 2] : List Int).Nodup)
    sequence := 2
    bounded := by simp [ProxyEntity.fresh] }
  groups := .empty

theorem samplePair_rows (a b : FullBean (beanLayout .ascii emptyObjects)) :
    (samplePair a b).getByGroup 7 = [.fresh 1 7 1 a, .fresh 2 7 2 b] := rfl

theorem samplePair_stored {a b : FullBean (beanLayout .ascii emptyObjects)} (storedA : Stored a)
    (storedB : Stored b) : ∀ p ∈ (samplePair a b).getByGroup 7, Stored p.bean := by
  intro p hp
  rw [samplePair_rows, List.mem_cons, List.mem_singleton] at hp
  rcases hp with rfl | rfl
  · exact storedA
  · exact storedB

theorem second_chain_cleared :
    (∀ p ∈ (samplePair (sampleChain [1, 2]) (sampleChain [3])).getByGroup 7, Stored p.bean) ∧
    ¬ OnlyDuplicates ((samplePair (sampleChain [1, 2]) (sampleChain [3])).getByGroup 7)
      (toClear sampleWords ((samplePair (sampleChain [1, 2]) (sampleChain [3])).getByGroup 7)) := by
  refine ⟨samplePair_stored (sampleChain_stored _) (sampleChain_stored _), ?_⟩
  intro right
  have once := (samplePair (sampleChain [1, 2]) (sampleChain [3])).getByGroup_nodup 7
  rw [samplePair_rows] at once right
  have known : hash sampleWords (sampleChain [3]) ∈
      [hash sampleWords (sampleChain [1, 2])] := List.mem_singleton.mpr rfl
  have cleared : .fresh 2 7 2 (sampleChain [3]) ∈ toClear sampleWords
      ([.fresh 1 7 1 (sampleChain [1, 2])] ++ .fresh 2 7 2 (sampleChain [3]) :: []) :=
    (mem_toClear once).mpr known
  obtain ⟨q, hq, _, same⟩ := right.kept [.fresh 1 7 1 (sampleChain [1, 2])] _ [] rfl cleared
  rw [List.mem_singleton.mp hq] at same
  revert same
  decide

theorem same_config_cleared : OnlyDuplicates
    ((samplePair (sampleConfig "c") (sampleConfig "c")).getByGroup 7)
    (toClear sampleWords ((samplePair (sampleConfig "c") (sampleConfig "c")).getByGroup 7)) := by
  apply (removes_only_duplicates_iff (by decide)
    (samplePair_stored (sampleConfig_stored "c") (sampleConfig_stored "c"))).mpr
  have configs : ∀ p ∈ (samplePair (sampleConfig "c") (sampleConfig "c")).getByGroup 7,
      endpoint p.bean = .config "c" := by
    intro p hp
    rw [samplePair_rows, List.mem_cons, List.mem_singleton] at hp
    rcases hp with rfl | rfl <;> rfl
  refine ⟨?_, ?_⟩
  · intro p hp q hq m n chain
    rw [configs p hp] at chain
    cases chain
  · intro p hp q hq written _ other
    exact absurd (configs q hq) (other "c")

end QuinMo.Profiles
