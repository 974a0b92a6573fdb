import QuinMo.Lib.LinkedMap
import QuinMo.Subscription.ClashNode

/-!
# Clash nodes with their keys in another order

In another order of the keys, of the option maps and of their headers the node is accepted alike,
and the keys make the same assignments.
-/

namespace QuinMo.Subscription.Clash

open Text Net V2Ray Assign LinkedMap

def optionMaps : List String :=
  ["reality-opts", "ws-opts", "h2-opts", "http-opts", "grpc-opts", "smux", "ech-opts"]

def transportMaps : List String := ["ws-opts", "h2-opts", "http-opts", "grpc-opts"]

/-- Keys are distinct, there is one server name, and there are the options of one transport. -/
structure Valid (proxy : Mapping) : Prop where
  keys : (proxy.map (·.1)).Nodup
  options : ∀ key ∈ optionMaps, ∀ entries, (key, .map entries) ∈ proxy →
    (entries.map (·.1)).Nodup
  oneName : ∀ name name', ("sni", name) ∈ proxy → ("servername", name') ∉ proxy
  oneTransport : ∀ opt ∈ proxy, ∀ opt' ∈ proxy, opt.1 ∈ transportMaps → opt'.1 ∈ transportMaps →
    opt.1 = opt'.1

/-- An entry of an option map with its headers in another order. -/
inductive EntryReordered : String × Yaml → String × Yaml → Prop
  | same (entry : String × Yaml) : EntryReordered entry entry
  | headers {headers headers' : Mapping} (perm : headers.Perm headers') :
      EntryReordered ("headers", .map headers) ("headers", .map headers')

/-- A key of a node with its options in another order. -/
inductive OptReordered : String × Yaml → String × Yaml → Prop
  | same (opt : String × Yaml) : OptReordered opt opt
  | options {key : String} {entries between entries' : Mapping} (known : key ∈ optionMaps)
      (inside : List.Forall₂ EntryReordered entries between) (perm : between.Perm entries') :
      OptReordered (key, .map entries) (key, .map entries')

def Reordered (proxy proxy' : Mapping) : Prop :=
  ∃ between, List.Forall₂ OptReordered proxy between ∧ between.Perm proxy'

variable {α : Type} {R : α → α → Prop}

theorem forall₂_refl (refl : ∀ a, R a a) (as : List α) : List.Forall₂ R as as :=
  List.forall₂_same.mpr fun a _ => refl a

theorem Reordered.of_perm {proxy proxy' : Mapping} (perm : proxy.Perm proxy') :
    Reordered proxy proxy' :=
  ⟨proxy, forall₂_refl .same proxy, perm⟩

variable {opt : String × Yaml}

theorem OptReordered.key {opt' : String × Yaml} (h : OptReordered opt opt') : opt'.1 = opt.1 := by
  cases h with
  | same => rfl
  | options => rfl

theorem map_eq_of_forall₂ {β : Type} {g : α → β} {as bs : List α}
    (related : List.Forall₂ R as bs) (keeps : ∀ a b, R a b → g b = g a) : bs.map g = as.map g := by
  induction related with
  | nil => rfl
  | cons head _ ih => rw [List.map_cons, List.map_cons, keeps _ _ head, ih]

theorem flatMap_perm_of_forall₂ {β : Type} {g : α → List β} {as bs : List α}
    (related : List.Forall₂ R as bs) (keeps : ∀ a b, R a b → (g a).Perm (g b)) :
    (as.flatMap g).Perm (bs.flatMap g) := by
  induction related with
  | nil => rfl
  | cons head _ ih =>
    rw [List.flatMap_cons, List.flatMap_cons]
    exact (keeps _ _ head).append ih

theorem any_eq_of_forall₂ {g : α → Bool} {as bs cs : List α} (related : List.Forall₂ R as bs)
    (perm : bs.Perm cs) (keeps : ∀ a b, R a b → g b = g a) : cs.any g = as.any g := by
  rw [← perm.any_eq]
  clear perm
  induction related with
  | nil => rfl
  | cons head _ ih => rw [List.any_cons, List.any_cons, keeps _ _ head, ih]

variable {value : Yaml}

section
variable {proxy proxy' : Mapping} (h : Reordered proxy proxy')

include h

theorem Reordered.keys : (proxy.map (·.1)).Perm (proxy'.map (·.1)) := by
  obtain ⟨between, inside, perm⟩ := h
  rw [← map_eq_of_forall₂ inside fun _ _ related => related.key]
  exact perm.map _

/-- A key that is no option map has its value still. -/
theorem Reordered.mem {key : String} (plain : key ∉ optionMaps) :
    (key, value) ∈ proxy ↔ (key, value) ∈ proxy' := by
  obtain ⟨between, inside, perm⟩ := h
  rw [← perm.mem_iff]
  clear perm
  induction inside with
  | nil => rfl
  | @cons opt opt' _ _ head _ ih =>
    rw [List.mem_cons, List.mem_cons, ih]
    cases head with
    | same => rfl
    | @options other _ _ _ known =>
      have other : ∀ entries, (key, value) ≠ (other, Yaml.map entries) := by
        rintro entries ⟨⟩
        exact plain known
      simp [other]

theorem Reordered.lookup (distinct : (proxy.map (·.1)).Nodup) {key : String}
    (plain : key ∉ optionMaps) : proxy'.lookup key = proxy.lookup key := by
  have distinct' := h.keys.nodup_iff.mp distinct
  apply Option.ext
  intro value
  rw [← mem_iff_lookup distinct, ← mem_iff_lookup distinct', h.mem plain]

end

variable {branch : String × Yaml → List Assignment}

theorem mem_optionMap {a : Assignment} :
    a ∈ optionMap branch value ↔ ∃ entries, value = .map entries ∧ ∃ e ∈ entries, a ∈ branch e := by
  cases value with
  | map entries => simp [optionMap]
  | _ => simp [optionMap]

/-- What a branch makes of headers does not depend on their order. -/
def HeaderFree (branch : String × Yaml → List Assignment) : Prop :=
  ∀ headers headers' : Mapping, headers.Perm headers' →
    (branch ("headers", .map headers)).Perm (branch ("headers", .map headers'))

theorem optionMap_perm (free : HeaderFree branch) {entries between entries' : Mapping}
    (inside : List.Forall₂ EntryReordered entries between) (perm : between.Perm entries') :
    (optionMap branch (.map entries)).Perm (optionMap branch (.map entries')) := by
  refine (flatMap_perm_of_forall₂ inside ?_).trans (perm.flatMap_right branch)
  intro entry entry' related
  cases related with
  | same => rfl
  | headers perm => exact free _ _ perm

section
variable (L : LowerCase)

theorem wsOpt_headerFree : HeaderFree (wsOpt L) := fun _ _ perm => perm.flatMap_right _

theorem httpOpt_headerFree : HeaderFree (httpOpt L) := fun _ _ perm => perm.flatMap_right _

theorem assigned_perm {opt' : String × Yaml} (h : OptReordered opt opt') (type : NodeType)
    (vless : Bool) : (assigned L type vless opt).Perm (assigned L type vless opt') := by
  cases h with
  | same => rfl
  | @options key entries between entries' known inside perm =>
    simp only [optionMaps, List.mem_cons, List.not_mem_nil, or_false] at known
    rcases known with rfl | rfl | rfl | rfl | rfl | rfl | rfl
    · exact optionMap_perm (fun _ _ _ => .refl _) inside perm
    · exact optionMap_perm (wsOpt_headerFree L) inside perm
    · exact optionMap_perm (fun _ _ _ => .refl _) inside perm
    · exact optionMap_perm (httpOpt_headerFree L) inside perm
    · exact optionMap_perm (fun _ _ _ => .refl _) inside perm
    · exact optionMap_perm (fun _ _ _ => .refl _) inside perm
    · exact optionMap_perm (fun _ _ _ => .refl _) inside perm

theorem Reordered.assigned {proxy proxy' : Mapping} (h : Reordered proxy proxy') (type : NodeType)
    (vless : Bool) :
    (proxy.flatMap (assigned L type vless)).Perm (proxy'.flatMap (assigned L type vless)) := by
  obtain ⟨between, inside, perm⟩ := h
  refine (flatMap_perm_of_forall₂ inside ?_).trans (perm.flatMap_right _)
  exact fun _ _ related => assigned_perm L related type vless

end

theorem throws_eq {opt' : String × Yaml} (h : OptReordered opt opt') :
    throws opt' = throws opt := by
  cases h with
  | same => rfl
  | @options key entries between entries' known inside perm =>
    have inner : ∀ entry entry', EntryReordered entry entry' →
        smuxThrows entry' = smuxThrows entry := by
      intro entry entry' related
      cases related with
      | same => rfl
      | headers => rfl
    have options := any_eq_of_forall₂ inside perm inner
    simp only [optionMaps, List.mem_cons, List.not_mem_nil, or_false] at known
    rcases known with rfl | rfl | rfl | rfl | rfl | rfl | rfl
    any_goals rfl
    exact options

theorem Reordered.throws {proxy proxy' : Mapping} (h : Reordered proxy proxy') :
    proxy'.any Clash.throws = proxy.any Clash.throws := by
  obtain ⟨between, inside, perm⟩ := h
  exact any_eq_of_forall₂ inside perm fun _ _ related => throws_eq related

/-- The node has a server and a port, and no branch throws. -/
def Accepted (proxy : Mapping) : Prop :=
  (serverOf proxy).isSome = true ∧ (portOf proxy).isSome = true ∧ proxy.any throws = false

theorem Reordered.accepted {proxy proxy' : Mapping} (h : Reordered proxy proxy')
    (distinct : (proxy.map (·.1)).Nodup) :
    serverOf proxy' = serverOf proxy ∧ portOf proxy' = portOf proxy ∧
      (Accepted proxy' ↔ Accepted proxy) := by
  have server : serverOf proxy' = serverOf proxy := by
    rw [serverOf, serverOf, h.lookup distinct (by decide)]
  have port : portOf proxy' = portOf proxy := by
    rw [portOf, portOf, h.lookup distinct (by decide)]
  refine ⟨server, port, ?_⟩
  rw [Accepted, Accepted, server, port, h.throws]

section
variable (L : LowerCase) (type : NodeType)

/-- The bean after all keys. -/
def fill (bean : Draft) (opts : Mapping) : Draft :=
  opts.foldl (fun bean opt => assignAll bean (assigned L type (isVLESS bean) opt)) bean

theorem importOpts_eq (bean : Draft) (opts : Mapping) :
    importOpts L type bean opts = if opts.any throws then none else some
      (fill L type bean opts) := by
  induction opts generalizing bean with
  | nil => rfl
  | cons opt opts ih =>
    rw [importOpts, ih, List.any_cons]
    cases throws opt with
    | true => rfl
    | false => rfl

variable (globalClientFingerprint : String)

theorem importNode_eq {proxy : Mapping} {server : String} {port : Int}
    (given : serverOf proxy = some server) (given' : portOf proxy = some port)
    (calm : proxy.any throws = false) : importNode L type globalClientFingerprint proxy =
      some ((parsed type globalClientFingerprint server port
        (fill L type (newBean type) proxy)).bean L) := by
  simp [importNode, given, given', importOpts_eq, calm]

theorem importNode_none {proxy : Mapping} (rejected : ¬ Accepted proxy) :
    importNode L type globalClientFingerprint proxy = none := by
  cases server : serverOf proxy with
  | none => simp [importNode, server]
  | some s =>
    cases port : portOf proxy with
    | none => simp [importNode, server, port]
    | some p =>
      have thrown : proxy.any throws = true := by
        by_contra calm
        exact rejected ⟨by rw [server]; rfl, by rw [port]; rfl, by simpa using calm⟩
      rw [importNode, server, port, importOpts_eq, thrown]
      rfl

end

/-! ## What the defaults make equal -/

def notBlank : Option String → Option String
  | none => none
  | some s => if isBlank s then none else some s

/-- A value as the defaults see it. -/
def view : (f : Field) → f.Value → f.Value
  | .host, v => notBlank v
  | .security, v => notBlank v
  | .type, v => notBlank v
  | .encryption, v => notBlank v
  | .name, v | .password, v | .uuid, v | .sni, v | .alpn, v | .utlsFingerprint, v
  | .realityPubKey, v | .realityShortId, v | .path, v | .earlyDataHeaderName, v
  | .echConfig, v => v
  | .alterId, v | .packetEncoding, v | .wsMaxEarlyData, v | .muxConcurrency, v => v
  | .allowInsecure, v | .enableMux, v | .muxPadding, v | .enableECH, v => v

theorem ifNullOrBlank_notBlank (s : Option String) (missing : String) :
    ifNullOrBlank (notBlank s) missing = ifNullOrBlank s missing := by
  cases s with
  | none => rfl
  | some s => cases blank : isBlank s <;> simp [notBlank, ifNullOrBlank, blank]

theorem defaultType_notBlank (L : LowerCase) (type : Option String) :
    defaultType L (notBlank type) = defaultType L type := by
  cases type with
  | none => rfl
  | some t => cases blank : isBlank t <;> simp [notBlank, defaultType, blank]

theorem defaultSecurity_notBlank (ofClass : V2Ray.Class) (security : Option String) :
    defaultSecurity ofClass (notBlank security) = defaultSecurity ofClass security := by
  cases ofClass <;> simp [defaultSecurity, ifNullOrBlank_notBlank]

section
variable (L : LowerCase) (type : NodeType) (globalClientFingerprint server : String) (port : Int)

/-- Of a Trojan node nothing reads the encryption, and no key assigns it. -/
theorem bean_congr {bean bean' : Draft} (same : ∀ f, view f (bean f) = view f (bean' f))
    (trojan : type = .trojan → bean .encryption = bean' .encryption) :
    (parsed type globalClientFingerprint server port bean).bean L =
      (parsed type globalClientFingerprint server port bean').bean L := by
  have plain : ∀ f, f ≠ .host → f ≠ .security → f ≠ .type → f ≠ .encryption →
      bean f = bean' f := by
    intro f
    have at_f := same f
    cases f <;> simp [view] at at_f ⊢ <;> exact at_f
  have ofClass : classOf type bean = classOf type bean' := by
    have alterId : bean .alterId = bean' .alterId := same .alterId
    have password : bean .password = bean' .password := same .password
    cases type <;> simp only [classOf, alterId, password]
  have encryption : defaultEncryption (defaultClass (classOf type bean')) (bean .encryption) =
      defaultEncryption (defaultClass (classOf type bean')) (bean' .encryption) := by
    have flow : notBlank (bean .encryption) = notBlank (bean' .encryption) := same .encryption
    cases type with
    | trojan => rw [trojan rfl]
    | _ =>
      simp only [classOf, defaultClass, defaultEncryption]
      rw [← ifNullOrBlank_notBlank, flow, ifNullOrBlank_notBlank]
  have security : defaultSecurity (defaultClass (classOf type bean')) (bean .security) =
      defaultSecurity (defaultClass (classOf type bean')) (bean' .security) := by
    have secured : notBlank (bean .security) = notBlank (bean' .security) := same .security
    rw [← defaultSecurity_notBlank, secured, defaultSecurity_notBlank]
  have transport : defaultType L (bean .type) = defaultType L (bean' .type) := by
    have named : notBlank (bean .type) = notBlank (bean' .type) := same .type
    rw [← defaultType_notBlank, named, defaultType_notBlank]
  have host : ifNullOrBlank (bean .host) "" = ifNullOrBlank (bean' .host) "" := by
    have hosted : notBlank (bean .host) = notBlank (bean' .host) := same .host
    rw [← ifNullOrBlank_notBlank, hosted, ifNullOrBlank_notBlank]
  have defaults :
      initializeDefaultValues L (parsed type globalClientFingerprint server port bean).raw =
        initializeDefaultValues L (parsed type globalClientFingerprint server port bean').raw := by
    simp only [initializeDefaultValues, parsed, ofClass]
    simp only [encryption, security, transport, host, plain .uuid, plain .path,
      plain .wsMaxEarlyData, plain .earlyDataHeaderName, plain .sni, plain .alpn,
      plain .allowInsecure, plain .utlsFingerprint, plain .realityPubKey, plain .realityShortId,
      plain .enableECH, plain .echConfig, plain .packetEncoding, plain .enableMux,
      plain .muxPadding, plain .muxConcurrency, ne_eq, reduceCtorEq, not_false_eq_true]
  have name : bean .name = bean' .name := same .name
  simp only [ParsedNode.bean, ParsedNode.content, defaults]
  simp only [parsed, name]

end

/-- The keys that may assign a field. -/
def writers : Field → List String
  | .name => ["name"]
  | .password => ["password"]
  | .uuid => ["uuid"]
  | .alterId => ["alterId"]
  | .encryption => ["cipher", "flow"]
  | .packetEncoding => ["packet-encoding"]
  | .security => ["tls", "reality-opts"]
  | .sni => ["servername", "sni"]
  | .alpn => ["alpn"]
  | .allowInsecure => ["skip-cert-verify"]
  | .utlsFingerprint => ["client-fingerprint"]
  | .realityPubKey | .realityShortId => ["reality-opts"]
  | .type => ["network", "ws-opts"]
  | .host => ["ws-opts", "h2-opts", "http-opts"]
  | .path => transportMaps
  | .wsMaxEarlyData | .earlyDataHeaderName => ["ws-opts"]
  | .enableMux | .muxConcurrency | .muxPadding => ["smux"]
  | .enableECH | .echConfig => ["ech-opts"]

/-- The keys inside an option map that assign a field, for each of the maps. -/
def realityKey : Field → String
  | .realityPubKey => "public-key"
  | _ => "short-id"

def wsKey : Field → String
  | .host => "headers"
  | .path => "path"
  | .wsMaxEarlyData => "max-early-data"
  | .earlyDataHeaderName => "early-data-header-name"
  | _ => "v2ray-http-upgrade"

def h2Key : Field → String
  | .host => "host"
  | _ => "path"

def httpKey : Field → String
  | .host => "headers"
  | _ => "path"

def smuxKey : Field → String
  | .enableMux => "enabled"
  | .muxConcurrency => "max-streams"
  | _ => "padding"

def echKey : Field → String
  | .enableECH => "enable"
  | _ => "config"

theorem mem_hostHeaders {L : LowerCase} {host : Yaml → Option String} {a : Assignment}
    (h : a ∈ optionMap (hostHeader L host) value) :
    ∃ headers, value = .map headers ∧
      ∃ e ∈ headers, L.lower e.1 = "host" ∧ a = ⟨.host, host e.2⟩ := by
  obtain ⟨headers, rfl, ⟨key, value⟩, mem, own⟩ := mem_optionMap.mp h
  refine ⟨headers, rfl, _, mem, ?_⟩
  simp only [hostHeader] at own
  split at own
  · exact ⟨‹_›, List.mem_singleton.mp own⟩
  · cases own

section
variable {L : LowerCase} {a : Assignment} {e : String × Yaml}

theorem realityOpt_spec (h : a ∈ realityOpt e) : a = ⟨.security, some "tls"⟩ ∨
    (a.1 = .realityPubKey ∨ a.1 = .realityShortId) ∧ e.1 = realityKey a.1 := by
  obtain ⟨key, value⟩ := e
  rcases List.mem_cons.mp h with rfl | own
  · exact .inl rfl
  · right
    split at own
    · rw [List.mem_singleton.mp own]
      exact ⟨.inl rfl, rfl⟩
    · rw [List.mem_singleton.mp own]
      exact ⟨.inr rfl, rfl⟩
    · cases own

theorem wsOpt_spec (h : a ∈ wsOpt L e) : "ws-opts" ∈ writers a.1 ∧ e.1 = wsKey a.1 := by
  obtain ⟨key, value⟩ := e
  unfold wsOpt at h
  dsimp only at h
  split at h
  · obtain ⟨_, _, _, _, _, rfl⟩ := mem_hostHeaders h
    exact ⟨by simp [writers], rfl⟩
  · rw [List.mem_singleton.mp h]
    exact ⟨by simp [writers, transportMaps], rfl⟩
  · rw [List.mem_singleton.mp h]
    exact ⟨by simp [writers], rfl⟩
  · rw [List.mem_singleton.mp h]
    exact ⟨by simp [writers], rfl⟩
  · split at h
    · rw [List.mem_singleton.mp h]
      exact ⟨by simp [writers], rfl⟩
    · cases h
  · cases h

theorem h2Opt_spec (h : a ∈ h2Opt e) : "h2-opts" ∈ writers a.1 ∧ e.1 = h2Key a.1 := by
  obtain ⟨key, value⟩ := e
  unfold h2Opt at h
  dsimp only at h
  split at h
  · rw [List.mem_singleton.mp h]
    exact ⟨by simp [writers], rfl⟩
  · rw [List.mem_singleton.mp h]
    exact ⟨by simp [writers, transportMaps], rfl⟩
  · cases h

theorem httpOpt_spec (h : a ∈ httpOpt L e) : "http-opts" ∈ writers a.1 ∧ e.1 = httpKey a.1 := by
  obtain ⟨key, value⟩ := e
  unfold httpOpt at h
  dsimp only at h
  split at h
  · rw [List.mem_singleton.mp h]
    exact ⟨by simp [writers, transportMaps], rfl⟩
  · obtain ⟨_, _, _, _, _, rfl⟩ := mem_hostHeaders h
    exact ⟨by simp [writers], rfl⟩
  · cases h

theorem grpcOpt_spec (h : a ∈ grpcOpt e) :
    "grpc-opts" ∈ writers a.1 ∧ e.1 = "grpc-service-name" := by
  obtain ⟨key, value⟩ := e
  unfold grpcOpt at h
  dsimp only at h
  split at h
  · rw [List.mem_singleton.mp h]
    exact ⟨by simp [writers, transportMaps], rfl⟩
  · cases h

theorem smuxOpt_spec (h : a ∈ smuxOpt e) : "smux" ∈ writers a.1 ∧ e.1 = smuxKey a.1 := by
  obtain ⟨key, value⟩ := e
  unfold smuxOpt at h
  dsimp only at h
  split at h
  · rw [List.mem_singleton.mp h]
    exact ⟨by simp [writers], rfl⟩
  · rw [List.mem_singleton.mp h]
    exact ⟨by simp [writers], rfl⟩
  · rw [List.mem_singleton.mp h]
    exact ⟨by simp [writers], rfl⟩
  · cases h

theorem echOpt_spec (h : a ∈ echOpt e) : "ech-opts" ∈ writers a.1 ∧ e.1 = echKey a.1 := by
  obtain ⟨key, value⟩ := e
  unfold echOpt at h
  dsimp only at h
  split at h
  · rw [List.mem_singleton.mp h]
    exact ⟨by simp [writers], rfl⟩
  · rw [List.mem_singleton.mp h]
    exact ⟨by simp [writers], rfl⟩
  · cases h

end

section
variable {L : LowerCase} {type : NodeType} {vless : Bool}

/-- A key in an option map has its assignments from the entries. -/
theorem writer_of_optionMap {key : String} (spec : ∀ a e, a ∈ branch e → key ∈ writers a.1)
    {a : Assignment} (h : a ∈ optionMap branch value) : key ∈ writers a.1 := by
  obtain ⟨_, _, e, _, own⟩ := mem_optionMap.mp h
  exact spec a e own

theorem key_of_assigned {a : Assignment} (h : a ∈ assigned L type vless opt) :
    opt.1 ∈ writers a.1 := by
  obtain ⟨key, value⟩ := opt
  unfold assigned at h
  dsimp only at h
  split at h
  case h_14 =>
    refine writer_of_optionMap ?_ h
    intro a e own
    rcases realityOpt_spec own with rfl | ⟨same | same, _⟩
    · simp [writers]
    · simp [writers, same]
    · simp [writers, same]
  case h_15 =>
    obtain ⟨name, _, rfl⟩ := List.mem_map.mp h
    simp [writers]
  case h_16 => exact writer_of_optionMap (fun _ _ own => (wsOpt_spec own).1) h
  case h_17 => exact writer_of_optionMap (fun _ _ own => (h2Opt_spec own).1) h
  case h_18 => exact writer_of_optionMap (fun _ _ own => (httpOpt_spec own).1) h
  case h_19 => exact writer_of_optionMap (fun _ _ own => (grpcOpt_spec own).1) h
  case h_20 => exact writer_of_optionMap (fun _ _ own => (smuxOpt_spec own).1) h
  case h_21 => exact writer_of_optionMap (fun _ _ own => (echOpt_spec own).1) h
  -- the other keys assign at most one field
  all_goals
    try split at h
    all_goals simp only [List.mem_singleton, List.not_mem_nil] at h
    all_goals rw [h]
    all_goals simp [writers]

end

end QuinMo.Subscription.Clash
