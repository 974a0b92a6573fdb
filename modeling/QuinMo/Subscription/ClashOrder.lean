import QuinMo.Subscription.ClashReorder

/-!
# The order of the keys of a Clash node

A field that several keys assign is left with what the last one gave it. This shows when TLS is
switched off beside REALITY options, a transport is named beside the upgrade of WebSocket, a VMess
node is made VLESS by its alter id, or headers spell the host in several ways.
-/

namespace QuinMo.Subscription.Clash

open Text Net V2Ray Assign LinkedMap

/-- The number of an alter id. -/
def alterIdOf (value : Yaml) : Option Int := value.textOrNull.bind toIntOrNull

inductive OrderMatters (L : LowerCase) (type : NodeType) (proxy : Mapping) : Prop
  /-- TLS is not switched on, and the options of REALITY need it. -/
  | security (vmess : type ≠ .trojan) (tls : Yaml) (listed : ("tls", tls) ∈ proxy)
      (off : tls.isTrue = false) (opt : String × Yaml) (opts : Mapping)
      (reality : ("reality-opts", .map (opt :: opts)) ∈ proxy)
  /-- The transport is named, and the options of WebSocket make it an HTTP upgrade. -/
  | transport (network : Yaml) (listed : ("network", network) ∈ proxy)
      (named : (networkType network).isSome = true) (entries : Mapping)
      (ws : ("ws-opts", .map entries) ∈ proxy) (upgrade : Yaml)
      (inside : ("v2ray-http-upgrade", upgrade) ∈ entries) (on : upgrade.isTrue = true)
  /-- The alter id makes a VMess node VLESS, for which only a flow counts, ... -/
  | flow (vmess : type = .vmess) (alterId : Yaml) (listed : ("alterId", alterId) ∈ proxy)
      (minusOne : alterIdOf alterId = some (-1)) (flow : Yaml) (given : ("flow", flow) ∈ proxy)
      (vision : hasVision flow = true)
  /-- ... and only before it a cipher. -/
  | cipher (vmess : type = .vmess) (alterId : Yaml) (listed : ("alterId", alterId) ∈ proxy)
      (minusOne : alterIdOf alterId = some (-1)) (cipher : Yaml)
      (given : ("cipher", cipher) ∈ proxy) (named : notBlank cipher.asString ≠ none)
  /-- Two headers that are the host up to case have different values. -/
  | wsHost (entries headers : Mapping) (ws : ("ws-opts", .map entries) ∈ proxy)
      (inside : ("headers", .map headers) ∈ entries) (header header' : String × Yaml)
      (listed : header ∈ headers) (listed' : header' ∈ headers)
      (host : L.lower header.1 = "host") (host' : L.lower header'.1 = "host")
      (differ : notBlank header.2.textOrNull ≠ notBlank header'.2.textOrNull)
  | httpHost (entries headers : Mapping) (http : ("http-opts", .map entries) ∈ proxy)
      (inside : ("headers", .map headers) ∈ entries) (header header' : String × Yaml)
      (listed : header ∈ headers) (listed' : header' ∈ headers)
      (host : L.lower header.1 = "host") (host' : L.lower header'.1 = "host")
      (differ : notBlank (Clash.httpHost header.2) ≠ notBlank (Clash.httpHost header'.2))

variable {key : String}

section
variable {L : LowerCase} {type : NodeType} {vless : Bool} {value : Yaml}

variable {v : Option String}

theorem security_of_assigned (h : ⟨.security, v⟩ ∈ assigned L type vless (key, value)) :
    (key = "tls" ∧ type ≠ .trojan ∧ v = some (if value.isTrue then "tls" else "")) ∨
      (key = "reality-opts" ∧ v = some "tls" ∧ ∃ opt opts, value = .map (opt :: opts)) := by
  have own := key_of_assigned h
  simp only [writers, List.mem_cons, List.not_mem_nil, or_false] at own
  rcases own with rfl | rfl
  · left
    simp only [assigned] at h
    split at h
    · cases List.mem_singleton.mp h
      exact ⟨rfl, ‹_›, rfl⟩
    · cases h
  · right
    obtain ⟨entries, rfl, e, mem, own⟩ := mem_optionMap.mp h
    obtain ⟨opt, opts, rfl⟩ := List.exists_cons_of_ne_nil (List.ne_nil_of_mem mem)
    rcases realityOpt_spec own with same | ⟨same | same, _⟩
    · cases same
      exact ⟨rfl, rfl, opt, opts, rfl⟩
    · cases same
    · cases same

theorem type_of_assigned (h : ⟨.type, v⟩ ∈ assigned L type vless (key, value)) :
    (key = "network" ∧ (networkType value).isSome = true ∧ v = networkType value) ∨
      (key = "ws-opts" ∧ v = some "httpupgrade" ∧ ∃ entries upgrade, value = .map entries ∧
        ("v2ray-http-upgrade", upgrade) ∈ entries ∧ upgrade.isTrue = true) := by
  have own := key_of_assigned h
  simp only [writers, List.mem_cons, List.not_mem_nil, or_false] at own
  rcases own with rfl | rfl
  · left
    obtain ⟨name, mem, same⟩ := List.mem_map.mp h
    cases same
    rw [Option.mem_toList] at mem
    exact ⟨rfl, Option.isSome_of_mem mem, mem.symm⟩
  · right
    obtain ⟨entries, rfl, ⟨key, upgrade⟩, mem, own⟩ := mem_optionMap.mp h
    obtain rfl : key = "v2ray-http-upgrade" := (wsOpt_spec own).2
    simp only [wsOpt] at own
    split at own
    · cases List.mem_singleton.mp own
      exact ⟨rfl, rfl, entries, upgrade, rfl, mem, ‹_›⟩
    · cases own

theorem encryption_of_assigned (h : ⟨.encryption, v⟩ ∈ assigned L type vless (key, value)) :
    type ≠ .trojan ∧ ((key = "cipher" ∧ vless = false ∧ v = value.asString) ∨
      (key = "flow" ∧ vless = true ∧ hasVision value = true ∧ v = some FLOW_VISION)) := by
  have own := key_of_assigned h
  simp only [writers, List.mem_cons, List.not_mem_nil, or_false] at own
  rcases own with rfl | rfl
  · simp only [assigned] at h
    split at h
    · rename_i guard
      cases List.mem_singleton.mp h
      exact ⟨guard.1, .inl ⟨rfl, guard.2, rfl⟩⟩
    · cases h
  · simp only [assigned] at h
    split at h
    · rename_i guard
      cases List.mem_singleton.mp h
      exact ⟨guard.1, .inr ⟨rfl, guard.2.1, guard.2.2, rfl⟩⟩
    · cases h

end

variable {f : Field}

theorem agree_of_length {as : List Assignment} (short : as.length ≤ 1) : Agree (view f) as := by
  intro v v' mem mem'
  match as, short with
  | [a], _ =>
    have same := (List.mem_singleton.mp mem).trans (List.mem_singleton.mp mem').symm
    cases same
    rfl

/-- In a map with distinct keys a field that one key assigns is assigned by one entry. -/
theorem optionMap_agree {branch : String × Yaml → List Assignment} (key : String) {value : Yaml}
    (spec : ∀ v e, ⟨f, v⟩ ∈ branch e → e.1 = key)
    (distinct : ∀ entries, value = .map entries → (entries.map (·.1)).Nodup)
    (within : ∀ entries, value = .map entries → ∀ e ∈ entries, Agree (view f) (branch e)) :
    Agree (view f) (optionMap branch value) := by
  intro v v' h h'
  obtain ⟨entries, rfl, e, mem, own⟩ := mem_optionMap.mp h
  obtain ⟨_, ⟨rfl⟩, e', mem', own'⟩ := mem_optionMap.mp h'
  obtain rfl : e = e' := List.inj_on_of_nodup_map (distinct entries rfl) mem mem'
    ((spec _ _ own).trans (spec _ _ own').symm)
  exact within entries rfl e mem v v' own own'

/-- Headers agree on the host unless two of them are the host and differ. -/
theorem hostHeaders_agree {L : LowerCase} {host : Yaml → Option String} {value : Yaml}
    (same : ∀ headers, value = .map headers → ∀ h ∈ headers, ∀ h' ∈ headers, L.lower h.1 = "host" →
      L.lower h'.1 = "host" → notBlank (host h.2) = notBlank (host h'.2)) :
    Agree (view f) (optionMap (hostHeader L host) value) := by
  intro v v' own own'
  obtain ⟨headers, rfl, h, mem, named, eq⟩ := mem_hostHeaders own
  obtain ⟨_, ⟨rfl⟩, h', mem', named', eq'⟩ := mem_hostHeaders own'
  cases eq
  cases eq'
  exact same headers rfl h mem h' mem' named named'

variable {opt : String × Yaml}

section
variable {L : LowerCase}

theorem realityOpt_within (other : f ≠ .security) (e : String × Yaml) :
    Agree (view f) (realityOpt e) := by
  obtain ⟨key, value⟩ := e
  have rest : ∀ v, (⟨f, v⟩ : Assignment) ∈ realityOpt (key, value) →
      (⟨f, v⟩ : Assignment) ∈ (realityOpt (key, value)).tail := by
    intro v h
    rcases List.mem_cons.mp h with same | own
    · exact absurd (congrArg Sigma.fst same) other
    · exact own
  intro v v' h h'
  refine agree_of_length ?_ v v' (rest v h) (rest v' h')
  unfold realityOpt
  dsimp only [List.tail_cons]
  split <;> simp

theorem plainOpt_length (e : String × Yaml) : (h2Opt e).length ≤ 1 ∧ (grpcOpt e).length ≤ 1 ∧
    (smuxOpt e).length ≤ 1 ∧ (echOpt e).length ≤ 1 := by
  unfold h2Opt grpcOpt smuxOpt echOpt
  refine ⟨?_, ?_, ?_, ?_⟩ <;> dsimp only <;> split <;> simp

theorem wsOpt_length {e : String × Yaml} (other : e.1 ≠ "headers") : (wsOpt L e).length ≤ 1 := by
  obtain ⟨key, value⟩ := e
  unfold wsOpt
  dsimp only
  split
  · exact absurd rfl other
  · simp
  · simp
  · simp
  · split <;> simp
  · simp

theorem httpOpt_length {e : String × Yaml} (other : e.1 ≠ "headers") :
    (httpOpt L e).length ≤ 1 := by
  obtain ⟨key, value⟩ := e
  unfold httpOpt
  dsimp only
  split
  · simp
  · exact absurd rfl other
  · simp

theorem assigned_length {type : NodeType} {vless : Bool} (plain : opt.1 ∉ optionMaps) :
    (assigned L type vless opt).length ≤ 1 := by
  obtain ⟨key, value⟩ := opt
  unfold assigned
  dsimp only
  split
  case h_14 | h_16 | h_17 | h_18 | h_19 | h_20 | h_21 => exact absurd (by simp [optionMaps]) plain
  case h_15 => cases networkType value <;> simp
  all_goals
    try split
    all_goals simp

section
variable {type : NodeType} {vless : Bool} {proxy : Mapping} (valid : Valid proxy)
  (calm : ¬ OrderMatters L type proxy)

include valid

theorem Valid.opt_eq {opt' : String × Yaml} (mem : opt ∈ proxy) (mem' : opt' ∈ proxy)
    (same : opt.1 = opt'.1) : opt = opt' :=
  List.inj_on_of_nodup_map valid.keys mem mem' same

/-- But for three fields one key of the node assigns a field. -/
theorem Valid.one_writer (security : f ≠ .security) (transport : f ≠ .type)
    (encryption : f ≠ .encryption) {opt' : String × Yaml} (mem : opt ∈ proxy) (mem' : opt' ∈ proxy)
    (own : opt.1 ∈ writers f) (own' : opt'.1 ∈ writers f) : opt = opt' := by
  have transports : writers f ⊆ transportMaps → opt = opt' := fun sub =>
    valid.opt_eq mem mem' (valid.oneTransport opt mem opt' mem' (sub own) (sub own'))
  cases f with
  | security => exact absurd rfl security
  | type => exact absurd rfl transport
  | encryption => exact absurd rfl encryption
  | host => exact transports (by decide)
  | path => exact transports (by decide)
  | sni =>
    obtain ⟨key, name⟩ := opt
    obtain ⟨key', name'⟩ := opt'
    simp only [writers, List.mem_cons, List.not_mem_nil, or_false] at own own'
    rcases own with rfl | rfl
    · rcases own' with rfl | rfl
      · exact valid.opt_eq mem mem' rfl
      · exact absurd mem (valid.oneName _ _ mem')
    · rcases own' with rfl | rfl
      · exact absurd mem' (valid.oneName _ _ mem)
      · exact valid.opt_eq mem mem' rfl
  | _ =>
    exact valid.opt_eq mem mem' ((List.mem_singleton.mp own).trans (List.mem_singleton.mp own').symm)

include calm

theorem agree_within (other : f ≠ .security) (mem : opt ∈ proxy) :
    Agree (view f) (assigned L type vless opt) := by
  obtain ⟨key, value⟩ := opt
  by_cases plain : key ∈ optionMaps
  · have distinct : ∀ entries, value = .map entries → (entries.map (·.1)).Nodup := by
      rintro entries rfl
      exact valid.options key plain entries mem
    simp only [optionMaps, List.mem_cons, List.not_mem_nil, or_false] at plain
    rcases plain with rfl | rfl | rfl | rfl | rfl | rfl | rfl
    · refine optionMap_agree (realityKey f) ?_ distinct
        fun _ _ e _ => realityOpt_within other e
      intro v e own
      rcases realityOpt_spec own with same | same
      · exact absurd (congrArg Sigma.fst same) other
      · exact same.2
    · refine optionMap_agree (wsKey f) (fun _ _ own => (wsOpt_spec own).2) distinct ?_
      rintro entries rfl ⟨key, value⟩ listed
      by_cases headers : key = "headers"
      · subst headers
        apply hostHeaders_agree
        rintro headers rfl h hmem h' hmem' host host'
        by_contra differ
        exact calm (.wsHost entries headers mem listed h h' hmem hmem' host host' differ)
      · exact agree_of_length (wsOpt_length headers)
    · exact optionMap_agree (h2Key f) (fun _ _ own => (h2Opt_spec own).2) distinct
        fun _ _ e _ => agree_of_length (plainOpt_length e).1
    · refine optionMap_agree (httpKey f) (fun _ _ own => (httpOpt_spec own).2) distinct ?_
      rintro entries rfl ⟨key, value⟩ listed
      by_cases headers : key = "headers"
      · subst headers
        apply hostHeaders_agree
        rintro headers rfl h hmem h' hmem' host host'
        by_contra differ
        exact calm (.httpHost entries headers mem listed h h' hmem hmem' host host' differ)
      · exact agree_of_length (httpOpt_length headers)
    · exact optionMap_agree _ (fun _ _ own => (grpcOpt_spec own).2) distinct
        fun _ _ e _ => agree_of_length (plainOpt_length e).2.1
    · exact optionMap_agree (smuxKey f) (fun _ _ own => (smuxOpt_spec own).2) distinct
        fun _ _ e _ => agree_of_length (plainOpt_length e).2.2.1
    · exact optionMap_agree (echKey f) (fun _ _ own => (echOpt_spec own).2) distinct
        fun _ _ e _ => agree_of_length (plainOpt_length e).2.2.2
  · exact agree_of_length (assigned_length plain)

/-- All values that the keys of the node give to a field look the same. -/
theorem agree (f : Field) : Agree (view f) (proxy.flatMap (assigned L type vless)) := by
  intro v v' h h'
  obtain ⟨⟨key, value⟩, mem, own⟩ := List.mem_flatMap.mp h
  obtain ⟨⟨key', value'⟩, mem', own'⟩ := List.mem_flatMap.mp h'
  by_cases security : f = .security
  · subst security
    have off : ∀ tls, ("tls", tls) ∈ proxy → type ≠ .trojan → ∀ opt opts,
        ("reality-opts", .map (opt :: opts)) ∈ proxy → tls.isTrue = true := by
      intro tls listed vmess opt opts reality
      by_contra off
      exact calm (.security vmess tls listed (by simpa using off) opt opts reality)
    rcases security_of_assigned own with ⟨rfl, vmess, rfl⟩ | ⟨rfl, rfl, opt, opts, rfl⟩
    · rcases security_of_assigned own' with ⟨rfl, _, rfl⟩ | ⟨rfl, rfl, opt, opts, rfl⟩
      · cases valid.opt_eq mem mem' rfl
        rfl
      · rw [off value mem vmess opt opts mem']
        rfl
    · rcases security_of_assigned own' with ⟨rfl, vmess, rfl⟩ | ⟨rfl, rfl, _⟩
      · rw [off value' mem' vmess opt opts mem]
        rfl
      · rfl
  · have within : (key, value) = (key', value') → view f v = view f v' := by
      intro same
      cases same
      exact agree_within valid calm security mem v v' own own'
    by_cases transport : f = .type
    · subst transport
      rcases type_of_assigned own with ⟨rfl, named, _⟩ | ⟨rfl, _, entries, upgrade, rfl, inside, on⟩
      · rcases type_of_assigned own' with ⟨rfl, _⟩ | ⟨rfl, _, entries, upgrade, rfl, inside, on⟩
        · exact within (valid.opt_eq mem mem' rfl)
        · exact absurd (.transport value mem named entries mem' upgrade inside on) calm
      · rcases type_of_assigned own' with ⟨rfl, named, _⟩ | ⟨rfl, _⟩
        · exact absurd (.transport value' mem' named entries mem upgrade inside on) calm
        · exact within (valid.opt_eq mem mem' rfl)
    · by_cases encryption : f = .encryption
      · subst encryption
        -- the kind of the node decides which of the two keys counts
        rcases (encryption_of_assigned own).2 with ⟨rfl, plain, _⟩ | ⟨rfl, plain, _⟩
        · rcases (encryption_of_assigned own').2 with ⟨rfl, _⟩ | ⟨_, other, _⟩
          · exact within (valid.opt_eq mem mem' rfl)
          · exact absurd (plain.symm.trans other) (by decide)
        · rcases (encryption_of_assigned own').2 with ⟨_, other, _⟩ | ⟨rfl, _⟩
          · exact absurd (plain.symm.trans other) (by decide)
          · exact within (valid.opt_eq mem mem' rfl)
      · exact within (valid.one_writer security transport encryption mem mem'
          (key_of_assigned own) (key_of_assigned own'))

end

end

/-! ## The bean after all keys -/

section
variable {L : LowerCase} {type : NodeType} {vless : Bool}

theorem alterId_of_assigned {value : Yaml} {v : Option Int}
    (h : ⟨.alterId, v⟩ ∈ assigned L type vless (key, value)) :
    key = "alterId" ∧ type ≠ .trojan ∧ vless = false ∧ v = alterIdOf value := by
  obtain rfl : key = "alterId" := List.mem_singleton.mp (key_of_assigned h)
  simp only [assigned] at h
  split at h
  · rename_i guard
    cases List.mem_singleton.mp h
    exact ⟨rfl, guard.1, guard.2, rfl⟩
  · cases h

/-- Only three keys look at the kind of the bean. -/
theorem assigned_vless (other : key ∉ ["alterId", "cipher", "flow"]) (vless' : Bool)
    (value : Yaml) : assigned L type vless (key, value) = assigned L type vless' (key, value) := by
  unfold assigned
  dsimp only
  split
  case h_4 | h_5 | h_6 => exact absurd (by decide) other
  all_goals rfl

theorem assigned_trojan (vless' : Bool) (opt : String × Yaml) :
    assigned L .trojan vless opt = assigned L .trojan vless' opt := by
  obtain ⟨key, value⟩ := opt
  unfold assigned
  dsimp only
  split
  all_goals simp

theorem assigned_field (alterId : f ≠ .alterId) (encryption : f ≠ .encryption) (bean : Draft)
    (vless' : Bool) (opt : String × Yaml) :
    assignAll bean (assigned L type vless opt) f =
      assignAll bean (assigned L type vless' opt) f := by
  obtain ⟨key, value⟩ := opt
  by_cases special : key ∈ ["alterId", "cipher", "flow"]
  · have foreign : key ∉ writers f := by
      simp only [List.mem_cons, List.not_mem_nil, or_false] at special
      rcases special with rfl | rfl | rfl <;> cases f <;>
        first
        | exact absurd rfl alterId
        | exact absurd rfl encryption
        | decide
    have other : ∀ vless, ∀ a ∈ assigned L type vless (key, value), a.1 ≠ f := by
      rintro vless a own rfl
      exact foreign (key_of_assigned own)
    rw [assignAll_other (other vless), assignAll_other (other vless')]
  · rw [assigned_vless special]

theorem fill_append (bean : Draft) (opts opts' : Mapping) :
    fill L type bean (opts ++ opts') = fill L type (fill L type bean opts) opts' :=
  List.foldl_append

theorem fill_cons (bean : Draft) (opt : String × Yaml) (opts : Mapping) :
    fill L type bean (opt :: opts) =
      fill L type (assignAll bean (assigned L type (isVLESS bean) opt)) opts :=
  rfl

/-- For most fields the kind of the bean does not count. -/
theorem fill_field (alterId : f ≠ .alterId) (encryption : f ≠ .encryption) (vless : Bool)
    (bean : Draft) (opts : Mapping) :
    fill L type bean opts f = assignAll bean (opts.flatMap (assigned L type vless)) f := by
  induction opts generalizing bean with
  | nil => rfl
  | cons opt opts ih =>
    rw [fill_cons, ih, List.flatMap_cons, assignAll_append]
    exact assignAll_congr (assigned_field alterId encryption bean vless opt)

/-- No key makes a VMess bean VLESS, and a VLESS bean stays one. -/
def Steady (vless : Bool) (opts : Mapping) : Prop :=
  vless = true ∨ ∀ value, ("alterId", value) ∈ opts → alterIdOf value ≠ some (-1)

variable {opts : Mapping} {bean : Draft}

theorem Steady.tail (h : Steady vless (opt :: opts)) : Steady vless opts :=
  h.imp_right fun calm value mem => calm value (List.mem_cons_of_mem _ mem)

theorem isVLESS_assigned (kind : isVLESS bean = vless) (steady : Steady vless (opt :: opts)) :
    isVLESS (assignAll bean (assigned L type vless opt)) = vless := by
  obtain ⟨key, value⟩ := opt
  by_cases touched : ∃ a ∈ assigned L type vless (key, value), a.1 = .alterId
  · obtain ⟨rfl, _, plain, number⟩ := alterId_of_assigned (assignAll_mem bean touched)
    rcases steady with vless' | calm
    · exact absurd (plain.symm.trans vless') (by decide)
    · have other := calm value List.mem_cons_self
      rw [← number] at other
      rw [plain] at other ⊢
      simpa [isVLESS] using other
  · rw [isVLESS, assignAll_other fun a mem same => touched ⟨a, mem, same⟩]
    exact kind

theorem fill_isVLESS (kind : isVLESS bean = vless)
    (steady : Steady vless opts) : isVLESS (fill L type bean opts) = vless := by
  induction opts generalizing bean with
  | nil => exact kind
  | cons opt opts ih =>
    rw [fill_cons, kind]
    exact ih (isVLESS_assigned kind steady) steady.tail

theorem fill_steady (kind : isVLESS bean = vless) (steady : Steady vless opts) :
    fill L type bean opts = assignAll bean (opts.flatMap (assigned L type vless)) := by
  induction opts generalizing bean with
  | nil => rfl
  | cons opt opts ih =>
    rw [fill_cons, kind, ih (isVLESS_assigned kind steady) steady.tail, List.flatMap_cons,
      assignAll_append]

theorem fill_trojan (vless : Bool) (bean : Draft) (opts : Mapping) :
    fill L .trojan bean opts = assignAll bean (opts.flatMap (assigned L .trojan vless)) := by
  induction opts generalizing bean with
  | nil => rfl
  | cons opt opts ih =>
    rw [fill_cons, assigned_trojan vless, ih, List.flatMap_cons, assignAll_append]

/-- A VMess bean that its alter id makes VLESS. -/
theorem fill_turning (kind : isVLESS bean = false) {pre post : Mapping}
    (none : ∀ value, ("alterId", value) ∉ pre) {value : Yaml}
    (minusOne : alterIdOf value = some (-1)) :
    fill L .vmess bean (pre ++ ("alterId", value) :: post) =
      assignAll bean (pre.flatMap (assigned L .vmess false) ++
        ⟨.alterId, some (-1)⟩ :: post.flatMap (assigned L .vmess true)) := by
  have steady : Steady false pre := .inr fun value mem => absurd mem (none value)
  have turned : isVLESS (assign (fill L .vmess bean pre) ⟨.alterId, some (-1)⟩) = true := by
    rw [isVLESS, assign_self]
    rfl
  have number : assigned L .vmess false ("alterId", value) = [⟨.alterId, some (-1)⟩] := by
    rw [← minusOne]
    rfl
  rw [fill_append, fill_cons, fill_isVLESS kind steady, number]
  change fill L .vmess (assign (fill L .vmess bean pre) ⟨.alterId, some (-1)⟩) post = _
  rw [fill_steady turned (.inl rfl), fill_steady kind steady, assignAll_append]
  rfl

end

/-! ## Nodes whose order does not matter -/

section
variable {L : LowerCase} {type : NodeType}

/-- The alter id makes the node VLESS while its keys are gone through. -/
def Turning (type : NodeType) (proxy : Mapping) : Prop :=
  type = .vmess ∧ ∃ value, ("alterId", value) ∈ proxy ∧ alterIdOf value = some (-1)

theorem alterId_not_mem_pre {pre post : Mapping} {value : Yaml}
    (distinct : ((pre ++ ("alterId", value) :: post).map (·.1)).Nodup) :
    ∀ value', ("alterId", value') ∉ pre := by
  intro value' mem
  rw [List.map_append, List.nodup_append] at distinct
  exact distinct.2.2 "alterId" (List.mem_map.mpr ⟨_, mem, rfl⟩) "alterId" List.mem_cons_self rfl

/-- A cipher counts before the alter id and a flow after it. With neither nothing is left. -/
theorem encryption_lost {pre post : Mapping} (first : ∀ value, ("alterId", value) ∉ pre)
    {value : Yaml} (minusOne : alterIdOf value = some (-1))
    (noCipher : ∀ cipher, ("cipher", cipher) ∈ pre → notBlank cipher.asString = none)
    (noFlow : ∀ flow, ("flow", flow) ∈ post → hasVision flow ≠ true) :
    notBlank (fill L .vmess (newBean .vmess) (pre ++ ("alterId", value) :: post) .encryption) =
      none := by
  rw [fill_turning rfl first minusOne]
  refine assignAll_view (view .encryption) rfl fun v mem => ?_
  rcases List.mem_append.mp mem with mem | mem
  · obtain ⟨⟨key, value⟩, inside, own⟩ := List.mem_flatMap.mp mem
    rcases (encryption_of_assigned own).2 with ⟨rfl, _, rfl⟩ | ⟨_, late, _⟩
    · exact noCipher value inside
    · cases late
  · rcases List.mem_cons.mp mem with same | mem
    · cases same
    · obtain ⟨⟨key, value⟩, inside, own⟩ := List.mem_flatMap.mp mem
      rcases (encryption_of_assigned own).2 with ⟨_, early, _⟩ | ⟨rfl, _, vision, _⟩
      · cases early
      · exact absurd vision (noFlow value inside)

section
variable {proxy : Mapping} (distinct : (proxy.map (·.1)).Nodup) {value : Yaml}
  (listed : ("alterId", value) ∈ proxy) (minusOne : alterIdOf value = some (-1))

include distinct listed minusOne

theorem alterId_turning : fill L .vmess (newBean .vmess) proxy .alterId = some (-1) := by
  obtain ⟨pre, post, rfl⟩ := List.append_of_mem listed
  rw [fill_turning rfl (alterId_not_mem_pre distinct) minusOne, List.append_cons,
    assignAll_append, assignAll_other, assignAll_concat]
  rintro ⟨f, v⟩ mem rfl
  obtain ⟨⟨key, value⟩, _, own⟩ := List.mem_flatMap.mp mem
  exact absurd (alterId_of_assigned own).2.2.1 (by decide)

theorem encryption_turning (noFlow : ∀ flow, ("flow", flow) ∈ proxy → hasVision flow ≠ true)
    (noCipher : ∀ cipher, ("cipher", cipher) ∈ proxy → notBlank cipher.asString = none) :
    notBlank (fill L .vmess (newBean .vmess) proxy .encryption) = none := by
  obtain ⟨pre, post, rfl⟩ := List.append_of_mem listed
  exact encryption_lost (alterId_not_mem_pre distinct) minusOne
    (fun cipher mem => noCipher cipher (List.mem_append_left _ mem))
    fun flow mem => noFlow flow (List.mem_append_right _ (List.mem_cons_of_mem _ mem))

end

theorem fill_not_turning {proxy : Mapping} (stays : ¬ Turning type proxy) :
    fill L type (newBean type) proxy =
      assignAll (newBean type) (proxy.flatMap (assigned L type (type == .vless))) := by
  cases type with
  | trojan => exact fill_trojan _ _ _
  | vless => exact fill_steady rfl (.inl rfl)
  | vmess =>
    refine fill_steady rfl (.inr fun value mem minusOne => ?_)
    exact stays ⟨rfl, value, mem, minusOne⟩

variable {proxy proxy' : Mapping} (valid : Valid proxy) (h : Reordered proxy proxy')

include h

theorem Reordered.turning : Turning type proxy' ↔ Turning type proxy := by
  have same : ∀ value, ("alterId", value) ∈ proxy' ↔ ("alterId", value) ∈ proxy :=
    fun value => (h.mem (by decide)).symm
  simp only [Turning, same]

include valid

theorem fill_view (calm : ¬ OrderMatters L type proxy) (f : Field) :
    view f (fill L type (newBean type) proxy f) = view f (fill L type (newBean type) proxy' f) := by
  by_cases turning : Turning type proxy
  · obtain ⟨rfl, value, listed, minusOne⟩ := turning
    have distinct' := h.keys.nodup_iff.mp valid.keys
    have listed' := (h.mem (by decide)).mp listed
    by_cases alterId : f = .alterId
    · subst alterId
      rw [alterId_turning valid.keys listed minusOne, alterId_turning distinct' listed' minusOne]
    · by_cases encryption : f = .encryption
      · subst encryption
        have noFlow : ∀ flow, ("flow", flow) ∈ proxy → hasVision flow ≠ true :=
          fun flow given vision => calm (.flow rfl value listed minusOne flow given vision)
        have noCipher : ∀ cipher, ("cipher", cipher) ∈ proxy → notBlank cipher.asString = none := by
          intro cipher given
          by_contra named
          exact calm (.cipher rfl value listed minusOne cipher given named)
        have left := encryption_turning (L := L) valid.keys listed minusOne noFlow noCipher
        have right := encryption_turning (L := L) distinct' listed' minusOne
          (fun flow given => noFlow flow ((h.mem (by decide)).mpr given))
          (fun cipher given => noCipher cipher ((h.mem (by decide)).mpr given))
        exact left.trans right.symm
      · rw [fill_field alterId encryption false,
          fill_field alterId encryption false]
        exact assignAll_perm (view f) (h.assigned L .vmess false) (agree valid calm f)
  · have stays' : ¬ Turning type proxy' := fun turning' => turning (h.turning.mp turning')
    rw [fill_not_turning turning, fill_not_turning stays']
    exact assignAll_perm (view f) (h.assigned L type _) (agree valid calm f)

end

section
variable {L : LowerCase} {type : NodeType}

theorem fixed_fields (globalClientFingerprint : String) (b : StandardV2RayBean) :
    ∃ sni utlsFingerprint, fixFingerprint globalClientFingerprint (fixSni b) =
      { b with sni, utlsFingerprint } := by
  unfold fixFingerprint fixSni
  split <;> split <;> exact ⟨_, _, rfl⟩

/-- What equal beans have in common. -/
theorem defaults_eq {globalClientFingerprint server : String} {port : Int} {bean bean' : Draft}
    (same : (parsed type globalClientFingerprint server port bean).bean L =
      (parsed type globalClientFingerprint server port bean').bean L) :
    (type ≠ .trojan →
      ifNullOrBlank (bean .security) "none" = ifNullOrBlank (bean' .security) "none") ∧
      defaultType L (bean .type) = defaultType L (bean' .type) ∧
      ifNullOrBlank (bean .host) "" = ifNullOrBlank (bean' .host) "" ∧
      (type ≠ .trojan → bean .alterId = some (-1) → bean' .alterId = some (-1) →
        ifNullOrBlank (bean .encryption) "" = ifNullOrBlank (bean' .encryption) "") := by
  have content := congrArg AbstractBean.content same
  obtain ⟨_, _, left⟩ := fixed_fields globalClientFingerprint
    (initializeDefaultValues L (parsed type globalClientFingerprint server port bean).raw)
  obtain ⟨_, _, right⟩ := fixed_fields globalClientFingerprint
    (initializeDefaultValues L (parsed type globalClientFingerprint server port bean').raw)
  replace content := left.symm.trans (content.trans right)
  refine ⟨fun vmess => ?_, congrArg (·.type) content, congrArg (·.host) content, ?_⟩
  · have security := congrArg (·.security) content
    cases type with
    | trojan => exact absurd rfl vmess
    | _ => exact security
  · intro vmess alterId alterId'
    have encryption := congrArg (·.encryption) content
    cases type with
    | trojan => exact absurd rfl vmess
    | _ =>
      have := Option.some.inj encryption
      simpa [parsed, classOf, defaultClass, alterId, alterId'] using this

/-- The value that a key gives to a field when it comes last. -/
theorem fill_last (opts : Mapping) (opt : String × Yaml) {w : f.Value}
    (assigns : ∀ vless, ⟨f, w⟩ ∈ assigned L type vless opt)
    (values : ∀ vless v, ⟨f, v⟩ ∈ assigned L type vless opt → v = w) :
    fill L type (newBean type) (opts ++ [opt]) f = w := by
  rw [fill_append]
  exact values _ _ (assignAll_mem _ ⟨_, assigns _, rfl⟩)

theorem exists_perm_concat {α : Type} {as : List α} {a : α} (mem : a ∈ as) :
    ∃ front, as.Perm (front ++ [a]) := by
  obtain ⟨pre, post, rfl⟩ := List.append_of_mem mem
  exact ⟨pre ++ post, List.perm_middle.trans (List.perm_append_singleton a _).symm⟩

/-- A header, its map and the options around it can come last. -/
theorem exists_header_last {proxy entries headers : Mapping} (known : key ∈ optionMaps)
    (mem : (key, .map entries) ∈ proxy) (inside : ("headers", .map headers) ∈ entries)
    {header : String × Yaml} (listed : header ∈ headers) : ∃ front inner before, Reordered proxy
      (front ++ [(key, .map (inner ++ [("headers", .map (before ++ [header]))]))]) := by
  obtain ⟨before, last⟩ := exists_perm_concat listed
  obtain ⟨pre, post, rfl⟩ := List.append_of_mem inside
  obtain ⟨pre', post', rfl⟩ := List.append_of_mem mem
  refine ⟨pre' ++ post', pre ++ post, before, pre' ++ (key, .map (pre ++ post ++
    [("headers", .map (before ++ [header]))])) :: post', ?_, ?_⟩
  · refine List.rel_append (forall₂_refl .same _) (.cons ?_ (forall₂_refl .same _))
    refine .options known (List.rel_append (forall₂_refl .same pre)
      (.cons (.headers last) (forall₂_refl .same post))) ?_
    exact List.perm_middle.trans (List.perm_append_singleton _ _).symm
  · exact List.perm_middle.trans (List.perm_append_singleton _ _).symm

theorem notBlank_congr {s t : Option String} (same : ifNullOrBlank s "" = ifNullOrBlank t "") :
    notBlank s = notBlank t := by
  have form : ∀ s : Option String, notBlank s =
      if isBlank (ifNullOrBlank s "") then none else some (ifNullOrBlank s "") := by
    have empty : isBlank "" = true := rfl
    rintro (_ | s)
    · simp [notBlank, ifNullOrBlank, empty]
    · cases blank : isBlank s <;> simp [notBlank, ifNullOrBlank, blank, empty]
  rw [form, form, same]

/-- Two orders of a node with different beans. -/
def Shows (L : LowerCase) (type : NodeType) (proxy : Mapping) : Prop :=
  ∃ one other, Reordered proxy one ∧ Reordered proxy other ∧
    ∀ globalClientFingerprint server port,
      (parsed type globalClientFingerprint server port
        (fill L type (newBean type) one)).bean L ≠
      (parsed type globalClientFingerprint server port
        (fill L type (newBean type) other)).bean L

section
variable {proxy : Mapping}

theorem security_shows (vmess : type ≠ .trojan) {tls : Yaml} (listed : ("tls", tls) ∈ proxy)
    (off : tls.isTrue = false) {opts : Mapping}
    (reality : ("reality-opts", .map (opt :: opts)) ∈ proxy) : Shows L type proxy := by
  obtain ⟨front, perm⟩ := exists_perm_concat listed
  obtain ⟨front', perm'⟩ := exists_perm_concat reality
  refine ⟨_, _, .of_perm perm, .of_perm perm', fun _ _ _ same => ?_⟩
  have last : fill L type (newBean type) (front ++ [("tls", tls)]) .security = some "" := by
    refine fill_last front _ (fun _ => by simp [assigned, vmess, off]) fun _ v own => ?_
    rcases security_of_assigned own with ⟨_, _, rfl⟩ | ⟨key, _⟩
    · simp [off]
    · exact absurd key (by decide)
  have last' : fill L type (newBean type) (front' ++ [("reality-opts", .map (opt :: opts))])
      .security = some "tls" := by
    refine fill_last front' _ (fun _ => by simp [assigned, optionMap, realityOpt]) fun _ v own => ?_
    rcases security_of_assigned own with ⟨key, _⟩ | ⟨_, rfl, _⟩
    · exact absurd key (by decide)
    · rfl
  have security := (defaults_eq same).1 vmess
  rw [last, last'] at security
  exact absurd security (by decide)

theorem networkType_cases {value : Yaml} {name : String} (named : networkType value = some name) :
    name = "http" ∨ name = "ws" ∨ name = "grpc" := by
  unfold networkType at named
  split at named <;> cases named <;> simp

theorem transport_shows {network : Yaml} (listed : ("network", network) ∈ proxy)
    (named : (networkType network).isSome = true) {entries : Mapping}
    (ws : ("ws-opts", .map entries) ∈ proxy) {upgrade : Yaml}
    (inside : ("v2ray-http-upgrade", upgrade) ∈ entries) (on : upgrade.isTrue = true) :
    Shows L type proxy := by
  obtain ⟨front, perm⟩ := exists_perm_concat listed
  obtain ⟨front', perm'⟩ := exists_perm_concat ws
  refine ⟨_, _, .of_perm perm, .of_perm perm', fun _ _ _ same => ?_⟩
  obtain ⟨name, given⟩ := Option.isSome_iff_exists.mp named
  have last : fill L type (newBean type) (front ++ [("network", network)]) .type = some name := by
    refine fill_last front _ (fun _ => by simp [assigned, given]) fun _ v own => ?_
    rcases type_of_assigned own with ⟨_, _, rfl⟩ | ⟨key, _⟩
    · exact given
    · exact absurd key (by decide)
  have last' : fill L type (newBean type) (front' ++ [("ws-opts", .map entries)]) .type =
      some "httpupgrade" := by
    refine fill_last front' _ (fun _ => ?_) fun _ v own => ?_
    · exact mem_optionMap.mpr ⟨entries, rfl, _, inside, by simp [wsOpt, on]⟩
    · rcases type_of_assigned own with ⟨key, _⟩ | ⟨_, rfl, _⟩
      · exact absurd key (by decide)
      · rfl
  have transport := (defaults_eq same).2.1
  have upgraded : defaultType L (some "httpupgrade") = "httpupgrade" :=
    L.lower_letters "httpupgrade" (by decide)
  rw [last, last', upgraded] at transport
  rcases networkType_cases given with rfl | rfl | rfl
  all_goals exact absurd ((L.lower_letters _ (by decide)).symm.trans transport) (by decide)

theorem host_shows {host : Yaml → Option String} (known : key ∈ optionMaps)
    (own : ∀ vless inner before header, L.lower header.1 = "host" → ∃ as,
      assigned L type vless (key, .map (inner ++ [("headers", .map (before ++ [header]))])) =
        as ++ [⟨.host, host header.2⟩]) {entries headers : Mapping}
    (mem : (key, .map entries) ∈ proxy) (inside : ("headers", .map headers) ∈ entries)
    {header header' : String × Yaml} (listed : header ∈ headers) (listed' : header' ∈ headers)
    (named : L.lower header.1 = "host") (named' : L.lower header'.1 = "host")
    (differ : notBlank (host header.2) ≠ notBlank (host header'.2)) : Shows L type proxy := by
  have last : ∀ (front inner before : Mapping) (header : String × Yaml),
      L.lower header.1 = "host" → fill L type (newBean type)
        (front ++ [(key, .map (inner ++ [("headers", .map (before ++ [header]))]))]) .host =
          host header.2 := by
    intro front inner before header named
    obtain ⟨as, form⟩ := own (isVLESS (fill L type (newBean type) front)) inner before header named
    rw [fill_append, fill_cons, form]
    exact assignAll_concat (V := Field.Value) (f := .host) _
  obtain ⟨front, inner, before, reordered⟩ := exists_header_last known mem inside listed
  obtain ⟨front', inner', before', reordered'⟩ := exists_header_last known mem inside listed'
  refine ⟨_, _, reordered, reordered', fun _ _ _ same => differ ?_⟩
  have hosts := (defaults_eq same).2.2.1
  rw [last front inner before header named, last front' inner' before' header' named'] at hosts
  exact notBlank_congr hosts

theorem exists_perm_pair {opt' : String × Yaml} (mem : opt ∈ proxy) (mem' : opt' ∈ proxy)
    (other : opt.1 ≠ opt'.1) : ∃ rest, proxy.Perm (opt :: opt' :: rest) := by
  obtain ⟨pre, post, rfl⟩ := List.append_of_mem mem
  have inside : opt' ∈ pre ++ post := by
    rcases List.mem_append.mp mem' with mem | mem
    · exact List.mem_append_left _ mem
    · rcases List.mem_cons.mp mem with rfl | mem
      · exact absurd rfl other
      · exact List.mem_append_right _ mem
  obtain ⟨pre', post', form⟩ := List.append_of_mem inside
  refine ⟨pre' ++ post', List.perm_middle.trans (.cons _ ?_)⟩
  rw [form]
  exact List.perm_middle

theorem apart_of_perm (distinct : (proxy.map (·.1)).Nodup) {key' : String} {value value' : Yaml}
    {rest : Mapping} (perm : proxy.Perm ((key, value) :: (key', value') :: rest)) :
    (∀ other, (key, other) ∉ rest) ∧ ∀ other, (key', other) ∉ rest := by
  have keys : (key :: key' :: rest.map (·.1)).Nodup :=
    (perm.map Prod.fst).nodup_iff.mp distinct
  rw [List.nodup_cons, List.nodup_cons] at keys
  constructor
  · intro other mem
    exact keys.1 (List.mem_cons_of_mem _ (List.mem_map.mpr ⟨_, mem, rfl⟩))
  · intro other mem
    exact keys.2.1 (List.mem_map.mpr ⟨_, mem, rfl⟩)

section
variable (distinct : (proxy.map (·.1)).Nodup) {alterId : Yaml}
  (listed : ("alterId", alterId) ∈ proxy) (minusOne : alterIdOf alterId = some (-1))

include distinct listed minusOne

/-- Two orders of a node that turns VLESS, told apart by what they leave of the flow. -/
theorem turning_shows (one other : Mapping) (reordered : proxy.Perm one)
    (reordered' : proxy.Perm other)
    (kept : notBlank (fill L .vmess (newBean .vmess) one .encryption) ≠ none)
    (lost : notBlank (fill L .vmess (newBean .vmess) other .encryption) = none) :
    Shows L .vmess proxy := by
  have turns : ∀ {order : Mapping}, proxy.Perm order →
      fill L .vmess (newBean .vmess) order .alterId = some (-1) := fun perm =>
    alterId_turning ((perm.map (·.1)).nodup_iff.mp distinct) (perm.mem_iff.mp listed) minusOne
  refine ⟨one, other, .of_perm reordered, .of_perm reordered', fun _ _ _ same => kept ?_⟩
  rw [← lost]
  exact notBlank_congr ((defaults_eq same).2.2.2 (by decide) (turns reordered) (turns reordered'))

theorem flow_shows {flow : Yaml} (given : ("flow", flow) ∈ proxy) (vision : hasVision flow = true) :
    Shows L .vmess proxy := by
  obtain ⟨rest, perm⟩ := exists_perm_pair listed given (by simp)
  obtain ⟨noAlterId, noFlow⟩ := apart_of_perm distinct perm
  refine turning_shows distinct listed minusOne (rest ++ ("alterId", alterId) :: [("flow", flow)])
    ([("flow", flow)] ++ ("alterId", alterId) :: rest) (perm.trans ?_) (perm.trans (.swap ..)) ?_ ?_
  · change ([("alterId", alterId), ("flow", flow)] ++ rest).Perm _
    exact List.perm_append_comm
  · have late : assigned L .vmess true ("flow", flow) = [⟨.encryption, some FLOW_VISION⟩] := by
      simp [assigned, vision]
    rw [fill_turning rfl noAlterId minusOne, List.flatMap_singleton, late, List.append_cons,
      assignAll_concat (V := Field.Value) (f := .encryption)]
    decide
  · exact encryption_lost (by simp) minusOne (by simp) fun flow mem => absurd mem (noFlow flow)

theorem cipher_shows {cipher : Yaml} (given : ("cipher", cipher) ∈ proxy)
    (named : notBlank cipher.asString ≠ none) : Shows L .vmess proxy := by
  obtain ⟨rest, perm⟩ := exists_perm_pair listed given (by simp)
  obtain ⟨noAlterId, noCipher⟩ := apart_of_perm distinct perm
  refine turning_shows distinct listed minusOne
    ((rest ++ [("cipher", cipher)]) ++ ("alterId", alterId) :: [])
    (rest ++ ("alterId", alterId) :: [("cipher", cipher)]) (perm.trans ?_) (perm.trans ?_) ?_ ?_
  · rw [List.append_assoc]
    refine (List.Perm.swap ..).trans ?_
    change ([("cipher", cipher), ("alterId", alterId)] ++ rest).Perm _
    exact List.perm_append_comm
  · change ([("alterId", alterId), ("cipher", cipher)] ++ rest).Perm _
    exact List.perm_append_comm
  · have early : assigned L .vmess false ("cipher", cipher) = [⟨.encryption, cipher.asString⟩] := by
      simp [assigned]
    have noAlterId' : ∀ value, ("alterId", value) ∉ rest ++ [("cipher", cipher)] := by
      simpa using noAlterId
    rw [fill_turning rfl noAlterId' minusOne, assignAll_append, List.flatMap_nil,
      assignAll_other (by simp), List.flatMap_append, List.flatMap_singleton, early,
      assignAll_concat (V := Field.Value) (f := .encryption)]
    exact named
  · exact encryption_lost noAlterId minusOne (fun c mem => absurd mem (noCipher c)) (by simp)

end

end

end

/-! ## The law -/

section
variable {L : LowerCase} {type : NodeType} {proxy : Mapping}

theorem OrderMatters.shows (distinct : (proxy.map (·.1)).Nodup) (h : OrderMatters L type proxy) :
    Shows L type proxy := by
  cases h with
  | security vmess tls listed off opt opts reality => exact security_shows vmess listed off reality
  | transport network listed named entries ws upgrade inside on =>
    exact transport_shows listed named ws inside on
  | flow vmess alterId listed minusOne flow given vision =>
    subst vmess
    exact flow_shows distinct listed minusOne given vision
  | cipher vmess alterId listed minusOne cipher given named =>
    subst vmess
    exact cipher_shows distinct listed minusOne given named
  | wsHost entries headers ws inside header header' listed listed' host host' differ =>
    refine host_shows (by decide) ?_ ws inside listed listed' host host' differ
    intro vless inner before header named
    exact ⟨inner.flatMap (wsOpt L) ++ before.flatMap (hostHeader L Yaml.textOrNull),
      by simp [assigned, optionMap, wsOpt, hostHeader, named]⟩
  | httpHost entries headers http inside header header' listed listed' host host' differ =>
    refine host_shows (by decide) ?_ http inside listed listed' host host' differ
    intro vless inner before header named
    exact ⟨inner.flatMap (httpOpt L) ++ before.flatMap (hostHeader L Clash.httpHost),
      by simp [assigned, optionMap, httpOpt, hostHeader, named]⟩

theorem encryption_trojan (opts : Mapping) :
    fill L .trojan (newBean .trojan) opts .encryption = none := by
  rw [fill_trojan false, assignAll_other]
  · rfl
  rintro ⟨f, v⟩ mem rfl
  obtain ⟨⟨key, value⟩, _, own⟩ := List.mem_flatMap.mp mem
  exact (encryption_of_assigned own).1 rfl

variable (L type)

/-- Every order of the keys of a node gives the same bean, or rejects it, unless the node is
accepted and its order matters. -/
theorem key_order_free_iff (globalClientFingerprint : String) (valid : Valid proxy) :
    (∀ proxy', Reordered proxy proxy' →
      importNode L type globalClientFingerprint proxy' =
        importNode L type globalClientFingerprint proxy) ↔
      ¬ (Accepted proxy ∧ OrderMatters L type proxy) := by
  constructor
  · rintro free ⟨accepted, matters⟩
    obtain ⟨one, other, reordered, reordered', differ⟩ := matters.shows valid.keys
    obtain ⟨server, given⟩ := Option.isSome_iff_exists.mp accepted.1
    obtain ⟨port, given'⟩ := Option.isSome_iff_exists.mp accepted.2.1
    have imported : ∀ {order : Mapping}, Reordered proxy order →
        importNode L type globalClientFingerprint order =
          some ((parsed type globalClientFingerprint server port
            (fill L type (newBean type) order)).bean L) := by
      intro order h
      obtain ⟨sameServer, samePort, _⟩ := h.accepted valid.keys
      exact importNode_eq L type _ (sameServer.trans given) (samePort.trans given')
        (h.throws.trans accepted.2.2)
    have same := (free one reordered).trans (free other reordered').symm
    rw [imported reordered, imported reordered'] at same
    exact differ globalClientFingerprint server port (Option.some.inj same)
  · intro calm proxy' h
    obtain ⟨sameServer, samePort, same⟩ := h.accepted valid.keys
    by_cases accepted : Accepted proxy
    · obtain ⟨server, given⟩ := Option.isSome_iff_exists.mp accepted.1
      obtain ⟨port, given'⟩ := Option.isSome_iff_exists.mp accepted.2.1
      rw [importNode_eq L type _ given given' accepted.2.2,
        importNode_eq L type _ (sameServer.trans given) (samePort.trans given')
          (h.throws.trans accepted.2.2)]
      have free : ¬ OrderMatters L type proxy := fun matters => calm ⟨accepted, matters⟩
      refine congrArg some (bean_congr L type _ server port
        (fun f => (fill_view valid h free f).symm) ?_)
      rintro rfl
      rw [encryption_trojan, encryption_trojan]
    · rw [importNode_none L type _ accepted,
        importNode_none L type _ fun accepted' => accepted (same.mp accepted')]

end

/-- A WebSocket node with the HTTP upgrade, as Clash writes it. -/
def upgradeNode : Mapping :=
  [("server", .string "node.example"), ("port", .scalar "443"), ("network", .string "ws"),
    ("ws-opts", .map [("v2ray-http-upgrade", .boolean true)])]

/-- The same node with the options before the network. -/
def upgradeNode' : Mapping :=
  [("server", .string "node.example"), ("port", .scalar "443"),
    ("ws-opts", .map [("v2ray-http-upgrade", .boolean true)]), ("network", .string "ws")]

/-- The transport is the HTTP upgrade in one order and plain WebSocket in the other. -/
theorem upgrade_depends_on_order : Reordered upgradeNode upgradeNode' ∧
    importNode .ascii .vmess "" upgradeNode' ≠ importNode .ascii .vmess "" upgradeNode := by
  refine ⟨.of_perm (.cons _ (.cons _ (.swap ..))), fun same => ?_⟩
  have types := congrArg (Option.map fun b => b.content.type) same
  have late : (importNode .ascii .vmess "" upgradeNode').map (fun b => b.content.type) =
      some "ws" := by
    decide
  have early : (importNode .ascii .vmess "" upgradeNode).map (fun b => b.content.type) =
      some "httpupgrade" := by
    decide
  rw [late, early] at types
  exact absurd types (by decide)

/-- A WebSocket node over REALITY: TLS is switched on by two keys, and the host is given by two
headers, in each case with the same value. -/
def agreeingNode : Mapping :=
  [("server", .string "node.example"), ("port", .scalar "443"), ("network", .string "ws"),
    ("tls", .boolean true), ("reality-opts", .map [("public-key", .string "key")]),
    ("ws-opts", .map [("path", .string "/"),
      ("headers", .map [("Host", .string "a.example"), ("host", .string "a.example")])])]

theorem agreeingNode_valid : Valid agreeingNode where
  keys := by decide
  options := by
    intro key _ entries listed
    simp only [agreeingNode, List.mem_cons, Prod.mk.injEq, List.not_mem_nil, or_false] at listed
    rcases listed with ⟨_, ⟨⟩⟩ | ⟨_, ⟨⟩⟩ | ⟨_, ⟨⟩⟩ | ⟨_, ⟨⟩⟩ | ⟨_, ⟨⟩⟩ | ⟨_, ⟨⟩⟩ <;> decide
  oneName := by simp [agreeingNode]
  oneTransport := by simp [agreeingNode, transportMaps]

theorem agreeing_order_free : Valid agreeingNode ∧ ∀ proxy', Reordered agreeingNode proxy' →
    importNode .ascii .vmess "" proxy' = importNode .ascii .vmess "" agreeingNode := by
  refine ⟨agreeingNode_valid, (key_order_free_iff .ascii .vmess "" agreeingNode_valid).mpr ?_⟩
  rintro ⟨_, matters⟩
  cases matters with
  | security _ tls listed off => simp_all [agreeingNode, Yaml.isTrue]
  | transport _ _ _ entries ws upgrade inside => simp_all [agreeingNode]
  | flow _ alterId listed => simp_all [agreeingNode]
  | cipher _ alterId listed => simp_all [agreeingNode]
  | httpHost entries headers http => simp_all [agreeingNode]
  | wsHost entries headers ws inside header header' listed listed' _ _ differ =>
    have values : ∀ header ∈ headers, header.2 = .string "a.example" := by
      simp_all [agreeingNode]
    exact differ (by rw [values header listed, values header' listed'])

end QuinMo.Subscription.Clash
