import QuinMo.Config.Plan

/-!
# The builder follows the plan

Every call of `buildChain` adds to the shared collections what the plan says. The rounds of the
loop are described by what they do to the view of the chain's outbounds.
-/

namespace QuinMo.Config

open Outcome Text Net

/-- The collections a round leaves alone, and the ones it only adds to. -/
structure Shared.Kept (s t : Shared) : Prop where
  outbounds : t.outbounds = s.outbounds
  trafficMap : t.trafficMap = s.trafficMap
  builtProfiles : t.builtProfiles = s.builtProfiles
  forced : ∀ d ∈ t.domainListDNSDirectForce, d ∈ s.domainListDNSDirectForce ∨ ∃ a, d = full a

variable {b : Build} {chainId : Int} {l l' : Loop} {x : Profile} {p : Progress} {s : Shared}
  {hop past : Profile} {older : List View} {entity : Profile} {head : List View}

theorem Shared.Kept.trans {t u : Shared} (h : s.Kept t) (k : t.Kept u) : s.Kept u := by
  refine ⟨k.outbounds.trans h.outbounds, k.trafficMap.trans h.trafficMap,
    k.builtProfiles.trans h.builtProfiles, ?_⟩
  intro d hd
  rcases k.forced d hd with old | new
  · exact h.forced d old
  · exact .inr new

theorem mappingNeeded_eq {isLast : Bool} {mapped : Bool}
    (h : mappingNeeded b isLast hop = .ok mapped) : mapped = maps b isLast hop := by
  unfold mappingNeeded at h
  unfold maps
  cases hm : hop.needMapping with
  | false => simpa [hm] using h.symm
  | true =>
    cases isLast with
    | false => simpa [hm] using h.symm
    | true =>
      cases hu : isUsingMatsuriExe b.env (pluginId hop) with
      | true => simpa [hm, hu] using h.symm
      | false =>
        simp only [hm, hu, Bool.not_true, Bool.false_eq_true, if_false] at h
        split at h
        · cases h
        · simpa using h.symm

/-- What emitting a hop does to the view of the chain and to the shared collections. -/
structure EmitSpec (b : Build) (chainId : Int) (isLast : Bool) (tagOut : String)
    (hop : Profile) (l l' : Loop) : Prop where
  chain : l'.chainOutbounds.map Outbound.view =
    ⟨tagOut, some hop, if maps b isLast hop then some (mappingTag chainId hop) else none, none,
      []⟩ :: l.chainOutbounds.map Outbound.view
  past : l'.pastEntity = some hop
  inboundTag : maps b isLast hop = true → l'.pastInboundTag = mappingTag chainId hop
  chainTagOut : l'.chainTagOut = l.chainTagOut
  inbounds : l'.shared.inbounds.map Inbound.tag = l.shared.inbounds.map Inbound.tag ++
    if maps b isLast hop then [mappingTag chainId hop] else []
  rules : l'.shared.rules = l.shared.rules ++
    if maps b isLast hop ∧ isLast then
      [{ inbound := [mappingTag chainId hop], outbound := some TAG_DIRECT }] else []
  globalOutbounds : l'.shared.globalOutbounds = l.shared.globalOutbounds
  selectorNames : l'.shared.selectorNames = l.shared.selectorNames
  beans : l'.shared.bypassDNSBeans = l.shared.bypassDNSBeans
  domains : l'.shared.groupNsDomains = l.shared.groupNsDomains
  kept : l.shared.Kept l'.shared

theorem internalBody_members {body : OutboundBody}
    (h : internalBody b hop = .ok body) : body.members = [] := by
  unfold internalBody at h
  split at h
  · cases h
    rfl
  iterate 5 cases h
  split at h
  · cases h
    rfl
  · cases h

theorem openBody_frame {body : OutboundBody} (h : openBody b hop l = .ok (body, l')) :
    body.members = [] ∧ ∃ ports external, l' = { l with
      externalChainMap := external
      shared := { l.shared with ports := ports } } := by
  unfold openBody at h
  split at h
  · cases h
    exact ⟨rfl, _, _, rfl⟩
  · simp only [bind_ok, pure_ok, Prod.mk.injEq] at h
    obtain ⟨_, made, rfl, rfl⟩ := h
    exact ⟨internalBody_members made, _, _, rfl⟩

theorem noteForced_frame (b : Build) (past : Option Profile) (s : Shared) :
    ∃ forced, noteForced b past s = { s with domainListDNSDirectForce := forced } ∧
      ∀ d ∈ forced, d ∈ s.domainListDNSDirectForce ∨ ∃ a, d = full a := by
  have same : ∀ d ∈ s.domainListDNSDirectForce,
      d ∈ s.domainListDNSDirectForce ∨ ∃ a, d = full a := fun _ hd => .inl hd
  cases past with
  | none => exact ⟨_, rfl, same⟩
  | some past =>
    simp only [noteForced]
    split
    · refine ⟨_, rfl, ?_⟩
      intro d hd
      rcases List.mem_append.mp hd with hd | hd
      · exact .inl hd
      · exact .inr ⟨past.bean.serverAddress, List.mem_singleton.mp hd⟩
    · exact ⟨_, rfl, same⟩

theorem emitHop_spec {isLast : Bool} {tagOut : String}
    (h : emitHop b chainId isLast tagOut hop l = .ok l') :
    EmitSpec b chainId isLast tagOut hop l l' := by
  unfold emitHop at h
  simp only [bind_ok, pure_ok, Prod.exists] at h
  obtain ⟨body, l₁, opened, mapped, needed, rfl⟩ := h
  obtain ⟨members, ports, external, rfl⟩ := openBody_frame opened
  obtain ⟨forced, hf, isFull⟩ := noteForced_frame b l.pastEntity { l.shared with ports := ports }
  have hm := mappingNeeded_eq needed
  simp only [hf]
  cases mapped with
  | false =>
    constructor <;> simp [← hm, Outbound.view, members]
    exact ⟨rfl, rfl, rfl, isFull⟩
  | true =>
    cases isLast <;> constructor <;> simp [← hm, addMapping, Inbound.tag, Outbound.view, members] <;>
      exact ⟨rfl, rfl, rfl, isFull⟩

/-- The hop's domain is one the nameservers of the selected group are asked for. -/
def AsksGroup (b : Build) (hop : Profile) : Prop :=
  groupNameservers b ≠ [] ∧ hop.groupId = b.proxy.groupId ∧
    isBlank hop.bean.serverAddress = false ∧ isIpAddress hop.bean.serverAddress = false

theorem noteGroupDomain_frame (b : Build) (hop : Profile) (s : Shared) :
    ∃ domains, noteGroupDomain b hop s = { s with groupNsDomains := domains } ∧
      ∀ d, d ∈ domains ↔ d ∈ s.groupNsDomains ∨ AsksGroup b hop ∧ hop.bean.serverAddress = d := by
  unfold noteGroupDomain
  by_cases asks : AsksGroup b hop
  · have h := asks
    obtain ⟨ns, group, blank, ip⟩ := h
    have ns : (groupNameservers b).isEmpty = false := by simpa using ns
    by_cases known : hop.bean.serverAddress ∈ s.groupNsDomains
    · refine ⟨s.groupNsDomains, by simp [known], ?_⟩
      intro d
      constructor
      · exact Or.inl
      · rintro (h | ⟨_, rfl⟩)
        · exact h
        · exact known
    · refine ⟨s.groupNsDomains ++ [hop.bean.serverAddress], by simp
        [ns, group, blank, ip, known], ?_⟩
      intro d
      simp only [List.mem_append, List.mem_singleton, asks, true_and, eq_comm]
  · refine ⟨s.groupNsDomains, ?_, by simp [asks]⟩
    dsimp only
    split
    · rename_i h
      simp only [Bool.and_eq_true, Bool.not_eq_true', List.isEmpty_eq_false_iff, beq_iff_eq] at h
      exact absurd ⟨h.1.1.1.1, h.1.1.1.2, h.1.1.2, h.1.2⟩ asks
    · rfl

/-- A loop with a newest hop, at the place `p`, that is not linked yet. -/
structure Open (chainId : Int) (p : Place) (past : Profile) (older : List View) (l : Loop) :
    Prop where
  entity : l.pastEntity = some past
  chain : l.chainOutbounds.map Outbound.view =
    ⟨p.text, some past, if past.needMapping then some (mappingTag chainId past) else none, none,
      []⟩ :: older
  inboundTag : past.needMapping = true → l.pastInboundTag = mappingTag chainId past

/-- Linking the newest hop completes its leg. -/
structure LinkSpec (b : Build) (chainId : Int) (leg : Leg) (older : List View) (l l' : Loop) :
    Prop where
  chain : l'.chainOutbounds.map Outbound.view = leg.view b chainId :: older
  rules : l'.shared.rules = l.shared.rules ++ leg.rules b chainId
  rest : ∃ outs rules, l' = { l with chainOutbounds := outs, shared :=
    { l.shared with rules := rules } }

theorem linkPast_spec {p q : Place} (h : Open chainId p past older l) :
    LinkSpec b chainId ⟨p, past, some q⟩ older l (linkPast q.text l) := by
  obtain ⟨hp, hc, ht⟩ := h
  cases hm : past.needMapping with
  | true =>
    simp only [hm, if_true] at hc
    constructor
    · simp [linkPast, hp, hm, hc, Leg.view, Leg.mapping, Leg.detour, maps]
    · simp [linkPast, hp, hm, Leg.rules, Leg.mapping, maps, ht hm]
    · exact ⟨l.chainOutbounds, _, by simp [linkPast, hp, hm]; rfl⟩
  | false =>
    simp only [hm, Bool.false_eq_true, if_false] at hc
    obtain ⟨o, os, ho⟩ : ∃ o os, l.chainOutbounds = o :: os := by
      cases hl : l.chainOutbounds with
      | nil => simp [hl] at hc
      | cons o os => exact ⟨o, os, rfl⟩
    simp only [ho, List.map_cons, List.cons.injEq, Outbound.view, View.mk.injEq] at hc
    obtain ⟨⟨tag, hop, mapping, _, members⟩, rest⟩ := hc
    constructor
    · simp [linkPast, hp, hm, ho, setDetour, Outbound.view, tag, hop, mapping, members, rest,
        Leg.view, Leg.mapping, Leg.detour, maps]
    · simp [linkPast, hp, hm, Leg.rules, Leg.mapping, maps]
    · exact ⟨_, l.shared.rules, by simp [linkPast, hp, hm]; rfl⟩

/-- The hop dialled first has a complete leg as soon as it is emitted. -/
theorem EmitSpec.closes {q : Place} (h : EmitSpec b chainId true q.text x l l') :
    let leg : Leg := ⟨q, x, none⟩
    l'.chainOutbounds.map Outbound.view =
        leg.view b chainId :: l.chainOutbounds.map Outbound.view ∧
      l'.shared.inbounds.map Inbound.tag =
        l.shared.inbounds.map Inbound.tag ++ (leg.mapping b chainId).toList ∧
      l'.shared.rules = l.shared.rules ++ leg.rules b chainId := by
  refine ⟨?_, ?_, ?_⟩
  · simpa [Leg.view, Leg.mapping, Leg.detour] using h.chain
  · rw [h.inbounds]
    cases hm : maps b true x <;> simp [Leg.mapping, hm]
  · rw [h.rules]
    cases hm : maps b true x <;> simp [Leg.rules, Leg.mapping, hm]

/-- Any other hop is emitted with its link still missing. -/
theorem EmitSpec.opens {q : Place} (h : EmitSpec b chainId false q.text x l l') (next : Place) :
    let leg : Leg := ⟨q, x, some next⟩
    Open chainId q x (l.chainOutbounds.map Outbound.view) l' ∧
      l'.shared.inbounds.map Inbound.tag =
        l.shared.inbounds.map Inbound.tag ++ (leg.mapping b chainId).toList ∧
      l'.shared.rules = l.shared.rules := by
  refine ⟨⟨h.past, ?_, ?_⟩, ?_, ?_⟩
  · simpa [maps] using h.chain
  · intro hm
    exact h.inboundTag (by simpa [maps] using hm)
  · rw [h.inbounds]
    cases hm : x.needMapping <;> simp [Leg.mapping, maps, hm]
  · simpa using h.rules

/-! ## The rounds behind the exit -/

/-- What is written from a loop with an open hop on: the legs from that hop, and the
notes about the hops in `hops`. -/
structure Wrote (b : Build) (chainId : Int) (legs : List Leg) (older : List View)
    (hops : List Profile) (l l' : Loop) : Prop where
  chain : l'.chainOutbounds.map Outbound.view =
    (legs.map (Leg.view b chainId)).reverse ++ older
  inbounds : l'.shared.inbounds.map Inbound.tag = l.shared.inbounds.map Inbound.tag ++
    legs.tail.filterMap (Leg.mapping b chainId)
  rules : l'.shared.rules = l.shared.rules ++ legs.flatMap (Leg.rules b chainId)
  chainTagOut : l'.chainTagOut = l.chainTagOut
  selectorNames : l'.shared.selectorNames = l.shared.selectorNames
  beans : l'.shared.bypassDNSBeans = l.shared.bypassDNSBeans ++
    (hops.getLast?.map (·.bean)).toList
  domains : ∀ d, d ∈ l'.shared.groupNsDomains ↔ d ∈ l.shared.groupNsDomains ∨
    ∃ h ∈ hops, AsksGroup b h ∧ h.bean.serverAddress = d
  kept : l.shared.Kept l'.shared

/-- Register the outbound of the hop dialled first unless it is there. -/
def register (global : Map Int String) (id : Int) (tag : String) : Map Int String :=
  if (global.lookup id).isSome then global else global.insert id tag

theorem register_lookup (global : Map Int String) (k id : Int) (tag : String) :
    (register global k tag).lookup id =
      (global.lookup id).or (if k = id then some tag else none) := by
  unfold register
  by_cases same : k = id
  · subst same
    cases known : global.lookup k <;> simp [known]
  · rw [if_neg same, Option.or_none]
    split
    · rfl
    · exact AList.lookup_insert_ne (Ne.symm same)

theorem buildHop_last {index : Nat} {p : Place} (later : index ≠ 0)
    (isOpen : Open chainId p past older l) (h : buildHop b chainId entity index true x l = .ok l') :
    let legs : List Leg := [⟨p, past, some (.entry x.id)⟩, ⟨.entry x.id, x, none⟩]
    Wrote b chainId (if (l.shared.globalOutbounds.lookup x.id).isSome then legs.dropLast else legs)
        older [x] l l' ∧
      l'.shared.globalOutbounds =
        register l.shared.globalOutbounds x.id (Place.entry x.id).text := by
  obtain ⟨domains, hd, mem⟩ := noteGroupDomain_frame b x l.shared
  have tag : ∀ names, hopTag b chainId entity x index true names = (Place.entry x.id).text := by
    intro names
    simp [hopTag, later, Place.text]
  simp only [buildHop, noteBypass, hd, tag, noteName, later, and_false, if_false, if_true] at h
  have noted : Open chainId p past older { l with shared := { l.shared with
      groupNsDomains := domains, bypassDNSBeans := l.shared.bypassDNSBeans ++ [x.bean] } } :=
    ⟨isOpen.entity, isOpen.chain, isOpen.inboundTag⟩
  obtain ⟨chain, rules, outs, newRules, eq⟩ := linkPast_spec (b := b) (q := .entry x.id) noted
  rw [eq] at h chain rules
  dsimp only at h chain rules
  cases known : l.shared.globalOutbounds.lookup x.id with
  | some tag =>
    simp only [known, Except.ok.injEq] at h
    subst h
    refine ⟨⟨?_, ?_, ?_, rfl, rfl, ?_, ?_, ⟨rfl, rfl, rfl, fun _ hd => .inl hd⟩⟩, ?_⟩
    · simpa using chain
    · simp
    · simpa using rules
    · simp
    · intro d
      simpa using mem d
    · simp [register, known]
  | none =>
    simp only [known] at h
    have spec := emitHop_spec h
    obtain ⟨chain', inbounds', rules'⟩ := spec.closes
    refine ⟨⟨?_, ?_, ?_, spec.chainTagOut, spec.selectorNames, ?_, ?_,
      ⟨spec.kept.outbounds, spec.kept.trafficMap, spec.kept.builtProfiles, spec.kept.forced⟩⟩, ?_⟩
    · simpa [chain] using chain'
    · rw [inbounds']
      cases hm : Leg.mapping b chainId ⟨.entry x.id, x, none⟩ <;> simp [hm]
    · simpa [rules] using rules'
    · simpa using spec.beans
    · intro d
      rw [spec.domains]
      simpa using mem d
    · rw [spec.globalOutbounds]
      simp [register, known]

/-- A middle hop links the one before and is open itself. -/
theorem buildHop_middle {index : Nat} {p : Place} (later : index ≠ 0) (next : Place)
    (isOpen : Open chainId p past older l) (h : buildHop b chainId entity index false x l = .ok l') :
    let q := Place.inner chainId x.id
    let leg : Leg := ⟨p, past, some q⟩
    Open chainId q x (leg.view b chainId :: older) l' ∧
      l'.shared.inbounds.map Inbound.tag = l.shared.inbounds.map Inbound.tag ++
        (Leg.mapping b chainId ⟨q, x, some next⟩).toList ∧
      l'.shared.rules = l.shared.rules ++ leg.rules b chainId ∧
      l'.shared.globalOutbounds = l.shared.globalOutbounds ∧
      l'.chainTagOut = l.chainTagOut ∧
      l'.shared.selectorNames = l.shared.selectorNames ∧
      l'.shared.bypassDNSBeans = l.shared.bypassDNSBeans ∧
      (∀ d, d ∈ l'.shared.groupNsDomains ↔ d ∈ l.shared.groupNsDomains ∨
        AsksGroup b x ∧ x.bean.serverAddress = d) ∧
      l.shared.Kept l'.shared := by
  obtain ⟨domains, hd, mem⟩ := noteGroupDomain_frame b x l.shared
  have tag : ∀ names, hopTag b chainId entity x index false names =
      (Place.inner chainId x.id).text := by
    intro names
    simp [hopTag, later, Place.text]
  simp only [buildHop, noteBypass, hd, tag, noteName, later, and_false, if_false,
    Bool.false_eq_true] at h
  have noted : Open chainId p past older { l with shared := { l.shared with
      groupNsDomains := domains } } := ⟨isOpen.entity, isOpen.chain, isOpen.inboundTag⟩
  obtain ⟨chain, rules, outs, newRules, eq⟩ :=
    linkPast_spec (b := b) (q := .inner chainId x.id) noted
  rw [eq] at h chain rules
  dsimp only at h chain rules
  have spec := emitHop_spec h
  obtain ⟨opened, inbounds', rules'⟩ := spec.opens next
  refine ⟨?_, inbounds', ?_, spec.globalOutbounds, spec.chainTagOut, spec.selectorNames,
    spec.beans, ?_, ⟨spec.kept.outbounds, spec.kept.trafficMap, spec.kept.builtProfiles,
      spec.kept.forced⟩⟩
  · simpa [chain] using opened
  · simpa [rules] using rules'
  · intro d
    rw [spec.domains]
    exact mem d

/-- The legs of a list of hops, without the last when its outbound exists. -/
def unlessKnown (global : Map Int String) (id : Int) (legs : List Leg) : List Leg :=
  if (global.lookup id).isSome then legs.dropLast else legs

theorem legsFrom_ne_nil (p : Place) (h : Profile) (t : List (Place × Profile)) :
    legsFrom p h t ≠ [] := by
  cases t <;> simp [legsFrom]

theorem restPlaces_ne_nil (chainId : Int) (h : Profile) (t : List Profile) :
    restPlaces chainId (h :: t) ≠ [] := by
  cases t <;> simp [restPlaces]

theorem unlessKnown_cons (global : Map Int String) (id : Int) (leg : Leg) {legs : List Leg}
    (h : legs ≠ []) : unlessKnown global id (leg :: legs) = leg :: unlessKnown global id legs := by
  unfold unlessKnown
  split
  · exact List.dropLast_cons_of_ne_nil h
  · rfl

/-- The rounds behind the exit write the remaining legs. The induction is on the hops
still to come, with the newest hop open. -/
theorem buildHops_rest (x : Profile) (t : List Profile) {index : Nat} {p : Place}
    (later : index ≠ 0) (isOpen : Open chainId p past older l)
    (h : buildHops b chainId entity index (x :: t) l = .ok l') : ∃ y, (x :: t).getLast? = some y ∧
      Wrote b chainId (unlessKnown l.shared.globalOutbounds y.id
        (legsFrom p past (restPlaces chainId (x :: t)))) older (x :: t) l l' ∧
      l'.shared.globalOutbounds =
        register l.shared.globalOutbounds y.id (Place.entry y.id).text := by
  induction t generalizing x index past p older l with
  | nil =>
    simp only [buildHops, List.isEmpty_nil, bind_ok, Except.ok.injEq] at h
    obtain ⟨l₁, round, rfl⟩ := h
    exact ⟨x, rfl, buildHop_last later isOpen round⟩
  | cons z t ih =>
    rw [buildHops, bind_ok] at h
    obtain ⟨l₁, round, rest⟩ := h
    obtain ⟨⟨q, g⟩, places, behind⟩ := List.exists_cons_of_ne_nil (restPlaces_ne_nil chainId z t)
    obtain ⟨opened, inbounds, rules, global, chainTagOut, names, beans, domains, kept⟩ :=
      buildHop_middle later q isOpen round
    obtain ⟨y, last, wrote, registered⟩ := ih z (by omega) opened rest
    rw [behind, legsFrom, global, unlessKnown_cons _ _ _ (legsFrom_ne_nil q g places)] at wrote
    refine ⟨y, by simpa using last, ?_, by rw [registered, global]⟩
    rw [restPlaces, legsFrom, behind, legsFrom, unlessKnown_cons _ _ _ (List.cons_ne_nil _ _),
      unlessKnown_cons _ _ _ (legsFrom_ne_nil q g places)]
    refine ⟨?_, ?_, ?_, wrote.chainTagOut.trans chainTagOut, wrote.selectorNames.trans names, ?_,
      ?_, kept.trans wrote.kept⟩
    · rw [wrote.chain]
      simp
    · rw [wrote.inbounds, inbounds]
      cases hm : Leg.mapping b chainId ⟨.inner chainId x.id, x, some q⟩ <;> simp [hm]
    · rw [wrote.rules, rules]
      simp
    · rw [wrote.beans, beans]
      simp
    · intro d
      rw [wrote.domains, domains]
      simp only [List.mem_cons, exists_eq_or_imp, or_assoc]

theorem firstPlace_text (b : Build) (chainId : Int) (entity x : Profile) (t : List Profile)
    (names : List String) : hopTag b chainId entity x 0 t.isEmpty names =
      (firstPlace b chainId entity (x :: t) names).text := by
  unfold hopTag firstPlace
  by_cases hs : b.buildSelector = true
  · simp [hs, Place.text]
  · by_cases hc : chainId = 0
    · simp [hs, hc, Place.text]
    · cases t <;> simp [hs, hc, Place.text]

theorem noteName_zero (b : Build) (tagOut : String) (s : Shared) : noteName b 0 tagOut s = { s with
      selectorNames := s.selectorNames ++ if b.buildSelector then [tagOut] else [] } := by
  unfold noteName
  by_cases hs : b.buildSelector = true <;> simp [hs]

/-- What all rounds of a call do, in terms of the legs of its hops. -/
structure ChainSpec (b : Build) (chainId : Int) (first : Place) (x : Profile) (t : List Profile)
    (y : Profile) (s : Shared) (l : Loop) : Prop where
  chain : l.chainOutbounds.map Outbound.view =
    ((unlessKnown s.globalOutbounds y.id (legsFrom first x (restPlaces chainId t))).map
      (Leg.view b chainId)).reverse
  inbounds : l.shared.inbounds.map Inbound.tag = s.inbounds.map Inbound.tag ++
    (unlessKnown s.globalOutbounds y.id (legsFrom first x (restPlaces chainId t))).filterMap
      (Leg.mapping b chainId)
  rules : l.shared.rules = s.rules ++
    (unlessKnown s.globalOutbounds y.id (legsFrom first x (restPlaces chainId t))).flatMap
      (Leg.rules b chainId)
  chainTagOut : l.chainTagOut =
    if t = [] then (s.globalOutbounds.lookup y.id).getD first.text else first.text
  globalOutbounds : l.shared.globalOutbounds = register s.globalOutbounds y.id
    (if t = [] then first.text else (Place.entry y.id).text)
  selectorNames : l.shared.selectorNames =
    s.selectorNames ++ if b.buildSelector then [first.text] else []
  beans : l.shared.bypassDNSBeans = s.bypassDNSBeans ++ [y.bean]
  domains : ∀ d, d ∈ l.shared.groupNsDomains ↔ d ∈ s.groupNsDomains ∨
    ∃ h ∈ x :: t, AsksGroup b h ∧ h.bean.serverAddress = d
  kept : s.Kept l.shared

theorem buildHops_spec {t : List Profile}
    (h : buildHops b chainId entity 0 (x :: t) { shared := s } = .ok l) :
    ∃ y, (x :: t).getLast? = some y ∧
      ChainSpec b chainId (firstPlace b chainId entity (x :: t) s.selectorNames) x t y s l := by
  rw [buildHops, bind_ok] at h
  obtain ⟨l₁, round, rest⟩ := h
  obtain ⟨domains, hd, mem⟩ := noteGroupDomain_frame b x s
  generalize hf : firstPlace b chainId entity (x :: t) s.selectorNames = first
  have tag : hopTag b chainId entity x 0 t.isEmpty s.selectorNames = first.text := by
    rw [← hf, firstPlace_text]
  cases t with
  | nil =>
    simp only [buildHops, Except.ok.injEq] at rest
    subst rest
    refine ⟨x, rfl, ?_⟩
    simp only [List.isEmpty_nil] at tag
    simp only [buildHop, List.isEmpty_nil, noteBypass, if_true, hd, tag, linkPast,
      noteName_zero] at round
    cases known : s.globalOutbounds.lookup x.id with
    | some found =>
      simp only [known, Except.ok.injEq] at round
      subst round
      constructor <;> simp [unlessKnown, known, register, legsFrom, restPlaces]
      · simpa using mem
      · exact ⟨rfl, rfl, rfl, fun _ hd => .inl hd⟩
    | none =>
      simp only [known] at round
      have spec := emitHop_spec round
      obtain ⟨chain, inbounds, rules⟩ := spec.closes
      have legs : unlessKnown s.globalOutbounds x.id (legsFrom first x (restPlaces chainId [])) =
          [⟨first, x, none⟩] := by simp [unlessKnown, known, legsFrom, restPlaces]
      refine ⟨?_, ?_, ?_, ?_, ?_, spec.selectorNames, spec.beans, ?_,
        ⟨spec.kept.outbounds, spec.kept.trafficMap, spec.kept.builtProfiles, spec.kept.forced⟩⟩
      · simpa [legs] using chain
      · rw [inbounds, legs]
        cases hm : Leg.mapping b chainId ⟨first, x, none⟩ <;> simp [hm]
      · simpa [legs] using rules
      · simpa [known] using spec.chainTagOut
      · rw [spec.globalOutbounds]
        simp [register, known]
      · intro d
        rw [spec.domains]
        simpa using mem d
  | cons z t =>
    simp only [List.isEmpty_cons] at tag
    simp only [buildHop, List.isEmpty_cons, noteBypass, hd, tag, linkPast, Bool.false_eq_true,
      if_false, noteName_zero] at round
    obtain ⟨⟨q, g⟩, places, behind⟩ := List.exists_cons_of_ne_nil (restPlaces_ne_nil chainId z t)
    have spec := emitHop_spec round
    obtain ⟨opened, inbounds, rules⟩ := spec.opens q
    obtain ⟨y, last, wrote, registered⟩ := buildHops_rest z t (by omega) opened rest
    rw [spec.globalOutbounds] at wrote registered
    dsimp only at wrote registered
    refine ⟨y, by simpa using last, ?_⟩
    rw [behind, legsFrom, unlessKnown_cons _ _ _ (legsFrom_ne_nil q g places)] at wrote
    refine ⟨?_, ?_, ?_, ?_, ?_, wrote.selectorNames.trans spec.selectorNames, ?_, ?_, ?_⟩
    · rw [wrote.chain, behind, legsFrom, unlessKnown_cons _ _ _ (legsFrom_ne_nil q g places)]
      simp
    · rw [wrote.inbounds, inbounds, behind, legsFrom,
        unlessKnown_cons _ _ _ (legsFrom_ne_nil q g places)]
      cases hm : Leg.mapping b chainId ⟨first, x, some q⟩ <;> simp [hm]
    · rw [wrote.rules, rules, behind, legsFrom,
        unlessKnown_cons _ _ _ (legsFrom_ne_nil q g places)]
    · rw [wrote.chainTagOut, spec.chainTagOut]
      simp
    · rw [registered]
      simp
    · rw [wrote.beans, spec.beans, last]
      rfl
    · intro d
      rw [wrote.domains, spec.domains]
      dsimp only
      rw [mem]
      simp only [List.mem_cons, exists_eq_or_imp, or_assoc]
    · have kept := spec.kept.trans wrote.kept
      exact ⟨kept.outbounds, kept.trafficMap, kept.builtProfiles, kept.forced⟩

/-! ## The shared collections -/

/-- The shared collections hold what the calls so far write, behind `head`. -/
structure Realises (b : Build) (head : List View) (s : Shared) (calls : List Call) : Prop where
  outbounds : s.outbounds.map Outbound.view = head ++ calls.flatMap (Call.views b)
  inbounds : s.inbounds.map Inbound.tag =
    (baseInbounds b).map Inbound.tag ++ calls.flatMap (Call.inboundTags b)
  rules : s.rules = calls.flatMap (Call.rules b)
  names : s.selectorNames = issuedNames b calls
  global : ∀ id, s.globalOutbounds.lookup id = (registered calls id).map Place.text
  traffic : ∀ t, s.trafficMap.lookup t =
    (calls.reverse.find? (·.exit.text == t)).map Call.traffic
  built : ∀ id, (registered calls id).isSome → id ∈ s.builtProfiles
  beans : s.bypassDNSBeans = calls.flatMap fun c => (c.entryHop.map (·.bean)).toList
  domains : ∀ d, d ∈ s.groupNsDomains ↔
    ∃ c ∈ calls, ∃ h ∈ c.hops, AsksGroup b h ∧ h.bean.serverAddress = d
  resolved : ∀ c ∈ calls, resolveChain b.db c.entity = .ok c.hops ∧ c.hops ≠ []
  forced : ∀ d ∈ s.domainListDNSDirectForce, ∃ a, d = full a

theorem realises_nil (b : Build) : Realises b [] { inbounds := baseInbounds b } [] := by
  constructor <;> simp [registered, issuedNames]

/-- The first chain to dial a hop first settles where it is. -/
theorem registered_append (calls : List Call) (c : Call) (id : Int) :
    registered (calls ++ [c]) id = (registered calls id).or
      (if c.entryHop.map (·.id) = some id then some c.entryPlace else none) := by
  simp only [registered, List.find?_append, Option.map_or]
  congr 1
  by_cases h : c.entryHop.map (·.id) = some id <;> simp [h]

/-- A call in terms of its first and last hop. -/
structure CallShape (b : Build) (calls : List Call) (chainId : Int) (e x : Profile)
    (t : List Profile) (y : Profile) (c : Call) : Prop where
  hops : c.hops = x :: t
  last : c.entryHop = some y
  first : c.first = firstPlace b chainId e (x :: t) (issuedNames b calls)
  reused : c.reused = registered calls y.id

theorem planCall_shape {calls : List Call} {e y : Profile} {t : List Profile}
    (resolved : resolveChain b.db e = .ok (x :: t)) (last : (x :: t).getLast? = some y) :
    CallShape b calls chainId e x t y (planCall b calls chainId e) := by
  have hops : hopsOf b.db e = x :: t := by simp [hopsOf, resolved, Except.toOption]
  constructor <;> simp only [planCall, hops, Call.entryHop, last, Option.bind_some]

namespace CallShape

variable {b : Build} {calls : List Call} {chainId : Int} {e x y : Profile} {t : List Profile}
  {c : Call}

theorem emitted (h : CallShape b calls chainId e x t y c) (s : Shared)
    (known : s.globalOutbounds.lookup y.id = (registered calls y.id).map Place.text) :
    unlessKnown s.globalOutbounds y.id (legsFrom c.first x (restPlaces c.chainId t)) =
      c.emitted := by
  simp only [unlessKnown, Call.emitted, Call.legs, h.hops, h.reused, known, Option.isSome_map]

theorem exit_text (h : CallShape b calls chainId e x t y c) :
    c.exit.text = if t = [] then ((registered calls y.id).map Place.text).getD c.first.text
      else c.first.text := by
  cases t with
  | nil =>
    simp only [Call.exit, h.hops, h.reused, if_true]
    cases registered calls y.id <;> rfl
  | cons z t => simp [Call.exit, h.hops]

theorem entryPlace_text (h : CallShape b calls chainId e x t y c) :
    c.entryPlace.text = if t = [] then c.first.text else (Place.entry y.id).text := by
  cases t with
  | nil => simp [Call.entryPlace, h.hops]
  | cons z t => simp [Call.entryPlace, h.hops, h.last]

end CallShape

/-- A call of `buildChain` returns the tag of the planned exit and adds the planned
call to what the shared collections hold. -/
theorem buildChain_realises {s' : Shared} {calls : List Call} {e : Profile} {tag : String}
    (hr : Realises b head s calls)
    (h : buildChain b chainId e s = .ok (tag, s')) :
    let c := planCall b calls chainId e
    tag = c.exit.text ∧ Realises b head s' (calls ++ [c]) := by
  intro c
  unfold buildChain at h
  rw [bind_ok] at h
  obtain ⟨hops, resolved, h⟩ := h
  obtain _ | ⟨x, t⟩ := hops
  · simp at h
  simp only [List.isEmpty_cons, Bool.false_eq_true, if_false, bind_ok, pure_ok, Prod.mk.injEq] at h
  obtain ⟨l, rounds, rfl, rfl⟩ := h
  obtain ⟨y, last, spec⟩ := buildHops_spec rounds
  have shape : CallShape b calls chainId e x t y c := planCall_shape resolved last
  have first : firstPlace b chainId e (x :: t) s.selectorNames = c.first := by
    rw [shape.first, hr.names]
  have legs := shape.emitted s (hr.global y.id)
  rw [first] at spec
  have returned : l.chainTagOut = c.exit.text := by
    rw [spec.chainTagOut, shape.exit_text, ← hr.global]
  refine ⟨returned, ?_⟩
  constructor
  · have out := spec.kept.outbounds
    have chain : l.chainOutbounds.reverse.map Outbound.view = c.views b := by
      rw [List.map_reverse, spec.chain, List.reverse_reverse]
      exact congrArg (List.map (Leg.view b c.chainId)) legs
    simp only [List.map_append, chain, out, hr.outbounds, List.flatMap_append,
      List.flatMap_singleton, List.append_assoc]
  · have added := spec.inbounds
    simp only [added, hr.inbounds, List.flatMap_append, List.flatMap_singleton, List.append_assoc]
    exact congrArg (fun legs => _ ++ (_ ++ List.filterMap (Leg.mapping b c.chainId) legs)) legs
  · have added := spec.rules
    simp only [added, hr.rules, List.flatMap_append, List.flatMap_singleton]
    exact congrArg (fun legs => _ ++ List.flatMap (Leg.rules b c.chainId) legs) legs
  · have added := spec.selectorNames
    simp only [added, hr.names, issuedNames]
    split <;> simp
  · intro id
    have added := spec.globalOutbounds
    simp only [added, register_lookup, registered_append, shape.last, hr.global, Option.map_or,
      Option.map_some, Option.some.injEq]
    congr 1
    split
    · rw [Option.map_some, shape.entryPlace_text]
    · rfl
  · intro u
    have kept := spec.kept.trafficMap
    simp only [kept, returned, List.reverse_append, List.reverse_singleton,
      List.singleton_append, List.find?_cons]
    by_cases same : c.exit.text = u
    · subst same
      simp [AList.lookup_insert, Call.traffic, shape.hops]
      rfl
    · have other : (c.exit.text == u) = false := by simpa using same
      rw [AList.lookup_insert_ne (Ne.symm same), other]
      exact hr.traffic u
  · intro id known
    have kept := spec.kept.builtProfiles
    simp only [kept, List.mem_append]
    rw [registered_append, shape.last] at known
    cases old : registered calls id with
    | some place => exact .inl (hr.built id (by simp [old]))
    | none =>
      right
      have same : y.id = id := by
        by_contra other
        simp [old, other] at known
      have hy : y ∈ x :: t := List.mem_of_getLast? last
      exact List.mem_cons_of_mem _ (same ▸ List.mem_map_of_mem hy)
  · have added := spec.beans
    simp only [added, hr.beans, List.flatMap_append, List.flatMap_singleton, shape.last]
    rfl
  · intro d
    have added := spec.domains d
    simp only [added, hr.domains, List.mem_append, List.mem_singleton, or_and_right, exists_or,
      exists_eq_left, shape.hops]
  · intro d hd
    rcases List.mem_append.mp hd with hd | hd
    · exact hr.resolved d hd
    · have := List.mem_singleton.mp hd
      subst this
      exact ⟨by rw [shape.hops]; exact resolved, by simp [shape.hops]⟩
  · intro d hd
    rcases spec.kept.forced d hd with old | new
    · exact hr.forced d old
    · exact new

/-- The place a plan gave last to the profile with this id. -/
def Plan.tag (q : Plan) (id : Int) : Option Place :=
  (q.tags.reverse.find? (·.1 == id)).map (·.2)

theorem Plan.tag_append (q : Plan) (calls : List Call) (k : Int) (place : Place) (id : Int) :
    ({ calls, tags := q.tags ++ [(k, place)] } : Plan).tag id =
      if k = id then some place else q.tag id := by
  simp only [Plan.tag, List.reverse_append, List.reverse_singleton, List.singleton_append,
    List.find?_cons]
  by_cases same : k = id
  · simp [same]
  · have other : (k == id) = false := by simpa using same
    simp [same, other]

/-- The collections and the tag map of a build that has come as far as the plan. -/
structure Follows (b : Build) (head : List View) (p : Progress) (q : Plan) : Prop where
  shared : Realises b head p.shared q.calls
  tags : ∀ id, p.tagMap.lookup id = (q.tag id).map Place.text

theorem Follows.assign {q : Plan} (h : Follows b head p q) {calls : List Call} (k : Int)
    (place : Place) (shared : Realises b head s calls) :
    Follows b head { shared := s, tagMap := p.tagMap.insert k place.text }
      { calls, tags := q.tags ++ [(k, place)] } := by
  refine ⟨shared, ?_⟩
  intro id
  rw [Plan.tag_append]
  by_cases same : k = id
  · subst same
    simp [AList.lookup_insert]
  · rw [AList.lookup_insert_ne (Ne.symm same), h.tags, if_neg same]

/-- Building a listed profile is planning it. -/
theorem buildListed_follows {p' : Progress} {q : Plan} {e : Profile} (h : Follows b head p q)
    (built : buildListed b p e = .ok p') : Follows b head p' (q.request b e) := by
  have global := h.shared.global e.id
  unfold Plan.request
  cases known : registered q.calls e.id with
  | some place =>
    have listed := h.shared.built e.id (by simp [known])
    rw [known] at global
    simp only [buildListed, listed, if_true, global, Option.map_some, pure_ok] at built
    subst built
    exact h.assign e.id place h.shared
  | none =>
    rw [known] at global
    simp only [buildListed, global, Option.map_none, ite_self, bind_ok, pure_ok, Prod.exists]
      at built
    obtain ⟨tag, s, chain, rfl⟩ := built
    obtain ⟨rfl, realised⟩ := buildChain_realises h.shared chain
    exact h.assign e.id _ realised

theorem forEach_follows {es : List Profile} {p' : Progress}
    {q : Plan} (h : Follows b head p q) (run : forEach (buildListed b) es p = .ok p') :
    Follows b head p' (es.foldl (Plan.request b) q) := by
  induction es generalizing p q with
  | nil =>
    simp only [forEach, Except.ok.injEq] at run
    exact run ▸ h
  | cons e es ih =>
    simp only [forEach, bind_ok] at run
    obtain ⟨p₁, round, rest⟩ := run
    exact ih (buildListed_follows h round) rest

/-- The selector, which stands before all outbounds of chains. -/
def headViews (b : Build) (p : Progress) : List View :=
  if b.buildSelector then [(selectorOutbound b p.tagMap).view] else []

theorem buildSelected_follows (h : buildSelected b = .ok p) :
    Follows b (headViews b p) p (planSelected b) := by
  unfold buildSelected at h
  unfold planSelected headViews
  cases hs : b.buildSelector with
  | true =>
    simp only [hs, if_true, bind_ok, pure_ok] at h
    obtain ⟨p₁, members, rfl⟩ := h
    have start : Follows b [] { shared := { inbounds := baseInbounds b } } {} :=
      ⟨realises_nil b, by simp [Plan.tag]⟩
    have follows := forEach_follows start members
    simp only [if_true]
    refine ⟨{ follows.shared with outbounds := ?_ }, follows.tags⟩
    simp [follows.shared.outbounds]
  | false =>
    simp only [hs, Bool.false_eq_true, if_false, bind_ok, pure_ok, Prod.exists] at h
    obtain ⟨tag, s, chain, rfl⟩ := h
    obtain ⟨_, realised⟩ := buildChain_realises (realises_nil b) chain
    exact ⟨by simpa using realised, by simp [Plan.tag]⟩

/-- A finished build has followed its plan, with the selector made from the places of
the group's members. -/
theorem buildOutbounds_follows (h : buildOutbounds b = .ok p) :
    ∃ selected, buildSelected b = .ok selected ∧ Follows b (headViews b selected) p (plan b) := by
  unfold buildOutbounds at h
  rw [bind_ok] at h
  obtain ⟨selected, hs, extra⟩ := h
  exact ⟨selected, hs, forEach_follows (buildSelected_follows hs) extra⟩

end QuinMo.Config
