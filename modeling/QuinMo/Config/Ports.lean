import QuinMo.Config.BuildConfig

/-!
# Builds that differ in their ports

Every build asks the system for free local ports; nothing else differs between two builds in one
state. Configurations are compared by their shape, which has neither the ports nor the default of
the selector.
-/

namespace QuinMo.Config

open Text Net Outcome Unfold

def Inbound.shape : Inbound → Inbound
  | .direct tag _ overrideAddress overridePort => .direct tag 0 overrideAddress overridePort
  | inbound => inbound

def OutboundBody.shape : OutboundBody → OutboundBody
  | .socks _ => .socks 0
  | .selector _ outbounds => .selector none outbounds
  | body => body

/-- What the file says about an outbound, without what is freshly chosen. -/
def Outbound.shape (o : Outbound) : Outbound :=
  { o with body := o.body.shape, hop := none, mapping := none }

def Options.shape (o : Options) : Options :=
  { o with
    inbounds := o.inbounds.map Inbound.shape
    outbounds := o.outbounds.map Outbound.shape
    endpoints := o.endpoints.map Outbound.shape }

def ConfigText.shape : ConfigText → ConfigText
  | .custom config => .custom config
  | .generated options => .generated options.shape

/-- The same build with other ports. -/
def Build.withPorts (b : Build) (mkPort : Nat → Int) : Build :=
  { b with env := { b.env with mkPort := mkPort } }

/-- The collections without ports, and without what a selector starts with. -/
def Shared.shape (s : Shared) : Shared :=
  { s with
    inbounds := s.inbounds.map Inbound.shape
    outbounds := s.outbounds.map Outbound.shape
    externalIndexMap := []
    ports := 0 }

def Loop.shape (l : Loop) : Loop :=
  { l with
    shared := l.shared.shape
    chainOutbounds := l.chainOutbounds.map Outbound.shape
    externalChainMap := ∅ }

def Progress.shape (p : Progress) : Progress := { p with shared := p.shared.shape }

def Loop.Alike (l m : Loop) : Prop := l.shape = m.shape

def Progress.Alike (p q : Progress) : Prop := p.shape = q.shape

/-! Most steps do not read what ports are written to. -/

section
variable (b : Build) (mkPort : Nat → Int)

theorem noteGroupDomain_shape (hop : Profile) (s : Shared) :
    (noteGroupDomain b hop s).shape = noteGroupDomain b hop s.shape :=
  apply_ite Shared.shape _ _ _

theorem noteBypass_shape (needGlobal : Bool) (hop : Profile) (s : Shared) :
    (noteBypass needGlobal hop s).shape = noteBypass needGlobal hop s.shape :=
  apply_ite Shared.shape _ _ _

theorem noteName_shape (index : Nat) (tagOut : String) (s : Shared) :
    (noteName b index tagOut s).shape = noteName b index tagOut s.shape :=
  apply_ite Shared.shape _ _ _

theorem noteForced_shape (past : Option Profile) (s : Shared) :
    (noteForced b past s).shape = noteForced b past s.shape := by
  cases past with
  | none => rfl
  | some past => exact apply_ite Shared.shape _ _ _

theorem setDetour_shape (tagOut : String) (outs : List Outbound) :
    (setDetour tagOut outs).map Outbound.shape = setDetour tagOut (outs.map Outbound.shape) := by
  cases outs <;> rfl

theorem linkPast_shape (tagOut : String) (l : Loop) :
    (linkPast tagOut l).shape = linkPast tagOut l.shape := by
  obtain ⟨shared, outs, past, inboundTag, chainTag, mux, external⟩ := l
  cases past with
  | none => rfl
  | some past =>
    simp only [linkPast, Loop.shape]
    split
    · rfl
    · simp only [setDetour_shape]

/-- What a hop changes before its outbound is emitted. -/
def arrive (index : Nat) (isLast : Bool) (tagOut : String) (hop : Profile) (l : Loop) : Loop :=
  linkPast tagOut { l with
    shared := noteName b index tagOut (noteBypass isLast hop (noteGroupDomain b hop l.shared)) }

theorem arrive_shape (index : Nat) (isLast : Bool) (tagOut : String) (hop : Profile) (l : Loop) :
    (arrive b index isLast tagOut hop l).shape = arrive b index isLast tagOut hop l.shape := by
  rw [arrive, linkPast_shape]
  simp only [arrive, Loop.shape, noteName_shape, noteBypass_shape, noteGroupDomain_shape]

def noteHop (hop : Profile) (l : Loop) : Loop :=
  { l with
    muxApplied := l.muxApplied || (muxFor hop l.muxApplied).isSome
    shared := noteForced b l.pastEntity l.shared }

theorem noteHop_shape (hop : Profile) (l : Loop) :
    (noteHop b hop l).shape = noteHop b hop l.shape := by
  simp only [noteHop, Loop.shape, noteForced_shape]

variable {b mkPort} {l m : Loop}

theorem openBody_agree (h : l.Alike m) (hop : Profile) :
    Agree (fun x y => x.1.shape = y.1.shape ∧ x.2.Alike y.2)
      (openBody b hop l) (openBody (b.withPorts mkPort) hop m) := by
  unfold openBody
  cases hop.needExternal with
  | true => exact .ok ⟨rfl, h⟩
  | false =>
    refine (Agree.of_eq (internalBody b hop)).bind fun x y related => ?_
    cases related
    exact .ok ⟨rfl, h⟩

theorem addMapping_shape (h : l.Alike m) (chainId : Int) (isLast : Bool) (hop : Profile) :
    (addMapping b chainId isLast hop l).shape =
      (addMapping (b.withPorts mkPort) chainId isLast hop m).shape := by
  have put (b : Build) (l : Loop) : (addMapping b chainId isLast hop l).shape =
      { l.shape with
        pastInboundTag := mappingTag chainId hop
        shared := { l.shape.shared with
          inbounds := l.shape.shared.inbounds ++ [.direct (mappingTag chainId hop) 0
            hop.bean.serverAddress (overridePort hop.bean)]
          rules := l.shape.shared.rules ++ if isLast then
            [{ inbound := [mappingTag chainId hop], outbound := some TAG_DIRECT }] else [] } } := by
    simp only [addMapping, Loop.shape, Shared.shape, List.map_append]
    rfl
  rw [put, put, h]

/-- A new outbound is put in front of the chain. -/
theorem push_shape (h : l.Alike m) {o p : Outbound} (same : o.shape = p.shape)
    (hop : Profile) :
    Loop.shape { l with chainOutbounds := o :: l.chainOutbounds, pastEntity := some hop } =
      Loop.shape { m with chainOutbounds := p :: m.chainOutbounds, pastEntity := some hop } := by
  have pushed (l : Loop) (o : Outbound) :
      Loop.shape { l with chainOutbounds := o :: l.chainOutbounds, pastEntity := some hop } =
        { l.shape with
          chainOutbounds := o.shape :: l.shape.chainOutbounds
          pastEntity := some hop } := rfl
  rw [pushed, pushed, h, same]

theorem emitHop_agree (h : l.Alike m) (chainId : Int) (isLast : Bool) (tagOut : String)
    (hop : Profile) : Agree Loop.Alike (emitHop b chainId isLast tagOut hop l)
      (emitHop (b.withPorts mkPort) chainId isLast tagOut hop m) := by
  unfold emitHop
  refine (openBody_agree h hop).bind fun ⟨body, l⟩ ⟨body', m⟩ ⟨same, alike⟩ => ?_
  refine (Agree.of_eq (mappingNeeded b isLast hop)).bind fun mapped mapped' eq => ?_
  cases eq
  have mux : l.muxApplied = m.muxApplied := congrArg (·.muxApplied) alike
  have noted : (noteHop b hop l).shape = (noteHop (b.withPorts mkPort) hop m).shape := by
    rw [noteHop_shape, alike, ← noteHop_shape]
    rfl
  apply Agree.ok
  cases mapped with
  | false =>
    refine push_shape noted ?_ hop
    simp only [Outbound.shape, same, mux]
    rfl
  | true =>
    refine push_shape (addMapping_shape noted chainId isLast hop) ?_ hop
    simp only [Outbound.shape, same, mux]
    rfl

theorem buildHop_agree (h : l.Alike m) (chainId : Int) (entity : Profile)
    (index : Nat) (isLast : Bool) (hop : Profile) :
    Agree Loop.Alike (buildHop b chainId entity index isLast hop l)
      (buildHop (b.withPorts mkPort) chainId entity index isLast hop m) := by
  have noted : (noteBypass isLast hop (noteGroupDomain b hop l.shared)).shape =
      (noteBypass isLast hop (noteGroupDomain b hop m.shared)).shape := by
    rw [noteBypass_shape, noteGroupDomain_shape, noteBypass_shape, noteGroupDomain_shape,
      show l.shared.shape = m.shared.shape from congrArg (·.shared) h]
  have names : (noteBypass isLast hop (noteGroupDomain b hop l.shared)).selectorNames =
      (noteBypass isLast hop (noteGroupDomain (b.withPorts mkPort) hop m.shared)).selectorNames :=
    congrArg (·.selectorNames) noted
  have tag (names : List String) :
      hopTag (b.withPorts mkPort) chainId entity hop index isLast names =
        hopTag b chainId entity hop index isLast names := rfl
  unfold buildHop
  dsimp only
  rw [names, tag]
  generalize hopTag b chainId entity hop index isLast _ = tagOut
  have arrived : (arrive b index isLast tagOut hop l).shape =
      (arrive (b.withPorts mkPort) index isLast tagOut hop m).shape := by
    rw [arrive_shape, h, ← arrive_shape]
    rfl
  unfold arrive at arrived
  generalize linkPast tagOut _ = l' at arrived ⊢
  generalize linkPast tagOut _ = m' at arrived ⊢
  cases isLast with
  | false => exact emitHop_agree arrived chainId false tagOut hop
  | true =>
    have global : l'.shared.globalOutbounds = m'.shared.globalOutbounds :=
      congrArg (·.shared.globalOutbounds) arrived
    simp only [if_true, global]
    cases m'.shared.globalOutbounds.lookup hop.id with
    | some known =>
      apply Agree.ok
      by_cases first : index = 0
      · rw [if_pos first, if_pos first]
        exact congrArg (fun l : Loop => { l with chainTagOut := known }) arrived
      · rw [if_neg first, if_neg first]
        exact arrived
    | none =>
      refine emitHop_agree ?_ chainId true tagOut hop
      exact congrArg (fun l : Loop => { l with shared := { l.shared with
        globalOutbounds := m'.shared.globalOutbounds.insert hop.id tagOut } }) arrived

theorem buildHops_agree (chainId : Int) (entity : Profile) (hops : List Profile) (index : Nat)
    (h : l.Alike m) :
    Agree Loop.Alike (buildHops b chainId entity index hops l)
      (buildHops (b.withPorts mkPort) chainId entity index hops m) := by
  induction hops generalizing index l m with
  | nil => exact .ok h
  | cons hop hops ih =>
    refine (buildHop_agree h chainId entity index hops.isEmpty hop).bind ?_
    exact fun l m alike => ih (index + 1) alike

theorem buildChain_agree {s t : Shared} (h : s.shape = t.shape) (chainId : Int)
    (entity : Profile) :
    Agree (fun x y => x.1 = y.1 ∧ x.2.shape = y.2.shape) (buildChain b chainId entity s)
      (buildChain (b.withPorts mkPort) chainId entity t) := by
  unfold buildChain
  refine (Agree.of_eq (resolveChain b.db entity)).bind fun list list' same => ?_
  cases same
  by_cases empty : list.isEmpty
  · simp only [if_pos empty]
    exact .error _
  simp only [if_neg empty]
  have start : Loop.shape { shared := { s with
        builtProfiles := s.builtProfiles ++ entity.id :: list.map (·.id) } } =
      Loop.shape { shared := { t with
        builtProfiles := t.builtProfiles ++ entity.id :: list.map (·.id) } } :=
    congrArg (fun s : Shared => { shared := { s with
      builtProfiles := s.builtProfiles ++ entity.id :: list.map (·.id) } : Loop }) h
  refine (buildHops_agree chainId entity list 0 start).bind fun l m alike => ?_
  refine .ok ⟨congrArg (·.chainTagOut) alike, ?_⟩
  have finished (l : Loop) : Shared.shape { l.shared with
        outbounds := l.shared.outbounds ++ l.chainOutbounds.reverse
        externalIndexMap := l.shared.externalIndexMap ++ [l.externalChainMap]
        trafficMap := l.shared.trafficMap.insert l.chainTagOut
          (distinctBy (·.id) (list ++ [entity])) } =
      { l.shape.shared with
        outbounds := l.shape.shared.outbounds ++ l.shape.chainOutbounds.reverse
        trafficMap := l.shape.shared.trafficMap.insert l.shape.chainTagOut
          (distinctBy (·.id) (list ++ [entity])) } := by
    simp only [Shared.shape, Loop.shape, List.map_append, List.map_reverse]
  rw [finished, finished, alike]

/-! ## The whole build -/

variable (b mkPort)

theorem buildListed_agree {p q : Progress} (h : p.Alike q) (e : Profile) :
    Agree Progress.Alike (buildListed b p e)
      (buildListed (b.withPorts mkPort) q e) := by
  obtain ⟨s, tagMap⟩ := p
  obtain ⟨t, tagMap'⟩ := q
  obtain rfl : tagMap = tagMap' := congrArg (·.tagMap) h
  have alike : s.shape = t.shape := congrArg (·.shared) h
  have build : Agree Progress.Alike
      (do
        let built ← buildChain b e.id e s
        return { shared := built.2, tagMap := tagMap.insert e.id built.1 })
      (do
        let built ← buildChain (b.withPorts mkPort) e.id e t
        return { shared := built.2, tagMap := tagMap.insert e.id built.1 }) := by
    refine (buildChain_agree alike e.id e).bind fun ⟨tag, s'⟩ ⟨tag', t'⟩ ⟨same, alike'⟩ => ?_
    cases same
    exact .ok (congrArg (Progress.mk · _) alike')
  have built : s.builtProfiles = t.builtProfiles := congrArg (·.builtProfiles) alike
  have global : s.globalOutbounds = t.globalOutbounds := congrArg (·.globalOutbounds) alike
  unfold buildListed
  dsimp only
  rw [built, global]
  by_cases old : e.id ∈ t.builtProfiles
  · rw [if_pos old, if_pos old]
    cases t.globalOutbounds.lookup e.id with
    | some globalTag => exact .ok (congrArg (Progress.mk · _) alike)
    | none => exact build
  · rw [if_neg old, if_neg old]
    exact build

theorem buildSelected_agree :
    Agree Progress.Alike (buildSelected b) (buildSelected (b.withPorts mkPort)) := by
  unfold buildSelected
  have mode : (b.withPorts mkPort).buildSelector = b.buildSelector := rfl
  rw [mode]
  cases b.buildSelector with
  | true =>
    refine Agree.bind (R := Progress.Alike) (Agree.forEach ?_ rfl) ?_
    · exact fun p q alike e _ => buildListed_agree b mkPort alike e
    · intro p q alike
      have selector := congrArg (fun p : Progress => { p with shared := { p.shared with
        outbounds := (selectorOutbound b p.tagMap).shape :: p.shared.outbounds } }) alike
      exact .ok selector
  | false =>
    refine (buildChain_agree rfl 0 b.proxy).bind fun x y related => ?_
    exact .ok (congrArg (Progress.mk · ∅) related.2)

theorem buildOutbounds_agree :
    Agree Progress.Alike (buildOutbounds b) (buildOutbounds (b.withPorts mkPort)) := by
  refine (buildSelected_agree b mkPort).bind fun p q alike => ?_
  exact Agree.forEach (fun p q alike e _ => buildListed_agree b mkPort alike e) alike

theorem filter_shape {f : Outbound → Bool} (stable : ∀ o : Outbound, f o.shape = f o)
    (outs : List Outbound) :
    (outs.filter f).map Outbound.shape = (outs.map Outbound.shape).filter f := by
  rw [List.filter_map]
  exact congrArg _ (List.filter_congr fun o _ => (stable o).symm)

theorem makeOptions_agree {p q : Progress} (h : p.Alike q) :
    Agree (fun o o' => o.shape = o'.shape) (makeOptions b p)
      (makeOptions (b.withPorts mkPort) q) := by
  obtain ⟨⟨inbounds, outbounds, _, _, _, _, _, bypass, _, _, _, _⟩, _⟩ := p
  obtain ⟨⟨inbounds', outbounds', _, _, _, _, _, _, _, _, _, _⟩, _⟩ := q
  simp only [Progress.Alike, Progress.shape, Shared.shape, Progress.mk.injEq,
    Shared.mk.injEq] at h
  obtain ⟨⟨ins, outs, rfl, rfl, rfl, rfl, rfl, rfl, rfl, rfl, _⟩, rfl⟩ := h
  unfold makeOptions
  refine (Agree.of_eq (bypassDomains b bypass)).bind fun x y same => ?_
  cases same
  refine (Agree.of_eq (directServer b)).bind fun x y same => ?_
  cases same
  refine (Agree.of_eq (remoteServer b)).bind fun x y same => ?_
  cases same
  apply Agree.ok
  simp only [Options.shape, Options.mk.injEq]
  refine ⟨ins, ?_, ?_, rfl, rfl, rfl, rfl, rfl, rfl, rfl⟩
  · rw [filter_shape fun _ => rfl, filter_shape fun _ => rfl, List.map_append, outs, List.map_append]
  · rw [filter_shape fun _ => rfl, filter_shape fun _ => rfl, List.map_append, outs, List.map_append]

theorem buildConfig_agree :
    Agree (fun r r' => r.config.shape = r'.config.shape ∧ r.profileTagMap = r'.profileTagMap ∧
        r.selectorGroupId = r'.selectorGroupId)
      (buildConfig b) (buildConfig (b.withPorts mkPort)) := by
  unfold buildConfig
  have same : fullConfig (b.withPorts mkPort).proxy = fullConfig b.proxy := rfl
  rw [same]
  cases fullConfig b.proxy with
  | some config => exact .ok ⟨rfl, rfl, rfl⟩
  | none =>
    refine (buildOutbounds_agree b mkPort).bind fun p q alike => ?_
    refine (makeOptions_agree b mkPort alike).bind fun o o' options => ?_
    exact .ok ⟨congrArg ConfigText.generated options, congrArg (·.tagMap) alike, rfl⟩

end

end QuinMo.Config
