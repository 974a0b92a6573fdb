import QuinMo.Config.Reselect
import QuinMo.Config.RuleScope

/-!
# Reloading the service

A reload restarts the service or, when the running core has a selector for the group of the
selected profile, only switches that selector.
-/

namespace QuinMo.Bg

open Text Config Outcome

/-- The selector named proxy: its default and its members. -/
structure Selector where
  default_ : Option String
  outbounds : List String
  deriving DecidableEq, Repr

def selectorOf : ConfigText → Option Selector
  | .custom _ => none
  | .generated o => match (o.outbounds.find? (·.tag == TAG_PROXY)).map Outbound.body with
    | some (OutboundBody.selector default_ outbounds) => some ⟨default_, outbounds⟩
    | _ => none

/-- The choice of a selector that has just started. -/
def Selector.start (s : Selector) : Option String :=
  match s.default_ with
  | some tag => if tag = "" then s.outbounds.head? else some tag
  | none => s.outbounds.head?

structure ProxyInstance where
  /-- missing until the instance is initialised -/
  config : Option ConfigBuildResult := none
  lastSelectorGroupId : Int := -1
  /-- the choice of the core's selector -/
  now : Option String := none

/-- The core ignores a tag that is no member of its selector. What it reports back about a
switch is `selectorOnProxySelected`. -/
def ProxyInstance.selectOutbound (p : ProxyInstance) (tag : String) : ProxyInstance :=
  match p.config.bind fun r => selectorOf r.config with
  | some s => if tag ∈ s.outbounds then { p with now := some tag } else p
  | none => p

/-- The state that profiles, groups, rules and settings are in, with the ports that the n-th
build is given. -/
structure World where
  env : Env
  selectedProxy : Int
  mkPort : Nat → Nat → Int

theorem World.stored {w : World} {e : Profile} (h : w.env.db.proxies.get w.selectedProxy = some e) :
    e ∈ w.env.db.proxies.rows := (Table.get_eq_some.mp h).1

/-- The n-th build, for the selected profile. -/
def World.build (w : World) (n : Nat) : Option Build :=
  match h : w.env.db.proxies.get w.selectedProxy with
  | none => none
  | some e => some {
      env := { w.env with mkPort := w.mkPort n }
      proxy := e
      stored := World.stored h
      forTest := false
      forExport := false }

inductive State where
  | connecting
  | connected
  | stopping
  | stopped
  deriving DecidableEq, Repr

/-- What is queued on the main thread. -/
inductive Task where
  | finishStop (restart : Bool)
  | onStartCommand
  | connect
  deriving DecidableEq, Repr

structure Service where
  state : State := .stopped
  proxy : Option ProxyInstance := none
  tasks : List Task := []
  /-- the number of builds so far -/
  builds : Nat := 0

def startRunner (s : Service) : Service := { s with tasks := s.tasks ++ [.onStartCommand] }

def stopRunner (restart : Bool) (s : Service) : Service :=
  if s.state = .stopping then s
  else { s with state := .stopping, tasks := s.tasks ++ [.finishStop restart] }

/-- Nothing when it throws, as for an instance that is not initialised yet. -/
def canReloadSelector (w : World) (s : Service) : Option Bool :=
  match s.proxy with
  | none => some false
  | some p => match p.config with
    | none => none
    | some running =>
      if running.selectorGroupId < 0 then some false
      else match w.build s.builds with
        | none => some false
        | some b => match buildConfig b with
          | .error _ => none
          | .ok tmp => some (tmp.selectorGroupId == p.lastSelectorGroupId)

/-- The tag of the selected profile in the running configuration, unless it is blank. -/
def runningTag (w : World) (s : Service) : Option String := do
  let running ← s.proxy.bind (·.config)
  let ent ← w.env.db.proxies.get w.selectedProxy
  (running.profileTagMap.lookup ent.id).filter (!isBlank ·)

def fullRestart (s : Service) : Service :=
  match s.state with
  | .stopped => startRunner s
  | .connecting | .connected => stopRunner true s
  | .stopping => s

def reload (w : World) (s : Service) : Service :=
  if w.selectedProxy = 0 then stopRunner false s
  else match canReloadSelector w s, runningTag w s with
    | some true, some tag =>
      { s with proxy := s.proxy.map (·.selectOutbound tag), builds := s.builds + 1 }
    | _, _ => fullRestart { s with builds := s.builds + 1 }

/-- The instance after `init` and `launch`. -/
def ProxyInstance.launched (r : ConfigBuildResult) : ProxyInstance where
  config := some r
  lastSelectorGroupId := r.selectorGroupId
  now := (selectorOf r.config).bind Selector.start

/-- The end of `stopRunner`, after the clean-up. -/
def finishStop (restart : Bool) (s : Service) : Service :=
  if restart then startRunner { s with state := .stopped, proxy := none }
  else { s with state := .stopped, proxy := none }

def onStartCommand (w : World) (s : Service) : Service :=
  if s.state ≠ .stopped then s
  else match w.build s.builds with
    | none => stopRunner false s
    | some _ => { s with state := .connecting, proxy := some {}, tasks := s.tasks ++ [.connect] }

/-- The connecting job, which a stop cancels. -/
def connect (w : World) (s : Service) : Service :=
  if s.state ≠ .connecting then s
  else match (w.build s.builds).map buildConfig with
    | some (.ok r) =>
      { s with state := .connected, proxy := some (.launched r), builds := s.builds + 1 }
    | _ => stopRunner false s

def perform (w : World) : Task → Service → Service
  | .finishStop restart => finishStop restart
  | .onStartCommand => onStartCommand w
  | .connect => connect w

def step (w : World) (s : Service) : Service :=
  match s.tasks with
  | [] => s
  | task :: tasks => perform w task { s with tasks := tasks }

/-- The states a service comes into while profiles, groups, rules and settings change
arbitrarily and the core's selector is switched from outside. -/
inductive Reachable : Service → Prop
  | new : Reachable {}
  | start {s : Service} : Reachable s → Reachable (startRunner s)
  | stop {s : Service} (restart : Bool) : Reachable s → Reachable (stopRunner restart s)
  | reload {s : Service} (w : World) : Reachable s → Reachable (Bg.reload w s)
  | step {s : Service} (w : World) : Reachable s → Reachable (Bg.step w s)
  | select {s : Service} (tag : String) : Reachable s →
      Reachable { s with proxy := s.proxy.map (·.selectOutbound tag) }

/-- A build in this state gives the configuration. -/
def BuiltIn (w : World) (r : ConfigBuildResult) : Prop :=
  ∃ n b, w.build n = some b ∧ buildConfig b = .ok r

structure Inv (s : Service) : Prop where
  connected : s.state = .connected → ∃ p r, s.proxy = some p ∧ p.config = some r
  last : ∀ p r, s.proxy = some p → p.config = some r →
    p.lastSelectorGroupId = r.selectorGroupId ∧ ∃ w, BuiltIn w r

theorem selectOutbound_frame (p : ProxyInstance) (tag : String) :
    (p.selectOutbound tag).config = p.config ∧
      (p.selectOutbound tag).lastSelectorGroupId = p.lastSelectorGroupId := by
  unfold ProxyInstance.selectOutbound
  split
  · split <;> exact ⟨rfl, rfl⟩
  · exact ⟨rfl, rfl⟩

variable {s : Service} {b : Build}

theorem Inv.select (h : Inv s) (tag : String) (builds : Nat) :
    Inv { s with proxy := s.proxy.map (·.selectOutbound tag), builds := builds } := by
  constructor
  · intro connected
    obtain ⟨p, r, proxy, config⟩ := h.connected connected
    have frame := selectOutbound_frame p tag
    exact ⟨p.selectOutbound tag, r, by simp [proxy], by rw [frame.1, config]⟩
  · intro q r proxy config
    obtain ⟨p, old, rfl⟩ := Option.map_eq_some_iff.mp proxy
    have frame := selectOutbound_frame p tag
    rw [frame.1] at config
    rw [frame.2]
    exact h.last p r old config

theorem Inv.tasks (h : Inv s) (tasks : List Task) (builds : Nat) :
    Inv { s with tasks := tasks, builds := builds } := ⟨h.connected, h.last⟩

theorem Inv.stopRunner (h : Inv s) (restart : Bool) : Inv (Bg.stopRunner restart s) := by
  unfold Bg.stopRunner
  split
  · exact h
  · exact ⟨(fun connected => by cases connected), h.last⟩

theorem Inv.fullRestart (h : Inv s) : Inv (Bg.fullRestart s) := by
  unfold Bg.fullRestart
  split
  · exact h.tasks _ s.builds
  · exact h.stopRunner true
  · exact h.stopRunner true
  · exact h

theorem Inv.reload (h : Inv s) (w : World) : Inv (Bg.reload w s) := by
  unfold Bg.reload
  split
  · exact h.stopRunner false
  · split
    · exact h.select _ _
    · exact (h.tasks s.tasks (s.builds + 1)).fullRestart

theorem Inv.perform (h : Inv s) (w : World) (task : Task) : Inv (Bg.perform w task s) := by
  have stopped : Inv { s with state := .stopped, proxy := none } :=
    ⟨(fun connected => by cases connected), fun p r proxy => by cases proxy⟩
  cases task with
  | finishStop restart =>
    cases restart with
    | true => exact stopped.tasks _ s.builds
    | false => exact stopped
  | onStartCommand =>
    change Inv (onStartCommand w s)
    unfold onStartCommand
    split
    · exact h
    · split
      · exact h.stopRunner false
      · refine ⟨(fun connected => by cases connected), fun p r proxy config => ?_⟩
        cases proxy
        cases config
  | connect =>
    change Inv (connect w s)
    unfold connect
    split
    · exact h
    · split
      · rename_i r _
        obtain ⟨b, selected, built⟩ := Option.map_eq_some_iff.mp ‹_›
        refine ⟨fun _ => ⟨.launched r, r, rfl, rfl⟩, fun p r proxy config => ?_⟩
        cases proxy
        cases config
        exact ⟨rfl, w, s.builds, b, selected, built⟩
      · exact h.stopRunner false

theorem Reachable.inv (h : Reachable s) : Inv s := by
  induction h with
  | new => exact ⟨(fun connected => by cases connected), fun p r proxy => by cases proxy⟩
  | start _ ih => exact ih.tasks _ _
  | stop restart _ ih => exact ih.stopRunner restart
  | reload w _ ih => exact ih.reload w
  | @step s w _ ih =>
    unfold Bg.step
    split
    · exact ih
    · exact (ih.tasks _ s.builds).perform w _
  | @select s tag _ ih => exact ih.select tag s.builds

/-! ## A request that is handled -/

/-- All tasks that a state leads to are done. -/
def Handled (w : World) (s t : Service) : Prop := ∃ n, (step w)^[n] s = t ∧ t.tasks = []

theorem step_idle (w : World) (idle : s.tasks = []) (n : Nat) : (step w)^[n] s = s := by
  induction n with
  | zero => rfl
  | succ n ih =>
    have stays : step w s = s := by
      unfold step
      rw [idle]
    rw [Function.iterate_succ_apply, stays, ih]

theorem Handled.unique {w : World} {t u : Service} (ht : Handled w s t) (hu : Handled w s u) :
    t = u := by
  obtain ⟨m, rfl, idle⟩ := ht
  obtain ⟨n, rfl, idle'⟩ := hu
  rcases Nat.le_total m n with le | le
  · obtain ⟨k, rfl⟩ := Nat.exists_eq_add_of_le' le
    rw [Function.iterate_add_apply, step_idle w idle]
  · obtain ⟨k, rfl⟩ := Nat.exists_eq_add_of_le' le
    rw [Function.iterate_add_apply, step_idle w idle']

/-- Another build in the same state has other ports. -/
theorem World.build_ports (w : World) (m n : Nat) :
    w.build m = (w.build n).map (·.withPorts (w.mkPort m)) := by
  unfold World.build
  split <;> rfl

theorem World.build_spec {w : World} {n : Nat} (h : w.build n = some b) :
    w.env.db.proxies.get w.selectedProxy = some b.proxy ∧
      b.env = { w.env with mkPort := w.mkPort n } ∧ b.forTest = false ∧ b.forExport = false := by
  unfold World.build at h
  split at h
  · cases h
  · rename_i e found
    cases h
    exact ⟨found, rfl, rfl, rfl⟩

variable {tag : String}

theorem buildChain_outbounds {chainId : Int} {e : Profile} {s s' : Shared}
    (h : buildChain b chainId e s = .ok (tag, s')) :
    ∃ more, s'.outbounds = s.outbounds ++ more := by
  unfold buildChain at h
  rw [bind_ok] at h
  obtain ⟨list, _, h⟩ := h
  cases list with
  | nil => cases h
  | cons x t =>
    simp only [List.isEmpty_cons, Bool.false_eq_true, if_false, bind_ok, pure_ok, Prod.mk.injEq] at h
    obtain ⟨l, hops, _, rfl⟩ := h
    obtain ⟨_, _, spec⟩ := buildHops_spec hops
    exact ⟨l.chainOutbounds.reverse, congrArg (· ++ _) spec.kept.outbounds⟩

theorem buildListed_frame {p q : Progress} {e : Profile} (h : buildListed b p e = .ok q) :
    (∃ more, q.shared.outbounds = p.shared.outbounds ++ more) ∧
      ∀ k, k ≠ e.id → q.tagMap.lookup k = p.tagMap.lookup k := by
  have build (h : (do
      let built ← buildChain b e.id e p.shared
      return ({ shared := built.2, tagMap := p.tagMap.insert e.id built.1 } : Progress)) = .ok q) :
      (∃ more, q.shared.outbounds = p.shared.outbounds ++ more) ∧
        ∀ k, k ≠ e.id → q.tagMap.lookup k = p.tagMap.lookup k := by
    simp only [bind_ok, pure_ok, Prod.exists] at h
    obtain ⟨tag, shared, chain, rfl⟩ := h
    exact ⟨buildChain_outbounds chain, fun k other => AList.lookup_insert_ne other⟩
  unfold buildListed at h
  by_cases old : e.id ∈ p.shared.builtProfiles
  · simp only [if_pos old] at h
    split at h
    · cases h
      exact ⟨⟨[], (List.append_nil _).symm⟩, fun k other => AList.lookup_insert_ne other⟩
    · exact build h
  · simp only [if_neg old] at h
    exact build h

theorem forEach_frame {es : List Profile} {p q : Progress} {k : Int}
    (h : forEach (buildListed b) es p = .ok q) (other : ∀ e ∈ es, k ≠ e.id) :
    (∃ more, q.shared.outbounds = p.shared.outbounds ++ more) ∧
      q.tagMap.lookup k = p.tagMap.lookup k := by
  induction es generalizing p with
  | nil =>
    cases h
    exact ⟨⟨[], (List.append_nil _).symm⟩, rfl⟩
  | cons e es ih =>
    rw [forEach, bind_ok] at h
    obtain ⟨p₁, round, rest⟩ := h
    obtain ⟨⟨more, outs⟩, tag⟩ := buildListed_frame round
    obtain ⟨⟨more', outs'⟩, tag'⟩ := ih rest fun e inside => other e (List.mem_cons_of_mem _ inside)
    refine ⟨⟨more ++ more', ?_⟩, tag'.trans (tag k (other e List.mem_cons_self))⟩
    rw [outs', outs, List.append_assoc]

/-- The selector of a build has the selected profile as its default, and a member for every profile
of the group that is not built once more for a rule. -/
theorem selectorOf_built {r : ConfigBuildResult} (built : buildConfig b = .ok r)
    (selector : b.buildSelector = true) (full : fullConfig b.proxy = none) : ∃ tagMap,
      selectorOf r.config =
        some ⟨tagMap.lookup b.proxy.id, distinctBy id (values tagMap)⟩ ∧
      ∀ k, (∀ e ∈ b.extraProxies, k ≠ e.id) → r.profileTagMap.lookup k = tagMap.lookup k := by
  unfold buildConfig at built
  simp only [full, bind_ok, pure_ok] at built
  obtain ⟨p, outs, o, made, rfl⟩ := built
  unfold buildOutbounds buildSelected at outs
  simp only [selector, if_true, bind_ok, pure_ok] at outs
  obtain ⟨_, ⟨members, _, rfl⟩, extra⟩ := outs
  refine ⟨members.tagMap, ?_, fun k other => (forEach_frame extra other).2⟩
  obtain ⟨⟨more, outbounds⟩, _⟩ :=
    forEach_frame extra fun e inside => (mem_extraProxies inside).2.2.symm
  simp only [makeOptions, bind_ok, pure_ok] at made
  obtain ⟨_, _, _, _, _, _, rfl⟩ := made
  simp [selectorOf, outbounds, selectorOutbound]

/-- In selector mode the core starts with the selected profile. -/
theorem launched_now {r : ConfigBuildResult} (built : buildConfig b = .ok r)
    (selector : b.buildSelector = true) (full : fullConfig b.proxy = none) :
    (ProxyInstance.launched r).now = r.profileTagMap.lookup b.proxy.id := by
  obtain ⟨tagMap, selectorIs, tags⟩ := selectorOf_built built selector full
  have tag := tags b.proxy.id fun e inside => (mem_extraProxies inside).2.2.symm
  unfold buildConfig at built
  simp only [full, bind_ok, pure_ok] at built
  obtain ⟨p, outs, o, made, rfl⟩ := built
  obtain ⟨selected, _, follows⟩ := buildOutbounds_follows outs
  have listed : ((plan b).tag b.proxy.id).isSome := by
    rw [tag_isSome_iff, plan_keys]
    exact .inl ⟨selector, b.proxy, b.stored, rfl, rfl⟩
  obtain ⟨place, placed⟩ := Option.isSome_iff_exists.mp listed
  have lookup : p.tagMap.lookup b.proxy.id = some place.text := by
    rw [follows.tags, placed]
    rfl
  have filled := (plan_orderly b).tag_filled (plan_built b).assigned
    (fun c hc => (follows.shared.resolved c hc).2) placed
  have named : place.text ≠ "" := by
    intro empty
    have blank := place_not_blank follows filled
    rw [empty] at blank
    cases blank
  rw [lookup] at tag
  simp [ProxyInstance.launched, selectorIs, ← tag, Selector.start, named, lookup]

/-- A core takes over the tag of a profile that is not built once more for a rule. -/
theorem selectOutbound_now {r : ConfigBuildResult} (built : buildConfig b = .ok r)
    (selector : b.buildSelector = true) (full : fullConfig b.proxy = none) {p : ProxyInstance}
    (config : p.config = some r) {k : Int} (listed : r.profileTagMap.lookup k = some tag)
    (other : ∀ e ∈ b.extraProxies, k ≠ e.id) : (p.selectOutbound tag).now = some tag := by
  obtain ⟨tagMap, selectorIs, tags⟩ := selectorOf_built built selector full
  rw [tags k other] at listed
  have member : tag ∈ distinctBy id (values tagMap) :=
    (mem_distinctBy fun _ _ _ _ same => same).mpr
      (List.mem_map.mpr ⟨⟨k, tag⟩, AList.mem_lookup_iff.mp listed, rfl⟩)
  simp [ProxyInstance.selectOutbound, config, selectorIs, member]

/-! ## Reloading -/

/-- The build is one of a selector. -/
def selectorMode (b : Build) : Prop := b.buildSelector = true ∧ fullConfig b.proxy = none

theorem selectorGroupId_eq {r : ConfigBuildResult} (built : buildConfig b = .ok r) {group : Int}
    (real : 0 ≤ group) : r.selectorGroupId = group ↔ selectorMode b ∧ b.proxy.groupId = group := by
  unfold buildConfig at built
  unfold selectorMode
  cases full : fullConfig b.proxy with
  | some config =>
    rw [full] at built
    cases built
    simp only [reduceCtorEq, and_false, false_and, iff_false]
    omega
  | none =>
    simp only [full, bind_ok, pure_ok] at built
    obtain ⟨p, _, o, _, rfl⟩ := built
    cases b.buildSelector with
    | true => simp
    | false =>
      simp only [Bool.false_eq_true, if_false, false_and, iff_false]
      omega

/-- The running core has the configuration of the build, up to ports and the default of the
selector, and in selector mode the selected profile is its choice. -/
def Applied (b : Build) (r : ConfigBuildResult) (s : Service) : Prop :=
  s.state = .connected ∧ ∃ p running, s.proxy = some p ∧ p.config = some running ∧
    running.config.shape = r.config.shape ∧
      (selectorMode b → p.now = r.profileTagMap.lookup b.proxy.id)

/-- The running core has a selector for the group of the selected profile, and an outbound for
the profile itself. -/
def Switchable (b : Build) (running : ConfigBuildResult) (tag : String) : Prop :=
  0 ≤ running.selectorGroupId ∧ selectorMode b ∧ b.proxy.groupId = running.selectorGroupId ∧
    running.profileTagMap.lookup b.proxy.id = some tag ∧ isBlank tag = false

section
variable {w : World} {s : Service} {n : Nat} {b : Build} {r : ConfigBuildResult}
  {p : ProxyInstance} {running : ConfigBuildResult}

/-- A build in the same state gives the same configuration, up to ports. -/
theorem build_again (selected : w.build n = some b) (built : buildConfig b = .ok r) (m : Nat) :
    ∃ b' r', w.build m = some b' ∧ buildConfig b' = .ok r' ∧ b'.proxy = b.proxy ∧
      (selectorMode b' ↔ selectorMode b) ∧ r'.config.shape = r.config.shape ∧
        r'.profileTagMap = r.profileTagMap ∧ r'.selectorGroupId = r.selectorGroupId := by
  refine ⟨b.withPorts (w.mkPort m), ?_⟩
  obtain ⟨r', built', config, tags, group⟩ := (buildConfig_agree b (w.mkPort m)).left_ok built
  exact ⟨r', by rw [w.build_ports m n, selected]; rfl, built', rfl, Iff.rfl, config.symm, tags.symm,
    group.symm⟩

theorem canReloadSelector_iff (proxy : s.proxy = some p) (config : p.config = some running)
    (last : p.lastSelectorGroupId = running.selectorGroupId) (selected : w.build n = some b)
    (built : buildConfig b = .ok r) : canReloadSelector w s = some true ↔
      0 ≤ running.selectorGroupId ∧ selectorMode b ∧ b.proxy.groupId = running.selectorGroupId := by
  obtain ⟨b', r', again, built', _, _, _, _, group⟩ := build_again selected built s.builds
  simp only [canReloadSelector, proxy, config, again, built']
  split
  · rename_i negative
    simp only [Option.some.injEq, Bool.false_eq_true, false_iff]
    omega
  · rename_i real
    have real : 0 ≤ running.selectorGroupId := by omega
    rw [← selectorGroupId_eq built real, last, group]
    simp [real]

theorem runningTag_iff (proxy : s.proxy = some p) (config : p.config = some running)
    (selected : w.build n = some b) : runningTag w s = some tag ↔
      running.profileTagMap.lookup b.proxy.id = some tag ∧ isBlank tag = false := by
  have found := (World.build_spec selected).1
  simp only [runningTag, proxy, config, found, Option.bind_some, Option.bind_eq_bind]
  rw [Option.filter_eq_some_iff]
  simp

theorem reload_switches (proxy : s.proxy = some p) (config : p.config = some running)
    (last : p.lastSelectorGroupId = running.selectorGroupId) (real : w.selectedProxy ≠ 0)
    (selected : w.build n = some b) (built : buildConfig b = .ok r)
    (switchable : Switchable b running tag) :
    reload w s = { s with proxy := some (p.selectOutbound tag), builds := s.builds + 1 } := by
  obtain ⟨selector, mode, group, listed, named⟩ := switchable
  have can := (canReloadSelector_iff proxy config last selected built).mpr ⟨selector, mode, group⟩
  have tagged := (runningTag_iff proxy config selected).mpr ⟨listed, named⟩
  simp only [reload, if_neg real, can, tagged, proxy, Option.map_some]

theorem reload_restarts (connected : s.state = .connected) (proxy : s.proxy = some p)
    (config : p.config = some running) (last : p.lastSelectorGroupId = running.selectorGroupId)
    (real : w.selectedProxy ≠ 0) (selected : w.build n = some b) (built : buildConfig b = .ok r)
    (never : ∀ tag, ¬ Switchable b running tag) :
    reload w s = stopRunner true { s with builds := s.builds + 1 } := by
  simp only [reload, if_neg real]
  split
  · rename_i tag can tagged
    obtain ⟨selector, mode, group⟩ := (canReloadSelector_iff proxy config last selected built).mp can
    exact absurd ⟨selector, mode, group, (runningTag_iff proxy config selected).mp
      tagged⟩ (never tag)
  · simp only [fullRestart, connected]

/-- A restart ends with a core that was built anew. -/
theorem restart_handled (connected : s.state = .connected) (idle : s.tasks = [])
    (selected : w.build n = some b) (built : buildConfig b = .ok r) :
    ∃ t, Handled w (stopRunner true s) t ∧ Applied b r t := by
  obtain ⟨b', r', again, built', same, mode, config, tags, _⟩ := build_again selected built s.builds
  have stopped : step w (stopRunner true s) =
      { state := .stopped, proxy := none, tasks := [.onStartCommand], builds := s.builds } := by
    simp [stopRunner, connected, idle, step, perform, finishStop, startRunner]
  have started : step w
      { state := .stopped, proxy := none, tasks := [.onStartCommand], builds := s.builds } =
      { state := .connecting, proxy := some {}, tasks := [.connect], builds := s.builds } := by
    simp [step, perform, onStartCommand, again]
  have launched : step w
      { state := .connecting, proxy := some {}, tasks := [.connect], builds := s.builds } =
      { state := .connected, proxy := some (.launched r'), tasks := [], builds :=
        s.builds + 1 } := by
    simp [step, perform, connect, again, built']
  refine ⟨{ state := .connected, proxy := some (.launched r'), tasks := [], builds := s.builds + 1 },
    ⟨3, ?_, rfl⟩, rfl, .launched r', r', rfl, rfl, config, fun selector => ?_⟩
  · simp only [Function.iterate_succ_apply, stopped, started, launched]
    rfl
  · obtain ⟨selector, full⟩ := mode.mpr selector
    rw [launched_now built' selector full, tags, same]

/-- A reload brings the running core up to date unless it only switches a selector whose core runs
another configuration than the present one. -/
theorem reload_applied (reachable : Reachable s) (connected : s.state = .connected)
    (idle : s.tasks = []) (real : w.selectedProxy ≠ 0) (selected : w.build n = some b)
    (built : buildConfig b = .ok r) (proxy : s.proxy = some p) (config : p.config = some running) :
    (∃ t, Handled w (reload w s) t) ∧
      ((∀ tag, Switchable b running tag → running.config.shape = r.config.shape ∧
          (p.selectOutbound tag).now = r.profileTagMap.lookup b.proxy.id) →
        ∀ t, Handled w (reload w s) t → Applied b r t) := by
  have last := (reachable.inv.last p running proxy config).1
  by_cases switchable : ∃ tag, Switchable b running tag
  · obtain ⟨tag, switchable⟩ := switchable
    rw [reload_switches proxy config last real selected built switchable]
    have done : Handled w { s with proxy := some (p.selectOutbound tag), builds := s.builds + 1 }
        { s with proxy := some (p.selectOutbound tag), builds := s.builds + 1 } := ⟨0, rfl, idle⟩
    refine ⟨⟨_, done⟩, fun present t handled => ?_⟩
    obtain ⟨same, choice⟩ := present tag switchable
    rw [handled.unique done]
    exact ⟨connected, p.selectOutbound tag, running, rfl,
      (selectOutbound_frame p tag).1.trans config, same, fun _ => choice⟩
  · have never : ∀ tag, ¬ Switchable b running tag := fun tag h => switchable ⟨tag, h⟩
    rw [reload_restarts connected proxy config last real selected built never]
    obtain ⟨u, handled, applied⟩ :=
      restart_handled (s := { s with builds := s.builds + 1 }) connected idle selected built
    refine ⟨⟨u, handled⟩, fun _ t other => ?_⟩
    rw [other.unique handled]
    exact applied

end

/-! ## A changed selection -/

/-- From the first state to the second nothing has changed but the selection. When it has, then to
a profile with the same custom configuration, and no enabled rule names the old or the new one. -/
structure SelectionOnly (w₀ w : World) : Prop where
  env : w₀.env = w.env
  custom : ∀ e₀ ∈ w.env.db.proxies.get w₀.selectedProxy,
    ∀ e ∈ w.env.db.proxies.get w.selectedProxy,
      e.bean.customConfigJson = e₀.bean.customConfigJson
  unnamed : w₀.selectedProxy = w.selectedProxy ∨ ∀ rule ∈ w.env.db.enabledRules,
    rule.outbound ≠ w.selectedProxy ∧ rule.outbound ≠ w₀.selectedProxy

section
variable {w₀ w : World} {k n : Nat} {b₀ b : Build} {r running : ConfigBuildResult}

theorem build_select (env : w₀.env = w.env) (selected₀ : w₀.build k = some b₀)
    (selected : w.build n = some b) : ∃ stored : b.proxy ∈ b₀.env.db.proxies.rows,
      b = (b₀.select b.proxy stored).withPorts (w.mkPort n) := by
  obtain ⟨_, _, _⟩ := w₀
  cases env
  unfold World.build at selected₀ selected
  split at selected₀
  · cases selected₀
  · cases selected₀
    split at selected
    · cases selected
    · rename_i found
      cases selected
      have stored := World.stored found
      exact ⟨stored, rfl⟩

theorem SelectionOnly.interchangeable (h : SelectionOnly w₀ w) (selected₀ : w₀.build k = some b₀)
    (selected : w.build n = some b) (unnamed : ∀ rule ∈ w.env.db.enabledRules,
      rule.outbound ≠ w.selectedProxy ∧ rule.outbound ≠ w₀.selectedProxy) :
    Interchangeable b₀ b.proxy := by
  obtain ⟨found₀, env₀, _⟩ := World.build_spec selected₀
  have found := (World.build_spec selected).1
  rw [h.env] at found₀ env₀
  refine ⟨h.custom _ found₀ _ found, fun rule enabled => ?_⟩
  rw [(Table.get_eq_some.mp found).2, (Table.get_eq_some.mp found₀).2]
  rw [Build.db, env₀] at enabled
  exact unnamed rule enabled

/-- The two builds agree but for the ports and the default of the selector. -/
theorem SelectionOnly.builds (h : SelectionOnly w₀ w) (selected₀ : w₀.build k = some b₀)
    (built₀ : buildConfig b₀ = .ok running) (selected : w.build n = some b)
    (built : buildConfig b = .ok r) (mode₀ : selectorMode b₀) (mode : selectorMode b)
    (group : b.proxy.groupId = b₀.proxy.groupId) :
    running.config.shape = r.config.shape ∧ running.profileTagMap = r.profileTagMap ∧
      ∀ e ∈ b₀.extraProxies, b.proxy.id ≠ e.id := by
  obtain ⟨stored, same⟩ := build_select h.env selected₀ selected
  have ports := buildConfig_agree (b₀.select b.proxy stored) (w.mkPort n)
  rw [← same, built] at ports
  have moved : Agree (fun r r' => r.config.shape = r'.config.shape ∧
      r.profileTagMap = r'.profileTagMap) (buildConfig b₀) (buildConfig (b₀.select b.proxy stored)) ∧
      (b₀.select b.proxy stored).extraProxies = b₀.extraProxies := by
    rcases h.unnamed with unmoved | unnamed
    · have proxy : b.proxy = b₀.proxy := by
        have found₀ := (World.build_spec selected₀).1
        rw [h.env, unmoved, (World.build_spec selected).1] at found₀
        exact Option.some.inj found₀
      have back : b₀.select b.proxy stored = b₀ := by
        simp [Build.select, proxy]
      rw [back, built₀]
      exact ⟨.ok ⟨rfl, rfl⟩, rfl⟩
    · have swap := h.interchangeable selected₀ selected unnamed
      exact ⟨select_buildConfig mode₀.1 mode₀.2 mode.2 group swap, select_extraProxies swap⟩
  obtain ⟨r', built', shapes, tags⟩ := moved.1.left_ok built₀
  rw [built'] at ports
  cases ports with
  | ok related =>
    refine ⟨shapes.trans related.1, tags.trans related.2.1, fun e extra => ?_⟩
    rw [← moved.2] at extra
    exact (mem_extraProxies extra).2.2.symm

end

def twoNodesDb : Database where
  proxies := {
    rows := [
      .fresh 1 1 1 (.default .ssh "one" "one.example"),
      .fresh 2 1 2 (.default .ssh "two" "two.example")]
    unique := by decide }
  groups := {
    rows := [{ id := 1, userOrder := 1, isSelector := true }]
    unique := List.nodup_singleton _ }
  rules := []

/-- One of the nodes is selected, and their group is a selector. -/
def twoNodes (settings : Settings) (selected : Int) : World where
  env := .device twoNodesDb settings fun _ => none
  selectedProxy := selected
  mkPort := fun _ n => 20000 + n

/-- The service after it was started with the initial settings. -/
def startedService : Service :=
  step (twoNodes .initial 1) (step (twoNodes .initial 1) (startRunner {}))

theorem startedService_reachable : Reachable startedService :=
  .step _ (.step _ (.start .new))

/-- The user lets the core bypass the LAN. -/
def changedSettings : Settings := { Settings.initial with bypassLanInCore := true }

def rulesOf : ConfigText → List RouteRule
  | .custom _ => []
  | .generated o => o.rules

theorem rulesOf_shape (c : ConfigText) : rulesOf c.shape = rulesOf c := by cases c <;> rfl

def runningRules (s : Service) : Option Nat :=
  (s.proxy.bind (·.config)).map fun r => (rulesOf r.config).length

def builtRules (b : Option Build) : Option Nat :=
  b.bind (generatedWith fun r _ => (rulesOf r.config).length)

theorem builtRules_eq {x : Option Build} {k : Nat} (h : builtRules x = some k) :
    ∃ b r, x = some b ∧ buildConfig b = .ok r ∧ (rulesOf r.config).length = k := by
  obtain ⟨b, there, told⟩ := Option.bind_eq_some_iff.mp h
  obtain ⟨r, _, built, _, count⟩ := generatedWith_eq told
  exact ⟨b, r, there, built, count⟩

/-- An applied configuration has as many route rules as the one that is built. -/
theorem Applied.rules {r : ConfigBuildResult} (h : Applied b r s) :
    runningRules s = some (rulesOf r.config).length := by
  obtain ⟨_, p, running, proxy, config, same, _⟩ := h
  have rules : rulesOf running.config = rulesOf r.config := by
    rw [← rulesOf_shape, same, rulesOf_shape]
  simp [runningRules, proxy, config, rules]

def firstNode : Build :=
  .onDevice twoNodesDb (.fresh 1 1 1 (.default .ssh "one" "one.example")) (by decide)

def secondNode : Profile := .fresh 2 1 2 (.default .ssh "two" "two.example")

end QuinMo.Bg
