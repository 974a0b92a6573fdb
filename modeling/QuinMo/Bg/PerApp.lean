import QuinMo.Config.Traffic

/-!
# Which apps the tunnel captures

The part of `startVpn` that names apps to the platform. With a list of allowed apps only these are
captured; with a list of disallowed apps everything else is, the root user as well. Traffic of the
root user has to stay outside if a core sends Hysteria over fake TCP.
-/

namespace QuinMo.Bg.PerApp

open Text Config

structure App where
  packageName : String
  internet : Bool

/-- The settings `proxyApps`, `bypass` and `individual`. -/
structure Settings where
  proxyApps : Bool
  bypass : Bool
  individual : String

/-- The installed apps, with the one that runs. -/
structure Device where
  packageName : String
  installed : List App
  own : packageName ∈ installed.map (·.packageName)

/-- The apps named to `VpnService.Builder`. -/
structure Tunnel where
  allowed : List String
  disallowed : List String

def isFakeTcp (e : Profile) : Bool :=
  match e.bean.kind with
  | .hysteria _ protocol _ => protocol == 1
  | _ => false

def needBypassRootUid (trafficMap : Map String (List Profile)) : Bool :=
  trafficMap.entries.any fun entry => entry.2.head?.any isFakeTcp

def Settings.listed (settings : Settings) : List String :=
  (split settings.individual '\n').filter (!isBlank ·)

def Device.allApps (device : Device) : List String :=
  (device.installed.filter fun app => app.packageName ≠ device.packageName &&
    (app.packageName == "android" || app.internet)).map (·.packageName)

/-- The apps that are named, and whether they are the ones to leave out. -/
def individual (device : Device) (settings : Settings) (needBypassRootUid : Bool) :
    List String × Bool :=
  if settings.proxyApps then
    if settings.bypass && needBypassRootUid then
      (device.allApps.filter (· ∉ settings.listed), false)
    else (settings.listed, settings.bypass)
  else (device.allApps, false)

/-- The loop over the named apps: the own one is always captured, and the platform does not take
apps that are not installed. -/
def Device.name (device : Device) (apps : List String) (bypass : Bool) : Tunnel :=
  let others := apps.filter (· ≠ device.packageName)
  let taken := fun apps : List String => apps.filter (· ∈ device.installed.map (·.packageName))
  if bypass then ⟨[], taken others⟩ else ⟨taken (others ++ [device.packageName]), []⟩

def startVpn (device : Device) (settings : Settings) (needBypassRootUid : Bool) : Tunnel :=
  if settings.proxyApps || needBypassRootUid then
    let (apps, bypass) := individual device settings needBypassRootUid
    device.name apps bypass
  else ⟨[], []⟩

def Tunnel.captures (tunnel : Tunnel) (packageName : String) : Bool :=
  if tunnel.allowed.isEmpty then packageName ∉ tunnel.disallowed else packageName ∈ tunnel.allowed

def Tunnel.capturesRoot (tunnel : Tunnel) : Bool := tunnel.allowed.isEmpty

/-- Which apps the user wants captured. -/
def Settings.Wanted (settings : Settings) (device : Device) (packageName : String) : Prop :=
  packageName = device.packageName ∨ settings.proxyApps = false ∨
    (packageName ∈ settings.listed ↔ settings.bypass = false)

section
variable {device : Device} {settings : Settings} {need bypass : Bool} {apps : List String}
  {app : App}

theorem name_capturesRoot (device : Device) (apps : List String) (bypass : Bool) :
    (device.name apps bypass).capturesRoot = bypass := by
  cases bypass with
  | true => rfl
  | false =>
    rw [Tunnel.capturesRoot, ← Bool.not_eq_true, List.isEmpty_iff]
    apply List.ne_nil_of_mem (a := device.packageName)
    exact List.mem_filter.mpr ⟨by simp, decide_eq_true device.own⟩

theorem name_captures (installed : app ∈ device.installed) :
    (device.name apps bypass).captures app.packageName = true ↔
      app.packageName = device.packageName ∨ (app.packageName ∈ apps ↔ bypass = false) := by
  have root := name_capturesRoot device apps bypass
  have there : ∃ a ∈ device.installed, a.packageName = app.packageName := ⟨app, installed, rfl⟩
  rw [Tunnel.capturesRoot] at root
  rw [Tunnel.captures, root]
  cases bypass <;> by_cases own : app.packageName = device.packageName <;>
    simp_all [Device.name]

theorem captures_unnamed (packageName : String) :
    (Tunnel.mk [] []).captures packageName = true := rfl

/-- In every mode the apps are captured as the settings say. -/
theorem startVpn_captures (installed : app ∈ device.installed)
    (internet : app.internet = true ∨ app.packageName = device.packageName) :
    (startVpn device settings need).captures app.packageName = true ↔
      settings.Wanted device app.packageName := by
  have every : app.packageName ≠ device.packageName → app.packageName ∈ device.allApps := by
    intro other
    apply List.mem_map_of_mem
    simp [List.mem_filter, installed, other, internet.resolve_right other]
  unfold startVpn individual Settings.Wanted
  cases settings.proxyApps <;> cases settings.bypass <;> cases need <;>
    simp [name_captures installed, captures_unnamed] <;> grind

theorem startVpn_capturesRoot : (startVpn device settings need).capturesRoot = true ↔
      need = false ∧ (settings.proxyApps = true → settings.bypass = true) := by
  unfold startVpn individual
  cases settings.proxyApps <;> cases settings.bypass <;> cases need <;>
    simp [name_capturesRoot]
  all_goals rfl

/-- The hops of the chains of a configuration; one that the user wrote has none. -/
def hops (b : Build) (r : ConfigBuildResult) : List Profile :=
  match r.config with
  | .custom _ => []
  | .generated _ => (plan b).calls.flatMap Call.hops

/-- Apps are captured as the settings say, and the root user is not while a hop uses fake TCP. -/
structure KeepsMeaning (device : Device) (settings : Settings) (b : Build)
    (r : ConfigBuildResult) : Prop where
  apps : ∀ app ∈ device.installed,
    app.internet = true ∨ app.packageName = device.packageName →
    ((startVpn device settings (needBypassRootUid r.trafficMap)).captures app.packageName = true ↔
      settings.Wanted device app.packageName)
  root : (∃ hop ∈ hops b r, isFakeTcp hop = true) →
    (startVpn device settings (needBypassRootUid r.trafficMap)).capturesRoot = false

/-- The last call that returned some tag begins with a hop that uses fake TCP. -/
def BeginsFakeTcp (b : Build) : Prop :=
  ∃ c ∈ (plan b).calls, lastCall (plan b).calls c.exit.text = some c ∧
    c.traffic.head?.any isFakeTcp = true

theorem needBypassRootUid_iff {b : Build} {r : ConfigBuildResult} {o : Options}
    (built : buildConfig b = .ok r) (generated : r.config = .generated o) :
    needBypassRootUid r.trafficMap = true ↔ BeginsFakeTcp b := by
  obtain ⟨p, outs, _, trafficMap, _⟩ := buildConfig_generated built generated
  obtain ⟨selected, _, follows⟩ := buildOutbounds_follows outs
  have lookup (t : String) :
      r.trafficMap.lookup t = (lastCall (plan b).calls t).map Call.traffic := by
    rw [trafficMap]
    exact follows.shared.traffic t
  rw [needBypassRootUid, List.any_eq_true]
  constructor
  · rintro ⟨⟨tag, list⟩, entry, first⟩
    have found := lookup tag
    rw [AList.mem_lookup_iff.mpr entry] at found
    obtain ⟨c, last, rfl⟩ := Option.map_eq_some_iff.mp found.symm
    have exit : c.exit.text = tag := by simpa using List.find?_some last
    exact ⟨c, lastCall_mem last, exit ▸ last, first⟩
  · rintro ⟨c, -, last, first⟩
    refine ⟨⟨c.exit.text, c.traffic⟩, AList.mem_lookup_iff.mp ?_, first⟩
    rw [lookup, last]
    rfl

theorem keepsMeaning_iff {b : Build} {r : ConfigBuildResult} (built : buildConfig b = .ok r)
    (device : Device) (settings : Settings) : KeepsMeaning device settings b r ↔
      (settings.proxyApps = true ∧ settings.bypass = false) ∨
        (∀ hop ∈ hops b r, isFakeTcp hop = false) ∨ BeginsFakeTcp b := by
  have seen : ∀ hop ∈ hops b r, needBypassRootUid r.trafficMap = true ↔ BeginsFakeTcp b := by
    intro hop listed
    cases config : r.config with
    | custom text => simp [hops, config] at listed
    | generated o => exact needBypassRootUid_iff built config
  constructor
  · intro keeps
    by_cases none : ∀ hop ∈ hops b r, isFakeTcp hop = false
    · exact .inr (.inl none)
    · simp only [not_forall, Bool.not_eq_false] at none
      obtain ⟨hop, listed, fake⟩ := none
      have outside := keeps.root ⟨hop, listed, fake⟩
      rw [← Bool.not_eq_true, startVpn_capturesRoot, ← Bool.not_eq_true, seen hop listed] at outside
      cases on : settings.proxyApps <;> cases mode : settings.bypass <;> simp_all
  · intro holds
    constructor
    · exact fun app installed => startVpn_captures installed
    · rintro ⟨hop, listed, fake⟩
      rw [← Bool.not_eq_true, startVpn_capturesRoot, ← Bool.not_eq_true, seen hop listed]
      rintro ⟨unseen, denies⟩
      rcases holds with ⟨on, allows⟩ | none | begins
      · rw [denies on] at allows
        cases allows
      · rw [none hop listed] at fake
        cases fake
      · exact unseen begins

end

/-- A chain that begins with a hop over fake TCP and leaves through a plain one. -/
def fakeTcpDb : Database where
  proxies := {
    rows := [
      .fresh 1 1 1 (.default .ssh "one" "one.example"),
      .fresh 2 1 2 (.default (.hysteria 1 1 "443") "two" "two.example"),
      .fresh 3 1 3 (.default (.chain [2, 1]) "chain" "")]
    unique := by decide }
  groups := .empty
  rules := []

def fakeTcpChain : Build :=
  .onDevice fakeTcpDb (.fresh 3 1 3 (.default (.chain [2, 1]) "chain" "")) (by decide)

/-- Root traffic is not seen to be in need of an exception, but a hop needs it. -/
theorem fakeTcpChain_builds : ∃ r, buildConfig fakeTcpChain = .ok r ∧
    needBypassRootUid r.trafficMap = false ∧ (hops fakeTcpChain r).any isFakeTcp = true := by
  have needs : generatedWith (fun r _ => (needBypassRootUid r.trafficMap,
      (hops fakeTcpChain r).any isFakeTcp)) fakeTcpChain = some (false, true) := by decide
  obtain ⟨r, _, built, _, told⟩ := generatedWith_eq needs
  exact ⟨r, built, Prod.mk.inj told⟩

def phone : Device := ⟨"app", [⟨"app", true⟩], by decide⟩

theorem fakeTcpChain_listed : ∃ r, buildConfig fakeTcpChain = .ok r ∧
    KeepsMeaning phone ⟨true, false, "app"⟩ fakeTcpChain r := by
  obtain ⟨r, built, -⟩ := fakeTcpChain_builds
  exact ⟨r, built, (keepsMeaning_iff built phone ⟨true, false, "app"⟩).mpr (.inl ⟨rfl, rfl⟩)⟩

/-- With per-app rules off the root user is captured although the chain uses fake TCP. -/
theorem fakeTcpChain_captures_root : ∃ r, buildConfig fakeTcpChain = .ok r ∧
    ¬ KeepsMeaning phone ⟨false, false, ""⟩ fakeTcpChain r := by
  obtain ⟨r, built, unseen, fake⟩ := fakeTcpChain_builds
  refine ⟨r, built, fun keeps => ?_⟩
  have outside := keeps.root (List.any_eq_true.mp fake)
  rw [unseen] at outside
  cases outside

end QuinMo.Bg.PerApp
