import QuinMo.Lib.Run
import QuinMo.Lib.Text

/-!
# Editing a group while its subscription is updated

The editor writes its whole form over the row of the moment; an update downloads, and merges what
it is responsible for into the row of the moment. Beside the row stands what its fields should be
if neither side lost the other's work.
-/

namespace QuinMo.Subscription.GroupEditing

inductive GroupType where
  | basic
  | subscription
  deriving DecidableEq, Repr

/-- What an update writes about the subscription. -/
structure Info where
  lastUpdated : Int
  subscriptionUserinfo : String
  bytesUsed : Int
  bytesRemaining : Int
  expiryDate : Int
  deriving DecidableEq, Repr

/-- The info of a subscription that was never updated. -/
def Info.cleared : Info := ⟨0, "", 0, 0, 0⟩

structure Settings where
  forceResolve : Bool
  deduplication : Bool
  updateWhenConnectedOnly : Bool
  customUserAgent : String
  autoUpdate : Bool
  autoUpdateDelay : Int
  deriving DecidableEq, Repr

structure SubscriptionBean where
  link : String
  settings : Settings
  info : Info
  deriving DecidableEq, Repr

def SubscriptionBean.defaults : SubscriptionBean :=
    ⟨"", ⟨false, false, false, "", false, 1440⟩, .cleared⟩

structure Row where
  name : Option String
  type : GroupType
  order : Int
  isSelector : Bool
  frontProxy : Int
  landingProxy : Int
  proxyServerNameserver : String
  subscription : Option SubscriptionBean
  deriving DecidableEq, Repr

/-- What the editor keeps in the cache store. -/
structure Form where
  groupName : String
  groupType : GroupType
  groupOrder : Int
  groupIsSelector : Bool
  frontProxy : Int
  landingProxy : Int
  frontProxyTmp : Int
  landingProxyTmp : Int
  proxyServerNameserver : String
  subscriptionLink : String
  subscriptionSettings : Settings
  deriving DecidableEq, Repr

def Row.init (row : Row) : Form :=
  let subscription := row.subscription.getD .defaults
  { groupName := row.name.getD ""
    groupType := row.type
    groupOrder := row.order
    groupIsSelector := row.isSelector
    frontProxy := row.frontProxy
    landingProxy := row.landingProxy
    frontProxyTmp := if row.frontProxy ≥ 0 then 3 else 0
    landingProxyTmp := if row.landingProxy ≥ 0 then 3 else 0
    proxyServerNameserver := row.proxyServerNameserver
    subscriptionLink := subscription.link
    subscriptionSettings := subscription.settings }

namespace Form

def savedName (form : Form) : String :=
  if Text.isBlank form.groupName then "My group" else form.groupName

def savedFrontProxy (form : Form) : Int := if form.frontProxyTmp = 3 then form.frontProxy else -1

def savedLandingProxy (form : Form) : Int :=
  if form.landingProxyTmp = 3 then form.landingProxy else -1

def savedNameserver (form : Form) : String := Text.trim form.proxyServerNameserver

def serialize (form : Form) (row : Row) : Row where
  name := some form.savedName
  type := form.groupType
  order := form.groupOrder
  isSelector := form.groupIsSelector
  frontProxy := form.savedFrontProxy
  landingProxy := form.savedLandingProxy
  proxyServerNameserver := form.savedNameserver
  subscription :=
    if form.groupType = .subscription then
      some { row.subscription.getD .defaults with
        link := form.subscriptionLink, settings := form.subscriptionSettings }
    else row.subscription

end Form

def keepUserInfo (entity : Row) (form : Form) : Bool :=
  decide (entity.type = .subscription ∧ form.groupType = .subscription ∧
    entity.subscription.map (·.link) = some form.subscriptionLink)

def Info.reset (info : Info) : Info := { info with subscriptionUserinfo := "", lastUpdated := 0 }

/-- `GroupManager.updateGroup` with the row of the moment. -/
def updateGroup (group : Row) (preserveSubscriptionRuntime : Bool) (current : Row) : Row :=
  if preserveSubscriptionRuntime then
    { group with subscription := group.subscription.map fun s =>
      { s with info := (current.subscription.map (·.info)).getD s.info } }
  else group

/-- The end of `saveAndExit`, after it has read the row as `entity`. -/
def saveAndExit (form : Form) (entity current : Row) : Row :=
  let keep := keepUserInfo entity form
  let entity := if keep then entity
    else { entity with subscription := entity.subscription.map fun s =>
      { s with info := s.info.reset } }
  updateGroup (form.serialize entity) keep current

/-- The number after the first `key=` that digits follow. -/
def digitsOf (key : List Char) : List Char → List Char
  | [] => []
  | c :: cs =>
    let digits := ((c :: cs).drop key.length).takeWhile Char.isDigit
    if key.isPrefixOf (c :: cs) && !digits.isEmpty then digits else digitsOf key cs

/-- `value` in `doUpdate`: what is missing or too large for a Long counts as zero. -/
def userinfoValue (userinfo key : String) : Int :=
  let digits := digitsOf (key ++ "=").toList userinfo.toList
  let n : Nat := digits.foldl (fun n c => 10 * n + (c.toNat - 48)) 0
  if n < 9223372036854775808 then n else 0

def toLong (n : Int) : Int := n.bmod 18446744073709551616

def toInt (n : Int) : Int := n.bmod 4294967296

/-- What an update took from the row when it started. `afterSave` tells whether that was after
the editor had saved. -/
structure Flight where
  contentLink : Bool
  userinfo : String
  defaultName : Bool
  afterSave : Bool
  deriving DecidableEq, Repr

/-- What an update got: the decoded name and the user info from the headers, the nameserver in
the text and whether the text has a list of proxies, the time, and the front and landing
proxies that are not there any more after the profiles were written. -/
structure Response where
  remoteName : String
  userinfo : String
  nameserver : Option String
  listsProxies : Bool
  time : Int
  gone : List Int
  deriving DecidableEq, Repr

def Flight.remoteGroupName (flight : Flight) (response : Response) : Option String :=
  if !flight.contentLink && flight.defaultName && !Text.isBlank response.remoteName then
    some response.remoteName
  else none

def Flight.info (flight : Flight) (response : Response) : Info :=
  let userinfo := if flight.contentLink then flight.userinfo else response.userinfo
  let used := toLong (userinfoValue userinfo "upload" + userinfoValue userinfo "download")
  { lastUpdated := response.time
    subscriptionUserinfo := userinfo
    bytesUsed := used
    bytesRemaining := toLong (userinfoValue userinfo "total" - used)
    expiryDate := toInt (userinfoValue userinfo "expire") }

/-- The nameserver that is written, if one is. -/
def Response.mirrored (response : Response) : Option String :=
  match response.nameserver with
  | some nameserver => some nameserver
  | none => if response.listsProxies then some "" else none

/-- `resetDanglingGroupProxies` for one column. -/
def Response.undangle (response : Response) (proxy : Int) : Int :=
  if 0 < proxy ∧ proxy ∈ response.gone then -1 else proxy

def Row.commit (row : Row) (flight : Flight) (response : Response) : Row :=
  { row with
    name := (flight.remoteGroupName response).or row.name
    proxyServerNameserver := response.mirrored.getD row.proxyServerNameserver
    frontProxy := response.undangle row.frontProxy
    landingProxy := response.undangle row.landingProxy
    subscription := row.subscription.map fun s => { s with info := flight.info response } }

inductive Edit where
  | groupName (value : String)
  | groupType (value : GroupType)
  | groupOrder (value : Int)
  | groupIsSelector (value : Bool)
  | frontProxy (value : Option Int)
  | landingProxy (value : Option Int)
  | proxyServerNameserver (value : String)
  | subscriptionLink (value : String)
  | subscriptionSettings (value : Settings)
  deriving DecidableEq, Repr

def Edit.apply (form : Form) : Edit → Form
  | .groupName value => { form with groupName := value }
  | .groupType value => { form with groupType := value }
  | .groupOrder value => { form with groupOrder := value }
  | .groupIsSelector value => { form with groupIsSelector := value }
  | .frontProxy (some value) => { form with frontProxy := value, frontProxyTmp := 3 }
  | .frontProxy none => { form with frontProxyTmp := 0 }
  | .landingProxy (some value) => { form with landingProxy := value, landingProxyTmp := 3 }
  | .landingProxy none => { form with landingProxyTmp := 0 }
  | .proxyServerNameserver value => { form with proxyServerNameserver := value }
  | .subscriptionLink value => { form with subscriptionLink := value }
  | .subscriptionSettings value => { form with subscriptionSettings := value }

structure Session where
  opened : Form
  edits : List Edit
  deriving DecidableEq, Repr

/-- Fields of the editor that an update writes too. -/
structure Fields where
  name : Bool
  nameserver : Bool
  frontProxy : Bool
  landingProxy : Bool
  deriving DecidableEq, Repr

namespace Session

def form (session : Session) : Form := session.edits.foldl Edit.apply session.opened

/-- Which of the shared fields the user changed. -/
def changed (session : Session) : Fields where
  name := session.edits.any fun | .groupName _ => true | _ => false
  nameserver := session.edits.any fun | .proxyServerNameserver _ => true | _ => false
  frontProxy := session.edits.any fun | .frontProxy _ => true | _ => false
  landingProxy := session.edits.any fun | .landingProxy _ => true | _ => false

end Session

/-- The user changed the type of the group, or the link of a subscription. -/
def relinks (entity : Row) (form : Form) : Bool :=
  decide (entity.type ≠ form.groupType ∨ form.groupType = .subscription ∧
    entity.subscription.map (·.link) ≠ some form.subscriptionLink)

inductive Phase where
  | closed
  | editing (session : Session)
  | saving (session : Session) (entity : Row)
  | saved (session : Session) (relinked : Bool)
  deriving DecidableEq, Repr

/-- What the fields should hold. The front and landing proxies are followed once the user has
chosen them. -/
structure Expected where
  name : Option String
  nameserver : String
  info : Info
  frontProxy : Option Int
  landingProxy : Option Int
  deriving DecidableEq, Repr

/-- A save writes what the user changed; a new link or type begins without info. -/
def Expected.save (expected : Expected) (session : Session) (entity : Row) : Expected where
  name := if session.changed.name then some session.form.savedName else expected.name
  nameserver :=
    if session.changed.nameserver then session.form.savedNameserver else expected.nameserver
  info := if relinks entity session.form then .cleared else expected.info
  frontProxy := if session.changed.frontProxy then some session.form.savedFrontProxy else none
  landingProxy := if session.changed.landingProxy then some session.form.savedLandingProxy else none

/-- What an update must leave alone that started before the save: the user's fields, and the info
if the link or type is a new one. -/
structure Shields extends Fields where
  info : Bool
  deriving DecidableEq, Repr

def Phase.shields (phase : Phase) (flight : Flight) : Shields :=
  match phase with
  | .saved session relinked =>
    if flight.afterSave then ⟨⟨false, false, false, false⟩, false⟩ else ⟨session.changed, relinked⟩
  | _ => ⟨⟨false, false, false, false⟩, false⟩

def Expected.commit (expected : Expected) (shields : Shields) (flight : Flight)
    (response : Response) : Expected where
  name := if shields.name then expected.name
    else (flight.remoteGroupName response).or expected.name
  nameserver := if shields.nameserver then expected.nameserver
    else response.mirrored.getD expected.nameserver
  info := if shields.info then expected.info else flight.info response
  frontProxy := expected.frontProxy.map fun proxy =>
    if shields.frontProxy then proxy else response.undangle proxy
  landingProxy := expected.landingProxy.map fun proxy =>
    if shields.landingProxy then proxy else response.undangle proxy

structure State where
  row : Row
  phase : Phase
  flights : Nat → Option Flight
  expected : Expected

def State.initial (row : Row) : State where
  row := row
  phase := .closed
  flights := fun _ => none
  expected := ⟨row.name, row.proxyServerNameserver, (row.subscription.map (·.info)).getD .cleared,
    none, none⟩

inductive Op where
  | openEditor
  | edit (edit : Edit)
  /-- Saving begins: the row is read. -/
  | readRow
  /-- The transaction of the save. -/
  | save
  | start (update : Nat)
  | commit (update : Nat) (response : Response)
  deriving DecidableEq, Repr

def setFlight (flights : Nat → Option Flight) (update : Nat) (flight : Option Flight) :
    Nat → Option Flight :=
  fun n => if n = update then flight else flights n

def step (s : State) : Op → Option State
  | .openEditor =>
    match s.phase with
    | .closed => some { s with phase := .editing ⟨s.row.init, []⟩ }
    | _ => none
  | .edit edit =>
    match s.phase with
    | .editing session =>
      some { s with phase := .editing { session with edits := session.edits ++ [edit] } }
    | _ => none
  | .readRow =>
    match s.phase with
    -- nothing is saved if nothing was changed
    | .editing session => if session.edits = [] then none
      else some { s with phase := .saving session s.row }
    | _ => none
  | .save =>
    match s.phase with
    | .saving session entity =>
      some { s with
        row := saveAndExit session.form entity s.row
        phase := .saved session (relinks entity session.form)
        expected := s.expected.save session entity }
    | _ => none
  | .start update =>
    match s.flights update, s.row.type, s.row.subscription with
    | none, .subscription, some subscription =>
      some { s with flights := setFlight s.flights update (some {
        contentLink := Text.startsWith subscription.link "content://"
        userinfo := subscription.info.subscriptionUserinfo
        defaultName := (s.row.name.map (Text.startsWith · "Subscription #")).getD false
        afterSave := match s.phase with
          | .saved _ _ => true
          | _ => false }) }
    | _, _, _ => none
  | .commit update response =>
    match s.flights update with
    | some flight =>
      some { s with
        row := s.row.commit flight response
        flights := setFlight s.flights update none
        expected := s.expected.commit (s.phase.shields flight) flight response }
    | none => none

/-- What the user entered is in the row, where no update writes. -/
structure Session.Settled (session : Session) (row : Row) : Prop where
  type : row.type = session.form.groupType
  order : row.order = session.form.groupOrder
  isSelector : row.isSelector = session.form.groupIsSelector
  subscription : session.form.groupType = .subscription →
    ∃ s, row.subscription = some s ∧ s.link = session.form.subscriptionLink ∧
      s.settings = session.form.subscriptionSettings

/-- Neither side has lost the other's work. -/
structure State.Agreed (s : State) : Prop where
  name : s.row.name = s.expected.name
  nameserver : s.row.proxyServerNameserver = s.expected.nameserver
  info : ∀ sub, s.row.subscription = some sub → sub.info = s.expected.info
  frontProxy : ∀ proxy, s.expected.frontProxy = some proxy → s.row.frontProxy = proxy
  landingProxy : ∀ proxy, s.expected.landingProxy = some proxy → s.row.landingProxy = proxy
  settled : ∀ session relinked, s.phase = .saved session relinked → session.Settled s.row

/-! ## When no work is lost -/

/-- A save keeps the updates' work if no update wrote a field that the user left alone since the
editor was opened, and if a subscription that is left behind has no traffic. -/
structure SaveKeeps (s : State) (session : Session) (entity : Row) : Prop where
  name : session.changed.name = false → s.row.name = some session.form.savedName
  nameserver : session.changed.nameserver = false →
    s.row.proxyServerNameserver = session.form.savedNameserver
  relinked : relinks entity session.form = true → ∀ sub, entity.subscription = some sub →
    sub.info.bytesUsed = 0 ∧ sub.info.bytesRemaining = 0 ∧ sub.info.expiryDate = 0
  basic : relinks entity session.form = false → entity.type = .basic →
    ∀ sub current, entity.subscription = some sub → s.row.subscription = some current →
      current.info = sub.info.reset

/-- An update that started before the save keeps the user's work if it brings nothing new to what
the user changed. -/
structure CommitKeeps (s : State) (flight : Flight) (response : Response) : Prop where
  name : (s.phase.shields flight).name = true →
    ∀ name, flight.remoteGroupName response = some name → s.row.name = some name
  nameserver : (s.phase.shields flight).nameserver = true →
    ∀ nameserver, response.mirrored = some nameserver → s.row.proxyServerNameserver = nameserver
  info : (s.phase.shields flight).info = true →
    ∀ sub, s.row.subscription = some sub → sub.info = flight.info response
  frontProxy : (s.phase.shields flight).frontProxy = true →
    0 < s.row.frontProxy → s.row.frontProxy ∉ response.gone
  landingProxy : (s.phase.shields flight).landingProxy = true →
    0 < s.row.landingProxy → s.row.landingProxy ∉ response.gone

def Keeps (s : State) : Op → Prop
  | .save =>
    match s.phase with
    | .saving session entity => SaveKeeps s session entity
    | _ => True
  | .commit update response =>
    match s.flights update with
    | some flight => CommitKeeps s flight response
    | none => True
  | _ => True

theorem Info.reset_eq_cleared (info : Info) : info.reset = .cleared ↔
    info.bytesUsed = 0 ∧ info.bytesRemaining = 0 ∧ info.expiryDate = 0 := by
  simp [Info.reset, Info.cleared]

variable {s : State} {entity : Row}

/-- The info after a save that begins with a new link or type, or that does not look at the
subscription. -/
theorem saveAndExit_fresh {form : Form} (current : Row)
    (fresh : keepUserInfo entity form = false) (info : Info)
    (empty : entity.subscription = none → form.groupType = .subscription → info = .cleared) :
    (∀ sub, (saveAndExit form entity current).subscription = some sub → sub.info = info) ↔
      ∀ sub, entity.subscription = some sub → sub.info.reset = info := by
  simp only [saveAndExit, fresh, updateGroup, Form.serialize, Bool.false_eq_true, if_false]
  cases there : entity.subscription with
  | none =>
    by_cases type : form.groupType = .subscription
    · simp [type, SubscriptionBean.defaults, empty there type]
    · simp [type]
  | some sub =>
    by_cases type : form.groupType = .subscription
    · simp [type]
    · simp [type]

/-- The info after a save that keeps the link is that of the row of the moment. -/
theorem saveAndExit_keep {form : Form} {current : Row} {sub cur : SubscriptionBean}
    (keep : keepUserInfo entity form = true) (there : current.subscription = some cur)
    (saved : (saveAndExit form entity current).subscription = some sub) : sub.info = cur.info := by
  have type := (of_decide_eq_true keep).2.1
  simp only [saveAndExit, keep, updateGroup, Form.serialize, if_true, type, there,
    Option.map_some, Option.getD_some, Option.some.injEq] at saved
  rw [← saved]

/-- Either the link is kept, or a new link or type begins, or the group is none with a
subscription. -/
theorem relinks_cases (entity : Row) (form : Form) :
    keepUserInfo entity form = true ∧ relinks entity form = false ∧ entity.type = .subscription ∨
      keepUserInfo entity form = false ∧ relinks entity form = true ∨
      keepUserInfo entity form = false ∧ relinks entity form = false ∧ entity.type = .basic ∧
        form.groupType = .basic := by
  by_cases link : entity.subscription.map (·.link) = some form.subscriptionLink <;>
    cases type : entity.type <;> cases type' : form.groupType <;>
    simp [keepUserInfo, relinks, type, type', link]

theorem save_info_iff {session : Session} (agreed : s.Agreed)
    (present : entity.subscription.isSome = s.row.subscription.isSome) :
    (∀ sub, (saveAndExit session.form entity s.row).subscription = some sub →
        sub.info = (s.expected.save session entity).info) ↔
      (relinks entity session.form = true → ∀ sub, entity.subscription = some sub →
        sub.info.bytesUsed = 0 ∧ sub.info.bytesRemaining = 0 ∧ sub.info.expiryDate = 0) ∧
      (relinks entity session.form = false → entity.type = .basic →
        ∀ sub current, entity.subscription = some sub → s.row.subscription = some current →
          current.info = sub.info.reset) := by
  rcases relinks_cases entity session.form with ⟨keep, linked, type⟩ | ⟨fresh, relinked⟩ |
    ⟨fresh, linked, type, type'⟩
  · refine iff_of_true (fun sub saved => ?_) ⟨?_, ?_⟩
    · have link := (of_decide_eq_true keep).2.2
      obtain ⟨old, there, -⟩ := Option.map_eq_some_iff.mp link
      rw [there, Option.isSome_some] at present
      obtain ⟨cur, now⟩ := Option.isSome_iff_exists.mp present.symm
      rw [saveAndExit_keep keep now saved, agreed.info cur now]
      simp [Expected.save, linked]
    · simp [linked]
    · simp [type]
  · rw [saveAndExit_fresh s.row fresh]
    · simp only [Expected.save, relinked, if_true, Info.reset_eq_cleared]
      simp
    · simp [Expected.save, relinked]
  · rw [saveAndExit_fresh s.row fresh]
    · have expected : (s.expected.save session entity).info = s.expected.info := by
        simp [Expected.save, linked]
      rw [expected]
      constructor
      · refine fun same => ⟨by simp [linked], fun _ _ sub cur there now => ?_⟩
        exact (agreed.info cur now).trans (same sub there).symm
      · intro ⟨_, same⟩ sub there
        rw [there, Option.isSome_some] at present
        obtain ⟨cur, now⟩ := Option.isSome_iff_exists.mp present.symm
        exact (same linked type sub cur there now).symm.trans (agreed.info cur now)
    · simp [type']

theorem saveAndExit_settled (session : Session) (entity current : Row) :
    session.Settled (saveAndExit session.form entity current) := by
  unfold saveAndExit updateGroup
  cases keepUserInfo entity session.form with
  | true =>
    refine ⟨rfl, rfl, rfl, fun type => ?_⟩
    simp [Form.serialize, type]
  | false =>
    refine ⟨rfl, rfl, rfl, fun type => ?_⟩
    simp [Form.serialize, type]

theorem saveAndExit_fields (form : Form) (entity current : Row) :
    (saveAndExit form entity current).name = some form.savedName ∧
      (saveAndExit form entity current).proxyServerNameserver = form.savedNameserver ∧
      (saveAndExit form entity current).frontProxy = form.savedFrontProxy ∧
      (saveAndExit form entity current).landingProxy = form.savedLandingProxy := by
  unfold saveAndExit updateGroup
  cases keepUserInfo entity form <;> exact ⟨rfl, rfl, rfl, rfl⟩

/-- What holds besides: the row that was read for a save has a subscription if the row has, and
the proxies that the user chose are followed. -/
structure State.Tracked (s : State) : Prop where
  present : ∀ session entity, s.phase = .saving session entity →
    entity.subscription.isSome = s.row.subscription.isSome
  chosen : ∀ session relinked, s.phase = .saved session relinked →
    s.expected.frontProxy.isSome = session.changed.frontProxy ∧
      s.expected.landingProxy.isSome = session.changed.landingProxy
  unchosen : (∀ session relinked, s.phase ≠ .saved session relinked) →
    s.expected.frontProxy = none ∧ s.expected.landingProxy = none

theorem save_field_iff {T : Type} {held expected saved : T} {changed : Bool}
    (agreed : held = expected) :
    saved = (if changed then saved else expected) ↔ (changed = false → held = saved) := by
  subst agreed
  cases changed <;> simp [eq_comm]

theorem save_agreed_iff {session : Session} (agreed : s.Agreed)
    (present : entity.subscription.isSome = s.row.subscription.isSome) : { s with
      row := saveAndExit session.form entity s.row
      phase := .saved session (relinks entity session.form)
      expected := s.expected.save session entity : State }.Agreed ↔ SaveKeeps s session entity := by
  obtain ⟨name, nameserver, frontProxy, landingProxy⟩ :=
    saveAndExit_fields session.form entity s.row
  constructor
  · intro after
    obtain ⟨relinked, basic⟩ := (save_info_iff agreed present).mp after.info
    exact ⟨(save_field_iff agreed.name).mp (name.symm.trans after.name),
      (save_field_iff agreed.nameserver).mp (nameserver.symm.trans after.nameserver), relinked,
      basic⟩
  · intro keeps
    refine ⟨name.trans ((save_field_iff agreed.name).mpr keeps.name),
      nameserver.trans ((save_field_iff agreed.nameserver).mpr keeps.nameserver),
      (save_info_iff agreed present).mpr ⟨keeps.relinked, keeps.basic⟩, ?_, ?_, ?_⟩
    · intro proxy chosen
      simp only [Expected.save, Option.ite_none_right_eq_some, Option.some.injEq] at chosen
      exact frontProxy.trans chosen.2
    · intro proxy chosen
      simp only [Expected.save, Option.ite_none_right_eq_some, Option.some.injEq] at chosen
      exact landingProxy.trans chosen.2
    · rintro _ _ ⟨⟩
      exact saveAndExit_settled session entity s.row

theorem commit_name_iff {held expected : Option String} {written : Option String} {shield : Bool}
    (agreed : held = expected) :
    written.or held = (if shield then expected else written.or expected) ↔
      (shield = true → ∀ name, written = some name → held = some name) := by
  subst agreed
  cases shield <;> cases written <;> simp [eq_comm]

theorem commit_nameserver_iff {held expected : String} {written : Option String} {shield : Bool}
    (agreed : held = expected) :
    written.getD held = (if shield then expected else written.getD expected) ↔
      (shield = true → ∀ nameserver, written = some nameserver → held = nameserver) := by
  subst agreed
  cases shield <;> cases written <;> simp [eq_comm]

theorem undangle_eq_self (response : Response) (proxy : Int) :
    response.undangle proxy = proxy ↔ (0 < proxy → proxy ∉ response.gone) := by
  unfold Response.undangle
  split
  · rename_i dangling
    constructor
    · omega
    · intro kept
      exact absurd dangling.2 (kept dangling.1)
  · rename_i kept
    simpa using kept

theorem commit_proxy_iff {response : Response} {held : Int} {expected : Option Int} {shield : Bool}
    (agreed : ∀ proxy, expected = some proxy → held = proxy)
    (followed : shield = true → expected.isSome = true) :
    (∀ proxy, (expected.map fun proxy => if shield then proxy else response.undangle proxy) =
        some proxy → response.undangle held = proxy) ↔
      (shield = true → 0 < held → held ∉ response.gone) := by
  cases expected with
  | none =>
    cases shield with
    | true => cases followed rfl
    | false => simp
  | some proxy =>
    cases agreed proxy rfl
    cases shield <;> simp [← undangle_eq_self]

theorem State.Tracked.followed (tracked : s.Tracked) (flight : Flight) :
    ((s.phase.shields flight).frontProxy = true → s.expected.frontProxy.isSome = true) ∧
      ((s.phase.shields flight).landingProxy = true → s.expected.landingProxy.isSome = true) := by
  cases phase : s.phase with
  | saved session relinked =>
    obtain ⟨front, landing⟩ := tracked.chosen session relinked phase
    cases late : flight.afterSave <;> simp [Phase.shields, late, front, landing]
  | _ => exact ⟨nofun, nofun⟩

theorem commit_info_iff (agreed : s.Agreed) (flight : Flight) (response : Response) :
    (∀ sub, (s.row.commit flight response).subscription = some sub →
        sub.info = (s.expected.commit (s.phase.shields flight) flight response).info) ↔
      ((s.phase.shields flight).info = true →
        ∀ sub, s.row.subscription = some sub → sub.info = flight.info response) := by
  cases there : s.row.subscription with
  | none => simp [Row.commit, there]
  | some sub =>
    have held := agreed.info sub there
    simp only [Row.commit, there, Option.map_some, Expected.commit]
    cases (s.phase.shields flight).info with
    | false => simp
    | true =>
      constructor
      · rintro same - _ ⟨⟩
        exact held.trans (same _ rfl).symm
      · rintro same _ ⟨⟩
        exact (same rfl sub rfl).symm.trans held

theorem commit_agreed_iff {flight : Flight} {response : Response} {flights : Nat → Option Flight}
    (tracked : s.Tracked) (agreed : s.Agreed) : { s with
      row := s.row.commit flight response
      flights
      expected := s.expected.commit (s.phase.shields flight) flight response : State }.Agreed ↔
      CommitKeeps s flight response := by
  obtain ⟨front, landing⟩ := tracked.followed flight
  have settled : ∀ session relinked, s.phase = .saved session relinked →
      session.Settled (s.row.commit flight response) := by
    intro session relinked phase
    obtain ⟨type, order, isSelector, subscription⟩ := agreed.settled session relinked phase
    refine ⟨type, order, isSelector, fun type => ?_⟩
    obtain ⟨sub, there, link, settings⟩ := subscription type
    exact ⟨{ sub with info := flight.info response },
      by simp only [Row.commit, there, Option.map_some], link, settings⟩
  have info := commit_info_iff agreed flight response
  constructor
  · intro after
    exact ⟨(commit_name_iff agreed.name).mp after.name,
      (commit_nameserver_iff agreed.nameserver).mp after.nameserver, info.mp after.info,
      (commit_proxy_iff agreed.frontProxy front).mp after.frontProxy,
      (commit_proxy_iff agreed.landingProxy landing).mp after.landingProxy⟩
  · intro keeps
    exact ⟨(commit_name_iff agreed.name).mpr keeps.name,
      (commit_nameserver_iff agreed.nameserver).mpr keeps.nameserver, info.mpr keeps.info,
      (commit_proxy_iff agreed.frontProxy front).mpr keeps.frontProxy,
      (commit_proxy_iff agreed.landingProxy landing).mpr keeps.landingProxy, settled⟩

/-! ### Whole runs -/

theorem initial_agreed (row : Row) : (State.initial row).Agreed where
  name := rfl
  nameserver := rfl
  info sub there := by
    change row.subscription = some sub at there
    simp [State.initial, there]
  frontProxy := by simp [State.initial]
  landingProxy := by simp [State.initial]
  settled := by simp [State.initial]

theorem initial_tracked (row : Row) : (State.initial row).Tracked where
  present := by simp [State.initial]
  chosen := by simp [State.initial]
  unchosen _ := ⟨rfl, rfl⟩

/-- A step before the save that is not the save changes neither the row nor what is expected. -/
theorem State.Agreed.turn (agreed : s.Agreed) {phase : Phase}
    (open_ : ∀ session relinked, phase ≠ .saved session relinked) :
    { s with phase : State }.Agreed :=
  ⟨agreed.name, agreed.nameserver, agreed.info, agreed.frontProxy, agreed.landingProxy,
    fun session relinked saved => absurd saved (open_ session relinked)⟩

theorem agreed_iff {s' : State} {op : Op} (tracked : s.Tracked) (agreed : s.Agreed)
    (next : step s op = some s') : s'.Agreed ↔ Keeps s op := by
  cases op with
  | openEditor =>
    simp only [step] at next
    split at next <;> cases next
    exact iff_of_true (agreed.turn (by simp)) trivial
  | edit edit =>
    simp only [step] at next
    split at next <;> cases next
    exact iff_of_true (agreed.turn (by simp)) trivial
  | readRow =>
    simp only [step] at next
    split at next
    · split at next <;> cases next
      exact iff_of_true (agreed.turn (by simp)) trivial
    · cases next
  | save =>
    simp only [step] at next
    split at next <;> cases next
    rename_i session entity phase
    simp only [Keeps, phase]
    exact save_agreed_iff agreed (tracked.present session entity phase)
  | start update =>
    simp only [step] at next
    split at next <;> cases next
    exact iff_of_true ⟨agreed.name, agreed.nameserver, agreed.info, agreed.frontProxy,
      agreed.landingProxy, agreed.settled⟩ trivial
  | commit update response =>
    simp only [step] at next
    split at next <;> cases next
    rename_i flight flying
    simp only [Keeps, flying]
    exact commit_agreed_iff tracked agreed

/-- Before the save no proxy is followed. -/
theorem State.Tracked.turn (tracked : s.Tracked) {phase : Phase}
    (before : ∀ session relinked, s.phase ≠ .saved session relinked)
    (after : ∀ session relinked, phase ≠ .saved session relinked)
    (present : ∀ session entity, phase = .saving session entity → entity.subscription.isSome =
      s.row.subscription.isSome) :
    { s with phase : State }.Tracked :=
  ⟨present, fun session relinked saved => absurd saved (after session relinked),
    fun _ => tracked.unchosen before⟩

theorem step_tracked {s' : State} {op : Op} (tracked : s.Tracked)
    (next : step s op = some s') : s'.Tracked := by
  cases op with
  | openEditor =>
    simp only [step] at next
    split at next <;> cases next
    rename_i phase
    exact tracked.turn (by simp [phase]) (by simp) (by simp)
  | edit edit =>
    simp only [step] at next
    split at next <;> cases next
    rename_i session phase
    exact tracked.turn (by simp [phase]) (by simp) (by simp)
  | readRow =>
    simp only [step] at next
    split at next
    · rename_i session phase
      split at next <;> cases next
      refine tracked.turn (by simp [phase]) (by simp) ?_
      rintro _ _ ⟨⟩
      rfl
    · cases next
  | save =>
    simp only [step] at next
    split at next <;> cases next
    rename_i session entity phase
    refine ⟨by simp, ?_, fun open_ => absurd rfl (open_ session _)⟩
    rintro _ _ ⟨⟩
    simp only [Expected.save]
    cases session.changed.frontProxy <;> cases session.changed.landingProxy <;> exact ⟨rfl, rfl⟩
  | start update =>
    simp only [step] at next
    split at next <;> cases next
    exact ⟨tracked.present, tracked.chosen, tracked.unchosen⟩
  | commit update response =>
    simp only [step] at next
    split at next <;> cases next
    refine ⟨fun session entity phase => ?_, fun session relinked phase => ?_, fun open_ => ?_⟩
    · simpa [Row.commit] using tracked.present session entity phase
    · simpa [Expected.commit] using tracked.chosen session relinked phase
    · simpa [Expected.commit] using tracked.unchosen open_

/-- Neither the editor nor the updates lose the other's work all along an interleaving exactly if
the save and the commits find the row as their conditions say. -/
theorem no_work_lost_iff (row : Row) (ops : List Op) :
    (∀ s ∈ Run.states step (State.initial row) ops, s.Agreed) ↔
      Run.Along step Keeps (State.initial row) ops := by
  apply Run.states_iff State.Tracked
  · exact fun s op s' tracked agreed next => agreed_iff tracked agreed next
  · exact fun s op s' tracked _ next _ => step_tracked tracked next
  · exact initial_tracked row
  · exact initial_agreed row

/-- A subscription that was updated once and still has its default name. -/
def sampleRow : Row :=
  ⟨some "Subscription #1", .subscription, 0, false, -1, -1, "",
    some ⟨"https://a/", ⟨false, false, false, "", true, 1440⟩,
      ⟨1000, "upload=1; download=2; total=10; expire=5000", 3, 7, 5000⟩⟩⟩

def sampleResponse : Response := ⟨"Airport", "total=10", none, false, 2000, []⟩

/-- The editor is opened, an update renames the group, and the user saves another order. -/
def renamedMeanwhile : List Op :=
  [.openEditor, .start 0, .commit 0 sampleResponse, .edit (.groupOrder 1), .readRow, .save]

/-- The user saves a name while an update is under way that renames the group. -/
def renamedAfterwards : List Op :=
  [.openEditor, .edit (.groupName "Work"), .start 0, .readRow, .save, .commit 0 sampleResponse]

/-- The user enters a new link. -/
def newLink : List Op :=
  [.openEditor, .edit (.subscriptionLink "https://b/"), .readRow, .save]

theorem work_lost :
    ¬ (Run.final step (State.initial sampleRow) renamedMeanwhile).Agreed ∧
      ¬ (Run.final step (State.initial sampleRow) renamedAfterwards).Agreed ∧
      ¬ (Run.final step (State.initial sampleRow) newLink).Agreed := by
  refine ⟨fun agreed => ?_, fun agreed => ?_, fun agreed => ?_⟩
  · exact absurd agreed.name (by decide)
  · exact absurd agreed.name (by decide)
  · exact absurd (agreed.info _ rfl) (by decide)

end QuinMo.Subscription.GroupEditing
