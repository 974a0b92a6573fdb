import QuinMo.Chain.Resolve
import QuinMo.Lib.Search
import QuinMo.Profiles.Positions

/-!
# The chain editor

The editor keeps the member list of one chain in a draft and lets a profile in only when it does
not hold the chain. A new chain has no id before it is saved, so nothing is tested for it: it
closes a cycle when a chain already lists the id it gets.
-/

namespace QuinMo.Chain

open Relation Search Unfold

/-- The visiting set holds the chains the test is inside of, `fuel` bounds the nesting. -/
def testProfileContains (db : Database) (another : Profile) : Nat → List Int → Profile → Option Bool
  | 0, _, _ => none
  | fuel + 1, visiting, profile =>
    match profile.bean.kind, another.bean.kind with
    | .chain proxies, .chain _ =>
      if profile.id = another.id then some true
      else if profile.id ∈ visiting then some false
      else if another.id ∈ proxies then some true
      else anyOf (testProfileContains db another fuel (profile.id :: visiting))
        (db.getEntities proxies)
    | _, _ => some false

def isChain (e : Profile) : Bool :=
  match e.bean.kind with
  | .chain _ => true
  | _ => false

/-- The stored profiles that a profile lists, none unless it is a chain. -/
def listed (db : Database) (e : Profile) : List Profile :=
  match e.bean.kind with
  | .chain proxies => db.getEntities proxies
  | _ => []

def lists (e : Profile) (id : Int) : Bool :=
  match e.bean.kind with
  | .chain proxies => decide (id ∈ proxies)
  | _ => false

variable {e another : Profile} {id : Int}

theorem mem_members {db : Database} {proxies : List Int} :
    e ∈ members db proxies ↔ e ∈ db.proxies.rows ∧ e.id ∈ proxies := by
  constructor
  · intro h
    refine ⟨members_sub h, ?_⟩
    obtain ⟨id, listed, found⟩ := List.mem_filterMap.mp h
    have same : e.id = id := by simpa using List.find?_some found
    exact same ▸ listed
  · rintro ⟨stored, listed⟩
    refine List.mem_filterMap.mpr ⟨e.id, listed, ?_⟩
    have unique : ∀ d ∈ db.getEntities proxies, d.id = e.id → d = e := fun d hd same =>
      db.proxies.key_inj (Database.mem_getEntities.mp hd).1 stored same
    have here : e ∈ db.getEntities proxies := Database.mem_getEntities.mpr ⟨stored, listed⟩
    cases found : (db.getEntities proxies).find? (·.id == e.id) with
    | none => exact absurd (List.find?_eq_none.mp found e here) (by simp)
    | some d =>
      have same : d.id = e.id := by simpa using List.find?_some found
      rw [unique d (List.mem_of_find?_eq_some found) same]

theorem edge_iff {db : Database} {d : Profile} :
    Edge (kids db) e d ↔ d ∈ db.proxies.rows ∧ lists e d.id = true := by
  unfold Edge kids lists
  cases e.bean.kind <;> simp [mem_members]

theorem mem_listed {db : Database} {d : Profile} : d ∈ listed db e ↔ Edge (kids db) e d := by
  rw [edge_iff]
  unfold listed lists
  cases e.bean.kind <;> simp [Database.mem_getEntities]

/-- A profile the test stops at with a yes. -/
def containing (another e : Profile) : Bool :=
  isChain e && isChain another && (e.id == another.id || lists e another.id)

/-- The test is a search with its path in hand. The target is never on the path: the
test stops when it sees it. -/
theorem testProfileContains_eq_search (db : Database) (target : isChain another = true) {fuel : Nat}
    {visiting : List Int} (off : another.id ∉ visiting) (e : Profile) :
    testProfileContains db another fuel visiting e =
      search (·.id) (listed db) (containing another) fuel visiting e := by
  obtain ⟨others, chainA⟩ : ∃ others, another.bean.kind = .chain others := by
    unfold isChain at target
    split at target
    · next others kind => exact ⟨others, kind⟩
    · cases target
  induction fuel generalizing visiting e with
  | zero => rfl
  | succ fuel ih =>
    rw [testProfileContains, search, chainA]
    cases chainE : e.bean.kind with
    | chain proxies =>
      have hit : containing another e = (e.id == another.id || decide (another.id ∈ proxies)) := by
        simp [containing, isChain, lists, chainE, chainA]
      have next : listed db e = db.getEntities proxies := by simp [listed, chainE]
      rw [hit, next]
      dsimp only
      by_cases same : e.id = another.id
      · have free : e.id ∉ visiting := same ▸ off
        rw [if_pos same, if_neg free, if_pos (by simp [same])]
      rw [if_neg same]
      by_cases inside : e.id ∈ visiting
      · rw [if_pos inside, if_pos inside]
      rw [if_neg inside, if_neg inside]
      by_cases direct : another.id ∈ proxies
      · rw [if_pos direct, if_pos (by simp [direct])]
      rw [if_neg direct, if_neg (by simp [same, direct])]
      refine anyOf_congr fun d _ => ih ?_ d
      simp [off, Ne.symm same]
    | _ => simp [containing, isChain, listed, chainE, anyOf]

theorem testProfileContains_other {db : Database}
    (other : isChain another = false) (fuel : Nat) (visiting : List Int) (e : Profile) :
    testProfileContains db another (fuel + 1) visiting e = some false := by
  rw [testProfileContains]
  split
  · next kind =>
    rw [isChain, kind] at other
    cases other
  · rfl

theorem isChain_of_lists (h : lists e id = true) : isChain e = true := by
  unfold lists at h
  unfold isChain
  split at h
  · rfl
  · cases h

theorem stored_of_walk {db : Database} {d : Profile} (he : e ∈ db.proxies.rows)
    (walk : ReflTransGen (Edge (kids db)) e d) : d ∈ db.proxies.rows := by
  cases walk with
  | refl => exact he
  | tail _ last => exact edge_sub last

/-- The last step of a way to the target may be taken by its id. -/
theorem reaches_iff {db : Database} (he : e ∈ db.proxies.rows)
    (stored : another ∈ db.proxies.rows) (target : isChain another = true) :
    (∃ d, ReflTransGen (fun a b => b ∈ listed db a) e d ∧ containing another d = true) ↔
      isChain e = true ∧ ReflTransGen (Edge (kids db)) e another := by
  have edges : (fun a b => b ∈ listed db a) = Edge (kids db) := by
    funext a b
    exact propext mem_listed
  rw [edges]
  constructor
  · rintro ⟨d, walk, hits⟩
    simp only [containing, Bool.and_eq_true, Bool.or_eq_true, beq_iff_eq] at hits
    obtain ⟨⟨chain, -⟩, close⟩ := hits
    have chainE : isChain e = true := by
      rcases walk.cases_head with rfl | ⟨c, first, -⟩
      · exact chain
      · exact isChain_of_lists (edge_iff.mp first).2
    refine ⟨chainE, ?_⟩
    rcases close with same | direct
    · rwa [← db.proxies.key_inj (stored_of_walk he walk) stored same]
    · exact walk.tail (edge_iff.mpr ⟨stored, direct⟩)
  · rintro ⟨-, walk⟩
    exact ⟨another, walk, by simp [containing, target]⟩

/-- The test ends, and finds exactly the chains that a chain leads to. -/
theorem testProfileContains_answers {db : Database} (he : e ∈ db.proxies.rows)
    (stored : another ∈ db.proxies.rows) {fuel : Nat} (enough : nesting db ≤ fuel) :
    ∃ answer, testProfileContains db another fuel [] e = some answer ∧
      (answer = true ↔ isChain e = true ∧ isChain another = true ∧
        ReflTransGen (Edge (kids db)) e another) := by
  unfold nesting at enough
  cases target : isChain another with
  | false =>
    obtain ⟨less, rfl⟩ : ∃ less, fuel = less + 1 := ⟨fuel - 1, by omega⟩
    exact ⟨false, testProfileContains_other target less [] e, by simp⟩
  | true =>
    have closed : ∀ a ∈ db.proxies.rows, listed db a ⊆ db.proxies.rows :=
      fun a _ b hb => edge_sub (mem_listed.mp hb)
    obtain ⟨answer, found, means⟩ :
        ∃ answer, search (·.id) (listed db) (containing another) fuel [] e = some answer ∧
          (answer = true ↔ ∃ d, ReflTransGen (fun a b => b ∈ listed db a) e d ∧
            containing another d = true) :=
      search_reaches closed (fun a ha b hb => db.proxies.key_inj ha hb) he enough
    refine ⟨answer, ?_, ?_⟩
    · rw [testProfileContains_eq_search db target List.not_mem_nil, found]
    · rw [means, reaches_iff he stored target]
      simp

/-! ## The draft of a chain -/

/-- The stored profiles. The id 0 stands for a row without one, so no row has it. -/
structure Saved where
  store : Store Bean
  numbered : ∀ e ∈ store.proxies.rows, e.id ≠ 0
  counted : 0 ≤ store.proxies.sequence

def Saved.rows (s : Saved) : List Profile := s.store.proxies.rows

def Saved.db (s : Saved) : Database where
  proxies := s.store.proxies.toTable
  groups := s.store.groups.toTable
  rules := []

def Saved.getProfile (s : Saved) (profileId : Int) : Option Profile :=
  if profileId = 0 then none else s.store.getById profileId

structure Draft where
  editingId : Int
  /-- `DataStore.serverProtocol`, without the commas between the ids. -/
  cachedProxyIds : List Int
  proxyList : List Profile
  deriving DecidableEq, Repr

def testProfileAllowed (s : Saved) (d : Draft) (profile : Profile) : Option Bool :=
  if profile.id = d.editingId then some false
  else
    match anyOf (testProfileContains s.db profile (nesting s.db) []) d.proxyList with
    | some true => some false
    | none => none
    | some false =>
      match s.getProfile d.editingId with
      | some editing => (testProfileContains s.db editing (nesting s.db) [] profile).map (!·)
      | none => some true

/-- What happens in the editor. A selection writes the cached ids only; the list is
loaded again after it, and when the editor opens, in the background. -/
inductive Edit where
  | reload
  | move (first second : Nat)
  | remove (index : Nat)
  | select (replacing : Nat) (profileId : Int)
  deriving DecidableEq, Repr

/-- Two members change places; the adapter counts them from 1. -/
def swap (list : List Profile) (first second : Nat) : List Profile :=
  match list[first - 1]?, list[second - 1]? with
  | some a, some b => (list.set (second - 1) a).set (first - 1) b
  | _, _ => list

def Draft.withList (d : Draft) (proxyList : List Profile) : Draft :=
  { d with proxyList := proxyList, cachedProxyIds := proxyList.map (·.id) }

def Draft.edit (s : Saved) (d : Draft) : Edit → Draft
  | .reload => { d with proxyList := members s.db d.cachedProxyIds }
  | .move first second => d.withList (swap d.proxyList first second)
  | .remove index => d.withList (d.proxyList.eraseIdx (index - 1))
  | .select replacing profileId =>
    match s.getProfile profileId with
    | none => d
    | some profile =>
      if testProfileAllowed s d profile = some true then
        { d with cachedProxyIds :=
            if 1 ≤ replacing ∧ replacing ≤ d.cachedProxyIds.length then
              d.cachedProxyIds.set (replacing - 1) profile.id
            else d.cachedProxyIds ++ [profile.id] }
      else d

/-- The fields of the editor beside the list. -/
structure Form where
  profileName : String
  profileCore : Int
  editingGroup : Int
  deriving DecidableEq, Repr

variable {s : Saved} {d : Draft} {form : Form} {ok : Int → Prop}

def newChain (d : Draft) (form : Form) : Bean :=
  .default (.chain (d.proxyList.map (·.id))) form.profileName "127.0.0.1"

def editedChain (d : Draft) (form : Form) (e : Profile) : Profile :=
  { e with
    core := form.profileCore
    bean := { e.bean with
      name := form.profileName, kind := .chain (d.proxyList.map (·.id)) } }

theorem mem_modify {f : Profile → Profile} {keeps : ∀ e, e.id = id → (f e).id = id} :
    e ∈ (s.store.modify id f keeps).proxies.rows ↔
      ∃ d ∈ s.rows, (if d.id = id then f d else d) = e := by
  simp [Store.modify, Numbered.modify, Table.modify, Saved.rows]

theorem createProfile_numbered (s : Saved) (d : Draft) (form : Form) :
    ∀ e ∈ (Profiles.createProfile s.store form.editingGroup (newChain d form)
      form.profileCore).proxies.rows, e.id ≠ 0 := by
  intro e he
  have := s.counted
  rcases Profiles.mem_createProfile.mp he with old | rfl
  · exact s.numbered e old
  · simp only [Profiles.created, ProxyEntity.fresh]
    omega

theorem createProfile_counted (s : Saved) (d : Draft) (form : Form) :
    0 ≤ (Profiles.createProfile s.store form.editingGroup (newChain d form)
      form.profileCore).proxies.sequence := by
  have := s.counted
  simp only [Profiles.createProfile, Store.addProxy, Numbered.place]
  omega

theorem editedChain_numbered (s : Saved) (d : Draft) (form : Form) :
    ∀ e ∈ (s.store.modify d.editingId (editedChain d form) fun _ h => h).proxies.rows,
      e.id ≠ 0 := by
  intro e he
  obtain ⟨row, stored, rfl⟩ := mem_modify.mp he
  have := s.numbered row stored
  split <;> exact this

def saveAndExit (s : Saved) (d : Draft) (form : Form) : Saved :=
  if d.editingId = 0 then
    { store := Profiles.createProfile s.store form.editingGroup (newChain d form) form.profileCore
      numbered := createProfile_numbered s d form
      counted := createProfile_counted s d form }
  else
    { store := s.store.modify d.editingId (editedChain d form) fun _ h => h
      numbered := editedChain_numbered s d form
      counted := s.counted }

def openNew : Draft where
  editingId := 0
  cachedProxyIds := []
  proxyList := []

def openChain (e : Profile) (proxies : List Int) : Draft where
  editingId := e.id
  cachedProxyIds := proxies
  proxyList := []

def Draft.edits (s : Saved) (d : Draft) (edits : List Edit) : Draft := edits.foldl (·.edit s) d

/-- One session, from opening the editor to saving: no other write comes between. -/
inductive Session (s : Saved) : Saved → Prop
  | create (edits : List Edit) (form : Form) :
      Session s (saveAndExit s (openNew.edits s edits) form)
  | change {e : Profile} {proxies : List Int} (stored : e ∈ s.rows)
      (chain : e.bean.kind = .chain proxies) (edits : List Edit) (form : Form) :
      Session s (saveAndExit s ((openChain e proxies).edits s edits) form)

/-- A stored profile lists the id of a stored profile. -/
def Refers (rows : List Profile) (i j : Int) : Prop :=
  (∃ e ∈ rows, e.id = i ∧ lists e j = true) ∧ ∃ e ∈ rows, e.id = j

instance (rows : List Profile) (i j : Int) : Decidable (Refers rows i j) :=
  inferInstanceAs (Decidable (_ ∧ _))

def Acyclic (s : Saved) : Prop := ∀ id, ¬ TransGen (Refers s.rows) id id

/-- No chain lists an id that is still to be given out. -/
def Issued (s : Saved) : Prop :=
  ∀ e ∈ s.rows, ∀ id, lists e id = true → id ≤ s.store.proxies.sequence

theorem refers_of_edge {db : Database} {d : Profile} (he : e ∈ db.proxies.rows)
    (edge : Edge (kids db) e d) : Refers db.proxies.rows e.id d.id :=
  ⟨⟨e, he, rfl, (edge_iff.mp edge).2⟩, d, (edge_iff.mp edge).1, rfl⟩

/-- Walking along the ids is walking along the rows. -/
theorem walk_iff {db : Database} {d : Profile} (he : e ∈ db.proxies.rows)
    (hd : d ∈ db.proxies.rows) :
    ReflTransGen (Edge (kids db)) e d ↔ ReflTransGen (Refers db.proxies.rows) e.id d.id := by
  constructor
  · intro walk
    clear hd
    induction walk with
    | refl => exact .refl
    | tail before last ih => exact ih.tail (refers_of_edge (stored_of_walk he before) last)
  · intro walk
    have rows : ∀ {j}, ReflTransGen (Refers db.proxies.rows) e.id j →
        ∃ b ∈ db.proxies.rows, b.id = j ∧ ReflTransGen (Edge (kids db)) e b := by
      intro j walk
      induction walk with
      | refl => exact ⟨e, he, rfl, .refl⟩
      | @tail i j _ last ih =>
        obtain ⟨b, hb, same, before⟩ := ih
        obtain ⟨⟨b', hb', same', listing⟩, c, hc, id⟩ := last
        obtain rfl : b' = b := db.proxies.key_inj hb' hb (same'.trans same.symm)
        exact ⟨c, hc, id, before.tail (edge_iff.mpr ⟨hc, id ▸ listing⟩)⟩
    obtain ⟨b, hb, same, before⟩ := rows walk
    exact db.proxies.key_inj hb hd same ▸ before

/-- The id may be listed by the chain `e`: nothing leads from it back to `e`. -/
def Safe (s : Saved) (e : Profile) (id : Int) : Prop := ¬ ReflTransGen (Refers s.rows) id e.id

theorem Safe.of_member (acyclic : Acyclic s) (he : e ∈ s.rows)
    (listing : lists e id = true) : Safe s e id := by
  intro back
  have stored : ∃ d ∈ s.rows, d.id = id := by
    rcases back.cases_head with rfl | ⟨_, first, _⟩
    · exact ⟨e, he, rfl⟩
    · obtain ⟨⟨d, hd, same, _⟩, _⟩ := first
      exact ⟨d, hd, same⟩
  exact acyclic e.id (TransGen.head' ⟨⟨e, he, rfl, listing⟩, stored⟩ back)

theorem Safe.of_allowed {profile : Profile} (he : e ∈ s.rows)
    (chain : isChain e = true) (hp : profile ∈ s.rows) (editing : d.editingId = e.id)
    (allowed : testProfileAllowed s d profile = some true) : Safe s e profile.id := by
  have found : s.getProfile d.editingId = some e := by
    rw [editing, Saved.getProfile, if_neg (s.numbered e he)]
    exact Store.getById_id he
  unfold testProfileAllowed at allowed
  split at allowed
  · cases allowed
  next other =>
  split at allowed
  · cases allowed
  · cases allowed
  · rw [found] at allowed
    dsimp only at allowed
    have storedP : profile ∈ s.db.proxies.rows := hp
    have storedE : e ∈ s.db.proxies.rows := he
    obtain ⟨answer, asked, means⟩ :=
      testProfileContains_answers storedP storedE (Nat.le_refl _)
    rw [asked] at allowed
    have no : answer = false := by simpa using allowed
    intro back
    have walk := (walk_iff storedP storedE).mpr back
    have chainP : isChain profile = true := by
      rcases walk.cases_head with rfl | ⟨_, first, _⟩
      · exact chain
      · exact isChain_of_lists (edge_iff.mp first).2
    rw [no] at means
    exact Bool.false_ne_true (means.mpr ⟨chainP, chain, walk⟩)

theorem mem_swap {list : List Profile} {first second : Nat} {p : Profile}
    (h : p ∈ swap list first second) : p ∈ list := by
  unfold swap at h
  split at h
  · next a b atFirst atSecond =>
    rcases List.mem_or_eq_of_mem_set h with h | rfl
    · rcases List.mem_or_eq_of_mem_set h with h | rfl
      · exact h
      · exact List.mem_of_getElem? atFirst
    · exact List.mem_of_getElem? atSecond
  · exact h

/-- What holds of the cached ids, and of the profiles in the list, during a session:
every profile in the list is stored, every id in the cache was there or was let in. -/
structure Draft.Keeps (s : Saved) (ok : Int → Prop) (d : Draft) : Prop where
  cached : ∀ id ∈ d.cachedProxyIds, ok id
  loaded : ∀ p ∈ d.proxyList, p ∈ s.rows ∧ ok p.id

theorem Draft.Keeps.edit (h : d.Keeps s ok)
    (entry : ∀ profile ∈ s.rows, ∀ list : Draft, list.editingId = d.editingId →
      testProfileAllowed s list profile = some true → ok profile.id)
    (edit : Edit) : (d.edit s edit).Keeps s ok ∧ (d.edit s edit).editingId = d.editingId := by
  have relist : ∀ list : List Profile, (∀ p ∈ list, p ∈ d.proxyList) →
      (d.withList list).Keeps s ok ∧ (d.withList list).editingId = d.editingId := by
    intro list part
    refine ⟨⟨fun id hid => ?_, fun p hp => h.loaded p (part p hp)⟩, rfl⟩
    obtain ⟨p, hp, rfl⟩ := List.mem_map.mp hid
    exact (h.loaded p (part p hp)).2
  cases edit with
  | reload =>
    refine ⟨⟨h.cached, fun p hp => ?_⟩, rfl⟩
    obtain ⟨stored, listing⟩ := mem_members.mp hp
    exact ⟨stored, h.cached p.id listing⟩
  | move first second => exact relist _ fun p hp => mem_swap hp
  | remove index => exact relist _ fun p hp => List.mem_of_mem_eraseIdx hp
  | select replacing profileId =>
    unfold Draft.edit
    dsimp only
    split
    · exact ⟨h, rfl⟩
    next profile found =>
    split
    next allowed =>
      have stored : profile ∈ s.rows := by
        unfold Saved.getProfile at found
        split at found
        · cases found
        · exact (Store.getById_eq_some.mp found).1
      have good : ok profile.id := entry profile stored d rfl allowed
      refine ⟨⟨fun id hid => ?_, h.loaded⟩, rfl⟩
      dsimp only at hid
      split at hid
      · rcases List.mem_or_eq_of_mem_set hid with old | rfl
        · exact h.cached id old
        · exact good
      · rcases List.mem_append.mp hid with old | new
        · exact h.cached id old
        · exact List.mem_singleton.mp new ▸ good
    · exact ⟨h, rfl⟩

theorem Draft.Keeps.edits (h : d.Keeps s ok)
    (entry : ∀ profile ∈ s.rows, ∀ list : Draft, list.editingId = d.editingId →
      testProfileAllowed s list profile = some true → ok profile.id)
    (edits : List Edit) :
    (d.edits s edits).Keeps s ok ∧ (d.edits s edits).editingId = d.editingId := by
  induction edits generalizing d with
  | nil => exact ⟨h, rfl⟩
  | cons edit edits ih =>
    obtain ⟨kept, same⟩ := h.edit entry edit
    obtain ⟨all, still⟩ := ih kept fun profile hp list editing => entry profile hp list
      (editing.trans same)
    exact ⟨all, still.trans same⟩

/-- The ids in the draft of a stored chain are safe for it. -/
theorem openChain_safe (acyclic : Acyclic s) {proxies : List Int}
    (he : e ∈ s.rows) (chain : e.bean.kind = .chain proxies) (edits : List Edit) :
    ((openChain e proxies).edits s edits).Keeps s (Safe s e) ∧
      ((openChain e proxies).edits s edits).editingId = e.id := by
  have isChainE : isChain e = true := by rw [isChain, chain]
  have start : (openChain e proxies).Keeps s (Safe s e) := by
    refine ⟨fun id hid => Safe.of_member acyclic he ?_, fun p hp => by cases hp⟩
    rw [lists, chain]
    exact decide_eq_true hid
  exact start.edits (fun profile hp list editing allowed =>
    Safe.of_allowed he isChainE hp editing allowed) edits

theorem openNew_stored (s : Saved) (edits : List Edit) :
    (openNew.edits s edits).Keeps s (fun _ => True) ∧ (openNew.edits s edits).editingId = 0 := by
  have start : openNew.Keeps s fun _ => True := ⟨fun _ _ => trivial, fun p hp => by cases hp⟩
  exact start.edits (fun _ _ _ _ _ => trivial) edits

/-! ## What a session leaves -/

theorem lists_edited : lists (editedChain d form e) id = true ↔ ∃ p ∈ d.proxyList, p.id = id := by
  simp [lists, editedChain]

theorem lists_created :
    lists (Profiles.created s.store form.editingGroup (newChain d form) form.profileCore) id = true ↔
      ∃ p ∈ d.proxyList, p.id = id := by
  simp [lists, Profiles.created, ProxyEntity.fresh, newChain, Bean.default]

/-- A row afterwards is one that was there, or the edited one. -/
theorem mem_changed (editing : d.editingId ≠ 0) (h : e ∈ (saveAndExit s d form).rows) :
    ∃ r ∈ s.rows, r.id = e.id ∧
      (r.id ≠ d.editingId ∧ e = r ∨ r.id = d.editingId ∧ e = editedChain d form r) := by
  unfold saveAndExit at h
  rw [if_neg editing] at h
  obtain ⟨r, stored, rfl⟩ := mem_modify.mp h
  refine ⟨r, stored, ?_⟩
  split
  · next here => exact ⟨rfl, Or.inr ⟨here, rfl⟩⟩
  · next other => exact ⟨rfl, Or.inl ⟨other, rfl⟩⟩

theorem mem_new (editing : d.editingId = 0) : e ∈ (saveAndExit s d form).rows ↔ e ∈ s.rows ∨
      e = Profiles.created s.store form.editingGroup (newChain d form) form.profileCore := by
  unfold saveAndExit
  rw [if_pos editing]
  exact Profiles.mem_createProfile

theorem sequence_new (editing : d.editingId = 0) :
    (saveAndExit s d form).store.proxies.sequence = s.store.proxies.sequence + 1 := by
  unfold saveAndExit
  rw [if_pos editing]
  simp only [Profiles.createProfile, Store.addProxy, Numbered.place]
  omega

theorem sequence_changed (editing : d.editingId ≠ 0) :
    (saveAndExit s d form).store.proxies.sequence = s.store.proxies.sequence := by
  unfold saveAndExit
  rw [if_neg editing]
  rfl

/-- A chain that is edited and saved is on no cycle. -/
theorem change_acyclic (acyclic : Acyclic s) (he : e ∈ s.rows) (keeps : d.Keeps s (Safe s e))
    (editing : d.editingId = e.id) (form : Form) : Acyclic (saveAndExit s d form) := by
  have isOld : d.editingId ≠ 0 := editing ▸ s.numbered e he
  apply acyclic_change (v := e.id) acyclic
  · rintro i j other ⟨⟨r, hr, rfl, listing⟩, target, ht, rfl⟩
    obtain ⟨q, hq, same, ⟨-, rfl⟩ | ⟨here, -⟩⟩ := mem_changed isOld hr
    · obtain ⟨q', hq', same', -⟩ := mem_changed isOld ht
      exact ⟨⟨r, hq, rfl, listing⟩, q', hq', same'⟩
    · exact absurd (same.symm.trans (here.trans editing)) other
  · rintro j ⟨⟨r, hr, id, listing⟩, -⟩
    obtain ⟨q, hq, same, ⟨elsewhere, -⟩ | ⟨-, rfl⟩⟩ := mem_changed isOld hr
    · exact absurd (same.trans (id.trans editing.symm)) elsewhere
    · obtain ⟨p, hp, rfl⟩ := lists_edited.mp listing
      exact (keeps.loaded p hp).2

theorem change_issued (issued : Issued s) (keeps : d.Keeps s ok) (editing : d.editingId ≠ 0)
    (form : Form) : Issued (saveAndExit s d form) := by
  intro r hr id listing
  rw [sequence_changed editing]
  obtain ⟨q, hq, -, ⟨-, rfl⟩ | ⟨-, rfl⟩⟩ := mem_changed editing hr
  · exact issued r hq id listing
  · obtain ⟨p, hp, rfl⟩ := lists_edited.mp listing
    exact s.store.proxies.bounded p (keeps.loaded p hp).1

/-- A new chain is on no cycle when nothing listed its id beforehand. -/
theorem create_acyclic (acyclic : Acyclic s) (issued : Issued s) (keeps : d.Keeps s ok)
    (editing : d.editingId = 0) (form : Form) :
    Acyclic (saveAndExit s d form) := by
  have below : ∀ r ∈ s.rows, r.id ≤ s.store.proxies.sequence := s.store.proxies.bounded
  apply acyclic_change (v := s.store.proxies.sequence + 1) acyclic
  · rintro i j other ⟨⟨r, hr, rfl, listing⟩, target, ht, rfl⟩
    rcases (mem_new editing).mp hr with old | rfl
    · rcases (mem_new editing).mp ht with stored | rfl
      · exact ⟨⟨r, old, rfl, listing⟩, target, stored, rfl⟩
      · -- the chain would list the id that is given out now
        have listed := issued r old _ listing
        simp only [Profiles.created, ProxyEntity.fresh] at listed
        omega
    · exact absurd rfl other
  · rintro j ⟨⟨r, hr, id, listing⟩, -⟩ back
    rcases (mem_new editing).mp hr with old | rfl
    · have := below r old
      omega
    · obtain ⟨p, hp, rfl⟩ := lists_created.mp listing
      have listed := below p (keeps.loaded p hp).1
      rcases back.cases_tail with same | ⟨_, -, -, target, stored, last⟩
      · omega
      · have := below target stored
        omega

theorem create_issued (issued : Issued s) (keeps : d.Keeps s ok) (editing : d.editingId = 0)
    (form : Form) : Issued (saveAndExit s d form) := by
  intro r hr id listing
  rw [sequence_new editing]
  rcases (mem_new editing).mp hr with old | rfl
  · have := issued r old id listing
    omega
  · obtain ⟨p, hp, rfl⟩ := lists_created.mp listing
    have := s.store.proxies.bounded p (keeps.loaded p hp).1
    omega

theorem Session.keeps {t : Saved} (h : Session s t) (acyclic : Acyclic s) (issued : Issued s) :
    Acyclic t ∧ Issued t := by
  cases h with
  | create edits form =>
    obtain ⟨keeps, editing⟩ := openNew_stored s edits
    exact ⟨create_acyclic acyclic issued keeps editing form, create_issued issued keeps editing form⟩
  | @change e proxies stored chain edits form =>
    obtain ⟨keeps, editing⟩ := openChain_safe acyclic stored chain edits
    have isOld := s.numbered e stored
    rw [← editing] at isOld
    exact ⟨change_acyclic acyclic stored keeps editing form, change_issued issued keeps isOld form⟩

theorem sessions_keep {t : Saved} (run : ReflTransGen Session s t) (acyclic : Acyclic s)
    (issued : Issued s) : Acyclic t ∧ Issued t := by
  induction run with
  | refl => exact ⟨acyclic, issued⟩
  | tail _ last ih => exact last.keeps ih.1 ih.2

/-- An editor in which only the list is filled in. -/
def Form.unnamed : Form where
  profileName := ""
  profileCore := 0
  editingGroup := 1

/-- With enough new chains the id is given out, the last time to a chain of `e`. -/
theorem closes_cycle (he : e ∈ s.rows)
    (listing : lists e id = true) {n : Nat} (ahead : id = s.store.proxies.sequence + 1 + n) :
    ∃ t, ReflTransGen Session s t ∧ ¬ Acyclic t := by
  induction n generalizing s with
  | zero =>
    let d := openNew.edits s [.select 0 e.id, .reload]
    have found : s.getProfile e.id = some e := by
      rw [Saved.getProfile, if_neg (s.numbered e he)]
      exact Store.getById_id he
    have allowed : testProfileAllowed s openNew e = some true := by
      have other : e.id ≠ openNew.editingId := s.numbered e he
      rw [testProfileAllowed, if_neg other]
      rfl
    have list : d.proxyList = members s.db [e.id] := by
      simp only [d, Draft.edits, List.foldl_cons, List.foldl_nil, Draft.edit, found,
        allowed, if_true]
      rfl
    have editing : d.editingId = 0 := (openNew_stored s _).2
    refine ⟨saveAndExit s d Form.unnamed, .single (.create _ Form.unnamed), fun acyclic => ?_⟩
    have created : Profiles.created s.store Form.unnamed.editingGroup (newChain d Form.unnamed)
      Form.unnamed.profileCore ∈
        (saveAndExit s d Form.unnamed).rows := (mem_new editing).mpr (Or.inr rfl)
    have old : e ∈ (saveAndExit s d Form.unnamed).rows := (mem_new editing).mpr (Or.inl he)
    have member : e ∈ d.proxyList := by
      rw [list]
      exact mem_members.mpr ⟨he, List.mem_singleton.mpr rfl⟩
    have thither : Refers (saveAndExit s d Form.unnamed).rows e.id id := by
      refine ⟨⟨e, old, rfl, listing⟩, _, created, ?_⟩
      simp only [Profiles.created, ProxyEntity.fresh]
      omega
    have back : Refers (saveAndExit s d Form.unnamed).rows id e.id := by
      refine ⟨⟨_, created, ?_, lists_created.mpr ⟨e, member, rfl⟩⟩, e, old, rfl⟩
      simp only [Profiles.created, ProxyEntity.fresh]
      omega
    exact acyclic e.id (.tail (.single thither) back)
  | succ n ih =>
    have editing : (openNew.edits s []).editingId = 0 := rfl
    obtain ⟨t, run, cyclic⟩ := ih (s := saveAndExit s (openNew.edits s []) Form.unnamed)
      ((mem_new editing).mpr (Or.inl he)) (by rw [sequence_new editing]; omega)
    exact ⟨t, run.head (.create [] Form.unnamed), cyclic⟩

/-- The test answers, rightly, and sessions of the editor close no cycle. -/
structure EditorSound (s : Saved) : Prop where
  answers : ∀ e ∈ s.rows, ∀ another ∈ s.rows, ∀ fuel, nesting s.db ≤ fuel →
    ∃ answer, testProfileContains s.db another fuel [] e = some answer ∧
      (answer = true ↔ isChain e = true ∧ isChain another = true ∧
        ReflTransGen (Refers s.rows) e.id another.id)
  acyclic : Acyclic s → ∀ t, ReflTransGen Session s t → Acyclic t

theorem testProfileContains_right {s : Saved} {e another : Profile} {fuel : Nat} (he : e ∈ s.rows)
    (ha : another ∈ s.rows) (enough : nesting s.db ≤ fuel) :
    ∃ answer, testProfileContains s.db another fuel [] e = some answer ∧
      (answer = true ↔ isChain e = true ∧ isChain another = true ∧
        ReflTransGen (Refers s.rows) e.id another.id) := by
  have storedE : e ∈ s.db.proxies.rows := he
  have storedA : another ∈ s.db.proxies.rows := ha
  obtain ⟨answer, asked, means⟩ := testProfileContains_answers storedE storedA enough
  refine ⟨answer, asked, means.trans ?_⟩
  rw [walk_iff storedE storedA]
  rfl

/-- The editor is sound exactly when no chain lists an id before it is given out. -/
theorem editor_sound_iff (s : Saved) : EditorSound s ↔ (Acyclic s → Issued s) := by
  constructor
  · intro sound acyclic e he id listing
    by_contra above
    obtain ⟨t, run, cyclic⟩ := closes_cycle he listing
      (n := (id - s.store.proxies.sequence - 1).toNat) (by omega)
    exact cyclic (sound.acyclic acyclic t run)
  · intro issued
    exact ⟨fun e he another ha fuel enough => testProfileContains_right he ha enough,
      fun acyclic t run => (sessions_keep run acyclic (issued acyclic)).1⟩

/-- The test answers rightly also where chains form a cycle. -/
theorem test_answers_right (s : Saved) (e another : { e // e ∈ s.rows }) (more : Nat) :
    ∃ answer, testProfileContains s.db another.1 (nesting s.db + more) [] e.1 = some answer ∧
      (answer = true ↔ isChain e.1 = true ∧ isChain another.1 = true ∧
        ReflTransGen (Refers s.rows) e.1.id another.1.id) :=
  testProfileContains_right e.2 another.2 (Nat.le_add_right _ more)

/-- One chain, whose only member 2 is not there, on a device that gave out the id 1. -/
def early : Saved where
  store :=
    { proxies :=
        { rows := [.fresh 1 1 1 (.default (.chain [2]) "first" "127.0.0.1")]
          unique := by decide
          sequence := 1
          bounded := by decide }
      groups := .empty }
  numbered := by decide
  counted := by decide

theorem early_closes_cycle : Acyclic early ∧
    ∃ t, Session early t ∧ TransGen (Refers t.rows) 1 1 := by
  constructor
  · intro id cycle
    obtain ⟨_, ⟨⟨e, he, -, listing⟩, target, ht, rfl⟩, -⟩ := TransGen.head'_iff.mp cycle
    obtain rfl := List.mem_singleton.mp he
    obtain rfl := List.mem_singleton.mp ht
    revert listing
    decide
  · refine ⟨_, .create [.select 0 1, .reload] .unnamed, ?_⟩
    exact .tail (.single (show Refers _ 1 2 from by decide)) (by decide)

end QuinMo.Chain
