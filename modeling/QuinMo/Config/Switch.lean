import QuinMo.Config.Sharing

/-!
# Switching the selector

The core reports a tag, and the profile is looked up by it. Profiles that share an outbound have
one tag, and the lookup gives the one the map lists first.
-/

namespace QuinMo.Config

/-- What a running service keeps of the selection. -/
structure Service where
  /-- The `profileTagMap` of the running config in the order of the map, or none after the
  service was stopped. -/
  proxy : Option (List (Int × String))
  selectedProxy : Int
  /-- The ids handed to the traffic looper, and those sent to the clients. -/
  mains : List Int
  updates : List Int
  deriving DecidableEq, Repr

/-- `profileTagMap.filterValues { it == tag }.keys.firstOrNull() ?: -1`. -/
def profileWithTag (profileTagMap : List (Int × String)) (tag : String) : Int :=
  ((profileTagMap.filter (·.2 == tag)).map Prod.fst).head?.getD (-1)

def selectorOnProxySelected (db : Database) (selectorTag tag : String) (s : Service) : Service :=
  if selectorTag ≠ "proxy" then s
  else match s.proxy with
    | none => s
    | some profileTagMap =>
      let id := profileWithTag profileTagMap tag
      match db.proxies.get id with
      | none => s
      | some _ =>
        { s with selectedProxy := id, mains := s.mains ++ [id], updates := s.updates ++ [id] }

/-- In this order the key comes before the other one. -/
def Precedes (order : List (Int × String)) (p q : Int) : Prop :=
  q ∉ (order.map Prod.fst).takeWhile (· ≠ p)

theorem profileWithTag_eq (order : List (Int × String)) (tag : String) :
    profileWithTag order tag = ((order.find? (·.2 == tag)).map Prod.fst).getD (-1) := by
  rw [profileWithTag, List.head?_map, List.head?_filter]

variable {order : List (Int × String)}

/-- A key is found by its value exactly if it precedes the other keys with that value. -/
theorem profileWithTag_iff (distinct : (order.map Prod.fst).Nodup)
    {p : Int} {tag : String} (listed : (p, tag) ∈ order) :
    profileWithTag order tag = p ↔ ∀ q, q ≠ p → (q, tag) ∈ order → Precedes order p q := by
  rw [profileWithTag_eq]
  unfold Precedes
  induction order with
  | nil => cases listed
  | cons entry rest ih =>
    obtain ⟨k, t⟩ := entry
    rw [List.map_cons, List.nodup_cons] at distinct
    obtain ⟨new, distinct⟩ := distinct
    rw [List.find?_cons, List.map_cons, List.takeWhile_cons]
    by_cases same : t = tag
    · subst same
      by_cases key : k = p
      · simp [key]
      · have first : ((t : String) == t) = true := beq_self_eq_true t
        simp only [first, Option.map_some, Option.getD_some]
        refine iff_of_false key fun all => ?_
        exact all k key List.mem_cons_self (by simp [key])
    · have rest_listed : (p, tag) ∈ rest := by
        rcases List.mem_cons.mp listed with head | rest
        · cases head
          exact absurd rfl same
        · exact rest
      have key : k ≠ p := by
        rintro rfl
        exact new (List.mem_map.mpr ⟨_, rest_listed, rfl⟩)
      have miss : (t == tag) = false := by simpa using same
      simp only [miss, ih distinct rest_listed]
      refine forall_congr' fun q => forall_congr' fun _ => ?_
      constructor
      · intro h in_order
        rcases List.mem_cons.mp in_order with head | in_rest
        · cases head
          exact absurd rfl same
        · have other : q ≠ k := by
            rintro rfl
            exact new (List.mem_map.mpr ⟨_, in_rest, rfl⟩)
          simpa [key, other] using h in_rest
      · intro h in_rest
        have := h (List.mem_cons_of_mem _ in_rest)
        rw [if_pos (by simpa using key)] at this
        exact fun inside => this (List.mem_cons_of_mem _ inside)

/-! ## The selected profile -/

def Service.select (s : Service) (id : Int) : Service :=
  { s with selectedProxy := id, mains := s.mains ++ [id], updates := s.updates ++ [id] }

/-- The order lists the entries of the map. -/
def Iterates (order : List (Int × String)) (m : Map Int String) : Prop :=
  order.Perm (m.entries.map fun e => (e.1, e.2))

/-- Whichever member the selector is switched to, that member is looked up, stored as the
selected profile and handed on, if it still exists. -/
def SelectsChosen (b : Build) (r : ConfigBuildResult) (order : List (Int × String)) : Prop :=
  ∀ p ∈ b.db.getByGroup b.proxy.groupId, ∀ tag ∈ r.profileTagMap.lookup p.id,
    ∀ (db : Database) (s : Service), s.proxy = some order → (db.proxies.get p.id).isSome →
      selectorOnProxySelected db TAG_PROXY tag s = s.select p.id

theorem Iterates.distinct {m : Map Int String}
    (h : Iterates order m) : (order.map Prod.fst).Nodup := by
  rw [(h.map Prod.fst).nodup_iff, List.map_map]
  exact m.nodupKeys

theorem Iterates.mem_iff {m : Map Int String} (h : Iterates order m)
    {id : Int} {tag : String} : (id, tag) ∈ order ↔ m.lookup id = some tag := by
  rw [List.Perm.mem_iff h, ← Option.mem_def, AList.mem_lookup_iff]
  constructor
  · intro listed
    obtain ⟨⟨k, t⟩, entry, same⟩ := List.mem_map.mp listed
    cases same
    exact entry
  · exact fun entry => List.mem_map.mpr ⟨⟨id, tag⟩, entry, rfl⟩

theorem selectorOnProxySelected_iff {db : Database} {tag : String}
    {p : Int} {s : Service} (running : s.proxy = some order) (stored : (db.proxies.get p).isSome) :
    selectorOnProxySelected db TAG_PROXY tag s = s.select p ↔ profileWithTag order tag = p := by
  unfold selectorOnProxySelected
  rw [if_neg (by decide), running]
  constructor
  · intro selected
    have mains := congrArg Service.mains selected
    dsimp only at mains
    split at mains
    · exact absurd (congrArg List.length mains) (by simp [Service.select])
    · simpa [Service.select] using mains
  · intro found
    obtain ⟨row, get⟩ := Option.isSome_iff_exists.mp stored
    simp only [found, get, Service.select, running]

variable {b : Build} {r : ConfigBuildResult} {o : Options}

/-- The members that the selector gives back: those the map lists before all profiles they
share an outbound with. -/
theorem buildConfig_selectsChosen_iff (built : buildConfig b = .ok r)
    (generated : r.config = .generated o) (selector : b.buildSelector = true)
    {order : List (Int × String)} (iterates : Iterates order r.profileTagMap) :
    SelectsChosen b r order ↔ ∀ p ∈ b.db.getByGroup b.proxy.groupId, ∀ q ∈ b.requests,
      q.id ≠ p.id → Shares b p q → Precedes order p.id q.id := by
  obtain ⟨progress, outs, _, _, tagMap⟩ := buildConfig_generated built generated
  obtain ⟨_, _, follows⟩ := buildOutbounds_follows outs
  have tags (id : Int) : r.profileTagMap.lookup id = ((plan b).tag id).map Place.text := by
    rw [tagMap, follows.tags]
  constructor
  · rintro chosen p member q asked other ⟨before, before', askedP, askedQ, shared⟩
    obtain ⟨place, tag⟩ := Option.isSome_iff_exists.mp
      ((placed_iff selector).mpr ⟨p, before, askedP, rfl⟩)
    obtain ⟨place', tag'⟩ := Option.isSome_iff_exists.mp
      ((placed_iff selector).mpr ⟨q, before', askedQ, rfl⟩)
    have same := (tag_eq_iff selector askedP askedQ other tag tag').mpr shared
    have lookup : r.profileTagMap.lookup p.id = some place.text := by rw [tags, tag]; rfl
    have lookup' : r.profileTagMap.lookup q.id = some place.text := by
      rw [tags, tag', same]
      rfl
    have stored : (b.db.proxies.get p.id).isSome := by
      rw [Table.get_key (Database.mem_getByGroup.mp member).1]
      rfl
    have selected := chosen p member _ lookup b.db ⟨some order, 0, [], []⟩ rfl stored
    rw [selectorOnProxySelected_iff rfl stored,
      profileWithTag_iff iterates.distinct (iterates.mem_iff.mpr lookup)] at selected
    exact selected q.id other (iterates.mem_iff.mpr lookup')
  · intro first p member text lookup db s running stored
    have lookup : r.profileTagMap.lookup p.id = some text := lookup
    rw [selectorOnProxySelected_iff running stored,
      profileWithTag_iff iterates.distinct (iterates.mem_iff.mpr lookup)]
    intro k other listed
    have lookup' := iterates.mem_iff.mp listed
    rw [tags] at lookup lookup'
    obtain ⟨place, tag, rfl⟩ := Option.map_eq_some_iff.mp lookup
    obtain ⟨place', tag', same⟩ := Option.map_eq_some_iff.mp lookup'
    obtain ⟨p', before, askedP, id⟩ := (placed_iff selector).mp (by rw [tag]; rfl)
    obtain ⟨q, before', askedQ, rfl⟩ := (placed_iff selector).mp
      (show ((plan b).tag k).isSome by rw [tag']; rfl)
    have memberStored := (Database.mem_getByGroup.mp member).1
    obtain rfl := b.db.proxies.key_inj askedP.stored memberStored id
    refine first p' member q askedQ.mem other ⟨before, before', askedP, askedQ, ?_⟩
    exact (tag_eq_iff selector askedP askedQ other tag tag').mp same.symm

/-- A group of one node and a chain that consists of this node. -/
def chainOfOneRows : List Profile :=
  [.fresh 1 1 1 (.default .ssh "one" "one.example"), .fresh 2 1 2 (.default (.chain [1]) "two" "")]

theorem chainOfOneRows_nodup : (chainOfOneRows.map (·.id)).Nodup := by decide

def chainOfOneGroups : List ProxyGroup :=
  [{ id := 1, userOrder := 1, isSelector := true }]

theorem chainOfOneGroups_nodup : (chainOfOneGroups.map (·.id)).Nodup := by decide

def chainOfOneDb : Database where
  proxies := { rows := chainOfOneRows, unique := chainOfOneRows_nodup }
  groups := { rows := chainOfOneGroups, unique := chainOfOneGroups_nodup }
  rules := []

def chainOfOne : Build :=
  .onDevice chainOfOneDb (.fresh 1 1 1 (.default .ssh "one" "one.example")) (by decide)

theorem chainOfOne_generates : ∃ r o, buildConfig chainOfOne = .ok r ∧ r.config = .generated o ∧
    r.profileTagMap.lookup 1 = some "one" ∧ r.profileTagMap.lookup 2 = some "one" := by
  have tags : generatedWith (fun r _ => (r.profileTagMap.lookup 1, r.profileTagMap.lookup 2))
      chainOfOne = some (some "one", some "one") := by decide
  obtain ⟨r, o, built, generated, told⟩ := generatedWith_eq tags
  exact ⟨r, o, built, generated, Prod.mk.inj told⟩

theorem chainOfOne_mixed {r : ConfigBuildResult} (one : r.profileTagMap.lookup 1 = some "one")
    (two : r.profileTagMap.lookup 2 = some "one") (order : List (Int × String)) :
    ¬ SelectsChosen chainOfOne r order := by
  intro chosen
  have first := (selectorOnProxySelected_iff rfl (by decide)).mp
    (chosen (.fresh 1 1 1 (.default .ssh "one" "one.example")) (by decide) "one" one chainOfOneDb
      ⟨some order, 0, [], []⟩ rfl (by decide))
  have second := (selectorOnProxySelected_iff rfl (by decide)).mp
    (chosen (.fresh 2 1 2 (.default (.chain [1]) "two" "")) (by decide) "one" two chainOfOneDb
      ⟨some order, 0, [], []⟩ rfl (by decide))
  exact absurd (first.symm.trans second) (by decide)

/-- Whatever the order of the map, one of the two members is taken for the other. -/
theorem chainOfOne_confused : ∃ r o, buildConfig chainOfOne = .ok r ∧ r.config = .generated o ∧
    ∀ order, Iterates order r.profileTagMap → ¬ SelectsChosen chainOfOne r order := by
  obtain ⟨r, o, built, generated, one, two⟩ := chainOfOne_generates
  exact ⟨r, o, built, generated, fun order _ => chainOfOne_mixed one two order⟩

theorem chainOfOne_shares : ∃ order : List (Int × String),
    ¬ ∀ p ∈ chainOfOne.db.getByGroup chainOfOne.proxy.groupId, ∀ q ∈ chainOfOne.requests,
      q.id ≠ p.id → Shares chainOfOne p q → Precedes order p.id q.id := by
  obtain ⟨r, o, built, generated, one, two⟩ := chainOfOne_generates
  refine ⟨r.profileTagMap.entries.map fun e => (e.1, e.2), fun first => ?_⟩
  exact chainOfOne_mixed one two _
    ((buildConfig_selectsChosen_iff built generated (by decide) (List.Perm.refl _)).mpr first)

end QuinMo.Config
