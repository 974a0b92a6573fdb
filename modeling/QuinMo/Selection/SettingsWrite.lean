import QuinMo.Selection.Import

/-!
# The transaction of the settings

When there is no group, reading the selected group creates one in the database of the profiles,
which this transaction does not cover.
-/

namespace QuinMo.Import

open Fault Fault.Run Selection

variable {B : Type} {fault : Option Point} {d d' : Databases B}

variable {v : Int} {again : Bool} {point : Point}

theorem read_ok {α : Type} {f : Databases B → Except String α} {a : α} :
    read fault point f d = (.ok a, d') ↔ fault ≠ some point ∧ f d = .ok a ∧ d' = d := by
  unfold read
  rw [statement_ok]
  cases f d <;> simp [Except.map, eq_comm]

variable {f : Databases B → Databases B}

theorem write_ok {u : Unit} :
    write fault point f d = (.ok u, d') ↔ fault ≠ some point ∧ d' = f d := by
  unfold write
  rw [statement_ok]
  simp [eq_comm]

section
variable {α β : Type} {post : β → Databases B → Prop} {thrown : Databases B → Prop}

theorem read_bind {f : Databases B → Except String α} {g : α → Run (Databases B) β}
    (chosen : fault = some point → thrown d) (fails : ∀ e, f d = .error e → thrown d)
    (rest : ∀ a, f d = .ok a → fault ≠ some point → Ends (g a) d post thrown) :
    Ends (read fault point f >>= g) d post thrown := by
  refine .statement_bind chosen (fun e failed => ?_) fun a t done other => ?_
  · cases found : f d with
    | error e => exact fails e found
    | ok a =>
      rw [found] at failed
      cases failed
  · cases found : f d with
    | error e =>
      rw [found] at done
      cases done
    | ok a =>
      rw [found] at done
      cases done
      exact rest a found other

/-- A read that does not fail by itself. -/
theorem value_bind {f : Databases B → α} {g : α → Run (Databases B) β}
    (chosen : fault = some point → thrown d)
    (rest : fault ≠ some point → Ends (g (f d)) d post thrown) :
    Ends (read fault point (fun d => .ok (f d)) >>= g) d post thrown := by
  refine read_bind chosen (fun e failed => ?_) fun a found other => ?_
  · cases failed
  · cases found
    exact rest other

theorem write_bind {g : Unit → Run (Databases B) β} (chosen : fault = some point → thrown d)
    (rest : fault ≠ some point → Ends (g ()) (f d) post thrown) :
    Ends (write fault point f >>= g) d post thrown := by
  refine .statement_bind chosen (fun e failed => ?_) fun a t done other => ?_
  · cases failed
  · cases done
    exact rest other

theorem write_ends {post : Unit → Databases B → Prop} (chosen : fault = some point → thrown d)
    (done : fault ≠ some point → post () (f d)) : Ends (write fault point f) d post thrown := by
  refine .statement chosen (fun e failed => ?_) fun a t written other => ?_
  · cases failed
  · cases written
    exact done other

end

/-! ## Reading the selected group -/

/-- The setting names no group. -/
def Unselected (settings : List KeyValuePair) : Prop :=
  ∃ v, getLong settings PROFILE_GROUP = .ok v ∧ v.getD (-1) ≤ 0

/-- There is no group, and the setting names none. -/
def Creating (d : Databases B) : Prop := Unselected d.settings ∧ firstGroupId d.store = none

theorem not_creating (positive : 0 < v) (found : getLong d.settings PROFILE_GROUP = .ok (some v)) :
    ¬ Creating d := by
  rintro ⟨⟨w, same, unselected⟩, _⟩
  cases found.symm.trans same
  exact absurd positive (Int.not_lt.mpr unselected)

theorem not_creating_of_first {id : Int} (first : firstGroupId d.store = some id) :
    ¬ Creating d := by
  rintro ⟨_, none⟩
  cases first.symm.trans none

def withGroup (d : Databases B) : Databases B :=
  let id := d.store.groups.sequence + 1
  let groups := d.store.groups.place (ungroupedGroup id) d.next_group
  { d with store := { d.store with groups } }

def select (d : Databases B) (id : Int) : Databases B :=
  { d with settings := putLong d.settings PROFILE_GROUP id }

/-- What a finished read of the selected group has done. -/
inductive Chosen (d : Databases B) : Int → Databases B → Prop
  | stored {v : Int} : 0 < v → getLong d.settings PROFILE_GROUP = .ok (some v) → Chosen d v d
  | first {v : Int} : Unselected d.settings → firstGroupId d.store = some v → Chosen d v (select d v)
  | created : Unselected d.settings → firstGroupId d.store = none →
      Chosen d (d.store.groups.sequence + 1)
        (select (withGroup d) (d.store.groups.sequence + 1))

theorem Chosen.getLong (h : Chosen d v d') : getLong d'.settings PROFILE_GROUP = .ok (some v) := by
  cases h with
  | stored _ found => exact found
  | first _ _ => exact getLong_putLong _ _ _
  | created _ _ => exact getLong_putLong _ _ _

/-- The statements of a read after the one that creates the group. -/
def AfterCreate (fault : Option Point) (again : Bool) : Prop :=
  fault = some (.selected again .put) ∨ fault = some (.selected again .value)

/-- The statements of a read up to the one that creates the group. -/
def UpToCreate (fault : Option Point) (again : Bool) : Prop :=
  ∃ s, s ≠ .put ∧ s ≠ .value ∧ fault = some (.selected again s)

/-- A read that throws has left the profiles' database alone, or it threw after it had
created the group. -/
structure Interrupted (fault : Option Point) (again : Bool) (d d' : Databases B) : Prop where
  rules : d'.rules = d.rules
  store : d'.store = d.store ∧
      (Creating d → UpToCreate fault again) ∨
    Creating d ∧ d'.store = (withGroup d).store ∧ AfterCreate fault again

theorem currentGroupId_ends : Ends (currentGroupId fault again) d
    (fun v d' => Chosen d v d' ∧ (Creating d → fault ≠ some (.selected again .put)))
    (Interrupted fault again d) := by
  have early {s : Stage} (other : s ≠ .put ∧ s ≠ .value)
      (thrown : fault = some (.selected again s)) : Interrupted fault again d d :=
    ⟨rfl, .inl ⟨rfl, fun _ => ⟨s, other.1, other.2, thrown⟩⟩⟩
  refine read_bind (early (by decide)) (fun e failed => ?_) fun current found _ => ?_
  · refine ⟨rfl, .inl ⟨rfl, ?_⟩⟩
    rintro ⟨⟨v, good, _⟩, _⟩
    cases failed.symm.trans good
  split
  · rename_i positive
    cases current with
    | none => cases positive
    | some v =>
      exact .pure ⟨.stored positive found,
        fun creating => absurd creating (not_creating positive found)⟩
  rename_i nothing
  have unselected : Unselected d.settings := ⟨current, found, Int.not_lt.mp nothing⟩
  refine value_bind (early (by decide)) fun _ => ?_
  cases first : firstGroupId d.store with
  | some id =>
    have stored := not_creating_of_first first
    exact write_bind (fun _ => ⟨rfl, .inl ⟨rfl, fun creating => absurd creating stored⟩⟩) fun _ =>
      .pure ⟨.first unselected first, fun creating => absurd creating stored⟩
  | none =>
    refine .statement_bind (early (by decide)) (fun e failed => ?_) fun _ _ created _ => ?_
    · cases failed
    · cases created
      exact write_bind (fun thrown => ⟨rfl, .inr ⟨⟨unselected, first⟩, rfl, .inl thrown⟩⟩) fun put =>
        .pure ⟨.created unselected first, fun _ => put⟩

theorem selectedGroup_ends : Ends (selectedGroup fault again) d
    (fun v d' => Chosen d v d' ∧ (Creating d → ¬ AfterCreate fault again))
    (Interrupted fault again d) := by
  refine currentGroupId_ends.bind ?_
  rintro v d' ⟨chosen, put⟩
  refine read_bind (fun thrown => ?_) (fun e failed => ?_) fun value found noValue => ?_
  · cases chosen with
    | stored positive found =>
      exact ⟨rfl, .inl ⟨rfl, fun creating => absurd creating (not_creating positive found)⟩⟩
    | first _ first =>
      exact ⟨rfl, .inl ⟨rfl, fun creating => absurd creating (not_creating_of_first first)⟩⟩
    | created unselected none => exact ⟨rfl, .inr ⟨⟨unselected, none⟩, rfl, .inr thrown⟩⟩
  · cases failed.symm.trans chosen.getLong
  · cases found.symm.trans chosen.getLong
    exact .pure ⟨chosen, fun creating after => after.elim (put creating) noValue⟩

/-! ## The transaction of the settings -/

def others (settings : List KeyValuePair) : List KeyValuePair :=
  settings.filter (·.key ≠ PROFILE_GROUP)

def selection (settings : List KeyValuePair) : Option KeyValuePair :=
  settings.find? (·.key == PROFILE_GROUP)

/-- The selected group was repaired: it is the first group now. -/
def SelectsFirst (d : Databases B) : Prop :=
  selection d.settings = some ⟨PROFILE_GROUP, .long ((firstGroupId d.store).getD (-1))⟩

theorem others_putLong (settings : List KeyValuePair) (id : Int) :
    others (putLong settings PROFILE_GROUP id) = others settings := by
  simp [others, putLong, List.filter_append, List.filter_filter]

theorem firstGroupId_none {s : Store B} : firstGroupId s = none ↔ s.groups.rows = [] := by
  unfold firstGroupId Store.allGroups
  rw [Option.map_eq_none_iff, List.head?_eq_none_iff]
  constructor
  · intro h
    have perm := List.perm_insertionSort (fun a b : ProxyGroup => a.userOrder ≤ b.userOrder)
      s.groups.rows
    rw [h] at perm
    exact perm.nil_eq.symm
  · intro h
    rw [h]
    rfl

theorem withGroup_rows (none : d.store.groups.rows = []) :
    (withGroup d).store.groups.rows = [ungroupedGroup (d.store.groups.sequence + 1)] := by
  simp [withGroup, Numbered.place, Table.add, none]

theorem firstGroupId_withGroup (none : d.store.groups.rows = []) :
    firstGroupId (withGroup d).store = some (d.store.groups.sequence + 1) := by
  simp [firstGroupId, Store.allGroups, withGroup_rows none, ungroupedGroup]

/-- What is written while the selected group is read and repaired. -/
structure Mends (d d' : Databases B) : Prop where
  proxies : d'.store.proxies = d.store.proxies
  rules : d'.rules = d.rules
  others : others d'.settings = others d.settings
  selection : selection d'.settings = selection d.settings ∨ SelectsFirst d'

theorem Chosen.mends (h : Chosen d v d') : Mends d d' := by
  cases h with
  | stored => exact ⟨rfl, rfl, rfl, .inl rfl⟩
  | @first v _ found =>
    refine ⟨rfl, rfl, others_putLong d.settings v, .inr ?_⟩
    unfold SelectsFirst
    rw [show firstGroupId (select d v).store = some v from found]
    exact find_putLong d.settings PROFILE_GROUP v
  | created _ none =>
    refine ⟨rfl, rfl, others_putLong d.settings _, .inr ?_⟩
    have first := firstGroupId_withGroup (d := d) (firstGroupId_none.mp none)
    unfold SelectsFirst
    rw [show firstGroupId (select (withGroup d) _).store = _ from first]
    exact find_putLong d.settings PROFILE_GROUP _

/-- Later repairs do not change the groups. -/
theorem Mends.trans {d₁ d₂ : Databases B} (h : Mends d d₁) (g : Mends d₁ d₂)
    (same : d₂.store = d₁.store) : Mends d d₂ := by
  refine ⟨g.proxies.trans h.proxies, g.rules.trans h.rules, g.others.trans h.others, ?_⟩
  rcases g.selection with kept | first
  · rcases h.selection with kept' | first
    · exact .inl (kept.trans kept')
    · right
      unfold SelectsFirst at first ⊢
      rw [kept, same, first]
  · exact .inr first

theorem Chosen.store_eq (h : Chosen d v d') (settled : ¬ Creating d) : d'.store = d.store := by
  cases h with
  | stored => rfl
  | first => rfl
  | created unselected none => exact absurd ⟨unselected, none⟩ settled

theorem Interrupted.store_eq (h : Interrupted fault again d d') (settled : ¬ Creating d) :
    d'.store = d.store := by
  rcases h.store with ⟨same, _⟩ | ⟨creating, _⟩
  · exact same
  · exact absurd creating settled

/-- Where there is a group, a read of the selected one repairs the setting at most. -/
theorem selectedGroup_settled (settled : ¬ Creating d) : Ends (selectedGroup fault again) d
    (fun v d' => Chosen d v d' ∧ d'.store = d.store)
    (fun d' => d'.store = d.store ∧ d'.rules = d.rules) :=
  selectedGroup_ends.weaken (fun _ _ h => ⟨h.1, h.1.store_eq settled⟩)
    fun _ h => ⟨h.store_eq settled, h.rules⟩

theorem selectFirst_ends : Ends (selectFirst fault) d
    (fun _ d' => Mends d d' ∧ d'.store = d.store) (· = d) :=
  value_bind (fun _ => rfl) fun _ => write_ends (fun _ => rfl) fun _ =>
    ⟨⟨rfl, rfl, others_putLong _ _, .inr (find_putLong _ _ _)⟩, rfl⟩

theorem repairSelected_ends (settled : ¬ Creating d) : Ends (repairSelected fault) d
    (fun _ d' => Mends d d' ∧ d'.store = d.store)
    (fun d' => d'.store = d.store ∧ d'.rules = d.rules) := by
  refine (selectedGroup_settled settled).bind ?_
  rintro v d' ⟨chosen, same⟩
  have kept := And.intro same chosen.mends.rules
  refine value_bind (fun _ => kept) fun _ => .runIf (fun _ => ?_) fun _ => ⟨chosen.mends, same⟩
  refine selectFirst_ends.weaken ?_ ?_
  · rintro _ d'' ⟨mends, again⟩
    exact ⟨chosen.mends.trans mends again, again.trans same⟩
  · rintro _ rfl
    exact kept

theorem settle_settled (settled : ¬ Creating d) : Ends (settle fault) d
    (fun _ d' => Mends d d' ∧ d'.store = d.store)
    (fun d' => d'.store = d.store ∧ d'.rules = d.rules) := by
  refine (selectedGroup_settled settled).bind ?_
  rintro v d₁ ⟨chosen, same⟩
  have repair : Ends (runIf (0 < v) (repairSelected fault)) d₁
      (fun _ d' => Mends d d' ∧ d'.store = d.store)
      (fun d' => d'.store = d.store ∧ d'.rules = d.rules) := by
    refine .runIf (fun positive => ?_) fun _ => ⟨chosen.mends, same⟩
    refine (repairSelected_ends (not_creating positive chosen.getLong)).weaken ?_ ?_
    · rintro _ d' ⟨mends, kept⟩
      exact ⟨chosen.mends.trans mends kept, kept.trans same⟩
    · rintro d' ⟨store, rules⟩
      exact ⟨store.trans same, rules.trans chosen.mends.rules⟩
  refine repair.bind ?_
  rintro _ d₂ ⟨mends, kept⟩
  exact write_ends (fun _ => ⟨kept, mends.rules⟩) fun _ => ⟨mends, kept⟩

/-- The settings make the import create a group. -/
structure Creates (d : Databases B) (settings : List KeyValuePair) : Prop where
  distinct : (settings.map (·.key)).Nodup
  unselected : Unselected settings
  none : d.store.groups.rows = []

/-- Where the transaction can throw after it has created a group. -/
def Late (fault : Option Point) : Prop :=
  fault ∈ [some (.selected false .put), some (.selected false .value), some (.selected true .stored),
    some (.selected true .value), some .getById, some .commitSettings]

instance (fault : Option Point) : Decidable (Late fault) := by
  unfold Late
  infer_instance

theorem late_iff : Late fault ↔ AfterCreate fault false ∨
    (fault = some (.selected true .stored) ∨ fault = some (.selected true .value) ∨
      fault = some .getById) ∨ fault = some .commitSettings := by
  simp only [Late, AfterCreate, List.mem_cons, List.not_mem_nil, or_false]
  tauto

/-- A read of a group that is selected. -/
theorem selectedGroup_stored (positive : 0 < v)
    (found : getLong d.settings PROFILE_GROUP = .ok (some v)) : Ends (selectedGroup fault true) d
      (fun w d' => w = v ∧ d' = d ∧ fault ≠ some (.selected true .stored) ∧
        fault ≠ some (.selected true .value))
      (fun d' => d' = d ∧ Late fault) := by
  have late {s : Stage} (listed : Late (some (.selected true s)))
      (thrown : fault = some (.selected true s)) : d = d ∧ Late fault := by
    rw [thrown]
    exact ⟨rfl, listed⟩
  have current : Ends (currentGroupId fault true) d
      (fun w d' => w = v ∧ d' = d ∧ fault ≠ some (.selected true .stored))
      (fun d' => d' = d ∧ Late fault) := by
    refine read_bind (late (by decide)) (fun e failed => ?_) fun w same kept => ?_
    · cases failed.symm.trans found
    · cases same.symm.trans found
      rw [Option.getD_some, if_pos positive]
      exact .pure ⟨rfl, rfl, kept⟩
  refine current.bind ?_
  rintro _ _ ⟨rfl, rfl, kept⟩
  refine read_bind (late (by decide)) (fun e failed => ?_) fun w same kept' => ?_
  · cases failed.symm.trans found
  · cases same.symm.trans found
    exact .pure ⟨rfl, rfl, kept, kept'⟩

/-- Nothing is to be repaired when the selected group exists. -/
theorem repairSelected_stored (positive : 0 < v)
    (found : getLong d.settings PROFILE_GROUP = .ok (some v))
    (stored : (d.store.groups.get v).isSome) : Ends (repairSelected fault) d
      (fun _ d' => d' = d ∧ fault ≠ some (.selected true .stored) ∧
        fault ≠ some (.selected true .value) ∧ fault ≠ some .getById)
      (fun d' => d' = d ∧ Late fault) := by
  refine (selectedGroup_stored positive found).bind ?_
  rintro _ _ ⟨rfl, rfl, kept⟩
  refine value_bind (fun thrown => ?_) fun kept' => .runIf (fun absent => ?_) fun _ =>
    ⟨rfl, kept.1, kept.2, kept'⟩
  · rw [thrown]
    exact ⟨rfl, by decide⟩
  · rw [stored] at absent
    cases absent

/-- The second read finds the group that the first one created. -/
theorem settle_created (numbered : 0 ≤ d.store.groups.sequence) (creating : Creating d) :
    Ends (settle fault) d
      (fun _ d' => Mends d d' ∧ d'.store = (withGroup d).store ∧ ¬ Late fault)
      (fun d' => d'.rules = d.rules ∧
        (d'.store = d.store ∧ ¬ Late fault ∨ d'.store = (withGroup d).store ∧ Late fault)) := by
  refine Ends.bind (selectedGroup_ends.weaken (fun _ _ h => h) fun d' h => ⟨h.rules, ?_⟩) ?_
  · rcases h.store with ⟨same, early⟩ | ⟨_, created, after⟩
    · obtain ⟨s, put, value, thrown⟩ := early creating
      refine .inl ⟨same, ?_⟩
      rw [thrown]
      simp [Late, put, value]
    · exact .inr ⟨created, late_iff.mpr (.inl after)⟩
  rintro v d₁ ⟨chosen, early⟩
  cases chosen with
  | stored positive found => exact absurd creating (not_creating positive found)
  | first _ first => exact absurd creating (not_creating_of_first first)
  | created unselected none =>
    have positive : 0 < d.store.groups.sequence + 1 := by omega
    have stored : ((withGroup d).store.groups.get (d.store.groups.sequence + 1)).isSome := by
      rw [Numbered.get_isSome, withGroup_rows (firstGroupId_none.mp none)]
      simp [ungroupedGroup]
    have repair : Ends (repairSelected fault) (select (withGroup d) _) _ _ :=
      repairSelected_stored positive (getLong_putLong _ _ _) stored
    refine (Ends.runIf (fun _ => repair.weaken (fun _ _ h => h) ?_) fun skip => ?_).bind ?_
    · rintro _ ⟨rfl, late⟩
      exact ⟨rfl, .inr ⟨rfl, late⟩⟩
    · exact absurd positive skip
    · rintro _ _ ⟨rfl, reading⟩
      refine write_ends (fun thrown => ⟨rfl, .inr ⟨rfl, late_iff.mpr (.inr (.inr thrown))⟩⟩)
        fun commit => ⟨(Chosen.created unselected none).mends, rfl, ?_⟩
      rw [late_iff]
      have := early creating
      tauto

theorem insertSettings_ok {settings : List KeyValuePair} {u : Unit}
    (h : insertSettings { d with settings := [] } settings = .ok (u, d')) :
    (settings.map (·.key)).Nodup ∧ d' = { d with settings := settings } := by
  unfold insertSettings at h
  split at h
  · rename_i distinct
    cases h
    exact ⟨distinct, rfl⟩
  · cases h

theorem replaceSettings_ends (settings : List KeyValuePair)
    (numbered : 0 ≤ d.store.groups.sequence) : Ends (replaceSettings fault (some settings)) d
      (fun _ d' => Mends { d with settings := settings } d' ∧
        (Creates d settings ∧ ¬ Late fault ∧ d'.store = (withGroup d).store ∨
          ¬ Creates d settings ∧ d'.store = d.store))
      (fun d' => d'.settings = d.settings ∧ d'.rules = d.rules ∧
        (Creates d settings ∧ Late fault ∧ d'.store = (withGroup d).store ∨
          ¬ (Creates d settings ∧ Late fault) ∧ d'.store = d.store)) := by
  refine .transaction (write_bind (fun thrown => ⟨rfl, rfl, .inr ⟨fun c => ?_, rfl⟩⟩) fun _ =>
    .statement_bind (fun thrown => ⟨rfl, rfl, .inr ⟨fun c => ?_, rfl⟩⟩)
      (fun e failed => ⟨rfl, rfl, .inr ⟨fun c => ?_, rfl⟩⟩) fun _ d₂ inserted _ => ?_)
  · exact absurd c.2 (by rw [thrown]; decide)
  · exact absurd c.2 (by rw [thrown]; decide)
  · rw [insertSettings, if_pos c.1.distinct] at failed
    cases failed
  obtain ⟨distinct, rfl⟩ := insertSettings_ok inserted
  by_cases creating : Creating { d with settings }
  · have creates : Creates d settings := ⟨distinct, creating.1, firstGroupId_none.mp creating.2⟩
    refine (settle_created (d := { d with settings }) numbered creating).weaken ?_ ?_
    · rintro _ d' ⟨mends, created, early⟩
      exact ⟨mends, .inl ⟨creates, early, created⟩⟩
    · rintro d' ⟨rules, ⟨same, early⟩ | ⟨created, late⟩⟩
      · exact ⟨rfl, rules, .inr ⟨fun c => early c.2, same⟩⟩
      · exact ⟨rfl, rules, .inl ⟨creates, late, created⟩⟩
  · have settled : ¬ Creates d settings := fun c =>
      creating ⟨c.unselected, firstGroupId_none.mpr c.none⟩
    refine (settle_settled (d := { d with settings }) creating).weaken ?_ ?_
    · rintro _ d' ⟨mends, same⟩
      exact ⟨mends, .inr ⟨settled, same⟩⟩
    · rintro d' ⟨same, rules⟩
      exact ⟨rfl, rules, .inr ⟨fun c => settled c.1, same⟩⟩

end QuinMo.Import
