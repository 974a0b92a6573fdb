import QuinMo.Traffic.Looper

/-!
# The item of the selected profile

`selectMain` lets the item of the selected profile count the traffic of `proxy`, and gives the
item that counted it before its own tag back, which is remembered in one field for whichever item
is selected.
-/

namespace QuinMo.Traffic

open Config LinkedMap

variable {B : Type}

/-- The tables do not change any more once they are filled, nor does what sweeps and clearing
leave alone. -/
structure Unswitched (w v : World) : Prop where
  idMap : v.idMap = w.idMap
  tag : ∀ j, (v.heap j).tag = (w.heap j).tag
  ignore : ∀ j, (v.heap j).ignore = (w.heap j).ignore
  selectorNowId : v.selectorNowId = w.selectorNowId
  selectorNowFakeTag : v.selectorNowFakeTag = w.selectorNowFakeTag

theorem Unswitched.refl (w : World) : Unswitched w w :=
  ⟨rfl, fun _ => rfl, fun _ => rfl, rfl, rfl⟩

variable {w : World}

theorem Unswitched.trans {u v : World} (h : Unswitched u v) (k : Unswitched v w) :
    Unswitched u w where
  idMap := k.idMap.trans h.idMap
  tag j := (k.tag j).trans (h.tag j)
  ignore j := (k.ignore j).trans (h.ignore j)
  selectorNowId := k.selectorNowId.trans h.selectorNowId
  selectorNowFakeTag := k.selectorNowFakeTag.trans h.selectorNowFakeTag

theorem visit_unswitched (env : Environment) (s : World × List (String × Diff)) (i : Nat) :
    Unswitched s.1 (visit env s i).1 := by
  have kept : Kept s.1 (visit env s i).1 := visit_kept s i
  have fields : (visit env s i).1.selectorNowId = s.1.selectorNowId ∧
      (visit env s i).1.selectorNowFakeTag = s.1.selectorNowFakeTag := by
    unfold visit updateOne
    split
    · exact ⟨rfl, rfl⟩
    · split
      · split <;> exact ⟨rfl, rfl⟩
      · exact ⟨rfl, rfl⟩
  exact ⟨kept.idMap, kept.tag, kept.ignore, fields.1, fields.2⟩

theorem updateAll_unswitched (env : Environment) (w : World) : Unswitched w (updateAll env w) := by
  have fold : ∀ (l : List Nat) (s : World × List (String × Diff)),
      Unswitched s.1 (l.foldl (visit env) s).1 := by
    intro l
    induction l with
    | nil => exact fun s => .refl s.1
    | cons i l ih => exact fun s => (visit_unswitched env s i).trans (ih (visit env s i))
  exact fold w.items (w, [])

theorem clearOne_unswitched (w : World) (id : Int) : Unswitched w (clearOne w id) := by
  unfold clearOne
  split
  · next i _ =>
    have kept (j : Nat) : ((w.set i { w.heap i with rx := 0, tx := 0, rxBase := 0, txBase := 0 }).heap
        j).tag = (w.heap j).tag ∧
        ((w.set i { w.heap i with rx := 0, tx := 0, rxBase := 0, txBase := 0 }).heap j).ignore =
          (w.heap j).ignore := by
      by_cases own : j = i <;> simp [World.set, own]
    exact ⟨rfl, fun j => (kept j).1, fun j => (kept j).2, rfl, rfl⟩
  · exact .refl w

theorem clearStats_unswitched (w : World) (ids : List Int) : Unswitched w (clearStats w ids) := by
  unfold clearStats
  induction ids generalizing w with
  | nil => exact .refl w
  | cons id ids ih => exact (clearOne_unswitched w id).trans (ih (clearOne w id))

/-- The item `selected`, of the profile `now`, counts the traffic of the outbound `proxy`; every
other item is as it was made. -/
structure Selected (t : Tables) (now : Int) (selected : Nat) (w : World) : Prop where
  idMap : w.idMap = t.idMap
  listed : t.idMap.lookup now = some selected
  selectorNowId : w.selectorNowId = now
  selectorNowFakeTag : w.selectorNowFakeTag = (t.heap selected).tag
  proxy : (w.heap selected).tag = TAG_PROXY ∧ (w.heap selected).ignore = false
  others : ∀ i, i ≠ selected →
    (w.heap i).tag = (t.heap i).tag ∧ (w.heap i).ignore = (t.heap i).ignore

theorem Selected.unswitched {t : Tables} {now : Int} {selected : Nat} {v : World}
    (h : Selected t now selected w) (same : Unswitched w v) : Selected t now selected v where
  idMap := same.idMap.trans h.idMap
  listed := h.listed
  selectorNowId := same.selectorNowId.trans h.selectorNowId
  selectorNowFakeTag := same.selectorNowFakeTag.trans h.selectorNowFakeTag
  proxy := ⟨(same.tag _).trans h.proxy.1, (same.ignore _).trans h.proxy.2⟩
  others i other :=
    ⟨(same.tag i).trans (h.others i other).1, (same.ignore i).trans (h.others i other).2⟩

/-- A profile without an item changes nothing. -/
theorem selectMain_unknown {id : Int} (unknown : w.idMap.lookup id = none) :
    selectMain w id = w := by
  rw [selectMain, unknown]

/-- What selecting leaves when every item but possibly one, the one counting now, is as it was
made, and no item counted before or its own tag is remembered. -/
theorem selectMain_selected {t : Tables} {id : Int} {new : Nat} (idMap : w.idMap = t.idMap)
    (known : t.idMap.lookup id = some new)
    (before : (w.idMap.lookup w.selectorNowId = none ∧
      ∀ i, (w.heap i).tag = (t.heap i).tag ∧ (w.heap i).ignore = (t.heap i).ignore) ∨
      ∃ old, Selected t w.selectorNowId old w ∧ (t.heap old).ignore = true) :
    Selected t id new (selectMain w id) := by
  have found : w.idMap.lookup id = some new := idMap ▸ known
  rw [selectMain, found]
  rcases before with ⟨nobody, made⟩ | ⟨old, h, ignored⟩
  · rw [nobody]
    refine ⟨idMap, known, rfl, (made new).1, by simp [World.set], fun i other => ?_⟩
    simp only [World.set, Function.update_of_ne other]
    exact made i
  · have current : w.idMap.lookup w.selectorNowId = some old := idMap ▸ h.listed
    rw [current]
    -- the old item gets its tag back first, also when it is the one selected again
    have restored (i : Nat) : ((w.set old { w.heap old with
        tag := w.selectorNowFakeTag, ignore := true }).heap i).tag = (t.heap i).tag ∧
        ((w.set old { w.heap old with
          tag := w.selectorNowFakeTag, ignore := true }).heap i).ignore = (t.heap i).ignore := by
      by_cases own : i = old
      · subst own
        simp [World.set, h.selectorNowFakeTag, ignored]
      · simp only [World.set, Function.update_of_ne own]
        exact h.others i own
    refine ⟨idMap, known, rfl, (restored new).1, by simp [World.set], fun i other => ?_⟩
    have kept := restored i
    simp only [World.set] at kept ⊢
    rw [Function.update_of_ne other]
    exact kept

/-- The profiles of the traffic map. -/
def profileIds (m : TrafficMap B) : List Int := (pairs m).map (·.2.id)

/-- The profile that counts after an event: one without an item is passed over. -/
def nowAfter (m : TrafficMap B) (now : Int) : Event → Int
  | .selectMain id => if id ∈ profileIds m then id else now
  | _ => now

/-- The last profile with an item that was selected. -/
def lastKnown (m : TrafficMap B) (now : Int) (events : List Event) : Int :=
  events.foldl (nowAfter m) now

section
variable {g : Int} {m : TrafficMap B}

/-- The item a profile keeps was made for it. -/
theorem lookup_profile {id : Int} (known : id ∈ profileIds m) :
    ∃ k p, (fillTables g m).idMap.lookup id = some (k + 1) ∧ (pairs m)[k]? = some p ∧
      p.2.id = id ∧ (fillTables g m).heap (k + 1) = trafficItem g p.1 p.2 := by
  obtain ⟨q, mem, rfl⟩ := List.mem_map.mp known
  obtain ⟨⟨p, k⟩, last⟩ := lastWith_of_mem (fun p : String × ProxyEntity B => p.2.id) mem
  obtain ⟨place, own⟩ := lastWith_some last
  refine ⟨k, p, ?_, place, own, (fillTables_filled g m).heap k p place⟩
  rw [(fillTables_filled g m).ids, last]
  rfl

theorem lookup_unknown {id : Int} (positive : 0 < id) (unknown : id ∉ profileIds m) :
    (fillTables g m).idMap.lookup id = none := by
  cases found : (fillTables g m).idMap.lookup id with
  | none => rfl
  | some i =>
    rcases filed found with ⟨p, k, -, last⟩ | ⟨-, rfl⟩
    · obtain ⟨place, own⟩ := lastWith_some last
      exact absurd (own ▸ List.mem_map_of_mem (List.mem_of_getElem? place)) unknown
    · omega

/-- Some item of a profile is selected, and the profile is `now`. -/
def Counts (g : Int) (m : TrafficMap B) (now : Int) (w : World) : Prop :=
  now ∈ profileIds m ∧ ∃ selected, Selected (fillTables g m) now selected w

theorem Counts.step (selector : 0 ≤ g) {now : Int} (h : Counts g m now w) (env : Environment)
    (e : Event) (positive : ∀ id, e = .selectMain id → 0 < id) :
    Counts g m (nowAfter m now e) (step env w e) := by
  obtain ⟨known, selected, h⟩ := h
  cases e with
  | updateAll => exact ⟨known, selected, h.unswitched (updateAll_unswitched env w)⟩
  | clearStats ids => exact ⟨known, selected, h.unswitched (clearStats_unswitched w ids)⟩
  | selectMain id =>
    change Counts g m (if id ∈ profileIds m then id else now) (selectMain w id)
    by_cases known' : id ∈ profileIds m
    · obtain ⟨k, p, listed, -, -, -⟩ := lookup_profile (g := g) known'
      obtain ⟨k', p', listed', -, -, made⟩ := lookup_profile (g := g) known
      obtain rfl : selected = k' + 1 := Option.some.inj (h.listed.symm.trans listed')
      rw [if_pos known']
      refine ⟨known', k + 1, selectMain_selected h.idMap listed (.inr ⟨k' + 1, ?_, ?_⟩)⟩
      · rw [h.selectorNowId]
        exact h
      · rw [made]
        exact decide_eq_true selector
    · rw [if_neg known', selectMain_unknown (h.idMap ▸ lookup_unknown (positive id rfl) known')]
      exact ⟨known, selected, h⟩

theorem Counts.run (selector : 0 ≤ g) {now : Int} (h : Counts g m now w) (env : Environment)
    (events : List Event) (positive : ∀ id, .selectMain id ∈ events → 0 < id) :
    Counts g m (lastKnown m now events) (run env w events) := by
  induction events generalizing now w with
  | nil => exact h
  | cons e events ih =>
    refine ih (h.step selector env e ?_) fun id mem => positive id (List.mem_cons_of_mem e mem)
    rintro id rfl
    exact positive id List.mem_cons_self

/-- When the tables are filled the main profile is selected. -/
theorem fill_counts (selector : 0 ≤ g) (profiles : ∀ id ∈ profileIds m, 0 < id) {mainEntId : Int}
    (main : mainEntId ∈ profileIds m) (values : List Nat) (readings : Nat)
    (drained : String → Bytes) :
    Counts g m mainEntId (fill g mainEntId m values readings drained) := by
  obtain ⟨k, p, listed, -, -, -⟩ := lookup_profile (g := g) main
  refine ⟨main, k + 1, ?_⟩
  rw [fill, if_pos selector]
  refine selectMain_selected rfl listed (.inl ⟨?_, fun _ => ⟨rfl, rfl⟩⟩)
  -- no profile has the id that stands for none
  change (fillTables g m).idMap.lookup (-114514) = none
  rw [← Option.not_isSome_iff_eq_none]
  intro there
  obtain ⟨i, found⟩ := Option.isSome_iff_exists.mp there
  rcases filed found with ⟨p, k, -, last⟩ | ⟨-, impossible⟩
  · obtain ⟨place, own⟩ := lastWith_some last
    have mem : p.2.id ∈ profileIds m := List.mem_map_of_mem (List.mem_of_getElem? place)
    have := profiles _ mem
    omega
  · omega

/-- In selector mode, whatever is selected in whatever order, sweeps and clearing in between:
of the items of profiles only the one of the last known profile counts, under the tag `proxy`,
and every other one has the tag it was made with. -/
theorem selector_accounting (env : Environment) (selector : 0 ≤ g)
    (profiles : ∀ id ∈ profileIds m, 0 < id) {mainEntId : Int} (main : mainEntId ∈ profileIds m)
    (values : List Nat) (readings : Nat) (drained : String → Bytes) (events : List Event)
    (positive : ∀ id, .selectMain id ∈ events → 0 < id) :
    ∃ k p, (pairs m)[k]? = some p ∧ p.2.id = lastKnown m mainEntId events ∧
      let w := run env (fill g mainEntId m values readings drained) events
      w.idMap.lookup p.2.id = some (k + 1) ∧
      (w.heap (k + 1)).tag = TAG_PROXY ∧ (w.heap (k + 1)).ignore = false ∧
      ∀ j q, (pairs m)[j]? = some q → j ≠ k →
        (w.heap (j + 1)).tag = q.1 ∧ (w.heap (j + 1)).ignore = true := by
  obtain ⟨known, selected, h⟩ :=
    (fill_counts selector profiles main values readings drained).run selector env events positive
  obtain ⟨k, p, listed, place, own, -⟩ := lookup_profile (g := g) known
  obtain rfl : selected = k + 1 := Option.some.inj (h.listed.symm.trans listed)
  refine ⟨k, p, place, own, ?_, h.proxy.1, h.proxy.2, fun j q there other => ?_⟩
  · rw [h.idMap, own]
    exact listed
  · have made := (fillTables_filled g m).heap j q there
    obtain ⟨tag, ignore⟩ := h.others (j + 1) (by omega)
    rw [tag, ignore, made]
    exact ⟨rfl, decide_eq_true selector⟩

end

/-- Two profiles, the first one away and back, with a profile in between that is not there. -/
theorem selector_back_and_forth :
    ∃ k p, (pairs [("one", [ProxyEntity.fresh 1 1 1 ()]), ("two", [.fresh 2 1 2 ()])])[k]? = some p ∧
      p.2.id = 1 ∧
      let w := run ⟨fun n => n, fun _ _ => 0⟩
        (fill 1 1 [("one", [ProxyEntity.fresh 1 1 1 ()]), ("two", [.fresh 2 1 2 ()])] [0, 1, 2] 0 0)
        [.selectMain 2, .selectMain 7, .selectMain 1]
      w.idMap.lookup p.2.id = some (k + 1) ∧
      (w.heap (k + 1)).tag = TAG_PROXY ∧ (w.heap (k + 1)).ignore = false ∧
      ∀ j q, (pairs [("one", [ProxyEntity.fresh 1 1 1 ()]),
        ("two", [.fresh 2 1 2 ()])])[j]? = some q →
        j ≠ k → (w.heap (j + 1)).tag = q.1 ∧ (w.heap (j + 1)).ignore = true :=
  selector_accounting ⟨fun n => n, fun _ _ => 0⟩ (by decide) (by decide) (by decide) [0, 1, 2] 0 0
    [.selectMain 2, .selectMain 7, .selectMain 1] (by simp)

end QuinMo.Traffic
