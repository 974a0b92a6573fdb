import QuinMo.Subscription.Reconcile
import QuinMo.Subscription.V2RayFmt

/-!
# Updating twice

A second update with the same nodes changes nothing exactly when each node either reads back as it
is written or was held by its row before.
-/

namespace QuinMo.Subscription

open Text LinkedMap AbstractBean

variable {C : Type} (F : BeanClass C)

/-- The update has nothing to insert, delete, rewrite or reorder. -/
structure WritesNothing (groupId : Int) (nodes : List (AbstractBean C))
    (s : Store (AbstractBean C)) : Prop where
  deletes : (planUpdate F groupId nodes s).1 = []
  inserts : (planUpdate F groupId nodes s).2.toInsert = []
  rewrites : (planUpdate F groupId nodes s).2.toUpdate = []
  moves : (planUpdate F groupId nodes s).2.toReorder = []
  changed : (planUpdate F groupId nodes s).2.changed = 0

/-- After a successful update a second one writes nothing and reports no change. -/
def Idempotent (groupId : Int) (sub : Settings C) (parsed : List (AbstractBean C))
    (s : Store (AbstractBean C)) : Prop :=
  ∀ s' report, doUpdate F groupId sub parsed s = .ok (s', report) →
    WritesNothing F groupId (finalNodes F sub parsed).1 s' ∧
      ∃ s'' report', doUpdate F groupId sub parsed s' = .ok (s'', report') ∧ report'.changed = 0 ∧
        s''.proxies = s'.proxies

section
variable {F} {groupId : Int} {nodes : List (AbstractBean C)} {s s' : Store (AbstractBean C)}

theorem Task.nothing_of_idle (groupId : Int) {t : Task C} (h : t.idle F = true) :
    t.insertion groupId = none ∧ t.rewrite F = none ∧ t.move F = none := by
  unfold Task.idle at h
  split at h
  · cases h
  · rename_i e old
    simp only [Bool.and_eq_true, beq_iff_eq] at h
    simp [Task.insertion, Task.rewrite, Task.move, old, h.1, h.2]

theorem writesNothing_iff_idle (distinct : (nodes.map (displayName F)).Nodup) :
    WritesNothing F groupId nodes s ↔
      (∀ t ∈ updateTasks F groupId nodes s, t.idle F = true) ∧
      ∀ e ∈ s.getByGroup groupId, ∃ t ∈ updateTasks F groupId nodes s, t.old = some e := by
  have collected : Collected F groupId nodes s _ _ := planUpdate_collected F distinct
  constructor
  · rintro ⟨deletes, _, _, _, changed⟩
    rw [collected.changed] at changed
    refine ⟨?_, ?_⟩
    · intro t ht
      have none := List.countP_eq_zero.mp (Nat.eq_zero_of_add_eq_zero_left changed) t ht
      simpa using none
    · intro e he
      by_contra unkept
      push Not at unkept
      have listed := (collected.deletes e).mpr ⟨he, unkept⟩
      rw [deletes] at listed
      cases listed
  · rintro ⟨idle, kept⟩
    have none : (planUpdate F groupId nodes s).1 = [] := by
      apply List.eq_nil_iff_forall_not_mem.mpr
      intro e listed
      obtain ⟨he, unkept⟩ := (collected.deletes e).mp listed
      obtain ⟨t, ht, old⟩ := kept e he
      exact unkept t ht old
    refine ⟨none, ?_, ?_, ?_, ?_⟩
    · rw [collected.inserts, List.filterMap_eq_nil_iff]
      intro t ht
      exact (Task.nothing_of_idle groupId (idle t ht)).1
    · rw [collected.rewrites, List.filterMap_eq_nil_iff]
      intro t ht
      exact (Task.nothing_of_idle groupId (idle t ht)).2.1
    · rw [collected.moves, List.filterMap_eq_nil_iff]
      intro t ht
      exact (Task.nothing_of_idle groupId (idle t ht)).2.2
    · rw [collected.changed, none, List.length_nil, Nat.zero_add, List.countP_eq_zero]
      intro t ht
      simp [idle t ht]

theorem tasks_counterpart {kept : String → Option (Row C)} (kept' : String → Option (Row C))
    {order : Int} {t : Task C} (ht : t ∈ tasks F kept order nodes) :
    ∃ u ∈ tasks F kept' order nodes, u.node = t.node ∧ u.order = t.order := by
  induction nodes generalizing order with
  | nil => cases ht
  | cons n nodes ih =>
    rcases List.mem_cons.mp ht with rfl | ht
    · exact ⟨_, List.mem_cons_self, rfl, rfl⟩
    · obtain ⟨u, hu, same⟩ := ih ht
      exact ⟨u, List.mem_cons_of_mem _ hu, same⟩

theorem mem_numbered (sequence : Int) {es : List (Row C)} {e : Row C} (he : e ∈ es) :
    ∃ r ∈ numbered F sequence es, r.userOrder = e.userOrder ∧ r.bean = stored F e.bean := by
  induction es generalizing sequence with
  | nil => cases he
  | cons d es ih =>
    rcases List.mem_cons.mp he with rfl | he
    · exact ⟨_, List.mem_cons_self, rfl, rfl⟩
    · obtain ⟨r, hr, same⟩ := ih (sequence + 1) he
      exact ⟨r, List.mem_cons_of_mem _ hr, same⟩

/-- The row of a task: the settled old one, or a new one with the node. -/
theorem Finished.row_of_task {ts : List (Task C)} (h : Finished F s groupId ts s') {t : Task C}
    (ht : t ∈ ts) : ∃ r ∈ s'.getByGroup groupId, r.userOrder = t.order ∧
      ((∃ e, t.old = some e ∧ r = t.settled F e) ∨ t.old = none ∧ r.bean = stored F t.node) := by
  cases old : t.old with
  | some e =>
    refine ⟨t.settled F e, ?_, ?_, .inl ⟨e, rfl, rfl⟩⟩
    · rw [h.mem_getByGroup, mem_target]
      exact .inl ⟨t, ht, e, old, rfl⟩
    · unfold Task.settled
      split <;> rfl
  | none =>
    have inserted : ProxyEntity.fresh 0 groupId t.order t.node ∈
        ts.filterMap (·.insertion groupId) := by
      rw [List.mem_filterMap]
      exact ⟨t, ht, by simp [Task.insertion, old]⟩
    obtain ⟨r, hr, order, bean⟩ := mem_numbered (F := F) s.proxies.sequence inserted
    refine ⟨r, ?_, order, .inr ⟨rfl, bean⟩⟩
    rw [h.mem_getByGroup, mem_target]
    exact .inr hr

theorem firstNamed_of_nodup {rows : List (Row C)} (distinct : (rows.map (rowName F)).Nodup)
    {r : Row C} (hr : r ∈ rows) : firstNamed F rows (rowName F r) = some r := by
  cases found : firstNamed F rows (rowName F r) with
  | none => simpa using List.find?_eq_none.mp found r hr
  | some e =>
    obtain ⟨he, name⟩ := firstNamed_some F found
    rw [List.inj_on_of_nodup_map distinct he hr name]

/-- A bean that was stored compares equal to its node when the node is fixed. -/
theorem equals_stored_iff {m n : AbstractBean C} (content : m.content = n.content) :
    equals F (stored F m) (n.withCustoms (stored F m)) = true ↔ F.Fixed n.content := by
  rw [equals_withCustoms, stored_eq, BeanClass.Fixed, content]

/-- The row of a task has the node's content exactly if the node is fixed or was held before. -/
theorem row_equals_iff {t : Task C} {r : Row C}
    (first : t.old = firstNamed F (s.getByGroup groupId) (displayName F t.node))
    (row : (∃ e, t.old = some e ∧ r = t.settled F e) ∨ t.old = none ∧ r.bean = stored F t.node) :
    equals F r.bean (t.node.withCustoms r.bean) = true ↔
      F.Fixed t.node.content ∨ Held F groupId s t.node := by
  have written {m : AbstractBean C} (content : m.content = t.node.content)
      (bean : r.bean = stored F m) (unheld : ¬ Held F groupId s t.node) :
      equals F r.bean (t.node.withCustoms r.bean) = true ↔
        F.Fixed t.node.content ∨ Held F groupId s t.node := by
    rw [bean, equals_stored_iff content]
    exact (or_iff_left unheld).symm
  rcases row with ⟨e, old, rfl⟩ | ⟨none, bean⟩
  · by_cases same : equals F e.bean (t.node.withCustoms e.bean) = true
    · have kept : (t.settled F e).bean = e.bean := by simp [Task.settled, same]
      rw [kept]
      exact iff_of_true same (.inr ⟨e, first ▸ old, same⟩)
    · refine written (m := t.node.withCustoms e.bean) rfl (by simp [Task.settled, same]) ?_
      rintro ⟨d, hd, held⟩
      rw [← first, old] at hd
      cases hd
      exact same held
  · refine written rfl bean ?_
    rintro ⟨d, hd, _⟩
    rw [← first, none] at hd
    cases hd

theorem row_name {t : Task C} {r : Row C}
    (first : t.old = firstNamed F (s.getByGroup groupId) (displayName F t.node))
    (name : Held F groupId s t.node ∨ displayName F (stored F (mergedNode F groupId s t.node)) =
      displayName F t.node)
    (row : (∃ e, t.old = some e ∧ r = t.settled F e) ∨ t.old = none ∧ r.bean = stored F t.node) :
    rowName F r = displayName F t.node := by
  rcases row with ⟨e, old, rfl⟩ | ⟨none, bean⟩
  · exact (settled_rowOf F old first name).name
  · rw [first] at none
    rcases name with ⟨d, hd, _⟩ | name
    · rw [none] at hd
      cases hd
    · rw [rowName, bean, ← name, mergedNode, none]

/-- A second update writes nothing exactly when every node is fixed or was held. -/
theorem Finished.writesNothing_iff (h : Finished F s groupId (updateTasks F groupId nodes s) s')
    (distinct : (nodes.map (displayName F)).Nodup)
    (names : ∀ n ∈ nodes, F.Fixed n.content → displayName F (stored F (mergedNode F groupId s n)) =
      displayName F n) :
    WritesNothing F groupId nodes s' ↔ ∀ n ∈ nodes, F.Fixed n.content ∨ Held F groupId s n := by
  rw [writesNothing_iff_idle distinct]
  constructor
  · rintro ⟨idle, _⟩ n hn
    obtain ⟨t, ht, rfl⟩ := exists_task F groupId s hn
    obtain ⟨u, hu, node, order⟩ :=
      tasks_counterpart (firstNamed F (s'.getByGroup groupId)) ht
    obtain ⟨r, hr, place, row⟩ := h.row_of_task ht
    have done := idle u hu
    unfold Task.idle at done
    split at done
    · cases done
    · rename_i e old
      simp only [Bool.and_eq_true, beq_iff_eq] at done
      rw [updateTasks_old F hu] at old
      -- the second update found the row of this task, since no other has its place
      have places : ((s'.getByGroup groupId).map (·.userOrder)).Nodup := by
        rw [h.getByGroup_eq, target_order]
        exact h.ordered.imp Int.ne_of_lt
      have same : r = e := List.inj_on_of_nodup_map places hr (firstNamed_some F old).1 (by omega)
      subst same
      rw [node] at done
      exact (row_equals_iff (updateTasks_old F ht) row).mp done.1
  · intro steady
    have named : ∀ n ∈ nodes, Held F groupId s n ∨
        displayName F (stored F (mergedNode F groupId s n)) = displayName F n :=
      fun n hn => (steady n hn).symm.imp id (names n hn)
    have rowNames := rowOf_names (h.rowOf named)
    have apart : ((s'.getByGroup groupId).map (rowName F)).Nodup := by
      rw [rowNames]
      exact distinct
    refine ⟨?_, ?_⟩
    · intro u hu
      obtain ⟨t, ht, node, order⟩ := tasks_counterpart (firstNamed F (s.getByGroup groupId)) hu
      have hn := updateTasks_node F ht
      have first := updateTasks_old F ht
      obtain ⟨r, hr, place, row⟩ := h.row_of_task ht
      have name := row_name first (named _ hn) row
      have found : u.old = some r := by
        rw [updateTasks_old F hu, ← node, ← name, firstNamed_of_nodup apart hr]
      have content := (row_equals_iff first row).mpr (steady _ hn)
      rw [node] at content
      simp [Task.idle, found, content, place, order]
    · intro e he
      have listed : rowName F e ∈ nodes.map (displayName F) := by
        rw [← rowNames]
        exact List.mem_map_of_mem he
      obtain ⟨n, hn, name⟩ := List.mem_map.mp listed
      obtain ⟨u, hu, rfl⟩ := exists_task F groupId s' hn
      refine ⟨u, hu, ?_⟩
      rw [updateTasks_old F hu, name, firstNamed_of_nodup apart he]

/-! ## Two updates -/

theorem commit_nothing {nameserver : Option String} {c : Changes C} (inserts : c.toInsert = [])
    (rewrites : c.toUpdate = []) (moves : c.toReorder = [])
    (ok : commit F groupId nameserver [] c s = .ok s') : s'.proxies = s.proxies := by
  unfold commit at ok
  split at ok
  · cases ok
  · simp only [inserts, rewrites, moves, List.foldl_nil, List.isEmpty_nil, if_true,
      Except.ok.injEq] at ok
    have rows : (s.deleteProxy []).proxies = s.proxies := by
      simp [Store.deleteProxy, Store.deleteIds, Numbered.delete, Table.delete]
    rw [← ok]
    unfold writeNameserver
    split
    · exact rows
    · exact rows

end

theorem idempotent_iff (groupId : Int) (sub : Settings C) (parsed : List (AbstractBean C))
    (s : Store (AbstractBean C)) (present : (s.groups.get groupId).isSome)
    (names : ∀ n ∈ (finalNodes F sub parsed).1, F.Fixed n.content →
      displayName F (stored F (mergedNode F groupId s n)) = displayName F n) :
    Idempotent F groupId sub parsed s ↔
      ∀ n ∈ (finalNodes F sub parsed).1, F.Fixed n.content ∨ Held F groupId s n := by
  have distinct := finalNodes_distinct F sub parsed
  obtain ⟨s', report, ok, _, h⟩ := doUpdate_finished F groupId sub parsed present
  rw [← h.writesNothing_iff distinct names]
  constructor
  · intro twice
    exact (twice s' report ok).1
  · intro nothing t other run
    rw [ok] at run
    cases run
    refine ⟨nothing, ?_⟩
    have still : (s'.groups.get groupId).isSome := by
      rw [commit_group F (doUpdate_ok F ok)]
      exact present
    obtain ⟨s'', report', ok', changed, _⟩ := doUpdate_finished F groupId sub parsed still
    refine ⟨s'', report', ok', ?_, ?_⟩
    · rw [changed, nothing.changed]
    · have committed := doUpdate_ok F ok'
      rw [nothing.deletes] at committed
      exact commit_nothing nothing.inserts nothing.rewrites nothing.moves committed

open V2Ray

/-- A bean that reads back as it is written keeps its display name. -/
theorem displayName_stored {L : LowerCase} {n m : AbstractBean StandardV2RayBean}
    (normal : Normal L n.content) (fixed : (beanClass L).Fixed n.content) (name : m.name = n.name)
    (content : m.content = n.content) :
    displayName (beanClass L) (stored (beanClass L) m) = displayName (beanClass L) n := by
  have address : ((beanClass L).restored n.content).serverAddress = n.content.serverAddress :=
    restored_serverAddress normal ((fixed_iff normal).mp fixed).2
  have sameAddress :
      ((beanClass L).restored n.content).displayAddress = n.content.displayAddress := by
    rw [StandardV2RayBean.displayAddress, address]
    rfl
  rw [stored_eq, displayName, displayName, name, content]
  split
  · rfl
  · exact sameAddress

theorem mergedNode_keeps {F : BeanClass C} (groupId : Int) (s : Store (AbstractBean C))
    (n : AbstractBean C) :
    (mergedNode F groupId s n).name = n.name ∧ (mergedNode F groupId s n).content = n.content := by
  unfold mergedNode
  split <;> exact ⟨rfl, rfl⟩

/-- Every parsed node that is left after the renaming and the deduplication reads back as
it is written, or the first row with its name has exactly this content already. -/
def SteadyText (L : LowerCase) (groupId : Int) (sub : Settings StandardV2RayBean)
    (parsed : List ParsedNode) (s : Store (AbstractBean StandardV2RayBean)) : Prop :=
  ∀ p ∈ parsed, ∀ name,
    { p.bean L with name } ∈ (finalNodes (beanClass L) sub (parsed.map (·.bean L))).1 →
      p.Steady L ∨ Held (beanClass L) groupId s { p.bean L with name }

/-- Without lookups, a second update changes nothing exactly when the text is steady. -/
theorem doUpdate_idempotent_iff (L : LowerCase) (groupId : Int) (sub : Settings StandardV2RayBean)
    (off : sub.forceResolve = none) (parsed : List ParsedNode)
    (s : Store (AbstractBean StandardV2RayBean)) (present : (s.groups.get groupId).isSome) :
    Idempotent (beanClass L) groupId sub (parsed.map (·.bean L)) s ↔
      SteadyText L groupId sub parsed s := by
  have origin : ∀ n ∈ (finalNodes (beanClass L) sub (parsed.map (·.bean L))).1,
      ∃ p ∈ parsed, ∃ name, n = { p.bean L with name } := by
    intro n hn
    obtain ⟨b, hb, name, eq⟩ := finalNodes_origin (beanClass L) off hn
    obtain ⟨p, hp, rfl⟩ := List.mem_map.mp hb
    exact ⟨p, hp, name, eq⟩
  rw [idempotent_iff]
  · constructor
    · intro steady p _ name left
      exact (steady _ left).imp (p.fixed_iff_steady L).mp id
    · intro steady n hn
      obtain ⟨p, hp, name, rfl⟩ := origin n hn
      exact (steady p hp name hn).imp (p.fixed_iff_steady L).mpr id
  · exact present
  · intro n hn fixed
    obtain ⟨p, _, name, rfl⟩ := origin n hn
    obtain ⟨sameName, sameContent⟩ := mergedNode_keeps (F := beanClass L) groupId s
      { p.bean L with name }
    exact displayName_stored (p.content_normal L) fixed sameName sameContent

/-! A transport `H2` is stored as `h2`, read back as `http`, and rewritten by every update. -/

def emptyGroup : Store (AbstractBean StandardV2RayBean) where
  proxies := .empty
  groups := {
    rows := [sampleGroup 7], unique := by decide, sequence := 7, bounded := by decide }

def sampleCode (net : String) : VmessQRCode where
  ps := "node"
  add := "a.example"
  port := "443"
  id := "id"
  net := net
  host := "h.example"
  path := "/p"

/-- The changes that a second update reports. -/
def secondChanged {C : Type} (F : BeanClass C) (groupId : Int) (sub : Settings C)
    (parsed : List (AbstractBean C)) (s : Store (AbstractBean C)) : Except String Nat := do
  let (s', _) ← doUpdate F groupId sub parsed s
  let (_, report) ← doUpdate F groupId sub parsed s'
  return report.changed

theorem Idempotent.secondChanged {C : Type} {F : BeanClass C} {groupId : Int} {sub : Settings C}
    {parsed : List (AbstractBean C)} {s : Store (AbstractBean C)}
    (h : Idempotent F groupId sub parsed s) {n : Nat}
    (run : secondChanged F groupId sub parsed s = .ok n) : n = 0 := by
  simp only [Subscription.secondChanged, Outcome.bind_ok, Outcome.pure_ok] at run
  obtain ⟨⟨s', report⟩, first, ⟨s'', report'⟩, second, rfl⟩ := run
  obtain ⟨_, t, other, again, zero, _⟩ := h s' report first
  rw [second] at again
  cases again
  exact zero

/-- What the parser makes of the code. -/
def sampleNode (type : String) : ParsedNode where
  name := "node"
  raw := {
    ofClass := .vmess (some 0)
    serverAddress := "a.example"
    serverPort := some 443
    uuid := "id"
    encryption := ""
    type := type
    host := "h.example"
    path := "/p" }

theorem capitalH2_rewritten : parseV2RayN (sampleCode "H2") = .ok (sampleNode "H2") ∧
    ¬ Idempotent (beanClass .ascii) 7 ⟨false, none, none⟩ [(sampleNode "H2").bean .ascii]
      emptyGroup := by
  refine ⟨rfl, ?_⟩
  intro h
  have one : secondChanged (beanClass .ascii) 7 ⟨false, none, none⟩ [(sampleNode "H2").bean .ascii]
      emptyGroup = .ok 1 := by decide
  exact absurd (h.secondChanged one) (by decide)

theorem webSocket_idempotent : Idempotent (beanClass .ascii) 7 ⟨false, none, none⟩
    ([sampleNode "ws"].map (·.bean .ascii)) emptyGroup := by
  apply (doUpdate_idempotent_iff .ascii 7 ⟨false, none, none⟩ rfl [sampleNode "ws"] emptyGroup
    (by decide)).mpr
  intro p hp name _
  rw [List.mem_singleton.mp hp]
  left
  refine ⟨?_, ?_⟩
  · rintro t ⟨rfl⟩
    decide
  · rintro a ⟨rfl⟩
    decide

end QuinMo.Subscription
