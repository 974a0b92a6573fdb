import QuinMo.Lib.Outcome
import QuinMo.Subscription.Settle
import QuinMo.Model.V2Ray

/-!
# An update makes the group match the subscription

A row that was there before under the name of a node is kept with its id, its statistics and its
custom JSON; all other rows of the group are new or gone.
-/

namespace QuinMo.Subscription

open Text LinkedMap AbstractBean

variable {C : Type} (F : BeanClass C)

/-- The store after the tasks were written and the rows of no task were deleted. -/
structure Finished (s : Store (AbstractBean C)) (groupId : Int) (ts : List (Task C))
    (s' : Store (AbstractBean C)) : Prop where
  planned : Planned F s groupId ts
  ordered : (ts.map (·.order)).Pairwise (· < ·)
  gone : ∀ e ∈ s.getByGroup groupId, (∀ t ∈ ts, t.old ≠ some e) → s'.getById e.id = none
  stays : ∀ j, (∀ e ∈ s.getByGroup groupId, (∀ t ∈ ts, t.old ≠ some e) → e.id ≠ j) →
    s'.getById j = (applyTasks F s groupId ts).getById j

variable {r : Row C}

theorem numbered_origin {sequence : Int} {es : List (Row C)} (h : r ∈ numbered F sequence es) :
    ∃ e ∈ es, r = { e with id := r.id, bean := stored F e.bean } := by
  induction es generalizing sequence with
  | nil => cases h
  | cons e es ih =>
    rcases List.mem_cons.mp h with rfl | h
    · exact ⟨e, List.mem_cons_self, rfl⟩
    · obtain ⟨d, hd, eq⟩ := ih h
      exact ⟨d, List.mem_cons_of_mem e hd, eq⟩

variable {groupId : Int} {s : Store (AbstractBean C)}

theorem numbered_groupId {sequence : Int} {ts : List (Task C)}
    (h : r ∈ numbered F sequence (ts.filterMap (·.insertion groupId))) : r.groupId = groupId := by
  obtain ⟨e, he, eq⟩ := numbered_origin F h
  obtain ⟨t, _, some⟩ := List.mem_filterMap.mp he
  unfold Task.insertion at some
  split at some
  · cases some
    rw [eq]
    rfl
  · cases some

theorem Task.settled_groupId (t : Task C) (e : Row C) : (t.settled F e).groupId = e.groupId := by
  unfold Task.settled
  split <;> rfl

namespace Finished

variable {F} {s s' : Store (AbstractBean C)} {groupId : Int} {ts : List (Task C)}
  (h : Finished F s groupId ts s')

include h

theorem getById_kept {t : Task C} (ht : t ∈ ts) {e : Row C} (old : t.old = some e) :
    s'.getById e.id = some (t.settled F e) := by
  rw [h.stays, h.planned.getById_kept ht old]
  intro d hd unkept same
  have rows : d = e :=
    s.proxies.key_inj (Store.mem_getByGroup.mp hd).1 (h.planned.stored_old ht old) same
  exact unkept t ht (rows ▸ old)

theorem getById_new (hr : r ∈ numbered F s.proxies.sequence (ts.filterMap (·.insertion groupId))) :
    s'.getById r.id = some r := by
  rw [h.stays, h.planned.getById_new hr]
  intro e he _ same
  have high := numbered_id F hr
  have := s.proxies.bounded e (Store.mem_getByGroup.mp he).1
  omega

/-- A row that was not in the group is as it was. -/
theorem getById_other {e : Row C} (he : e ∈ s.proxies.rows) (other : e.groupId ≠ groupId) :
    s'.getById e.id = some e := by
  have outside : ∀ d ∈ s.getByGroup groupId, d.id ≠ e.id := by
    intro d hd same
    obtain ⟨mem, inside⟩ := Store.mem_getByGroup.mp hd
    exact other (s.proxies.key_inj mem he same ▸ inside)
  rw [h.stays _ fun d hd _ => outside d hd]
  apply Planned.getById_other he
  intro t ht d old
  exact outside d (h.planned.old t ht d old).1

/-- Every row is the row of a task, or was in another group. -/
theorem row_cases (hr : r ∈ s'.proxies.rows) :
    r ∈ target F groupId s.proxies.sequence ts ∨ r ∈ s.proxies.rows ∧ r.groupId ≠ groupId := by
  have found := Store.getById_id hr
  rw [mem_target]
  have kept : ∀ e ∈ s.getByGroup groupId, (∀ t ∈ ts, t.old ≠ some e) → e.id ≠ r.id := by
    intro e he unkept same
    rw [← same, h.gone e he unkept] at found
    cases found
  have before := found
  rw [h.stays _ kept] at before
  rcases Planned.old_or_new before with ⟨e, he, same⟩ | ⟨q, hq, same⟩
  · by_cases inside : e.groupId = groupId
    · -- an old row of the group is here, so it is kept for some task
      have : ¬ ∀ t ∈ ts, t.old ≠ some e := fun unkept =>
        kept e (Store.mem_getByGroup.mpr ⟨he, inside⟩) unkept same
      push Not at this
      obtain ⟨t, ht, old⟩ := this
      have settled := h.getById_kept ht old
      rw [same, found] at settled
      cases settled
      exact .inl (.inl ⟨t, ht, e, old, rfl⟩)
    · have untouched := h.getById_other he inside
      rw [same, found] at untouched
      cases untouched
      exact .inr ⟨he, inside⟩
  · have new := h.getById_new hq
    rw [same, found] at new
    cases new
    exact .inl (.inr hq)

theorem mem_getByGroup :
    r ∈ s'.getByGroup groupId ↔ r ∈ target F groupId s.proxies.sequence ts := by
  rw [Store.mem_getByGroup]
  constructor
  · rintro ⟨mem, inside⟩
    exact (h.row_cases mem).resolve_right fun other => other.2 inside
  · intro mem
    rcases (mem_target F).mp mem with ⟨t, ht, e, old, rfl⟩ | new
    · refine ⟨(Store.getById_eq_some.mp (h.getById_kept ht old)).1, ?_⟩
      rw [Task.settled_groupId]
      exact (Store.mem_getByGroup.mp (h.planned.old t ht e old).1).2
    · exact ⟨(Store.getById_eq_some.mp (h.getById_new new)).1, numbered_groupId F new⟩

/-- The rows of the group, sorted, are the rows of the tasks. -/
theorem getByGroup_eq : s'.getByGroup groupId = target F groupId s.proxies.sequence ts := by
  apply eq_of_sorted (s'.getByGroup_nodup groupId) (s'.getByGroup_sorted groupId)
  · rw [target_order]
    exact h.ordered
  · intro r
    exact h.mem_getByGroup

end Finished

/-! ## The update carries out the tasks of its nodes -/

/-- The tasks of an update that finds `s` and has these nodes to store. -/
def updateTasks (groupId : Int) (nodes : List (AbstractBean C)) (s : Store (AbstractBean C)) :
    List (Task C) :=
  tasks F (firstNamed F (s.getByGroup groupId)) 1 nodes

theorem tasks_congr {kept kept' : String → Option (Row C)} {nodes : List (AbstractBean C)}
    (same : ∀ n ∈ nodes, kept (displayName F n) = kept' (displayName F n)) (order : Int) :
    tasks F kept order nodes = tasks F kept' order nodes := by
  induction nodes generalizing order with
  | nil => rfl
  | cons n nodes ih =>
    simp only [List.mem_cons, forall_eq_or_imp] at same
    rw [tasks, tasks, same.1, ih same.2]

theorem exists_task (groupId : Int) (s : Store (AbstractBean C)) {nodes : List (AbstractBean C)}
    {n : AbstractBean C} (hn : n ∈ nodes) : ∃ t ∈ updateTasks F groupId nodes s, t.node = n := by
  rw [← tasks_node F (firstNamed F (s.getByGroup groupId)) 1 nodes] at hn
  exact List.mem_map.mp hn

section
variable {groupId : Int} {nodes : List (AbstractBean C)} {s : Store (AbstractBean C)}

theorem updateTasks_old {t : Task C} (ht : t ∈ updateTasks F groupId nodes s) :
    t.old = firstNamed F (s.getByGroup groupId) (displayName F t.node) :=
  tasks_old F ht

theorem updateTasks_node {t : Task C} (ht : t ∈ updateTasks F groupId nodes s) : t.node ∈ nodes := by
  rw [← tasks_node F (firstNamed F (s.getByGroup groupId)) 1 nodes]
  exact List.mem_map_of_mem ht

theorem updateTasks_planned (distinct : (nodes.map (displayName F)).Nodup) :
    Planned F s groupId (updateTasks F groupId nodes s) where
  named := by
    have nodesOf := tasks_node F (firstNamed F (s.getByGroup groupId)) 1 nodes
    rw [← nodesOf, List.map_map] at distinct
    exact distinct
  old := by
    intro t ht e old
    rw [updateTasks_old F ht] at old
    exact firstNamed_some F old

theorem updateTasks_ordered : ((updateTasks F groupId nodes s).map (·.order)).Pairwise (· < ·) := by
  rw [updateTasks, tasks_order, List.pairwise_map]
  refine List.pairwise_lt_range.imp ?_
  intro i j lt
  omega

/-- What the loops have collected: the changes of the tasks, and the rows of no task. -/
structure Collected (groupId : Int) (nodes : List (AbstractBean C)) (s : Store (AbstractBean C))
    (toDelete : List (Row C)) (c : Changes C) : Prop where
  inserts : c.toInsert = (updateTasks F groupId nodes s).filterMap (·.insertion groupId)
  rewrites : c.toUpdate = (updateTasks F groupId nodes s).filterMap (·.rewrite F)
  moves : c.toReorder = (updateTasks F groupId nodes s).filterMap (·.move F)
  changed : c.changed = toDelete.length + (updateTasks F groupId nodes s).countP (!·.idle F)
  deletes : ∀ e, e ∈ toDelete ↔
    e ∈ s.getByGroup groupId ∧ ∀ t ∈ updateTasks F groupId nodes s, t.old ≠ some e

theorem planUpdate_collected (distinct : (nodes.map (displayName F)).Nodup) :
    Collected F groupId nodes s (planUpdate F groupId nodes s).1
      (planUpdate F groupId nodes s).2 := by
  have entries := associateBy_of_nodup distinct
  have wanted (name : String) : containsKey (nodes.map fun n => (displayName F n, n)) name = true ↔
      ∃ n ∈ nodes, displayName F n = name := by
    simp [containsKey_iff]
  unfold planUpdate
  dsimp only
  rw [entries]
  generalize hm : matchExisting F _ (s.getByGroup groupId) = m
  have found := matchExisting_matched F (nodes.map fun n => (displayName F n, n))
    (s.getByGroup_nodup groupId)
  rw [hm] at found
  have sameTasks : tasks F (m.toReplace.lookup ·) 1 nodes = updateTasks F groupId nodes s := by
    apply tasks_congr
    intro n hn
    rw [found.replace, if_pos ((wanted _).mpr ⟨n, hn, rfl⟩)]
  obtain ⟨inserts, rewrites, moves, changed⟩ := collect_tasks F groupId m.toReplace nodes
    ⟨1, m.toDelete.length, [], [], [], [], []⟩
  simp only [sameTasks, List.nil_append] at inserts rewrites moves changed
  refine ⟨inserts, rewrites, moves, changed, ?_⟩
  intro e
  rw [found.delete]
  apply and_congr_right
  intro _
  constructor
  · intro unkept t ht old
    rw [updateTasks_old F ht] at old
    have name := (firstNamed_some F old).2
    apply unkept
    rw [found.replace, if_pos ((wanted _).mpr ⟨t.node, updateTasks_node F ht, name.symm⟩), name, old]
  · intro unkept kept
    rw [found.replace] at kept
    split at kept
    · rename_i listed
      obtain ⟨n, hn, name⟩ := (wanted _).mp listed
      obtain ⟨t, ht, rfl⟩ := exists_task F groupId s hn
      apply unkept t ht
      rw [updateTasks_old F ht, name, kept]
    · cases kept

/-- The transaction succeeds while the group is there. -/
theorem commit_finished (nameserver : Option String) {toDelete : List (Row C)} {c : Changes C}
    (collected : Collected F groupId nodes s toDelete c)
    (distinct : (nodes.map (displayName F)).Nodup) (present : (s.groups.get groupId).isSome) :
    ∃ s', commit F groupId nameserver toDelete c s = .ok s' ∧
      Finished F s groupId (updateTasks F groupId nodes s) s' := by
  have rows : ∃ s', commit F groupId nameserver toDelete c s = .ok s' ∧
      ∀ j, s'.getById j = ((applyTasks F s groupId (updateTasks F groupId nodes s)).deleteProxy
        toDelete).getById j := by
    have there : (s.groups.get groupId).isNone = false := by simpa using present
    simp only [commit, there, Bool.false_eq_true, if_false, collected.inserts, collected.rewrites,
      collected.moves]
    refine ⟨_, rfl, ?_⟩
    intro j
    unfold writeNameserver
    split <;> split <;> rfl
  obtain ⟨s', ok, rows⟩ := rows
  refine ⟨s', ok, updateTasks_planned F distinct, updateTasks_ordered F, ?_, ?_⟩
  · intro e he unkept
    have listed : e.id ∈ toDelete.map (·.id) :=
      List.mem_map_of_mem ((collected.deletes e).mpr ⟨he, unkept⟩)
    rw [rows, Store.deleteProxy, Store.getById_deleteIds, if_pos listed]
  · intro j kept
    have unlisted : j ∉ toDelete.map (·.id) := by
      intro listed
      obtain ⟨e, he, same⟩ := List.mem_map.mp listed
      obtain ⟨inside, unkept⟩ := (collected.deletes e).mp he
      exact kept e inside unkept same
    rw [rows, Store.deleteProxy, Store.getById_deleteIds, if_neg unlisted]

end

/-! ## The group matches the subscription -/

/-- The bean an update stores for a node: the kept row passes its custom JSON on. -/
def mergedNode (groupId : Int) (s : Store (AbstractBean C)) (node : AbstractBean C) :
    AbstractBean C :=
  match firstNamed F (s.getByGroup groupId) (displayName F node) with
  | some e => node.withCustoms e.bean
  | none => node

/-- Every bean has the same display name when it is read back. -/
def NamesStored (groupId : Int) (nodes : List (AbstractBean C))
    (s : Store (AbstractBean C)) : Prop :=
  ∀ n ∈ nodes, displayName F (stored F (mergedNode F groupId s n)) = displayName F n

/-- The row of a node after an update of `s`: the first row with its name, or a new one. -/
structure RowOf (groupId : Int) (s : Store (AbstractBean C)) (row : Row C) (node : AbstractBean C) :
    Prop where
  name : rowName F row = displayName F node
  kept : ∀ e, firstNamed F (s.getByGroup groupId) (displayName F node) = some e →
    row = { e with userOrder := row.userOrder, bean := row.bean } ∧
      row.bean.customOutboundJson = e.bean.customOutboundJson ∧
      row.bean.customConfigJson = e.bean.customConfigJson
  new : firstNamed F (s.getByGroup groupId) (displayName F node) = none → s.proxies.sequence < row.id
  /-- The node's content, written anew unless the row had it already. -/
  content : row.bean = stored F (mergedNode F groupId s node) ∨
    equals F row.bean (mergedNode F groupId s node) = true

structure Reconciled (groupId : Int) (nodes : List (AbstractBean C))
    (s s' : Store (AbstractBean C)) : Prop where
  rows : List.Forall₂ (RowOf F groupId s) (s'.getByGroup groupId) nodes
  orders : (s'.getByGroup groupId).map (·.userOrder) =
    (List.range nodes.length).map fun i : Nat => (i : Int) + 1
  oncePerName : ((s'.getByGroup groupId).map (rowName F)).Nodup
  gone : ∀ e ∈ s.getByGroup groupId, (∀ n ∈ nodes,
    firstNamed F (s.getByGroup groupId) (displayName F n) ≠ some e) → s'.getById e.id = none
  others : ∀ e : Row C, e.groupId ≠ groupId → (e ∈ s'.proxies.rows ↔ e ∈ s.proxies.rows)

/-- The row kept for a node has the node's content already. -/
def Held (groupId : Int) (s : Store (AbstractBean C)) (node : AbstractBean C) : Prop :=
  ∃ e, firstNamed F (s.getByGroup groupId) (displayName F node) = some e ∧
    equals F e.bean (node.withCustoms e.bean) = true

theorem settled_rowOf {t : Task C} {e : Row C} (old : t.old = some e)
    (first : t.old = firstNamed F (s.getByGroup groupId) (displayName F t.node))
    (name : Held F groupId s t.node ∨ displayName F (stored F (mergedNode F groupId s t.node)) =
      displayName F t.node) :
    RowOf F groupId s (t.settled F e) t.node := by
  have here : firstNamed F (s.getByGroup groupId) (displayName F t.node) = some e := by
    rw [← first, old]
  have merged : mergedNode F groupId s t.node = t.node.withCustoms e.bean := by
    simp [mergedNode, here]
  unfold Task.settled
  split
  · rename_i same
    refine ⟨(firstNamed_some F here).2, ?_, ?_, .inr (merged ▸ same)⟩
    · intro d hd
      rw [here] at hd
      cases hd
      exact ⟨rfl, rfl, rfl⟩
    · intro none
      rw [here] at none
      cases none
  · rename_i differs
    have name : displayName F (stored F (t.node.withCustoms e.bean)) = displayName F t.node := by
      rcases name with ⟨d, hd, same⟩ | name
      · rw [here] at hd
        cases hd
        exact absurd same differs
      · rwa [merged] at name
    refine ⟨name, ?_, ?_, .inl (by rw [merged])⟩
    · intro d hd
      rw [here] at hd
      cases hd
      simp [stored_eq, withCustoms]
    · intro none
      rw [here] at none
      cases none

theorem target_rowOf {ts : List (Task C)}
    (first : ∀ t ∈ ts, t.old = firstNamed F (s.getByGroup groupId) (displayName F t.node))
    (names : ∀ t ∈ ts, Held F groupId s t.node ∨
      displayName F (stored F (mergedNode F groupId s t.node)) = displayName F t.node)
    {sequence : Int} (high : s.proxies.sequence ≤ sequence) :
    List.Forall₂ (RowOf F groupId s) (target F groupId sequence ts) (ts.map (·.node)) := by
  induction ts generalizing sequence with
  | nil => exact .nil
  | cons t ts ih =>
    simp only [List.mem_cons, forall_eq_or_imp] at first names
    cases old : t.old with
    | some e =>
      simp only [target, old, List.map_cons]
      exact .cons (settled_rowOf F old first.1 names.1) (ih first.2 names.2 high)
    | none =>
      have here : firstNamed F (s.getByGroup groupId) (displayName F t.node) = none := by
        rw [← first.1, old]
      have merged : mergedNode F groupId s t.node = t.node := by simp [mergedNode, here]
      have name : displayName F (stored F t.node) = displayName F t.node := by
        rcases names.1 with ⟨e, he, _⟩ | name
        · rw [here] at he
          cases he
        · rwa [merged] at name
      simp only [target, old, List.map_cons]
      refine .cons ⟨name, ?_, fun _ => ?_, .inl (by rw [merged]; rfl)⟩
        (ih first.2 names.2 (by omega))
      · intro e he
        rw [here] at he
        cases he
      · exact Int.lt_add_one_of_le high

section
variable {F} {groupId : Int} {nodes : List (AbstractBean C)} {s s' : Store (AbstractBean C)}

theorem Finished.rowOf (h : Finished F s groupId (updateTasks F groupId nodes s) s')
    (names : ∀ n ∈ nodes, Held F groupId s n ∨ displayName F (stored F (mergedNode F groupId s n)) =
      displayName F n) :
    List.Forall₂ (RowOf F groupId s) (s'.getByGroup groupId) nodes := by
  have each := target_rowOf F (fun t => updateTasks_old F)
    (fun t ht => names _ (updateTasks_node F ht)) (Int.le_refl s.proxies.sequence)
  rwa [updateTasks, tasks_node, ← updateTasks, ← h.getByGroup_eq] at each

theorem Finished.orders (h : Finished F s groupId (updateTasks F groupId nodes s) s') :
    (s'.getByGroup groupId).map (·.userOrder) =
      (List.range nodes.length).map fun i : Nat => 1 + (i : Int) := by
  rw [h.getByGroup_eq, target_order, updateTasks, tasks_order]

theorem rowOf_names {rows : List (Row C)} (h : List.Forall₂ (RowOf F groupId s) rows nodes) :
    rows.map (rowName F) = nodes.map (displayName F) := by
  rw [← List.forall₂_eq_eq_eq, List.forall₂_map_left_iff, List.forall₂_map_right_iff]
  exact h.imp fun _ _ row => row.name

end

/-- The update runs through while the group is there, and finishes its tasks. -/
theorem doUpdate_finished (groupId : Int) (sub : Settings C) (parsed : List (AbstractBean C))
    (present : (s.groups.get groupId).isSome) :
    ∃ s' report, doUpdate F groupId sub parsed s = .ok (s', report) ∧
      report.changed = (planUpdate F groupId (finalNodes F sub parsed).1 s).2.changed ∧
      Finished F s groupId (updateTasks F groupId (finalNodes F sub parsed).1 s) s' := by
  have distinct := finalNodes_distinct F sub parsed
  have collected : Collected F groupId (finalNodes F sub parsed).1 s _ _ :=
    planUpdate_collected F distinct
  obtain ⟨s', ok, h⟩ := commit_finished F sub.proxyServerNameserver collected distinct present
  refine ⟨s', _, by simp only [doUpdate, ok]; rfl, rfl, h⟩

theorem foldl_groups (step : Store (AbstractBean C) → Row C → Store (AbstractBean C))
    (keeps : ∀ s e, (step s e).groups = s.groups) (es : List (Row C))
    (s : Store (AbstractBean C)) : (es.foldl step s).groups = s.groups := by
  induction es generalizing s with
  | nil => rfl
  | cons e es ih => rw [List.foldl_cons, ih, keeps]

theorem rewriteRow_groups (s : Store (AbstractBean C)) (e : Row C) :
    (rewriteRow F s e).groups = s.groups := by
  unfold rewriteRow
  split <;> rfl

theorem writeNameserver_group (s : Store (AbstractBean C)) (groupId : Int)
    (nameserver : Option String) (id : Int) :
    ((writeNameserver s groupId nameserver).groups.get id).isSome = (s.groups.get id).isSome := by
  unfold writeNameserver
  split
  · rfl
  · exact s.mapGroups_get _ _ id

/-- No group is added or removed by an update. -/
theorem commit_group {nameserver : Option String} {toDelete : List (Row C)} {c : Changes C}
    {s' : Store (AbstractBean C)} (ok : commit F groupId nameserver toDelete c s = .ok s')
    (id : Int) : (s'.groups.get id).isSome = (s.groups.get id).isSome := by
  unfold commit at ok
  split at ok
  · cases ok
  · simp only [Except.ok.injEq] at ok
    have written : (List.foldl reorderRow (List.foldl (rewriteRow F) (List.foldl (insertRow F) s
        c.toInsert) c.toUpdate) c.toReorder).groups = s.groups := by
      rw [foldl_groups reorderRow (fun _ _ => rfl), foldl_groups _ (rewriteRow_groups F),
        foldl_groups (insertRow F) (fun _ _ => rfl)]
    rw [← ok, writeNameserver_group, ← written]
    split
    · rfl
    · exact Store.mapGroups_get _ _ _ id

/-- What a successful update was: the plan for its nodes, committed. -/
theorem doUpdate_ok {sub : Settings C} {parsed : List (AbstractBean C)}
    {s' : Store (AbstractBean C)} {report : Report}
    (ok : doUpdate F groupId sub parsed s = .ok (s', report)) :
    commit F groupId sub.proxyServerNameserver (planUpdate F groupId (finalNodes F sub parsed).1 s).1
      (planUpdate F groupId (finalNodes F sub parsed).1 s).2 s = .ok s' := by
  simp only [doUpdate, Outcome.bind_ok, Outcome.pure_ok, Prod.mk.injEq] at ok
  obtain ⟨t, committed, rfl, _⟩ := ok
  exact committed

theorem doUpdate_present {sub : Settings C} {parsed : List (AbstractBean C)}
    {s' : Store (AbstractBean C)} {report : Report}
    (ok : doUpdate F groupId sub parsed s = .ok (s', report)) : (s.groups.get groupId).isSome := by
  have committed := doUpdate_ok F ok
  unfold commit at committed
  split at committed
  · cases committed
  · rename_i present
    exact Option.isSome_iff_ne_none.mpr fun none => present (by rw [none]; rfl)

/-- An update of a group that exists succeeds and makes the group match the nodes. -/
theorem doUpdate_reconciled (groupId : Int) (sub : Settings C) (parsed : List (AbstractBean C))
    (s : Store (AbstractBean C)) (present : (s.groups.get groupId).isSome)
    (names : NamesStored F groupId (finalNodes F sub parsed).1 s) :
    ∃ s' report, doUpdate F groupId sub parsed s = .ok (s', report) ∧
      Reconciled F groupId (finalNodes F sub parsed).1 s s' := by
  obtain ⟨s', report, ok, _, h⟩ := doUpdate_finished F groupId sub parsed present
  have rows := h.rowOf fun n hn => .inr (names n hn)
  refine ⟨s', report, ok, rows, ?_, ?_, ?_, ?_⟩
  · rw [h.orders]
    apply List.map_congr_left
    intro i _
    omega
  · rw [rowOf_names rows]
    exact finalNodes_distinct F sub parsed
  · intro e he unnamed
    apply h.gone e he
    intro t ht
    rw [updateTasks_old F ht]
    exact unnamed t.node (updateTasks_node F ht)
  · intro e other
    constructor
    · intro mem
      rcases h.row_cases mem with inTarget | old
      · exact absurd (Store.mem_getByGroup.mp (h.mem_getByGroup.mpr inTarget)).2 other
      · exact old.1
    · intro mem
      exact (Store.getById_eq_some.mp (h.getById_other mem other)).1

/-! Two rows of one name, the first tested and with custom JSON, and a subscription with a changed
node of that name and a repeated new one. -/

open V2Ray in
def sampleBean (name address : String) : AbstractBean StandardV2RayBean where
  name := name
  customOutboundJson := ""
  customConfigJson := ""
  content := initializeDefaultValues .ascii
    { ofClass := .vmess none, serverAddress := address, serverPort := some 443 }

def sampleGroup (id : Int) : ProxyGroup where
  id := id
  userOrder := 1
  type := 1

def sampleStore : Store (AbstractBean V2Ray.StandardV2RayBean) where
  proxies := {
    rows := [
      { ProxyEntity.fresh 1 7 2 { sampleBean "one" "a.example" with customConfigJson := "c" } with
        ping := 30, tx := 5 },
      ProxyEntity.fresh 2 7 3 (sampleBean "one" "b.example"),
      ProxyEntity.fresh 3 8 1 (sampleBean "one" "c.example")]
    unique := by decide
    sequence := 3
    bounded := by decide }
  groups := {
    rows := [sampleGroup 7, sampleGroup 8], unique := by decide, sequence := 8,
    bounded := by decide }

theorem sampleStore_reconciled : ∃ s' report,
    doUpdate (V2Ray.beanClass .ascii) 7 ⟨false, none, none⟩
      [sampleBean "two" "d.example", sampleBean "one" "e.example", sampleBean "two" "f.example"]
      sampleStore = .ok (s', report) ∧
    Reconciled (V2Ray.beanClass .ascii) 7 (finalNodes (V2Ray.beanClass .ascii) ⟨false, none, none⟩
      [sampleBean "two" "d.example", sampleBean "one" "e.example", sampleBean "two" "f.example"]).1
      sampleStore s' := by
  apply doUpdate_reconciled
  · decide
  · unfold NamesStored
    decide

end QuinMo.Subscription
