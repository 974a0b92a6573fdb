import QuinMo.Subscription.Names

/-!
# The rows an update leaves in its group

An update is a list of tasks, one for each node: its place in the order, the row that is kept for
it, if there is one, and the node.
-/

namespace QuinMo.Subscription

open Text LinkedMap AbstractBean

variable {C : Type} (F : BeanClass C)

/-- The first row with this display name. -/
def firstNamed (existing : List (Row C)) (name : String) : Option (Row C) :=
  existing.find? (rowName F · == name)

theorem firstNamed_append (seen : List (Row C)) (e : Row C) (name : String) :
    firstNamed F (seen ++ [e]) name =
      (firstNamed F seen name).or (if rowName F e = name then some e else none) := by
  simp only [firstNamed, List.find?_append, List.find?_singleton, beq_iff_eq]

variable {e r : Row C}

theorem firstNamed_some {existing : List (Row C)} {name : String}
    (h : firstNamed F existing name = some e) : e ∈ existing ∧ rowName F e = name :=
  ⟨List.mem_of_find?_eq_some h, by simpa using List.find?_some h⟩

/-- What the loop over the rows has found out about those it has seen. -/
structure Matched (nameMap : List (String × AbstractBean C)) (seen : List (Row C))
    (m : Matching C) : Prop where
  replace : ∀ name, m.toReplace.lookup name =
    if containsKey nameMap name then firstNamed F seen name else none
  delete : ∀ e, e ∈ m.toDelete ↔ e ∈ seen ∧ m.toReplace.lookup (rowName F e) ≠ some e

variable {nameMap : List (String × AbstractBean C)} {seen : List (Row C)}

/-- The first row of a wanted name is kept. -/
theorem Matched.keep {m : Matching C} (h : Matched F nameMap seen m) (new : e ∉ seen)
    (wanted : containsKey nameMap (rowName F e) = true)
    (free : containsKey m.toReplace (rowName F e) = false) :
    Matched F nameMap (seen ++ [e]) { m with toReplace := put m.toReplace (rowName F e) e } := by
  have absent : m.toReplace.lookup (rowName F e) = none := by
    rwa [containsKey_lookup, Option.isSome_eq_false_iff, Option.isNone_iff_eq_none] at free
  have first : firstNamed F seen (rowName F e) = none := by
    rw [← absent, h.replace, if_pos wanted]
  refine ⟨?_, ?_⟩
  · intro name
    simp only [put_new free, lookup_append_new free, firstNamed_append]
    by_cases same : name = rowName F e
    · subst same
      simp [wanted, first]
    · simp [same, Ne.symm same, h.replace]
  · intro x
    simp only [put_new free, lookup_append_new free, h.delete, List.mem_append, List.mem_singleton]
    by_cases same : rowName F x = rowName F e
    · simp only [same, if_true, absent, Option.some.injEq, ne_eq, reduceCtorEq, not_false_eq_true,
        and_true]
      constructor
      · intro old
        exact ⟨.inl old, fun eq => new (eq ▸ old)⟩
      · rintro ⟨old | rfl, other⟩
        · exact old
        · exact absurd rfl other
    · have other : x ≠ e := fun eq => same (by rw [eq])
      simp [same, other]

/-- A row whose name is not wanted, or not any more, is to be deleted. -/
theorem Matched.drop {m : Matching C} (h : Matched F nameMap seen m) (new : e ∉ seen)
    (taken : containsKey nameMap (rowName F e) = true →
      containsKey m.toReplace (rowName F e) = true) :
    Matched F nameMap (seen ++ [e]) { m with toDelete := m.toDelete ++ [e] } := by
  have notKept : m.toReplace.lookup (rowName F e) ≠ some e := by
    intro same
    rw [h.replace] at same
    split at same
    · exact new (firstNamed_some F same).1
    · cases same
  refine ⟨?_, ?_⟩
  · intro name
    rw [h.replace, firstNamed_append]
    split
    · rename_i wanted
      by_cases same : rowName F e = name
      · -- the name is taken, so the first row of this name is an earlier one
        subst same
        have used := taken wanted
        rw [containsKey_lookup, h.replace, if_pos wanted] at used
        obtain ⟨x, hx⟩ := Option.isSome_iff_exists.mp used
        simp [hx]
      · simp [same]
    · rfl
  · intro x
    simp only [List.mem_append, List.mem_singleton, h.delete]
    constructor
    · rintro (⟨old, kept⟩ | rfl)
      · exact ⟨.inl old, kept⟩
      · exact ⟨.inr rfl, notKept⟩
    · rintro ⟨old | rfl, kept⟩
      · exact .inl ⟨old, kept⟩
      · exact .inr rfl

theorem Matched.round {m : Matching C} (h : Matched F nameMap seen m) (new : e ∉ seen) :
    Matched F nameMap (seen ++ [e]) (matchRound F nameMap m e) := by
  simp only [matchRound]
  split
  · rename_i first
    simp only [Bool.and_eq_true, Bool.not_eq_true'] at first
    exact h.keep F new first.1 first.2
  · rename_i other
    apply h.drop F new
    intro wanted
    simpa [wanted] using other

theorem matchExisting_matched (nameMap : List (String × AbstractBean C))
    {existing : List (Row C)} (distinct : existing.Nodup) :
    Matched F nameMap existing (matchExisting F nameMap existing) := by
  have general : ∀ (rest seen : List (Row C)) (m : Matching C), Matched F nameMap seen m →
      (seen ++ rest).Nodup →
      Matched F nameMap (seen ++ rest) (rest.foldl (matchRound F nameMap) m) := by
    intro rest
    induction rest with
    | nil => intro seen m h _; simpa using h
    | cons e rest ih =>
      intro seen m h distinct
      have new : e ∉ seen := by
        intro old
        exact (List.nodup_append.mp distinct).2.2 e old e List.mem_cons_self rfl
      rw [List.append_cons] at distinct ⊢
      exact ih _ _ (h.round F new) distinct
  exact general existing [] ⟨[], []⟩ ⟨by simp [firstNamed], by simp⟩ distinct

/-- What an update has to do for one node. -/
structure Task (C : Type) where
  order : Int
  old : Option (Row C)
  node : AbstractBean C

def tasks (kept : String → Option (Row C)) : Int → List (AbstractBean C) → List (Task C)
  | _, [] => []
  | order, node :: nodes =>
    ⟨order, kept (displayName F node), node⟩ :: tasks kept (order + 1) nodes

namespace Task

/-- The row to insert for a node that has none. -/
def insertion (groupId : Int) (t : Task C) : Option (Row C) :=
  match t.old with
  | none => some (ProxyEntity.fresh 0 groupId t.order t.node)
  | some _ => none

/-- The row to write anew, since the node differs from what is stored. -/
def rewrite (t : Task C) : Option (Row C) :=
  t.old.bind fun e =>
    let bean := t.node.withCustoms e.bean
    if equals F e.bean bean then none else some { e with userOrder := t.order, bean }

/-- The row to move to another place. -/
def move (t : Task C) : Option (Row C) :=
  t.old.bind fun e =>
    if equals F e.bean (t.node.withCustoms e.bean) && e.userOrder != t.order then
      some { e with userOrder := t.order }
    else none

/-- Nothing is to be done: the row has the node's content and is in its place. -/
def idle (t : Task C) : Bool :=
  match t.old with
  | none => false
  | some e => equals F e.bean (t.node.withCustoms e.bean) && e.userOrder == t.order

/-- The kept row after the update. -/
def settled (t : Task C) (e : Row C) : Row C :=
  if equals F e.bean (t.node.withCustoms e.bean) then { e with userOrder := t.order }
  else { e with userOrder := t.order, bean := stored F (t.node.withCustoms e.bean) }

end Task

theorem tasks_node (kept : String → Option (Row C)) (order : Int) (nodes : List (AbstractBean C)) :
    (tasks F kept order nodes).map (·.node) = nodes := by
  induction nodes generalizing order with
  | nil => rfl
  | cons node nodes ih => simp [tasks, ih]

theorem tasks_order (kept : String → Option (Row C)) (order : Int) (nodes : List (AbstractBean C)) :
    (tasks F kept order nodes).map (·.order) =
      (List.range nodes.length).map fun i : Nat => order + (i : Int) := by
  induction nodes generalizing order with
  | nil => rfl
  | cons node nodes ih =>
    simp only [tasks, List.map_cons, ih, List.length_cons, List.range_succ_eq_map, List.map_map]
    simp [Function.comp_def, Int.add_assoc, Int.add_comm 1]

variable {t : Task C}

theorem tasks_old {kept : String → Option (Row C)} {order : Int} {nodes : List (AbstractBean C)}
    (h : t ∈ tasks F kept order nodes) : t.old = kept (displayName F t.node) := by
  induction nodes generalizing order with
  | nil => cases h
  | cons node nodes ih =>
    rcases List.mem_cons.mp h with rfl | h
    · rfl
    · exact ih h

/-! ## The loop over the nodes -/

theorem filterMap_cons_toList {α β : Type} (f : α → Option β) (a : α) (as : List α) :
    (a :: as).filterMap f = (f a).toList ++ as.filterMap f := by
  cases h : f a with
  | none => simp [h]
  | some b => simp [h]

/-- One round notes what its task needs. -/
theorem changeRound_task (groupId : Int) (toReplace : List (String × Row C)) (c : Changes C)
    (node : AbstractBean C) :
    let t : Task C := ⟨c.userOrder, toReplace.lookup (displayName F node), node⟩
    let c' := changeRound F groupId toReplace c (displayName F node, node)
    c'.userOrder = c.userOrder + 1 ∧ c'.toInsert = c.toInsert ++ (t.insertion groupId).toList ∧
      c'.toUpdate = c.toUpdate ++ (t.rewrite F).toList ∧
      c'.toReorder = c.toReorder ++ (t.move F).toList ∧
      c'.changed = c.changed + if t.idle F then 0 else 1 := by
  simp only [changeRound, Task.insertion, Task.rewrite, Task.move, Task.idle]
  cases toReplace.lookup (displayName F node) with
  | none => simp
  | some e =>
    by_cases same : equals F e.bean (node.withCustoms e.bean) = true
    · by_cases place : e.userOrder = c.userOrder
      · simp [same, place]
      · simp [same, place]
    · simp [same]

theorem collect_tasks (groupId : Int) (toReplace : List (String × Row C))
    (nodes : List (AbstractBean C)) (c : Changes C) :
    let ts := tasks F (toReplace.lookup ·) c.userOrder nodes
    let c' := (nodes.map fun n => (displayName F n, n)).foldl (changeRound F groupId toReplace) c
    c'.toInsert = c.toInsert ++ ts.filterMap (·.insertion groupId) ∧
      c'.toUpdate = c.toUpdate ++ ts.filterMap (·.rewrite F) ∧
      c'.toReorder = c.toReorder ++ ts.filterMap (·.move F) ∧
      c'.changed = c.changed + ts.countP (!·.idle F) := by
  induction nodes generalizing c with
  | nil => simp [tasks]
  | cons node nodes ih =>
    obtain ⟨order, inserts, rewrites, moves, changed⟩ := changeRound_task F groupId toReplace c node
    have rest := ih (changeRound F groupId toReplace c (displayName F node, node))
    simp only [order, inserts, rewrites, moves, changed] at rest
    simp only [List.map_cons, List.foldl_cons, tasks, filterMap_cons_toList, List.countP_cons]
    obtain ⟨restInserts, restRewrites, restMoves, restChanged⟩ := rest
    refine ⟨?_, ?_, ?_, ?_⟩
    · rw [restInserts, List.append_assoc]
    · rw [restRewrites, List.append_assoc]
    · rw [restMoves, List.append_assoc]
    · rw [restChanged]
      cases Task.idle F ⟨c.userOrder, toReplace.lookup (displayName F node), node⟩
      · simp
        omega
      · simp

theorem rewriteRow_getById (s : Store (AbstractBean C)) (entity : Row C) (j : Int) :
    (rewriteRow F s entity).getById j = if j = entity.id then
      (s.getById j).map fun current =>
        { current with userOrder := entity.userOrder, bean := stored F entity.bean }
      else s.getById j := by
  unfold rewriteRow
  split
  · rename_i gone
    by_cases here : j = entity.id
    · simp [here, gone]
    · simp [here]
  · rename_i current found
    have sameId : current.id = entity.id := (Store.getById_eq_some.mp found).2
    rw [Store.updateProxy, Store.getById_modify]
    by_cases here : j = entity.id
    · simp [here, sameId, found]
    · simp [here, sameId]

theorem reorderRow_getById (s : Store (AbstractBean C)) (entity : Row C) (j : Int) :
    (reorderRow s entity).getById j = if j = entity.id then
      (s.getById j).map fun current => { current with userOrder := entity.userOrder }
      else s.getById j :=
  s.getById_modify entity.id _ _ j

/-- New rows with the ids that the table gives them. -/
def numbered : Int → List (Row C) → List (Row C)
  | _, [] => []
  | sequence, e :: es =>
    { e with id := sequence + 1, bean := stored F e.bean } :: numbered (sequence + 1) es

theorem insert_rows (es : List (Row C)) (s : Store (AbstractBean C)) :
    (es.foldl (insertRow F) s).proxies.rows = s.proxies.rows ++
      numbered F s.proxies.sequence es := by
  induction es generalizing s with
  | nil => simp [numbered]
  | cons e es ih =>
    have next : max s.proxies.sequence (s.proxies.sequence + 1) = s.proxies.sequence + 1 := by omega
    rw [List.foldl_cons, ih]
    simp only [insertRow, Store.addProxy, Numbered.place, Table.add, numbered, next,
      List.append_assoc, List.singleton_append]

theorem numbered_id {sequence : Int} {es : List (Row C)} (h : r ∈ numbered F sequence es) :
    sequence < r.id := by
  induction es generalizing sequence with
  | nil => cases h
  | cons e es ih =>
    rcases List.mem_cons.mp h with rfl | h
    · exact Int.lt_succ sequence
    · have := ih h
      omega

/-! ## The rows after the writes -/

/-- The tasks of a store: nodes with distinct names, and the rows of the group that have
these names. -/
structure Planned (s : Store (AbstractBean C)) (groupId : Int) (ts : List (Task C)) : Prop where
  named : (ts.map fun t => displayName F t.node).Nodup
  old : ∀ t ∈ ts, ∀ e, t.old = some e → e ∈ s.getByGroup groupId ∧ rowName F e = displayName F t.node

/-- The store after the inserts, rewrites and moves of the tasks. -/
def applyTasks (s : Store (AbstractBean C)) (groupId : Int) (ts : List (Task C)) :
    Store (AbstractBean C) :=
  let s := (ts.filterMap (·.insertion groupId)).foldl (insertRow F) s
  let s := (ts.filterMap (·.rewrite F)).foldl (rewriteRow F) s
  (ts.filterMap (·.move F)).foldl reorderRow s

namespace Task

theorem rewrite_some (h : t.rewrite F = some r) : ∃ e, t.old = some e ∧ r.id = e.id := by
  obtain ⟨e, old, eq⟩ := Option.bind_eq_some_iff.mp h
  refine ⟨e, old, ?_⟩
  dsimp only at eq
  split at eq
  · cases eq
  · cases eq
    rfl

theorem move_some (h : t.move F = some r) : ∃ e, t.old = some e ∧ r.id = e.id := by
  obtain ⟨e, old, eq⟩ := Option.bind_eq_some_iff.mp h
  refine ⟨e, old, ?_⟩
  split at eq
  · cases eq
    rfl
  · cases eq

end Task

namespace Planned

variable {F} {s : Store (AbstractBean C)} {groupId : Int} {ts : List (Task C)}
  (h : Planned F s groupId ts)

include h

theorem stored_old (ht : t ∈ ts) (old : t.old = some e) : e ∈ s.proxies.rows :=
  (Store.mem_getByGroup.mp (h.old t ht e old).1).1

/-- A row is kept for one task only. -/
theorem task_eq {u : Task C} (ht : t ∈ ts) (hu : u ∈ ts) {d : Row C} (te : t.old = some e)
    (ud : u.old = some d) (same : e.id = d.id) : t = u := by
  have rows : e = d := s.proxies.key_inj (h.stored_old ht te) (h.stored_old hu ud) same
  apply List.inj_on_of_nodup_map h.named ht hu
  rw [← (h.old t ht e te).2, ← (h.old u hu d ud).2, rows]

variable {g : Task C → Option (Row C)}

/-- No row is written twice by one of the loops. -/
theorem ids_nodup (ofOld : ∀ t r, g t = some r → ∃ e, t.old = some e ∧ r.id = e.id) :
    ((ts.filterMap g).map (·.id)).Nodup := by
  have apart : ts.Pairwise fun t u => displayName F t.node ≠ displayName F u.node :=
    List.pairwise_map.mp h.named
  rw [List.Nodup, List.pairwise_map, List.pairwise_filterMap]
  refine apart.imp_of_mem ?_
  intro t u ht hu names r hr q hq same
  obtain ⟨e, te, rid⟩ := ofOld t r hr
  obtain ⟨d, ud, qid⟩ := ofOld u q hq
  have one := h.task_eq ht hu te ud (by omega)
  exact names (by rw [one])

omit h in
/-- A loop passes over the rows of no task, and of tasks it has nothing to do for. -/
theorem not_written (ofOld : ∀ t r, g t = some r → ∃ e, t.old = some e ∧ r.id = e.id) {j : Int}
    (passed : ∀ t ∈ ts, ∀ e, t.old = some e → e.id = j → g t = none) :
    j ∉ (ts.filterMap g).map (·.id) := by
  intro listed
  obtain ⟨r, mem, rfl⟩ := List.mem_map.mp listed
  obtain ⟨t, ht, some⟩ := List.mem_filterMap.mp mem
  obtain ⟨e, old, same⟩ := ofOld t r some
  rw [passed t ht e old same.symm] at some
  cases some

theorem passed_of_none (ht : t ∈ ts) (old : t.old = some e) (nothing : g t = none) :
    ∀ u ∈ ts, ∀ d, u.old = some d → d.id = e.id → g u = none := by
  intro u hu d ud same
  rw [h.task_eq hu ht ud old same]
  exact nothing

/-- The row kept for a task has the task's place and content. -/
theorem getById_kept (ht : t ∈ ts) (old : t.old = some e) :
    (applyTasks F s groupId ts).getById e.id = some (t.settled F e) := by
  have before : ((ts.filterMap (·.insertion groupId)).foldl (insertRow F) s).getById
    e.id = some e := by
    apply Store.getById_id
    rw [insert_rows]
    exact List.mem_append_left _ (h.stored_old ht old)
  simp only [applyTasks, Task.settled]
  by_cases same : equals F e.bean (t.node.withCustoms e.bean) = true
  · have noRewrite : t.rewrite F = none := by simp [Task.rewrite, old, same]
    have rewrites := look_foldl_of_not_mem (rewriteRow_getById F)
      (not_written (fun _ _ => Task.rewrite_some F) (h.passed_of_none ht old noRewrite))
    by_cases place : e.userOrder = t.order
    · have noMove : t.move F = none := by simp [Task.move, old, same, place]
      have moves := look_foldl_of_not_mem reorderRow_getById
        (not_written (fun _ _ => Task.move_some F) (h.passed_of_none ht old noMove))
      rw [moves, rewrites, before, if_pos same, ← place]
    · have move : { e with userOrder := t.order } ∈ ts.filterMap (·.move F) := by
        rw [List.mem_filterMap]
        exact ⟨t, ht, by simp [Task.move, old, same, place]⟩
      have moves := look_foldl_of_mem reorderRow_getById move
        (h.ids_nodup fun _ _ => Task.move_some F)
      rw [moves, rewrites, before, if_pos same]
      rfl
  · have noMove : t.move F = none := by simp [Task.move, old, same]
    have moves := look_foldl_of_not_mem reorderRow_getById
      (not_written (fun _ _ => Task.move_some F) (h.passed_of_none ht old noMove))
    have rewrite : { e with userOrder := t.order, bean := t.node.withCustoms e.bean } ∈
        ts.filterMap (·.rewrite F) := by
      rw [List.mem_filterMap]
      exact ⟨t, ht, by simp [Task.rewrite, old, same]⟩
    have rewrites := look_foldl_of_mem (rewriteRow_getById F) rewrite
      (h.ids_nodup fun _ _ => Task.rewrite_some F)
    rw [moves, rewrites, before, if_neg same]
    rfl

omit h in
/-- Rows that are kept for no task are as the inserts left them. -/
theorem getById_free {j : Int} (free : ∀ t ∈ ts, ∀ e, t.old = some e → e.id ≠ j) :
    (applyTasks F s groupId ts).getById j =
      ((ts.filterMap (·.insertion groupId)).foldl (insertRow F) s).getById j := by
  have passed (g : Task C → Option (Row C)) :
      ∀ t ∈ ts, ∀ e, t.old = some e → e.id = j → g t = none :=
    fun t ht e old same => absurd same (free t ht e old)
  rw [applyTasks, look_foldl_of_not_mem reorderRow_getById
    (not_written (fun _ _ => Task.move_some F) (passed (·.move F))),
    look_foldl_of_not_mem (rewriteRow_getById F)
      (not_written (fun _ _ => Task.rewrite_some F) (passed (·.rewrite F)))]

theorem getById_new (hr : r ∈ numbered F s.proxies.sequence (ts.filterMap (·.insertion groupId))) :
    (applyTasks F s groupId ts).getById r.id = some r := by
  have high := numbered_id F hr
  rw [getById_free]
  · apply Store.getById_id
    rw [insert_rows]
    exact List.mem_append_right _ hr
  · intro t ht e old
    have := s.proxies.bounded e (h.stored_old ht old)
    omega

omit h in
theorem getById_other (he : e ∈ s.proxies.rows)
    (free : ∀ t ∈ ts, ∀ d, t.old = some d → d.id ≠ e.id) :
    (applyTasks F s groupId ts).getById e.id = some e := by
  rw [getById_free free]
  apply Store.getById_id
  rw [insert_rows]
  exact List.mem_append_left _ he

omit h in
/-- There are no rows but old and new ones. -/
theorem old_or_new {j : Int} (hr : (applyTasks F s groupId ts).getById j = some r) :
    (∃ e ∈ s.proxies.rows, e.id = j) ∨
      ∃ q ∈ numbered F s.proxies.sequence (ts.filterMap (·.insertion groupId)), q.id = j := by
  have present : ((applyTasks F s groupId ts).getById j).isSome := by rw [hr]; rfl
  rw [applyTasks, look_foldl_isSome reorderRow_getById, look_foldl_isSome (rewriteRow_getById F)]
    at present
  obtain ⟨q, hq⟩ := Option.isSome_iff_exists.mp present
  obtain ⟨mem, rfl⟩ := Store.getById_eq_some.mp hq
  rw [insert_rows] at mem
  rcases List.mem_append.mp mem with old | new
  · exact .inl ⟨q, old, rfl⟩
  · exact .inr ⟨q, new, rfl⟩

end Planned

/-- The row of every task, in order; new rows are numbered on the way. -/
def target (groupId : Int) : Int → List (Task C) → List (Row C)
  | _, [] => []
  | sequence, t :: ts =>
    match t.old with
    | some e => t.settled F e :: target groupId sequence ts
    | none =>
      ProxyEntity.fresh (sequence + 1) groupId t.order (stored F t.node) ::
        target groupId (sequence + 1) ts

theorem mem_target {groupId sequence : Int} {ts : List (Task C)} :
    r ∈ target F groupId sequence ts ↔ (∃ t ∈ ts, ∃ e, t.old = some e ∧ r = t.settled F e) ∨
      r ∈ numbered F sequence (ts.filterMap (·.insertion groupId)) := by
  induction ts generalizing sequence with
  | nil => simp [target, numbered]
  | cons t ts ih =>
    cases old : t.old with
    | some e =>
      have noInsert : t.insertion groupId = none := by simp [Task.insertion, old]
      simp only [target, old, List.mem_cons, ih, List.filterMap_cons, noInsert]
      constructor
      · rintro (rfl | ⟨u, hu, d, ud, rfl⟩ | new)
        · exact .inl ⟨t, .inl rfl, e, old, rfl⟩
        · exact .inl ⟨u, .inr hu, d, ud, rfl⟩
        · exact .inr new
      · rintro (⟨u, rfl | hu, d, ud, rfl⟩ | new)
        · rw [old] at ud
          cases ud
          exact .inl rfl
        · exact .inr (.inl ⟨u, hu, d, ud, rfl⟩)
        · exact .inr (.inr new)
    | none =>
      have insert : t.insertion groupId = some (ProxyEntity.fresh 0 groupId t.order t.node) := by
        simp [Task.insertion, old]
      simp only [target, old, List.mem_cons, ih, List.filterMap_cons, insert, numbered]
      constructor
      · rintro (rfl | ⟨u, hu, d, ud, rfl⟩ | new)
        · exact .inr (.inl rfl)
        · exact .inl ⟨u, .inr hu, d, ud, rfl⟩
        · exact .inr (.inr new)
      · rintro (⟨u, rfl | hu, d, ud, rfl⟩ | rfl | new)
        · rw [old] at ud
          cases ud
        · exact .inr (.inl ⟨u, hu, d, ud, rfl⟩)
        · exact .inl rfl
        · exact .inr (.inr new)

theorem target_order (groupId sequence : Int) (ts : List (Task C)) :
    (target F groupId sequence ts).map (·.userOrder) = ts.map (·.order) := by
  induction ts generalizing sequence with
  | nil => rfl
  | cons t ts ih =>
    cases old : t.old with
    | some e =>
      have order : (t.settled F e).userOrder = t.order := by
        unfold Task.settled
        split <;> rfl
      simp [target, old, ih, order]
    | none => simp [target, old, ih, ProxyEntity.fresh]

end QuinMo.Subscription
