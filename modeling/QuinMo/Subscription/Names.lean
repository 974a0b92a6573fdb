import QuinMo.Subscription.Update

/-!
# The nodes of an update have distinct names

The loop of `uniquifyNames` ends: the name of each round ends with the number of the round.
-/

namespace QuinMo.Subscription

open Text LinkedMap AbstractBean

variable {C : Type} (F : BeanClass C)

theorem renamed_isBlank (name : String) (index : Nat) :
    isBlank (renamed name (index + 1)) = false := by
  have bracket : (")".toList.all isWhitespace) = false := by decide
  simp only [isBlank, renamed, String.toList_append, List.all_append, bracket, Bool.and_false]

theorem renamed_inj (name : String) {i j : Nat} (hi : 0 < i) (hj : 0 < j)
    (same : renamed name i = renamed name j) : i = j := by
  obtain ⟨i, rfl⟩ := Nat.exists_eq_succ_of_ne_zero hi.ne'
  obtain ⟨j, rfl⟩ := Nat.exists_eq_succ_of_ne_zero hj.ne'
  have chars := congrArg String.toList same
  simp only [renamed, String.toList_append, ← List.append_assoc] at chars
  have digits (n : Nat) : (toString n).toList = Nat.toDigits 10 n := Nat.toList_repr
  rw [digits, digits] at chars
  have numbers := List.append_cancel_right chars
  exact digits_cut_end (by simp) (by simp) numbers

theorem uniquified_renames (m : List (String × AbstractBean C)) (proxy : AbstractBean C) :
    ∃ name, uniquified F m proxy = { proxy with name } := by
  simp only [uniquified]
  split
  · exact ⟨proxy.name, rfl⟩
  · exact ⟨_, rfl⟩

theorem displayName_uniquified (m : List (String × AbstractBean C)) (proxy : AbstractBean C) :
    displayName F (uniquified F m proxy) = renamed (displayName F proxy)
      (Fresh.search (containsKey m) (renamed (displayName F proxy)) (m.length + 1) 0) := by
  simp only [uniquified]
  split
  · rename_i first
    rw [first]
    rfl
  · rename_i index later
    rw [later]
    exact displayName_named F { proxy with name := renamed (displayName F proxy) (index + 1) }
      (renamed_isBlank (displayName F proxy) index)

theorem uniquified_new (m : List (String × AbstractBean C)) (proxy : AbstractBean C) :
    containsKey m (displayName F (uniquified F m proxy)) = false := by
  rw [displayName_uniquified]
  apply Fresh.search_free (containsKey m) _ (m.map (·.1))
  · intro name taken
    exact containsKey_iff.mp taken
  · simp
  · intro i j hi hj
    exact renamed_inj _ hi hj

/-- The entries of the map are nodes under their own, distinct names; they are the
nodes seen so far, renamed. -/
structure Listed (seen : List (AbstractBean C)) (m : List (String × AbstractBean C)) : Prop where
  keys : ∀ entry ∈ m, entry.1 = displayName F entry.2
  distinct : (m.map (·.1)).Nodup
  origin : ∀ entry ∈ m, ∃ proxy ∈ seen, ∃ name, entry.2 = { proxy with name }

variable {m : List (String × AbstractBean C)}

theorem Listed.round {seen : List (AbstractBean C)} (h : Listed F seen m) (proxy : AbstractBean C) :
    Listed F (seen ++ [proxy]) (uniquifyRound F m proxy) := by
  have new := uniquified_new F m proxy
  unfold uniquifyRound
  rw [put_new new]
  refine ⟨?_, ?_, ?_⟩
  · intro entry mem
    rcases List.mem_append.mp mem with old | last
    · exact h.keys entry old
    · rw [List.mem_singleton.mp last]
  · rw [List.map_append]
    refine List.Nodup.append h.distinct (List.nodup_singleton _) ?_
    intro name old last
    rw [List.map_singleton, List.mem_singleton] at last
    rw [Bool.eq_false_iff, ne_eq, containsKey_iff] at new
    rw [last] at old
    exact new old
  · intro entry mem
    rcases List.mem_append.mp mem with old | last
    · obtain ⟨q, seenQ, name, eq⟩ := h.origin entry old
      exact ⟨q, List.mem_append_left _ seenQ, name, eq⟩
    · rw [List.mem_singleton.mp last]
      obtain ⟨name, eq⟩ := uniquified_renames F m proxy
      exact ⟨proxy, by simp, name, eq⟩

theorem Listed.run {seen : List (AbstractBean C)} (h : Listed F seen m)
    (list : List (AbstractBean C)) : Listed F (seen ++ list) (list.foldl (uniquifyRound F) m) := by
  induction list generalizing seen m with
  | nil => simpa using h
  | cons proxy list ih =>
    rw [List.foldl_cons, List.append_cons]
    exact ih (h.round F proxy)

theorem uniquifyNames_listed (list : List (AbstractBean C)) :
    Listed F list (list.foldl (uniquifyRound F) []) := by
  have start : Listed F ([] : List (AbstractBean C)) [] := ⟨by simp, by simp, by simp⟩
  exact start.run F list

theorem uniquifyNames_distinct (list : List (AbstractBean C)) :
    ((uniquifyNames F list).map (displayName F)).Nodup := by
  have listed := uniquifyNames_listed F list
  have same : (uniquifyNames F list).map (displayName F) =
      (list.foldl (uniquifyRound F) []).map (·.1) := by
    rw [uniquifyNames, List.map_map]
    apply List.map_congr_left
    intro entry mem
    exact (listed.keys entry mem).symm
  rw [same]
  exact listed.distinct

theorem uniquifyNames_origin {list : List (AbstractBean C)} {n : AbstractBean C}
    (h : n ∈ uniquifyNames F list) : ∃ proxy ∈ list, ∃ name, n = { proxy with name } := by
  obtain ⟨entry, mem, rfl⟩ := List.mem_map.mp h
  exact (uniquifyNames_listed F list).origin entry mem

/-- The loop ends, and the node is known by the name it ends with. -/
theorem uniquified_ends (m : List (String × AbstractBean C)) (proxy : AbstractBean C) :
    ∃ index, Fresh.Ends (containsKey m) (renamed (displayName F proxy)) 0 index ∧
      displayName F (uniquified F m proxy) = renamed (displayName F proxy) index := by
  have new := uniquified_new F m proxy
  rw [displayName_uniquified] at new
  exact ⟨_, Fresh.search_ends new, displayName_uniquified F m proxy⟩

theorem uniquifyNames_concat (list : List (AbstractBean C)) (proxy : AbstractBean C) :
    uniquifyNames F (list ++ [proxy]) =
      uniquifyNames F list ++ [uniquified F (list.foldl (uniquifyRound F) []) proxy] := by
  rw [uniquifyNames, List.foldl_concat, uniquifyRound, put_new (uniquified_new F _ proxy),
    List.map_append]
  rfl

theorem uniquifyNames_length (list : List (AbstractBean C)) :
    (uniquifyNames F list).length = list.length := by
  induction list using List.reverseRecOn with
  | nil => rfl
  | append_singleton list proxy ih =>
    rw [uniquifyNames_concat, List.length_append, List.length_append, ih]
    rfl

/-- A node whose name is not in the map is left as it is. -/
theorem uniquified_of_new {proxy : AbstractBean C}
    (new : containsKey m (displayName F proxy) = false) : uniquified F m proxy = proxy := by
  have first : Fresh.search (containsKey m) (renamed (displayName F proxy))
    (m.length + 1) 0 = 0 := by
    rw [Fresh.search]
    exact if_neg (by rw [renamed, new]; decide)
  rw [uniquified]
  simp only [first]

theorem uniquifyNames_renames (list : List (AbstractBean C)) :
    List.Forall₂ (fun proxy node => ∃ name, node = { proxy with name }) list
      (uniquifyNames F list) := by
  induction list using List.reverseRecOn with
  | nil => exact .nil
  | append_singleton list proxy ih =>
    rw [uniquifyNames_concat]
    exact List.rel_append ih (.cons (uniquified_renames F _ proxy) .nil)

theorem uniquifyNames_keeps {list : List (AbstractBean C)} {i : Nat} {proxy : AbstractBean C}
    (listed : list[i]? = some proxy)
    (new : ∀ node ∈ (uniquifyNames F list).take i, displayName F node ≠ displayName F proxy) :
    (uniquifyNames F list)[i]? = some proxy := by
  induction list using List.reverseRecOn with
  | nil => cases listed
  | append_singleton list last ih =>
    have length := uniquifyNames_length F list
    rw [uniquifyNames_concat] at new ⊢
    rcases Nat.lt_trichotomy i list.length with before | here | after
    · rw [List.getElem?_append_left before] at listed
      rw [List.take_append_of_le_length (by omega)] at new
      rw [List.getElem?_append_left (by omega)]
      exact ih listed new
    · subst here
      rw [List.getElem?_append_right (Nat.le_refl _), Nat.sub_self] at listed
      cases listed
      rw [← length, List.take_left' rfl] at new
      rw [← length, List.getElem?_append_right (Nat.le_refl _), Nat.sub_self]
      refine congrArg some (uniquified_of_new F ?_)
      rw [Bool.eq_false_iff, ne_eq, containsKey_iff]
      intro known
      obtain ⟨entry, mem, same⟩ := List.mem_map.mp known
      exact new entry.2 (List.mem_map_of_mem mem)
        (((uniquifyNames_listed F list).keys entry mem).symm.trans same)
    · rw [List.getElem?_eq_none (by simp; omega)] at listed
      cases listed

/-- The loop ends for every node, the result has the same nodes in the same order with
distinct names, and a node with a new name keeps it. -/
theorem uniquifyNames_loses_nothing (list : List (AbstractBean C)) :
    (∀ proxiesMap proxy, ∃ index,
      Fresh.Ends (containsKey proxiesMap) (renamed (displayName F proxy)) 0 index ∧
        displayName F (uniquified F proxiesMap proxy) = renamed (displayName F proxy) index) ∧
    List.Forall₂ (fun proxy node => ∃ name, node = { proxy with name }) list
      (uniquifyNames F list) ∧
    ((uniquifyNames F list).map (displayName F)).Nodup ∧
    ∀ i proxy, list[i]? = some proxy →
      (∀ node ∈ (uniquifyNames F list).take i, displayName F node ≠ displayName F proxy) →
        (uniquifyNames F list)[i]? = some proxy :=
  ⟨uniquified_ends F, uniquifyNames_renames F list, uniquifyNames_distinct F list,
    fun _ _ listed new => uniquifyNames_keeps F listed new⟩

theorem deduplicate_sublist (proxies : List (AbstractBean C)) :
    (deduplicate F proxies).uniqueProxies.Sublist proxies := by
  have general : ∀ (rest : List (AbstractBean C)) (d : Deduplication C)
      (seen : List (AbstractBean C)), d.uniqueProxies.Sublist seen →
      (rest.foldl (deduplicationRound F) d).uniqueProxies.Sublist (seen ++ rest) := by
    intro rest
    induction rest with
    | nil => intro d seen h; simpa using h
    | cons proxy rest ih =>
      intro d seen h
      rw [List.foldl_cons, List.append_cons]
      apply ih
      simp only [deduplicationRound]
      split
      · exact h.trans (List.sublist_append_left _ _)
      · exact h.append (List.Sublist.refl _)
  exact general proxies ⟨[], [], []⟩ [] (List.Sublist.refl _)

theorem finalNodes_distinct (sub : Settings C) (parsed : List (AbstractBean C)) :
    ((finalNodes F sub parsed).1.map (displayName F)).Nodup := by
  unfold finalNodes
  dsimp only
  split
  · split
    · exact (uniquifyNames_distinct F parsed).sublist ((deduplicate_sublist F _).map _)
    · exact uniquifyNames_distinct F parsed
  · exact uniquifyNames_distinct F _

/-- Without lookups every node is a parsed one, perhaps under another name. -/
theorem finalNodes_origin {sub : Settings C} {parsed : List (AbstractBean C)}
    (off : sub.forceResolve = none) {n : AbstractBean C} (h : n ∈ (finalNodes F sub parsed).1) :
    ∃ proxy ∈ parsed, ∃ name, n = { proxy with name } := by
  simp only [finalNodes, off] at h
  apply uniquifyNames_origin F
  split at h
  · exact (deduplicate_sublist F _).subset h
  · exact h

end QuinMo.Subscription
