import Mathlib.Data.List.Nodup
import Mathlib.Data.List.Perm.Basic
import QuinMo.Lib.Outcome

/-!
# Tables with a key column

A table is a list of rows, in the order of insertion, no two of which have one key.
-/

namespace QuinMo

section
variable {α β : Type} [DecidableEq β]

/-- Keep, of all elements with one key, the first. -/
def distinctBy (key : α → β) : List α → List α
  | [] => []
  | a :: as => a :: (distinctBy key as).filter (key · ≠ key a)

theorem mem_of_distinctBy {key : α → β} {as : List α} {a : α} (h : a ∈ distinctBy key as) :
    a ∈ as := by
  induction as with
  | nil => exact h
  | cons b bs ih =>
    rcases List.mem_cons.mp h with rfl | h
    · exact List.mem_cons_self
    · exact List.mem_cons_of_mem b (ih (List.mem_filter.mp h).1)

theorem distinctBy_keys (key : α → β) (as : List α) (k : β) :
    k ∈ (distinctBy key as).map key ↔ k ∈ as.map key := by
  induction as with
  | nil => rfl
  | cons a as ih =>
    simp only [distinctBy, List.map_cons, List.mem_cons]
    by_cases e : k = key a
    · simp [e]
    · simp only [e, false_or, ← ih, List.mem_map, List.mem_filter, decide_eq_true_eq]
      constructor
      · rintro ⟨x, ⟨hx, _⟩, rfl⟩
        exact ⟨x, hx, rfl⟩
      · rintro ⟨x, hx, rfl⟩
        exact ⟨x, ⟨hx, e⟩, rfl⟩

/-- Nothing is dropped where the key tells all elements apart. -/
theorem mem_distinctBy {key : α → β} {as : List α} {a : α}
    (inj : ∀ x ∈ as, ∀ y ∈ as, key x = key y → x = y) : a ∈ distinctBy key as ↔ a ∈ as := by
  refine ⟨mem_of_distinctBy, ?_⟩
  intro h
  have listed : key a ∈ (distinctBy key as).map key :=
    (distinctBy_keys key as (key a)).mpr (List.mem_map_of_mem h)
  obtain ⟨x, hx, same⟩ := List.mem_map.mp listed
  exact inj x (mem_of_distinctBy hx) a h same ▸ hx

end

/-- A list has no repetition when neither of two parts of it has one. -/
theorem nodup_iff_filter {α : Type} (p : α → Bool) (l : List α) :
    l.Nodup ↔ (l.filter p).Nodup ∧ (l.filter (!p ·)).Nodup := by
  constructor
  · intro h
    exact ⟨h.filter _, h.filter _⟩
  · rintro ⟨yes, no⟩
    refine (List.filter_append_perm p l).nodup_iff.mp (List.Nodup.append yes no ?_)
    intro a ha hb
    simp only [List.mem_filter, Bool.not_eq_true'] at ha hb
    simp [ha.2] at hb

/-- A sorted list is determined by its elements where no two of them compare equal. -/
theorem eq_of_sorted {α : Type} {key : α → Int} {l m : List α} (distinct : l.Nodup)
    (sorted : l.Pairwise (key · ≤ key ·)) (strict : (m.map key).Pairwise (· < ·))
    (same : ∀ a, a ∈ l ↔ a ∈ m) : l = m := by
  have apart : (m.map key).Nodup := strict.imp fun lt => Int.ne_of_lt lt
  have perm : l.Perm m := (List.perm_ext_iff_of_nodup distinct (apart.of_map key)).mpr same
  apply perm.eq_of_pairwise ?_ sorted ((List.pairwise_map.mp strict).imp Int.le_of_lt)
  intro a b ha hb le ge
  exact List.inj_on_of_nodup_map apart ((same a).mp ha) hb (Int.le_antisymm le ge)

variable {R : Type} {key : R → Int}

structure Table (R : Type) (key : R → Int) where
  rows : List R
  unique : (rows.map key).Nodup

namespace Table

def empty : Table R key := ⟨[], List.nodup_nil⟩

def get (t : Table R key) (k : Int) : Option R := t.rows.find? (key · == k)

theorem key_inj (t : Table R key) {r q : R} (hr : r ∈ t.rows) (hq : q ∈ t.rows)
    (same : key r = key q) : r = q :=
  List.inj_on_of_nodup_map t.unique hr hq same

theorem get_eq_some {t : Table R key} {k : Int} {r : R} :
    t.get k = some r ↔ r ∈ t.rows ∧ key r = k := by
  constructor
  · intro h
    exact ⟨List.mem_of_find?_eq_some h, by simpa using List.find?_some h⟩
  · rintro ⟨hr, rfl⟩
    cases hf : t.get (key r) with
    | none => simpa using List.find?_eq_none.mp hf r hr
    | some q =>
      have hq := List.mem_of_find?_eq_some hf
      have same : key q = key r := by simpa using List.find?_some hf
      rw [t.key_inj hq hr same]

theorem get_key {t : Table R key} {r : R} (hr : r ∈ t.rows) : t.get (key r) = some r :=
  get_eq_some.mpr ⟨hr, rfl⟩

theorem rows_nodup (t : Table R key) : t.rows.Nodup := t.unique.of_map key

/-- Change the row under `k`, which keeps its key. -/
def modify (t : Table R key) (k : Int) (f : R → R) (keeps : ∀ r, key r = k → key (f r) = k) :
    Table R key where
  rows := t.rows.map fun r => if key r = k then f r else r
  unique := by
    have same : (t.rows.map fun r => if key r = k then f r else r).map key = t.rows.map key := by
      rw [List.map_map]
      apply List.map_congr_left
      intro r _
      simp only [Function.comp_apply]
      split
      · rename_i hk
        rw [keeps r hk, hk]
      · rfl
    rw [same]
    exact t.unique

/-- Delete the rows whose key satisfies `gone`. -/
def delete (t : Table R key) (gone : Int → Bool) : Table R key where
  rows := t.rows.filter fun r => !gone (key r)
  unique := t.unique.sublist (List.filter_sublist.map key)

/-- Change all rows, which keep their keys. -/
def map (t : Table R key) (f : R → R) (keeps : ∀ r, key (f r) = key r) : Table R key where
  rows := t.rows.map f
  unique := by
    rw [List.map_map, show key ∘ f = key from funext keeps]
    exact t.unique

/-- Append a row with a key that no row has. -/
def add (t : Table R key) (r : R) (new : key r ∉ t.rows.map key) : Table R key where
  rows := t.rows ++ [r]
  unique := by
    rw [List.map_append, List.map_singleton]
    apply List.Nodup.append t.unique (List.nodup_singleton _)
    intro k hk hr
    rw [List.mem_singleton] at hr
    exact new (hr ▸ hk)

theorem get_modify (t : Table R key) (k : Int) (f : R → R) (keeps : ∀ r, key r = k → key (f r) = k)
    (j : Int) : (t.modify k f keeps).get j = if j = k then (t.get j).map f else t.get j := by
  apply Option.ext
  intro r
  rw [get_eq_some]
  simp only [modify, List.mem_map]
  constructor
  · rintro ⟨⟨q, hq, rfl⟩, hj⟩
    split at hj
    · rename_i hk
      rw [keeps q hk] at hj
      subst hj
      rw [if_pos rfl, if_pos hk, ← hk, get_key hq]
      rfl
    · rename_i hk
      rw [if_neg (by rw [← hj]; exact hk), if_neg hk, ← hj, get_key hq]
  · split
    · rename_i same
      subst same
      intro found
      obtain ⟨q, hq, rfl⟩ := Option.map_eq_some_iff.mp found
      obtain ⟨mem, hj⟩ := get_eq_some.mp hq
      exact ⟨⟨q, mem, by rw [if_pos hj]⟩, keeps q hj⟩
    · rename_i other
      intro found
      obtain ⟨mem, hj⟩ := get_eq_some.mp found
      exact ⟨⟨r, mem, by rw [if_neg (by rw [hj]; exact other)]⟩, hj⟩

theorem get_delete (t : Table R key) (gone : Int → Bool) (j : Int) :
    (t.delete gone).get j = if gone j then none else t.get j := by
  apply Option.ext
  intro r
  rw [get_eq_some]
  simp only [delete, List.mem_filter, Bool.not_eq_true']
  constructor
  · rintro ⟨⟨mem, stays⟩, rfl⟩
    simp [stays, get_key mem]
  · intro found
    split at found
    · cases found
    · rename_i stays
      obtain ⟨mem, rfl⟩ := get_eq_some.mp found
      exact ⟨⟨mem, by simpa using stays⟩, rfl⟩

theorem get_map (t : Table R key) (f : R → R) (keeps : ∀ r, key (f r) = key r) (j : Int) :
    (t.map f keeps).get j = (t.get j).map f := by
  have same : (fun r => key r == j) ∘ f = fun r => key r == j := by
    funext r
    rw [Function.comp_apply, keeps]
  rw [get, map, List.find?_map, same]
  rfl

end Table

/-! ## Tables that number their rows -/

/-- A table that remembers the highest key there ever was; a new row gets the next one. -/
structure Numbered (R : Type) (key : R → Int) extends Table R key where
  sequence : Int
  bounded : ∀ r ∈ rows, key r ≤ sequence

namespace Numbered

def empty : Numbered R key := ⟨.empty, 0, List.forall_mem_nil _⟩

theorem next_new (t : Numbered R key) : t.sequence + 1 ∉ t.rows.map key := by
  intro listed
  obtain ⟨r, mem, same⟩ := List.mem_map.mp listed
  have := t.bounded r mem
  omega

/-- Append a row under a key that no row has. -/
def place (t : Numbered R key) (r : R) (new : key r ∉ t.rows.map key) : Numbered R key where
  toTable := t.toTable.add r new
  sequence := max t.sequence (key r)
  bounded := by
    intro q hq
    rcases List.mem_append.mp hq with old | last
    · have := t.bounded q old
      omega
    · rw [List.mem_singleton.mp last]
      omega

def modify (t : Numbered R key) (k : Int) (f : R → R) (keeps : ∀ r, key r = k → key (f r) = k) :
    Numbered R key where
  toTable := t.toTable.modify k f keeps
  sequence := t.sequence
  bounded := by
    intro q hq
    obtain ⟨r, mem, rfl⟩ := List.mem_map.mp hq
    split
    · rename_i hk
      rw [keeps r hk, ← hk]
      exact t.bounded r mem
    · exact t.bounded r mem

def delete (t : Numbered R key) (gone : Int → Bool) : Numbered R key where
  toTable := t.toTable.delete gone
  sequence := t.sequence
  bounded := fun r hr => t.bounded r (List.mem_of_mem_filter hr)

def map (t : Numbered R key) (f : R → R) (keeps : ∀ r, key (f r) = key r) : Numbered R key where
  toTable := t.toTable.map f keeps
  sequence := t.sequence
  bounded := by
    intro q hq
    obtain ⟨r, mem, rfl⟩ := List.mem_map.mp hq
    rw [keeps]
    exact t.bounded r mem

/-- Insert a record with its own key, or with the next number if its key is 0. -/
def insert (t : Numbered R key) (setKey : R → Int → R) (sets : ∀ r k, key (setKey r k) = k) (r : R) :
    Except String (Numbered R key) :=
  if key r = 0 then .ok (t.place (setKey r (t.sequence + 1)) (by rw [sets]; exact t.next_new))
  else if new : key r ∉ t.rows.map key then .ok (t.place r new)
  else .error "UNIQUE constraint failed"

/-- The keys under which records with these keys are inserted. -/
def givenKeys : Int → List Int → List Int
  | _, [] => []
  | sequence, k :: ks =>
    let given := if k = 0 then sequence + 1 else k
    given :: givenKeys (max sequence given) ks

def insertAll (t : Numbered R key) (setKey : R → Int → R) (sets : ∀ r k, key (setKey r k) = k)
    (rs : List R) : Except String (Numbered R key) :=
  Outcome.forEach (fun t r => t.insert setKey sets r) rs t

/-- The records as they are inserted. -/
def givenRows (key : R → Int) (setKey : R → Int → R) : Int → List R → List R
  | _, [] => []
  | sequence, r :: rs =>
    let given := if key r = 0 then setKey r (sequence + 1) else r
    given :: givenRows key setKey (max sequence (key given)) rs

variable {t : Numbered R key} {setKey : R → Int → R} {rs : List R} {t' : Numbered R key}

theorem insert_rows
    {sets : ∀ r k, key (setKey r k) = k} {r : R} (ok : t.insert setKey sets r = .ok t') :
    let given := if key r = 0 then setKey r (t.sequence + 1) else r
    t'.rows = t.rows ++ [given] ∧ t'.sequence = max t.sequence (key given) := by
  unfold insert at ok
  split at ok
  · rename_i zero
    cases ok
    simp [place, Table.add, zero]
  · rename_i own
    split at ok
    · cases ok
      simp [place, Table.add, own]
    · cases ok

theorem insertAll_rows
    {sets : ∀ r k, key (setKey r k) = k} (ok : t.insertAll setKey sets rs = .ok t') :
    t'.rows = t.rows ++ givenRows key setKey t.sequence rs := by
  induction rs generalizing t with
  | nil =>
    cases ok
    simp [givenRows]
  | cons r rs ih =>
    simp only [insertAll, Outcome.forEach, Outcome.bind_ok] at ok
    obtain ⟨u, first, rest⟩ := ok
    obtain ⟨rows, sequence⟩ := insert_rows first
    rw [ih rest, rows, sequence, List.append_assoc, givenRows]
    rfl

theorem givenRows_keys (sets : ∀ r k, key (setKey r k) = k) (sequence : Int) (rs : List R) :
    (givenRows key setKey sequence rs).map key = givenKeys sequence (rs.map key) := by
  induction rs generalizing sequence with
  | nil => rfl
  | cons r rs ih =>
    have given : key (if key r = 0 then setKey r (sequence + 1) else r) =
        if key r = 0 then sequence + 1 else key r := by
      split
      · exact sets r _
      · rfl
    simp only [givenRows, givenKeys, List.map_cons, ih, given]

theorem insertAll_keys
    {sets : ∀ r k, key (setKey r k) = k} (ok : t.insertAll setKey sets rs = .ok t') :
    t'.rows.map key = t.rows.map key ++ givenKeys t.sequence (rs.map key) := by
  rw [insertAll_rows ok, List.map_append, givenRows_keys sets]

theorem insertAll_sequence {sets : ∀ r k, key (setKey r k) = k}
    (ok : t.insertAll setKey sets rs = .ok t') : t.sequence ≤ t'.sequence := by
  refine Outcome.forEach_keeps (t.sequence ≤ ·.sequence) ?_ (Int.le_refl _) ok
  intro u r u' below first
  have step := (insert_rows first).2
  omega

/-- Records with keys of their own are inserted as they are. -/
theorem givenRows_own (own : ∀ r ∈ rs, key r ≠ 0)
    (sequence : Int) : givenRows key setKey sequence rs = rs := by
  induction rs generalizing sequence with
  | nil => rfl
  | cons r rs ih =>
    rw [givenRows, ih fun r hr => own r (List.mem_cons_of_mem _ hr),
      if_neg (own r List.mem_cons_self)]

/-- Records with distinct new keys are inserted without a failure. -/
theorem insertAll_distinct (setKey : R → Int → R)
    (sets : ∀ r k, key (setKey r k) = k) (own : ∀ r ∈ rs, key r ≠ 0)
    (distinct : ((t.rows ++ rs).map key).Nodup) : ∃ t', t.insertAll setKey sets rs = .ok t' := by
  induction rs generalizing t with
  | nil => exact ⟨t, rfl⟩
  | cons r rs ih =>
    have new : key r ∉ t.rows.map key := by
      intro listed
      rw [List.map_append, List.map_cons] at distinct
      exact (List.disjoint_of_nodup_append distinct) listed List.mem_cons_self
    have first : t.insert setKey sets r = .ok (t.place r new) := by
      rw [insert, if_neg (own r List.mem_cons_self), dif_pos new]
    obtain ⟨t', rest⟩ := ih (t := t.place r new) (fun r hr => own r (List.mem_cons_of_mem _ hr))
      (by simpa [place, Table.add] using distinct)
    refine ⟨t', ?_⟩
    simp only [insertAll, Outcome.forEach, Outcome.bind_ok]
    exact ⟨t.place r new, first, rest⟩

/-- Records that replace all rows of a table. -/
theorem delete_insertAll_rows {sets : ∀ r k, key (setKey r k) = k}
    (ok : (t.delete fun _ => true).insertAll setKey sets rs = .ok t') :
    t'.rows = givenRows key setKey t.sequence rs ∧ t.sequence ≤ t'.sequence := by
  have sequence := insertAll_sequence ok
  refine ⟨?_, sequence⟩
  rw [insertAll_rows ok]
  simp [delete, Table.delete]

theorem delete_insertAll_own (t : Numbered R key) (setKey : R → Int → R)
    (sets : ∀ r k, key (setKey r k) = k) (own : ∀ r ∈ rs, key r ≠ 0)
      (distinct : (rs.map key).Nodup) :
    ∃ t', (t.delete fun _ => true).insertAll setKey sets rs = .ok t' ∧ t'.rows = rs := by
  have inserted := insertAll_distinct (t := t.delete fun _ => true) setKey sets own
    (by simpa [delete, Table.delete] using distinct)
  obtain ⟨t', ok⟩ := inserted
  refine ⟨t', ok, ?_⟩
  rw [(delete_insertAll_rows ok).1, givenRows_own own]

/-- No row has the key 0, which stands for a record without a key, and none will get it. -/
structure Assigned (t : Numbered R key) : Prop where
  sequence : 0 ≤ t.sequence
  keys : ∀ r ∈ t.rows, key r ≠ 0

theorem Assigned.place (h : t.Assigned) {r : R}
    (new : key r ∉ t.rows.map key) (own : key r ≠ 0) : (t.place r new).Assigned := by
  refine ⟨Int.le_trans h.sequence (Int.le_max_left _ _), ?_⟩
  intro q listed
  rcases List.mem_append.mp listed with old | last
  · exact h.keys q old
  · rwa [List.mem_singleton.mp last]

theorem Assigned.delete (h : t.Assigned) (gone : Int → Bool) : (t.delete gone).Assigned :=
  ⟨h.sequence, fun r hr => h.keys r (List.mem_of_mem_filter hr)⟩

theorem Assigned.insert {sets : ∀ r k, key (setKey r k) = k} {r : R} (h : t.Assigned)
    (ok : t.insert setKey sets r = .ok t') : t'.Assigned := by
  have sequence := h.sequence
  unfold Numbered.insert at ok
  split at ok
  · cases ok
    refine h.place _ ?_
    rw [sets]
    omega
  · rename_i own
    split at ok
    · cases ok
      exact h.place _ own
    · cases ok

theorem Assigned.insertAll {sets : ∀ r k, key (setKey r k) = k} (h : t.Assigned)
    (ok : t.insertAll setKey sets rs = .ok t') : t'.Assigned :=
  Outcome.forEach_keeps _ (fun _ _ _ assigned first => assigned.insert first) h ok

/-- What does not depend on the key is as it was given. -/
theorem givenRows_map {α : Type} {f : R → α} (same : ∀ r k, f (setKey r k) = f r) (sequence : Int)
    (rs : List R) : (givenRows key setKey sequence rs).map f = rs.map f := by
  induction rs generalizing sequence with
  | nil => rfl
  | cons r rs ih =>
    rw [givenRows, List.map_cons, List.map_cons, ih]
    congr 1
    split
    · exact same r _
    · rfl

theorem get_isSome (t : Numbered R key) (k : Int) : (t.get k).isSome ↔ k ∈ t.rows.map key := by
  rw [Option.isSome_iff_exists, List.mem_map]
  constructor
  · rintro ⟨r, found⟩
    exact ⟨r, Table.get_eq_some.mp found⟩
  · rintro ⟨r, mem, rfl⟩
    exact ⟨r, Table.get_key mem⟩

end Numbered

section
variable {S α : Type} {look : S → Int → Option R} {step : S → α → S} {k : α → Int} {f : α → R → R}
  (writes : ∀ s a j, look (step s a) j = if j = k a then (look s j).map (f a) else look s j)

include writes

theorem look_foldl_of_not_mem {as : List α} {j : Int} (h : j ∉ as.map k) (s : S) :
    look (as.foldl step s) j = look s j := by
  induction as generalizing s with
  | nil => rfl
  | cons a as ih =>
    simp only [List.map_cons, List.mem_cons, not_or] at h
    rw [List.foldl_cons, ih h.2, writes, if_neg h.1]

/-- Where no row is written twice, each one becomes what its round makes of it. -/
theorem look_foldl_of_mem {as : List α} {a : α} (ha : a ∈ as) (once : (as.map k).Nodup) (s : S) :
    look (as.foldl step s) (k a) = (look s (k a)).map (f a) := by
  induction as generalizing s with
  | nil => cases ha
  | cons b as ih =>
    simp only [List.map_cons, List.nodup_cons] at once
    rw [List.foldl_cons]
    rcases List.mem_cons.mp ha with rfl | ha
    · rw [look_foldl_of_not_mem writes once.1, writes, if_pos rfl]
    · have other : k a ≠ k b := fun same => once.1 (same ▸ List.mem_map_of_mem ha)
      rw [ih ha once.2, writes, if_neg other]

/-- Such a loop neither adds nor removes rows. -/
theorem look_foldl_isSome (as : List α) (s : S) (j : Int) :
    (look (as.foldl step s) j).isSome = (look s j).isSome := by
  induction as generalizing s with
  | nil => rfl
  | cons a as ih =>
    rw [List.foldl_cons, ih, writes]
    split
    · simp
    · rfl

end

end QuinMo
