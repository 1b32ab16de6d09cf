import Mathlib.Data.List.Nodup

/-!
# Keyed tables and the row versions of open transactions

A table holds rows with distinct keys. Reading a row by its key (`find`)
describes the table completely, and every operation below has an equation for
`find`, so that no later proof looks at the list of rows.

A transaction that is still open keeps the new versions of the rows it has
written, newest first. It reads the table with these versions in place of the
committed rows (`view`), it owns the keys it has written until it ends
(`owns`), and its commit makes the view the table. This is how a transaction
of the READ COMMITTED level sees a table: every statement reads the latest
committed rows and the transaction's own writes.
-/

set_option autoImplicit false

namespace Sql

/-- A table: rows with distinct keys. -/
structure Table {ρ κ : Type} (key : ρ → κ) where
  rows : List ρ
  unique : (rows.map key).Nodup

namespace Table

variable {ρ κ : Type} {key : ρ → κ}

def empty : Table key := ⟨[], List.nodup_nil⟩

/-- `UPDATE` of every row, by a function that does not change the key. -/
def modify (T : Table key) (f : ρ → ρ) (keeps : ∀ r, key (f r) = key r) : Table key where
  rows := T.rows.map f
  unique := by
    have same : (T.rows.map f).map key = T.rows.map key := by
      rw [List.map_map]
      exact List.map_congr_left fun r _ => keeps r
    rw [same]
    exact T.unique

/-- `DELETE` of the rows that satisfy the condition. -/
def delete (T : Table key) (condition : ρ → Bool) : Table key where
  rows := T.rows.filter fun r => !condition r
  unique := T.unique.sublist (List.filter_sublist.map key)

variable [DecidableEq κ]

/-- The row with the given key. -/
def find (T : Table key) (k : κ) : Option ρ := T.rows.find? fun r => decide (key r = k)

/-- `INSERT`, refused when the key is taken. -/
def insert? (T : Table key) (row : ρ) : Option (Table key) :=
  if taken : key row ∈ T.rows.map key then none
  else some {
    rows := T.rows ++ [row]
    unique := by
      rw [List.map_append, List.map_singleton]
      exact T.unique.append (List.nodup_singleton _) (List.disjoint_singleton.mpr taken) }

/-- `UPDATE ... WHERE`. -/
def update (T : Table key) (condition : ρ → Bool) (f : ρ → ρ) (keeps : ∀ r, key (f r) = key r) :
    Table key :=
  T.modify (fun r => if condition r then f r else r) fun r => by
    by_cases holds : condition r = true <;> simp [holds, keeps]

/-! ## Reading by key -/

theorem find_eq_some {T : Table key} {k : κ} {row : ρ} :
    T.find k = some row ↔ row ∈ T.rows ∧ key row = k := by
  constructor
  · intro found
    exact ⟨List.mem_of_find?_eq_some found, by simpa using List.find?_some found⟩
  · rintro ⟨member, rfl⟩
    have some : (T.find (key row)).isSome := by
      rw [find, List.find?_isSome]
      exact ⟨row, member, by simp⟩
    obtain ⟨other, found⟩ := Option.isSome_iff_exists.mp some
    have same : other = row :=
      List.inj_on_of_nodup_map T.unique (List.mem_of_find?_eq_some found) member
        (by simpa using List.find?_some found)
    exact same ▸ found

theorem find_eq_none {T : Table key} {k : κ} : T.find k = none ↔ k ∉ T.rows.map key := by
  simp only [find, List.find?_eq_none, List.mem_map, not_exists, not_and, decide_eq_true_eq]

theorem key_of_find {T : Table key} {k : κ} {row : ρ} (found : T.find k = some row) :
    key row = k :=
  (find_eq_some.mp found).2

theorem find_of_mem {T : Table key} {row : ρ} (member : row ∈ T.rows) :
    T.find (key row) = some row :=
  find_eq_some.mpr ⟨member, rfl⟩

@[simp] theorem find_empty (k : κ) : (empty : Table key).find k = none := rfl

theorem find_modify (T : Table key) {f : ρ → ρ} (keeps : ∀ r, key (f r) = key r) (k : κ) :
    (T.modify f keeps).find k = (T.find k).map f := by
  simp only [find, modify, List.find?_map, Function.comp_def, keeps]

theorem find_update (T : Table key) (condition : ρ → Bool) {f : ρ → ρ}
    (keeps : ∀ r, key (f r) = key r) (k : κ) :
    (T.update condition f keeps).find k =
      (T.find k).map fun r => if condition r then f r else r :=
  find_modify T _ k

theorem find_delete (T : Table key) (condition : ρ → Bool) (k : κ) :
    (T.delete condition).find k = (T.find k).filter fun r => !condition r := by
  apply Option.ext
  intro row
  rw [Option.filter_eq_some_iff, find_eq_some, find_eq_some, delete, List.mem_filter]
  tauto

theorem find_insert? {T T' : Table key} {row : ρ} (inserted : T.insert? row = some T') (k : κ) :
    T'.find k = if key row = k then some row else T.find k := by
  unfold insert? at inserted
  split at inserted
  · cases inserted
  · rename_i taken
    cases inserted
    simp only [find, List.find?_append, List.find?_singleton]
    by_cases same : key row = k
    · subst same
      have absent : T.rows.find? (fun r => decide (key r = key row)) = none :=
        find_eq_none.mpr taken
      simp [absent]
    · simp [same]

theorem insert?_eq_none {T : Table key} {row : ρ} :
    T.insert? row = none ↔ (T.find (key row)).isSome := by
  rw [insert?, Option.isSome_iff_ne_none, ne_eq, find_eq_none, not_not]
  split <;> simp [*]

/-- `INSERT ... ON CONFLICT DO NOTHING` keeps the row that is there. -/
theorem find_getD_insert? (T : Table key) (row : ρ) (k : κ) :
    ((T.insert? row).getD T).find k = (T.find k).or (if key row = k then some row else none) := by
  cases inserted : T.insert? row with
  | none =>
      by_cases same : key row = k
      · subst same
        obtain ⟨found, there⟩ := Option.isSome_iff_exists.mp (insert?_eq_none.mp inserted)
        rw [Option.getD_none, there, Option.some_or]
      · rw [Option.getD_none, if_neg same, Option.or_none]
  | some T' =>
      rw [Option.getD_some, find_insert? inserted]
      by_cases same : key row = k
      · subst same
        have absent : T.find (key row) = none := by
          rw [← Option.not_isSome_iff_eq_none, ← insert?_eq_none, inserted]
          exact Option.some_ne_none _
        rw [if_pos rfl, if_pos rfl, absent, Option.none_or]
      · rw [if_neg same, if_neg same, Option.or_none]

theorem mem_getD_insert? {T : Table key} {new row : ρ}
    (member : row ∈ ((T.insert? new).getD T).rows) : row ∈ T.rows ∨ row = new := by
  have found := find_getD_insert? T new (key row)
  rw [find_of_mem member] at found
  obtain before | ⟨_, here⟩ := Option.or_eq_some_iff.mp found.symm
  · exact .inl (find_eq_some.mp before).1
  · exact .inr (Option.some.inj (Option.ite_none_right_eq_some.mp here).2).symm

/-- The row in place of the one with its key, if there is one: `m[k] = v` of a map. -/
def put (T : Table key) (row : ρ) : Table key where
  rows := T.rows.filter (fun r => !decide (key r = key row)) ++ [row]
  unique := by
    rw [List.map_append, List.map_singleton]
    refine (T.unique.sublist (List.filter_sublist.map key)).append (List.nodup_singleton _) ?_
    simp [List.disjoint_singleton]

theorem mem_put {T : Table key} {row r : ρ} :
    r ∈ (T.put row).rows ↔ (r ∈ T.rows ∧ key r ≠ key row) ∨ r = row := by
  simp [put]

theorem find_put (T : Table key) (row : ρ) (k : κ) :
    (T.put row).find k = if key row = k then some row else T.find k := by
  by_cases same : key row = k
  · rw [if_pos same]
    exact find_eq_some.mpr ⟨List.mem_append_right _ List.mem_cons_self, same⟩
  · rw [if_neg same]
    have kept := find_delete T (fun r => decide (key r = key row)) k
    simp only [find, delete] at kept
    simp only [find, put, List.find?_append, List.find?_singleton, same, decide_false, kept]
    cases found : T.rows.find? fun r => decide (key r = k) with
    | none => rfl
    | some r =>
        have hit : key r = k := by simpa using List.find?_some found
        simp [hit, Ne.symm same]

/-! ## Row versions -/

/-- The newest version of a row. -/
def latest (key : ρ → κ) (written : List ρ) (row : ρ) : ρ :=
  (written.find? fun r => decide (key r = key row)).getD row

theorem key_latest (key : ρ → κ) (written : List ρ) (row : ρ) :
    key (latest key written row) = key row := by
  unfold latest
  cases found : written.find? fun r => decide (key r = key row) with
  | none => rfl
  | some version => simpa using List.find?_some found

/-- The table as a transaction sees it that has written the given versions. -/
def view (T : Table key) (written : List ρ) : Table key :=
  T.modify (latest key written) (key_latest key written)

/-- The versions after an `UPDATE ... WHERE` inside the transaction. -/
def rewrite (T : Table key) (written : List ρ) (condition : ρ → Bool) (f : ρ → ρ) : List ρ :=
  ((T.view written).rows.filter condition).map f ++ written

/-- The transaction has written the row, and so holds its lock. -/
def owns (key : ρ → κ) (written : List ρ) (k : κ) : Bool :=
  written.any fun r => decide (key r = k)

@[simp] theorem owns_nil (k : κ) : owns key [] k = false := rfl

theorem owns_iff {written : List ρ} {k : κ} :
    owns key written k = true ↔ ∃ r ∈ written, key r = k := by
  simp [owns]

@[simp] theorem latest_nil (key : ρ → κ) (row : ρ) : latest key [] row = row := rfl

theorem latest_of_not_owns {written : List ρ} {row : ρ}
    (free : owns key written (key row) = false) :
    latest key written row = row := by
  have absent : written.find? (fun r => decide (key r = key row)) = none := by
    rw [List.find?_eq_none]
    intro r member holds
    have : owns key written (key row) = true := owns_iff.mpr ⟨r, member, by simpa using holds⟩
    rw [free] at this
    cases this
  rw [latest, absent, Option.getD_none]

/-- A row that the transaction owns is read in one of the versions written. -/
theorem latest_mem_of_owns {written : List ρ} {row : ρ}
    (held : owns key written (key row) = true) :
    latest key written row ∈ written := by
  obtain ⟨r, member, same⟩ := owns_iff.mp held
  have some : (written.find? fun r => decide (key r = key row)).isSome := by
    rw [List.find?_isSome]
    exact ⟨r, member, by simpa using same⟩
  obtain ⟨version, found⟩ := Option.isSome_iff_exists.mp some
  rw [latest, found, Option.getD_some]
  exact List.mem_of_find?_eq_some found

/-- A row of the table as a transaction sees it is stored, or written by the transaction. -/
theorem mem_view {T : Table key} {written : List ρ} {row : ρ} (member : row ∈ (T.view written).rows) :
    row ∈ T.rows ∨ row ∈ written := by
  obtain ⟨stored, among, rfl⟩ := List.mem_map.mp member
  by_cases held : owns key written (key stored) = true
  · exact .inr (latest_mem_of_owns held)
  · rw [latest_of_not_owns (by simpa using held)]
    exact .inl among

theorem find_view (T : Table key) (written : List ρ) (k : κ) :
    (T.view written).find k = (T.find k).map (latest key written) :=
  find_modify T _ k

@[simp] theorem view_nil (T : Table key) : T.view [] = T := by
  cases T with
  | mk rows unique =>
      simp only [view, modify, mk.injEq]
      exact List.map_id'' (fun row => latest_nil key row) rows

/-- What the transaction reads after an `UPDATE ... WHERE` of its own. -/
theorem find_view_rewrite (T : Table key) (written : List ρ) (condition : ρ → Bool) {f : ρ → ρ}
    (keeps : ∀ r, key (f r) = key r) (k : κ) :
    (T.view (T.rewrite written condition f)).find k =
      ((T.view written).find k).map fun r => if condition r then f r else r := by
  simp only [find_view, Option.map_map]
  cases found : T.find k with
  | none => rfl
  | some row =>
      simp only [Option.map_some, Function.comp_apply, Option.some.injEq]
      have seen : (T.view written).find k = some (latest key written row) := by
        rw [find_view, found, Option.map_some]
      have rowKey : key row = k := key_of_find found
      rw [latest, rewrite, List.find?_append, List.find?_map]
      by_cases holds : condition (latest key written row) = true
      · rw [if_pos holds]
        have first : ((T.view written).rows.filter condition).find?
            ((fun r => decide (key r = key row)) ∘ f) = some (latest key written row) := by
          have only : (T.view written).delete (fun r => !condition r) =
              ⟨(T.view written).rows.filter condition,
                (T.view written).unique.sublist (List.filter_sublist.map key)⟩ := by
            simp [delete]
          have here := find_delete (T.view written) (fun r => !condition r) k
          rw [only, seen] at here
          simpa [find, Function.comp_def, keeps, rowKey, holds, Option.filter] using here
        rw [first]
        rfl
      · rw [if_neg holds]
        have absent : ((T.view written).rows.filter condition).find?
            ((fun r => decide (key r = key row)) ∘ f) = none := by
          rw [List.find?_eq_none]
          intro r member same
          rw [List.mem_filter] at member
          have sameKey : key r = k := by
            simpa [Function.comp_apply, keeps, rowKey] using same
          have same' : r = latest key written row := by
            have := find_eq_some.mpr ⟨member.1, sameKey⟩
            rw [seen, Option.some.injEq] at this
            exact this.symm
          exact holds (same' ▸ member.2)
        rw [absent]
        rfl

omit [DecidableEq κ] in
/-- Tables with the same rows are the same. -/
theorem ext_rows {T T' : Table key} (same : T.rows = T'.rows) : T = T' := by
  cases T
  cases T'
  cases same
  rfl

omit [DecidableEq κ] in
/-- An `UPDATE` is determined by what it does to the rows it hits. -/
theorem update_congr {T : Table key} {condition : ρ → Bool} {f g : ρ → ρ}
    (keeps : ∀ r, key (f r) = key r) (keeps' : ∀ r, key (g r) = key r)
    (same : ∀ r ∈ T.rows, condition r = true → f r = g r) :
    T.update condition f keeps = T.update condition g keeps' := by
  apply ext_rows
  apply List.map_congr_left
  intro r member
  by_cases hit : condition r = true
  · rw [if_pos hit, if_pos hit, same r member hit]
  · rw [if_neg hit, if_neg hit]

omit [DecidableEq κ] in
/-- Two `UPDATE`s of the same rows are one. -/
theorem update_update {T : Table key} {condition : ρ → Bool} {f g : ρ → ρ}
    (keeps : ∀ r, key (f r) = key r) (keeps' : ∀ r, key (g r) = key r)
    (stays : ∀ r, condition (f r) = condition r) :
    (T.update condition f keeps).update condition g keeps' =
      T.update condition (fun r => g (f r)) fun r => (keeps' (f r)).trans (keeps r) := by
  apply ext_rows
  simp only [update, modify, List.map_map]
  apply List.map_congr_left
  intro r _
  by_cases hit : condition r = true
  · simp only [Function.comp_apply, hit, if_true, stays]
  · simp only [Function.comp_apply, hit, if_false, Bool.false_eq_true]

/-- An `UPDATE` inside a transaction updates the table as the transaction sees it. -/
theorem view_rewrite (T : Table key) (written : List ρ) (condition : ρ → Bool) {f : ρ → ρ}
    (keeps : ∀ r, key (f r) = key r) :
    T.view (T.rewrite written condition f) = (T.view written).update condition f keeps := by
  apply ext_rows
  simp only [view, update, modify, List.map_map]
  apply List.map_congr_left
  intro row member
  have seen := find_view_rewrite T written condition keeps (key row)
  rw [find_view, find_view, find_of_mem member] at seen
  exact Option.some.inj seen

/-- The versions after an `UPDATE` of one row. -/
theorem find?_rewrite (T : Table key) (written : List ρ) (k k' : κ) {f : ρ → ρ}
    (keeps : ∀ r, key (f r) = key r) :
    (T.rewrite written (fun r => decide (key r = k)) f).find? (fun r => decide (key r = k')) =
      (if k' = k then ((T.view written).find k).map f else none).or
        (written.find? fun r => decide (key r = k')) := by
  rw [rewrite, List.find?_append, List.find?_map, List.find?_filter]
  congr 1
  simp only [Function.comp_def, keeps]
  by_cases same : k' = k
  · subst same
    simp only [and_self, if_pos, find, decide_eq_true_eq]
  · rw [if_neg same, Option.map_eq_none_iff, List.find?_eq_none]
    intro r _ holds
    simp only [decide_eq_true_eq] at holds
    exact same (holds.2.symm.trans holds.1)

/-- An `UPDATE ... WHERE` adds the locks of the rows it hits. -/
theorem owns_rewrite (T : Table key) (written : List ρ) (condition : ρ → Bool) {f : ρ → ρ}
    (keeps : ∀ r, key (f r) = key r) (k : κ) :
    owns key (T.rewrite written condition f) k = true ↔
      (∃ r, (T.view written).find k = some r ∧ condition r = true) ∨
        owns key written k = true := by
  simp only [rewrite, owns, List.any_append, Bool.or_eq_true, List.any_map, List.any_eq_true,
    List.mem_filter, Function.comp_apply, keeps, decide_eq_true_eq, find_eq_some]
  constructor
  · rintro (⟨r, ⟨member, holds⟩, same⟩ | held)
    · exact Or.inl ⟨r, ⟨member, same⟩, holds⟩
    · exact Or.inr held
  · rintro (⟨r, ⟨member, same⟩, holds⟩ | held)
    · exact Or.inl ⟨r, ⟨member, holds⟩, same⟩
    · exact Or.inr held

end Table

end Sql
