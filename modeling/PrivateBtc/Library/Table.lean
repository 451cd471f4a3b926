/- PrivateBtc/Library/Table
   digest: Tables of rows that all pass a check and of which no two clash on a key. -/

import Mathlib.Data.List.Pairwise
import Mathlib.Tactic.SplitIfs

set_option autoImplicit false
set_option relaxedAutoImplicit false

namespace PrivateBtc.Library

universe u

/-- The constraints of a table: one on each row, one on each pair of rows. -/
structure Schema (R : Type u) where
  check : R → Bool
  clash : R → R → Bool
  clash_symm : ∀ a b, clash a b = clash b a

structure Table {R : Type u} (schema : Schema R) where
  rows : List R
  checked : ∀ r ∈ rows, schema.check r = true
  distinct : rows.Pairwise fun a b => schema.clash a b = false

namespace Table

variable {R : Type u} {schema : Schema R}

def empty : Table schema := ⟨[], by simp, List.Pairwise.nil⟩

inductive Violation where
  | check
  | unique
  deriving DecidableEq

/-- The table with the given rows, unless they break a constraint; row checks come first. -/
def ofRows (schema : Schema R) (rows : List R) : Except Violation (Table schema) :=
  if checked : ∀ r ∈ rows, schema.check r = true then
    if distinct : rows.Pairwise fun a b => schema.clash a b = false then
      .ok ⟨rows, checked, distinct⟩
    else .error .unique
  else .error .check

def insert (table : Table schema) (row : R) : Except Violation (Table schema) :=
  ofRows schema (table.rows ++ [row])

def update (table : Table schema) (selected : R → Bool) (change : R → R) :
    Except Violation (Table schema) :=
  ofRows schema (table.rows.map fun r => if selected r then change r else r)

def find? (table : Table schema) (selected : R → Bool) : Option R := table.rows.find? selected

def filter (table : Table schema) (selected : R → Bool) : List R := table.rows.filter selected

/-- A change that leaves the constrained columns alone. -/
structure Keeps (schema : Schema R) (change : R → R) : Prop where
  check : ∀ r, schema.check (change r) = schema.check r
  clash : ∀ a b, schema.clash (change a) b = schema.clash a b

theorem Keeps.both {change : R → R} (keeps : Keeps schema change) (a b : R) :
    schema.clash (change a) (change b) = schema.clash a b := by
  rw [keeps.clash, schema.clash_symm, keeps.clash, schema.clash_symm]

theorem Keeps.where {change : R → R} (keeps : Keeps schema change) (selected : R → Bool) :
    Keeps schema fun r => if selected r then change r else r := by
  constructor
  · intro r
    split_ifs
    · exact keeps.check r
    · rfl
  · intro a b
    split_ifs
    · exact keeps.clash a b
    · rfl

/-- An update that needs no new check. -/
def modify (table : Table schema) (selected : R → Bool) (change : R → R)
    (keeps : Keeps schema change) : Table schema where
  rows := table.rows.map fun r => if selected r then change r else r
  checked := by
    intro r member
    obtain ⟨old, old_mem, rfl⟩ := List.mem_map.mp member
    rw [(keeps.where selected).check]
    exact table.checked old old_mem
  distinct := by
    rw [List.pairwise_map]
    refine table.distinct.imp ?_
    intro a b clear
    rw [(keeps.where selected).both]
    exact clear

theorem ofRows_some {rows : List R} {table : Table schema}
    (made : ofRows schema rows = .ok table) : table.rows = rows := by
  unfold ofRows at made
  split_ifs at made
  cases made
  rfl

theorem insert_rows {table table' : Table schema} {row : R}
    (inserted : table.insert row = .ok table') : table'.rows = table.rows ++ [row] :=
  ofRows_some inserted

theorem update_rows {table table' : Table schema} {selected : R → Bool} {change : R → R}
    (updated : table.update selected change = .ok table') :
    table'.rows = table.rows.map fun r => if selected r then change r else r :=
  ofRows_some updated

theorem ofRows_accepted_iff {rows : List R} :
    (∃ table, ofRows schema rows = .ok table) ↔
      (∀ r ∈ rows, schema.check r = true) ∧ rows.Pairwise fun a b => schema.clash a b = false := by
  constructor
  · rintro ⟨table, made⟩
    rw [← ofRows_some made]
    exact ⟨table.checked, table.distinct⟩
  · rintro ⟨checked, distinct⟩
    exact ⟨⟨rows, checked, distinct⟩, by rw [ofRows, dif_pos checked, dif_pos distinct]⟩

theorem insert_accepted_iff (table : Table schema) (row : R) :
    (∃ table', table.insert row = .ok table') ↔
      schema.check row = true ∧ ∀ r ∈ table.rows, schema.clash r row = false := by
  rw [insert, ofRows_accepted_iff, List.pairwise_append]
  constructor
  · rintro ⟨checked, -, -, clear⟩
    exact ⟨checked row (by simp), fun r member => clear r member row List.mem_cons_self⟩
  · rintro ⟨checked, clear⟩
    refine ⟨?_, table.distinct, List.pairwise_singleton _ _, ?_⟩
    · intro r member
      rcases List.mem_append.mp member with old | new
      · exact table.checked r old
      · rw [List.mem_singleton.mp new]
        exact checked
    · intro r member other here
      rw [List.mem_singleton.mp here]
      exact clear r member

/-- An update of one row is accepted when the new row fits between the others. -/
theorem update_accepted_iff (table : Table schema) {selected : R → Bool} {change : R → R} {v : R}
    (v_mem : v ∈ table.rows) (keyed : schema.clash v v = true)
    (only : ∀ r ∈ table.rows, selected r = true ↔ r = v) :
    (∃ table', table.update selected change = .ok table') ↔
      schema.check (change v) = true ∧
        ∀ r ∈ table.rows, r ≠ v → schema.clash r (change v) = false := by
  have chosen : (if selected v then change v else v) = change v := if_pos ((only v v_mem).mpr rfl)
  have passed : ∀ r ∈ table.rows, r ≠ v → (if selected r then change r else r) = r := by
    intro r member other
    exact if_neg fun hit => other ((only r member).mp hit)
  rw [update, ofRows_accepted_iff, List.pairwise_map]
  constructor
  · rintro ⟨checked, clear⟩
    refine ⟨?_, ?_⟩
    · rw [← chosen]
      exact checked _ (List.mem_map_of_mem v_mem)
    · intro r member other
      have symmetric : Std.Symm fun a b => schema.clash (if selected a then change a else a)
          (if selected b then change b else b) = false := by
        constructor
        intro a b apart
        rw [schema.clash_symm]
        exact apart
      have apart := clear.forall member v_mem other
      rwa [chosen, passed r member other] at apart
  · rintro ⟨checked, clear⟩
    constructor
    · intro r' member
      obtain ⟨r, old, rfl⟩ := List.mem_map.mp member
      by_cases here : r = v
      · rw [here, chosen]
        exact checked
      · rw [passed r old here]
        exact table.checked r old
    · refine table.distinct.imp_of_mem ?_
      intro a b a_mem b_mem apart
      by_cases left : a = v
      · by_cases right : b = v
        · rw [left, right, keyed] at apart
          cases apart
        · rw [left, chosen, passed b b_mem right, schema.clash_symm]
          exact clear b b_mem right
      · rw [passed a a_mem left]
        by_cases right : b = v
        · rw [right, chosen]
          exact clear a a_mem left
        · rw [passed b b_mem right]
          exact apart

theorem insert_clash {table table' : Table schema} {row : R}
    (inserted : table.insert row = .ok table') {other : R} (member : other ∈ table.rows) :
    schema.clash other row = false := by
  have distinct := table'.distinct
  rw [insert_rows inserted, List.pairwise_append] at distinct
  exact distinct.2.2 other member row List.mem_cons_self

/-- Two rows of one table that clash are the same row. -/
theorem eq_of_clash (table : Table schema) {a b : R} (a_mem : a ∈ table.rows)
    (b_mem : b ∈ table.rows) (same : schema.clash a b = true) : a = b := by
  by_contra apart
  have symmetric : Std.Symm fun x y => schema.clash x y = false := by
    constructor
    intro x y clear
    rw [schema.clash_symm]
    exact clear
  have clear := table.distinct.forall a_mem b_mem apart
  rw [same] at clear
  cases clear

theorem find?_some {table : Table schema} {selected : R → Bool} {row : R}
    (found : table.find? selected = some row) : row ∈ table.rows ∧ selected row = true :=
  ⟨List.mem_of_find?_eq_some found, List.find?_some found⟩

theorem find?_none {table : Table schema} {selected : R → Bool}
    (missing : table.find? selected = none) {row : R} (member : row ∈ table.rows) :
    selected row = false := by
  have absent := List.find?_eq_none.mp missing row member
  simpa using absent

/-- A key has one row: whoever looks for it finds that row. -/
theorem find?_of_mem {table : Table schema} {selected : R → Bool} {row : R}
    (member : row ∈ table.rows) (chosen : selected row = true)
    (key : ∀ a b, selected a = true → selected b = true → schema.clash a b = true) :
    table.find? selected = some row := by
  cases found : table.find? selected with
  | none =>
      rw [find?_none found member] at chosen
      cases chosen
  | some other =>
      obtain ⟨other_mem, other_chosen⟩ := find?_some found
      rw [table.eq_of_clash other_mem member (key _ _ other_chosen chosen)]

/-- A modification that a search does not see moves to the row found. -/
theorem find?_modify (table : Table schema) (selected wanted : R → Bool) (change : R → R)
    (keeps : Keeps schema change) (unseen : ∀ r, wanted (change r) = wanted r) :
    (table.modify selected change keeps).find? wanted =
      (table.find? wanted).map fun r => if selected r then change r else r := by
  have blind : (wanted ∘ fun r => if selected r then change r else r) = wanted := by
    funext r
    rw [Function.comp_apply]
    split_ifs
    · exact unseen r
    · rfl
  rw [find?, modify, List.find?_map, blind]
  rfl

end Table
end PrivateBtc.Library
