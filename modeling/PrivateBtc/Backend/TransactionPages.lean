/- PrivateBtc/Backend/TransactionPages
   digest: Pages of transactions lose the rows whose timestamp stands on both sides of a cut. -/

import PrivateBtc.Backend.Database
import PrivateBtc.Backend.Starknet
import PrivateBtc.Library.Keyset

set_option autoImplicit false
set_option relaxedAutoImplicit false

namespace PrivateBtc.Backend.TransactionPages

open Library Library.JsText Library.Keyset
open Database Starknet

structure ListQuery where
  type : Option Text
  limit : Option Text

inductive OnChainStatus where
  | confirmed
  | notFound
  | pending

/-- An entry of the response; `execution_status` is NULL or whether it is SUCCEEDED. -/
structure ListedTransaction where
  id : Text
  vaultId : Text
  txHash : Text
  type : TransactionType
  blockNumber : Option Nat
  blockTimestamp : Option Nat
  executionStatus : Option Bool
  onChainStatus : OnChainStatus
  timestamp : Nat

structure Page where
  transactions : List ListedTransaction
  nextCursor : Option Text

/-- The node's answers while one request is served. -/
abbrev Node := Text → Except String TransactionReceipt

def typeText : TransactionType → Text
  | .deposit => ['d', 'e', 'p', 'o', 's', 'i', 't']
  | .withdraw => ['w', 'i', 't', 'h', 'd', 'r', 'a', 'w']

def hasType (type : Option Text) (row : TransactionRow) : Bool :=
  match type with
  | some text =>
      if text = typeText .deposit ∨ text = typeText .withdraw then typeText row.type = text else true
  | none => true

def vaultIds (db : Db) (address : Text) : List Text :=
  (db.vaults.filter fun v => v.ownerAddress = address).map VaultRow.id

/-- The rows that the query selects without a cursor. -/
def matching (db : Db) (address : Text) (type : Option Text) : List TransactionRow :=
  db.transactions.filter fun row =>
    (vaultIds db address).contains row.vaultId && hasType type row

def timestampOf (row : TransactionRow) : Int := row.timestamp

/-- `Math.min(parseInt(limit ?? '20', 10), 100)` -/
def limitOf (limit : Option Text) : Option Int :=
  (parseInt (limit.getD ['2', '0'])).map fun n => min n 100

def enrich (node : Node) (row : TransactionRow) : ListedTransaction :=
  let entry : ListedTransaction :=
    { id := row.id, vaultId := row.vaultId, txHash := row.txHash, type := row.type
      blockNumber := row.blockNumber, blockTimestamp := row.blockTimestamp
      executionStatus := if row.succeeded then some true else none
      onChainStatus := .pending, timestamp := row.timestamp }
  match getTransactionReceipt row.txHash (node row.txHash) with
  | .ok receipt =>
      { entry with
        onChainStatus := .confirmed
        blockNumber := some receipt.blockNumber
        executionStatus := some receipt.succeeded }
  | .error (.notFound _) => { entry with onChainStatus := .notFound }
  | .error _ => entry

/-- `timestamp < NULL` holds of no row. -/
def selected (engine : Engine timestampOf) (rows : List TransactionRow) :
    Option Text → List TransactionRow
  | none | some [] => engine.arrange none (below timestampOf none rows)
  | some cursor =>
      match parseInt cursor with
      | some c => engine.arrange (some c) (below timestampOf (some c) rows)
      | none => []

/-- GET /api/transactions/:address; an error is the response 500. -/
def listTransactions (engine : Engine timestampOf) (db : Db) (address : Text) (query : ListQuery)
    (cursor : Option Text) (node : Node) : Except String Page :=
  if (vaultIds db address).isEmpty then .ok ⟨[], none⟩
  else
    match limitOf query.limit with
    | none => .error "datatype mismatch"
    | some limit =>
        let ranked := selected engine (matching db address query.type) cursor
        let rows := if limit < 0 then ranked else ranked.take limit.toNat
        if rows.length = limit then
          match rows.getLast? with
          | some last => .ok ⟨rows.map (enrich node), some (toText 10 (timestampOf last))⟩
          | none => .error "Cannot read properties of undefined (reading 'timestamp')"
        else .ok ⟨rows.map (enrich node), none⟩

/-- A client that follows `nextCursor`; `none` when a request fails or the steps run out. -/
def followCursor (engine : Engine timestampOf) (db : Db) (address : Text) (query : ListQuery)
    (node : Option Text → Node) : Nat → Option Text → Option (List ListedTransaction)
  | 0, _ => none
  | steps + 1, cursor =>
      match listTransactions engine db address query cursor (node cursor) with
      | .ok ⟨transactions, some next⟩ =>
          (followCursor engine db address query node steps (some next)).map (transactions ++ ·)
      | .ok ⟨transactions, none⟩ => some transactions
      | .error _ => none

/-- The entry carries the row's own columns; the others are the node's when it answers. -/
structure Shows (row : TransactionRow) (entry : ListedTransaction) : Prop where
  id : entry.id = row.id
  vaultId : entry.vaultId = row.vaultId
  txHash : entry.txHash = row.txHash
  type : entry.type = row.type
  blockTimestamp : entry.blockTimestamp = row.blockTimestamp
  timestamp : entry.timestamp = row.timestamp

def ListsOnce (rows : List TransactionRow) (listed : List ListedTransaction) : Prop :=
  ∃ order, order.Perm rows ∧ List.Forall₂ Shows order listed

theorem enrich_shows (node : Node) (row : TransactionRow) : Shows row (enrich node row) := by
  unfold enrich
  dsimp only
  split <;> constructor <;> rfl

theorem enrich_all (node : Node) (rows : List TransactionRow) :
    List.Forall₂ Shows rows (rows.map (enrich node)) := by
  rw [List.forall₂_map_right_iff, List.forall₂_same]
  intro row _
  exact enrich_shows node row

theorem selected_cursor (engine : Engine timestampOf) (rows : List TransactionRow)
    (cursor : Option Int) :
    selected engine rows (cursor.map (toText 10)) =
      engine.arrange cursor (below timestampOf cursor rows) := by
  cases cursor with
  | none => rfl
  | some c =>
      have read := parseInt_toText c
      rw [Option.map_some]
      cases written : toText 10 c with
      | nil =>
          rw [written] at read
          cases read
      | cons first rest =>
          rw [written] at read
          rw [selected, read]
          intro told
          cases told

section Following

variable {engine : Engine timestampOf} {db : Db} {address : Text} {query : ListQuery} {limit : Int}

/-- One request of the route is one page of the rows. -/
theorem listTransactions_page (owned : (vaultIds db address).isEmpty = false)
    (given : limitOf query.limit = some limit) (positive : 0 < limit) (cursor : Option Int)
    (node : Node) :
    listTransactions engine db address query (cursor.map (toText 10)) node =
      .ok ⟨(engine.page limit.toNat (matching db address query.type) cursor).map (enrich node),
        (next timestampOf limit.toNat
          (engine.page limit.toNat (matching db address query.type) cursor)).map (toText 10)⟩ := by
  have whole : (limit.toNat : Int) = limit := Int.toNat_of_nonneg positive.le
  rw [listTransactions, owned, given, selected_cursor]
  dsimp only
  rw [if_neg Bool.false_ne_true, if_neg positive.not_gt]
  change (if ((engine.page limit.toNat (matching db address query.type) cursor).length : Int) =
    limit then _ else _) = _
  rw [next]
  by_cases full : (engine.page limit.toNat (matching db address query.type) cursor).length =
      limit.toNat
  · rw [if_pos (by omega), if_pos full]
    cases ends : (engine.page limit.toNat (matching db address query.type) cursor).getLast? with
    | none =>
        rw [List.getLast?_eq_none_iff] at ends
        rw [ends, List.length_nil] at full
        omega
    | some last =>
        rw [Engine.page] at ends
        rw [ends]
        rfl
  · rw [if_neg (by omega), if_neg full]
    rfl

theorem followCursor_shows (owned : (vaultIds db address).isEmpty = false)
    (given : limitOf query.limit = some limit) (positive : 0 < limit)
    (node : Option Text → Node) (steps : Nat) (cursor : Option Int) (rows : List TransactionRow)
    (followed : engine.follow limit.toNat (matching db address query.type) steps cursor =
      some rows) :
    ∃ listed, followCursor engine db address query node steps (cursor.map (toText 10)) =
      some listed ∧ List.Forall₂ Shows rows listed := by
  induction steps generalizing cursor rows with
  | zero => cases followed
  | succ steps ih =>
      rw [followCursor, listTransactions_page owned given positive]
      rw [Engine.follow] at followed
      have shown := enrich_all (node (cursor.map (toText 10)))
        (engine.page limit.toNat (matching db address query.type) cursor)
      cases onward : next timestampOf limit.toNat
          (engine.page limit.toNat (matching db address query.type) cursor) with
      | none =>
          rw [onward] at followed
          cases followed
          exact ⟨_, rfl, shown⟩
      | some c =>
          rw [onward] at followed
          obtain ⟨later, rest, rfl⟩ := Option.map_eq_some_iff.mp followed
          obtain ⟨entries, listed, shownLater⟩ := ih (some c) later rest
          rw [Option.map_some] at listed
          refine ⟨_, ?_, List.rel_append shown shownLater⟩
          dsimp only [Option.map_some]
          rw [listed]
          rfl

end Following

theorem listsOnce_iff {rows order : List TransactionRow} {listed : List ListedTransaction}
    (shown : List.Forall₂ Shows order listed) (once : List.Subperm order rows) :
    ListsOnce rows listed ↔ order.Perm rows := by
  constructor
  · rintro ⟨other, whole, shownOther⟩
    apply once.perm_of_length_le
    rw [← whole.length_eq, shownOther.length_eq, shown.length_eq]
  · intro whole
    exact ⟨order, whole, shown⟩

theorem shows_descending {rows : List TransactionRow} {listed : List ListedTransaction}
    (shown : List.Forall₂ Shows rows listed)
    (descending : rows.Pairwise fun a b => timestampOf b ≤ timestampOf a) :
    listed.Pairwise fun a b => b.timestamp ≤ a.timestamp := by
  have same : listed.map ListedTransaction.timestamp = rows.map TransactionRow.timestamp := by
    clear descending
    induction shown with
    | nil => rfl
    | cons first _ ih => rw [List.map_cons, List.map_cons, first.timestamp, ih]
  have natural : rows.Pairwise fun a b => b.timestamp ≤ a.timestamp :=
    descending.imp fun less => Int.ofNat_le.mp less
  have sorted : (rows.map TransactionRow.timestamp).Pairwise (· ≥ ·) :=
    List.pairwise_map.mpr natural
  rw [← same] at sorted
  exact List.pairwise_map.mp sorted

theorem followCursor_lists (engine : Engine timestampOf) (db : Db) (address : Text)
    (query : ListQuery) (node : Option Text → Node) (limit : Int)
    (given : limitOf query.limit = some limit) (positive : 0 < limit) :
    ∃ listed, followCursor engine db address query node
        ((matching db address query.type).length + 1) none = some listed ∧
      (listed.Pairwise fun a b => b.timestamp ≤ a.timestamp) ∧
      (ListsOnce (matching db address query.type) listed ↔
        ¬ Straddles limit.toNat (ranking ((matching db address query.type).map timestampOf))) := by
  by_cases owned : (vaultIds db address).isEmpty = true
  · have none : matching db address query.type = [] := by
      rw [matching, Table.filter, List.filter_eq_nil_iff]
      intro row _
      rw [List.isEmpty_iff.mp owned]
      simp
    refine ⟨[], ?_, List.Pairwise.nil, ?_⟩
    · rw [followCursor, listTransactions, if_pos owned]
    · rw [none]
      exact iff_of_true ⟨[], List.Perm.nil, .nil⟩ (straddles_short (Nat.zero_le _))
  · have all : below timestampOf none (matching db address query.type) =
        matching db address query.type := by
      rw [below]
      simp
    have positiveNat : 0 < limit.toNat := by omega
    obtain ⟨rows, followed, lists⟩ := engine.follow_lists positiveNat
      (matching db address query.type) ((matching db address query.type).length + 1) none
      (by rw [all]; omega)
    obtain ⟨listed, entries, shown⟩ := followCursor_shows (Bool.eq_false_iff.mpr owned) given
      positive node _ none rows followed
    rw [all] at lists
    refine ⟨listed, entries, shows_descending shown lists.descending, ?_⟩
    rw [listsOnce_iff shown lists.once]
    exact lists.complete

theorem followCursor_more {engine : Engine timestampOf} {db : Db} {address : Text}
    {query : ListQuery} {node : Option Text → Node} {steps : Nat} {cursor : Option Text}
    {listed : List ListedTransaction}
    (followed : followCursor engine db address query node steps cursor = some listed) (more : Nat) :
    followCursor engine db address query node (steps + more) cursor = some listed := by
  induction steps generalizing cursor listed with
  | zero => cases followed
  | succ steps ih =>
      rw [Nat.succ_add, followCursor]
      rw [followCursor] at followed
      cases replied : listTransactions engine db address query cursor (node cursor) with
      | error message =>
          rw [replied] at followed
          cases followed
      | ok page =>
          obtain ⟨transactions, onward⟩ := page
          rw [replied] at followed
          cases onward with
          | none => exact followed
          | some c =>
              obtain ⟨later, rest, rfl⟩ := Option.map_eq_some_iff.mp followed
              dsimp only
              rw [ih rest]
              rfl

/-- Following `nextCursor` from the first page ends, with every matching row exactly once and
in descending order. -/
def Paginates (engine : Engine timestampOf) (db : Db) (address : Text) (query : ListQuery)
    (node : Option Text → Node) : Prop :=
  ∃ steps listed, followCursor engine db address query node steps none = some listed ∧
    ListsOnce (matching db address query.type) listed ∧
    listed.Pairwise fun a b => b.timestamp ≤ a.timestamp

theorem paginates_of {engine : Engine timestampOf} {db : Db} {address : Text} {query : ListQuery}
    {node : Option Text → Node} {steps : Nat} {listed : List ListedTransaction}
    (followed : followCursor engine db address query node steps none = some listed)
    (paginates : Paginates engine db address query node) :
    ListsOnce (matching db address query.type) listed := by
  obtain ⟨others, same, ended, once, -⟩ := paginates
  have left := followCursor_more followed others
  have right := followCursor_more ended steps
  rw [Nat.add_comm, left, Option.some.injEq] at right
  rw [right]
  exact once

/-- For every table, owner, filter and limit the pages end and descend; they lose nothing if
and only if no timestamp stands on both sides of a cut. -/
theorem paginates_iff (engine : Engine timestampOf) (db : Db) (address : Text) (query : ListQuery)
    (node : Option Text → Node) (limit : Int) (given : limitOf query.limit = some limit)
    (positive : 0 < limit) :
    (∃ steps listed, followCursor engine db address query node steps none = some listed ∧
      listed.Pairwise fun a b => b.timestamp ≤ a.timestamp) ∧
    (Paginates engine db address query node ↔
      ¬ Straddles limit.toNat (ranking ((matching db address query.type).map timestampOf))) := by
  obtain ⟨listed, followed, descending, once⟩ :=
    followCursor_lists engine db address query node limit given positive
  refine ⟨⟨_, listed, followed, descending⟩, ?_⟩
  rw [← once]
  constructor
  · exact paginates_of followed
  · intro listsOnce
    exact ⟨_, listed, followed, listsOnce, descending⟩

/-- An engine that leaves rows of one timestamp in the table's order. -/
def stableEngine : Engine timestampOf where
  arrange _ rows := rows.insertionSort fun a b => timestampOf b ≤ timestampOf a
  perm _ rows := List.perm_insertionSort _ rows
  descending _ rows := by
    have : Std.Total fun a b : TransactionRow => timestampOf b ≤ timestampOf a :=
      ⟨fun a b => le_total (timestampOf b) (timestampOf a)⟩
    have : IsTrans TransactionRow fun a b => timestampOf b ≤ timestampOf a :=
      ⟨fun _ _ _ above under => le_trans under above⟩
    exact List.pairwise_insertionSort _ rows

def twinVault : VaultRow where
  id := ['v']
  ownerAddress := ['0', 'x', 'a']
  commitment := ['0', 'x', '1']
  encryptedAmount := []
  salt := []
  randomnessHint := []
  lockDurationDays := 30
  createdAt := 1700000000
  unlockAt := 1702592000
  status := .withdrawn

def twinRow (id : Char) (type : TransactionType) : TransactionRow where
  id := [id]
  vaultId := ['v']
  txHash := '0' :: 'x' :: List.replicate 64 id
  type := type
  amountEncrypted := []
  timestamp := 1700000000

/-- Two transactions of one second. -/
def twinDb : Db :=
  { Database.empty with
    vaults := ⟨[twinVault], by decide +kernel, List.pairwise_singleton _ _⟩
    transactions := ⟨[twinRow '1' .deposit, twinRow '2' .withdraw], by decide +kernel,
      by decide +kernel⟩ }

def silentNode : Option Text → Node := fun _ _ => .error "fetch failed"

private theorem twin_timestamps :
    (matching twinDb ['0', 'x', 'a'] none).map timestampOf = [1700000000, 1700000000] := by
  decide +kernel

/-- With one row to a page the second of the two is never listed. -/
theorem paginates_twins :
    ¬ Paginates stableEngine twinDb ['0', 'x', 'a'] ⟨none, some ['1']⟩ silentNode := by
  intro paginates
  obtain ⟨listed, followed, -, once⟩ := followCursor_lists stableEngine twinDb ['0', 'x', 'a']
    ⟨none, some ['1']⟩ silentNode 1 (by decide) (by decide)
  have whole := once.mp (paginates_of followed paginates)
  rw [twin_timestamps] at whole
  exact whole ⟨1, 1700000000, by decide, by decide, by decide⟩

theorem paginates_iff_twins :
    Paginates stableEngine twinDb ['0', 'x', 'a'] ⟨none, some ['2']⟩ silentNode := by
  have cuts := (paginates_iff stableEngine twinDb ['0', 'x', 'a'] ⟨none, some ['2']⟩ silentNode 2
    (by decide) (by decide)).2
  rw [twin_timestamps] at cuts
  exact cuts.mpr (straddles_short (by decide))

end PrivateBtc.Backend.TransactionPages
