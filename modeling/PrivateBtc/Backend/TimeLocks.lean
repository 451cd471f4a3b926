/- PrivateBtc/Backend/TimeLocks
   digest: Which inserted vaults unlock at the second that their lock duration names. -/

import PrivateBtc.Backend.VaultWrites

set_option autoImplicit false
set_option relaxedAutoImplicit false

namespace PrivateBtc.Backend.TimeLocks

open Library Library.JsText Library.Outcome
open CryptoService Database Deposits Http ProofVerifier Server Starknet VaultWrites

variable {env : Environment}

/-- The row enters the table in the step. -/
def Inserted (s s' : State) (row : VaultRow) : Prop :=
  row ∈ s'.db.vaults.rows ∧ ∀ v ∈ s.db.vaults.rows, v.id ≠ row.id

theorem inserted_issues {s s' : State} {label : Label} {row : VaultRow}
    (stepped : step env s label = some s') (inserted : Inserted s s' row) :
    Issues env s label (.insert row) := by
  obtain ⟨member, fresh⟩ := inserted
  cases step_wrote env stepped with
  | nothing vaults _ =>
      rw [vaults] at member
      exact absurd rfl (fresh row member)
  | wrote write told rows _ =>
      rw [rows, VaultWrite.onVaults, List.mem_append] at member
      rcases member with before | added
      · obtain ⟨v, there, written⟩ := List.mem_map.mp before
        rw [← written] at fresh
        exact absurd (write.written_id v).symm (fresh v there)
      · cases write with
        | insert other =>
            rw [List.mem_singleton.mp added]
            exact told
        | _ => cases added

/-- The columns that say how long a vault is locked. -/
structure SameLock (row row' : VaultRow) : Prop where
  id : row'.id = row.id
  lockDurationDays : row'.lockDurationDays = row.lockDurationDays
  unlockAt : row'.unlockAt = row.unlockAt

theorem written_lock (write : VaultWrite) (row : VaultRow) : SameLock row (write.written row) := by
  unfold VaultWrite.written
  split_ifs
  · cases write <;> exact ⟨rfl, rfl, rfl⟩
  · exact ⟨rfl, rfl, rfl⟩

/-- A vault keeps its lock through every run. -/
theorem lock_kept {s later : State} {row row' : VaultRow} (member : row ∈ s.db.vaults.rows)
    (run : Reaches env (fun _ _ => True) s later) (there : row' ∈ later.db.vaults.rows)
    (same : row'.id = row.id) : SameLock row row' := by
  have kept : ∃ found ∈ later.db.vaults.rows, SameLock row found := by
    let Stands (s : State) : Prop := ∃ found ∈ s.db.vaults.rows, SameLock row found
    have start : Stands s := ⟨row, member, rfl, rfl, rfl⟩
    refine run.invariant start ?_
    rintro s₁ label s₂ ⟨found, stands, lock⟩ - stepped
    cases step_wrote env stepped with
    | nothing vaults _ => exact ⟨found, vaults ▸ stands, lock⟩
    | wrote write _ rows _ =>
        have next := written_lock write found
        refine ⟨write.written found, ?_, next.id.trans lock.id,
          next.lockDurationDays.trans lock.lockDurationDays, next.unlockAt.trans lock.unlockAt⟩
        rw [rows]
        exact List.mem_append_left _ (List.mem_map_of_mem stands)
  obtain ⟨found, stands, lock⟩ := kept
  rw [eq_of_id there stands (same.trans lock.id.symm)]
  exact lock

/-- From second `start` on, the two bounds are passed at the same seconds. -/
theorem agree_iff {start days unlockAt : Nat}
    (locked : 0 < days ∨ unlockAt = start + 86400 * days) :
    (∀ t, start ≤ t → (unlockAt ≤ t ↔ start + 86400 * days ≤ t)) ↔
      unlockAt = start + 86400 * days := by
  constructor
  · intro agree
    rcases locked with positive | same
    · have last := (agree (start + 86400 * days) (by omega)).mpr (le_refl _)
      by_contra different
      have early := (agree (max start unlockAt) (by omega)).mp (by omega)
      omega
    · exact same
  · rintro rfl t -
    rfl

/-- At every later second, for every proof, the check says whether the lock duration is over. -/
def Timely (env : Environment) (start : Nat) (later : State) (row : VaultRow) : Prop :=
  ∀ t proof, start ≤ t → ((checkVault env.crypto later.db t proof row).timeLockPassed = true ↔
    start + 86400 * row.lockDurationDays ≤ t)

theorem timely_iff {start : Nat} {later : State} {row : VaultRow}
    (locked : 0 < row.lockDurationDays ∨ row.unlockAt = start + 86400 * row.lockDurationDays) :
    Timely env start later row ↔ row.unlockAt = start + 86400 * row.lockDurationDays := by
  rw [← agree_iff locked]
  have told : ∀ t proof, (checkVault env.crypto later.db t proof row).timeLockPassed = true ↔
      row.unlockAt ≤ t := fun t proof => decide_eq_true_iff
  constructor
  · intro timely t after
    rw [← timely t ⟨[], [], []⟩ after, told]
  · intro agrees t proof after
    rw [told]
    exact agrees t after

/-- The handlers that store seconds, and the two readings of the clock at which milliseconds
do as well. -/
def InSeconds (moment : Moment) : Task → Prop
  | .deposit (.balance _) => True
  | .deposit (.waiting _ _ (.spv _)) => moment.now = 0
  | .deposit (.waiting _ _ (.relay _)) => moment.now = 2508108
  | _ => False

/-- Only a reply inserts a vault, and its unlock time is in seconds where its handler's is. -/
theorem inserted_unlock {s : State} {label : Label} {row : VaultRow}
    (issues : Issues env s label (.insert row)) :
    ∃ id reply moment request task, label = .reply id reply moment ∧
      s.tasks id = some (request, task) ∧
      (row.unlockAt = moment.nowSecs + 86400 * row.lockDurationDays ↔ InSeconds moment task) ∧
      (0 < row.lockDurationDays ∨
        row.unlockAt = moment.nowSecs + 86400 * row.lockDurationDays) := by
  cases issues with
  | @prepared id request moment reply preparing row waits made =>
      refine ⟨id, reply, moment, request, _, rfl, waits, ?_⟩
      simp only [preparedRow, bind_eq_ok, pure_eq_ok, Except.ok.injEq] at made
      obtain ⟨commitment, -, nullifierHash, -, rfl⟩ := made
      have same : moment.nowSecs + preparing.lockDays * 86400 =
          moment.nowSecs + 86400 * preparing.lockDays := by rw [Nat.mul_comm]
      exact ⟨⟨fun _ => trivial, fun _ => same⟩, Or.inr same⟩
  | @spv id attempt request moment receipt txHash vaultId nullifierHash body amount db' _ waits
      succeeded stores converted stored told =>
      split_ifs at told
      cases told
      refine ⟨id, _, moment, request, _, rfl, waits, ?_, Or.inl (by decide : 0 < 30)⟩
      show moment.now + 86400 * 30 = moment.now / 1000 + 86400 * 30 ↔ moment.now = 0
      omega
  | @relayed id attempt request moment receipt txHash relaying db' _ waits succeeded stored told =>
      rcases told with told | told
      · cases told
        refine ⟨id, _, moment, request, _, rfl, waits, ?_, Or.inl (by decide : 0 < 30)⟩
        show moment.now + 86400 = moment.now / 1000 + 86400 * 30 ↔ moment.now = 2508108
        omega
      · cases told

/-- The verifier's check of an inserted vault passes at the second its lock duration names, at
every later moment, exactly when its handler and the clock store seconds. -/
theorem time_lock_iff {s s' : State} {label : Label} {row : VaultRow}
    (stepped : step env s label = some s') (inserted : Inserted s s' row) :
    ∃ id reply moment request task, label = .reply id reply moment ∧
      s.tasks id = some (request, task) ∧
      ∀ later row', Reaches env (fun _ _ => True) s' later → row' ∈ later.db.vaults.rows →
        row'.id = row.id → (Timely env moment.nowSecs later row' ↔ InSeconds moment task) := by
  obtain ⟨id, reply, moment, request, task, told, waits, seconds, locked⟩ :=
    inserted_unlock (inserted_issues stepped inserted)
  refine ⟨id, reply, moment, request, task, told, waits, ?_⟩
  intro later row' run there same
  have lock := lock_kept inserted.1 run there same
  rw [← seconds, ← lock.unlockAt, ← lock.lockDurationDays]
  rw [← lock.unlockAt, ← lock.lockDurationDays] at locked
  exact timely_iff locked

section Samples

def samplePrepare : PrepareBody where
  headers := ⟨applicationJson, false⟩
  ownerAddress := some (sampleHash '1')
  amountSats := some (.number (.finite 100000))
  lockDurationDays := some (.finite 90)

def prepareLabel : Label := .request 0 (.prepareDeposit samplePrepare) (sampleMoment ['d'])

def insertLabel : Label := .reply 0 (.rpc (.balance (.ok 100000))) (sampleMoment ['d'])

/-- A vault of prepare-deposit unlocks after its ninety days. -/
theorem time_lock_prepared :
    ∃ s s' row, GuardedRun.run (step covenantMode) (boot sampleGenesis) [prepareLabel] = some s ∧
      step covenantMode s insertLabel = some s' ∧ Inserted s s' row ∧
      row.lockDurationDays = 90 ∧ Timely covenantMode 1700000000 s' row := by
  have ran : ((GuardedRun.run (step covenantMode) (boot sampleGenesis) [prepareLabel]).bind
      fun s => (step covenantMode s insertLabel).map fun s' =>
        (s.db.vaults.rows.length, s'.db.vaults.rows.map VaultRow.lockDurationDays)) =
      some (0, [90]) := by decide +kernel
  obtain ⟨s, ran, seen⟩ := Option.bind_eq_some_iff.mp ran
  obtain ⟨s', stepped, seen⟩ := Option.map_eq_some_iff.mp seen
  simp only [Prod.mk.injEq, List.map_eq_singleton_iff] at seen
  obtain ⟨empty, row, rows, days⟩ := seen
  have inserted : Inserted s s' row := by
    refine ⟨by rw [rows]; exact List.mem_singleton_self row, ?_⟩
    rw [List.eq_nil_of_length_eq_zero empty]
    intro v none
    cases none
  obtain ⟨id, reply, moment, request, task, told, waits, timely⟩ :=
    time_lock_iff stepped inserted
  cases told
  have seconds : InSeconds (sampleMoment ['d']) task := by
    cases ran
    cases waits
    trivial
  exact ⟨s, s', row, ran, stepped, inserted, days,
    (timely s' row .start inserted.1 rfl).mpr seconds⟩

/-- A vault of spv-deposit for thirty days is still locked thirty days later: the verifier
compares seconds with milliseconds. -/
theorem time_lock_late :
    ∃ s s' row, Reaches covenantMode (fun _ _ => True) (boot sampleGenesis) s ∧
      step covenantMode s (.reply 0 (.rpc (.receipt (.ok ⟨1, true, []⟩))) (sampleMoment ['d'])) =
        some s' ∧ Inserted s s' row ∧ row.lockDurationDays = 30 ∧
      ¬ Timely covenantMode 1700000000 s' row := by
  have ran : ((GuardedRun.run (step covenantMode) (boot sampleGenesis) (depositLabels.take 3)).bind
      fun s => (step covenantMode s
          (.reply 0 (.rpc (.receipt (.ok ⟨1, true, []⟩))) (sampleMoment ['d']))).map fun s' =>
        (s.db.vaults.rows.length,
          s'.db.vaults.rows.map fun v => (v.lockDurationDays, v.unlockAt))) =
      some (0, [(30, 1700002592000)]) := by decide +kernel
  obtain ⟨s, ran, seen⟩ := Option.bind_eq_some_iff.mp ran
  obtain ⟨s', stepped, seen⟩ := Option.map_eq_some_iff.mp seen
  simp only [Prod.mk.injEq, List.map_eq_singleton_iff] at seen
  obtain ⟨empty, row, rows, days, unlock⟩ := seen
  refine ⟨s, s', row, GuardedRun.Reaches.start.of_run (fun _ _ _ => trivial) ran, stepped,
    ⟨by rw [rows]; exact List.mem_singleton_self row, ?_⟩, days, ?_⟩
  · rw [List.eq_nil_of_length_eq_zero empty]
    intro v none
    cases none
  · rw [timely_iff (Or.inl (by rw [days]; decide)), unlock, days]
    decide

end Samples

end PrivateBtc.Backend.TimeLocks
