/- PrivateBtc/Backend/VaultLifecycle
   digest: Vaults go from pending to active to withdrawn, unless a guardless statement hits one. -/

import PrivateBtc.Backend.VaultWrites

set_option autoImplicit false
set_option relaxedAutoImplicit false

namespace PrivateBtc.Backend.VaultLifecycle

open Library Library.JsText
open Contracts.Vault (Genesis)
open Authorizations Database Http Processor Server Starknet VaultWrites

/-- A status stays or moves on by one. -/
def Follows (old new : VaultStatus) : Prop :=
  old = new ∨ old = .pending ∧ new = .active ∨ old = .active ∧ new = .withdrawn

/-- Every vault is still there, with a status that follows. -/
def Progress (db db' : Db) : Prop :=
  ∀ row ∈ db.vaults.rows, ∃ row' ∈ db'.vaults.rows, row'.id = row.id ∧
    Follows row.status row'.status

/-- What a statement without a guard on the status assumes of a vault that it selects. -/
def Assumes : VaultWrite → VaultRow → Prop
  | .activate .., row | .revive _, row | .reviveRelayed .., row => row.status ≠ .withdrawn
  | .refresh _ .pending, row => row.status = .pending
  | .refresh _ _, row => row.status ≠ .withdrawn
  | .insert _, _ | .close _, _ | .spend .., _ => True

variable (env : Environment)

/-- No confirm-deposit, spv-deposit, commitment/deposit or refresh hits a withdrawn vault, and no
failed receipt hits an active one. -/
def Steady (s : State) (label : Label) : Prop :=
  ∀ write, Issues env s label write →
    ∀ row ∈ s.db.vaults.rows, write.selects row = true → Assumes write row

/-- The vault of a waiting withdrawal has been active. -/
def Opened (s : State) : Prop :=
  ∀ id request task subject, s.tasks id = some (request, task) → about task = some subject →
    ∃ row ∈ s.db.vaults.rows, row.id = subject.1 ∧ row.status ≠ .pending

theorem Follows.opened {old new : VaultStatus} (follows : Follows old new)
    (opened : old ≠ .pending) : new ≠ .pending := by
  rcases follows with rfl | ⟨rfl, rfl⟩ | ⟨rfl, rfl⟩
  · exact opened
  · decide
  · decide

variable {env} {s s' : State} {label : Label}

/-- A statement gives every vault that it selects a status that follows. -/
theorem write_follows (opened : Opened s) {write : VaultWrite}
    (issues : Issues env s label write) {row : VaultRow} (member : row ∈ s.db.vaults.rows)
    (selected : write.selects row = true) (assumed : Assumes write row) :
    Follows row.status write.status := by
  have toActive : row.status ≠ .withdrawn → Follows row.status .active := by
    intro open_
    cases status : row.status with
    | pending => exact Or.inr (Or.inl ⟨rfl, rfl⟩)
    | active => exact Or.inl rfl
    | withdrawn => exact absurd status open_
  have toWithdrawn : ∀ subject : Text × Option Text, row.id = subject.1 →
      (∃ id request task, s.tasks id = some (request, task) ∧ about task = some subject) →
      Follows row.status .withdrawn := by
    rintro subject named ⟨id, request, task, waits, told⟩
    obtain ⟨vault, vault_mem, same, begun⟩ := opened id request task subject waits told
    rw [eq_of_id vault_mem member (same.trans named.symm)] at begun
    cases status : row.status with
    | pending => exact absurd status begun
    | active => exact Or.inr (Or.inr ⟨rfl, rfl⟩)
    | withdrawn => exact Or.inl rfl
  cases write with
  | insert new => cases selected
  | activate vaultId txHash => exact toActive assumed
  | revive new => exact toActive assumed
  | reviveRelayed relaying txHash => exact toActive assumed
  | refresh task status =>
      cases status with
      | pending => exact Or.inl assumed
      | active => exact toActive assumed
      | withdrawn =>
          -- no receipt makes a refresh write this status
          cases issues with
          | refreshed waits told => exact absurd told (finds_open _ _)
          | spv _ _ _ _ _ told => split_ifs at told
          | relayed _ _ _ told => rcases told with told | told <;> cases told
  | close withdrawing =>
      have named : (row.id == withdrawing.vaultId) = true := selected
      exact toWithdrawn (withdrawing.vaultId, some withdrawing.request.nullifierHash)
        (beq_iff_eq.mp named) (close_about env issues)
  | spend txHash nullifierHash withdrawal usedAt =>
      have named : (row.id == withdrawal.vaultId) = true := selected
      exact toWithdrawn (withdrawal.vaultId, some nullifierHash) (beq_iff_eq.mp named)
        (spend_about env issues)

theorem step_progress (opened : Opened s) (steady : Steady env s label)
    (stepped : step env s label = some s') : Progress s.db s'.db := by
  intro row member
  cases step_wrote env stepped with
  | nothing vaults _ => exact ⟨row, by rwa [vaults], rfl, Or.inl rfl⟩
  | wrote write issues rows _ =>
      refine ⟨write.written row, ?_, write.written_id row, ?_⟩
      · rw [rows]
        exact List.mem_append_left _ (List.mem_map_of_mem member)
      · unfold VaultWrite.written
        split_ifs with selected
        · rw [VaultWrite.change_status selected]
          exact write_follows opened issues member selected
            (steady write issues row member selected)
        · exact Or.inl rfl

theorem progress_opened {db db' : Db} (progress : Progress db db') {vaultId : Text}
    (opened : ∃ row ∈ db.vaults.rows, row.id = vaultId ∧ row.status ≠ .pending) :
    ∃ row ∈ db'.vaults.rows, row.id = vaultId ∧ row.status ≠ .pending := by
  obtain ⟨row, member, named, begun⟩ := opened
  obtain ⟨row', member', same, follows⟩ := progress row member
  exact ⟨row', member', same.trans named, follows.opened begun⟩

theorem step_opened (opened : Opened s) (steady : Steady env s label)
    (stepped : step env s label = some s') : Opened s' := by
  have progress := step_progress opened steady stepped
  intro id request task subject waits told
  refine progress_opened progress ?_
  cases step_arises env stepped waits with
  | kept held => exact opened _ request task subject held told
  | begun next =>
      obtain ⟨vault, member, named, active, -⟩ := begin_about env next told
      exact ⟨vault, member, named, by simp [active]⟩
  | resumed held went next =>
      exact opened _ request _ subject held (resume_stays env went task next subject told)
  | expired held went next =>
      exact opened _ request _ subject held (expire_stays went task next subject told)

theorem starts_opened (starts : Starts s) : Opened s := by
  intro id request task subject waits
  rw [starts.tasks] at waits
  cases waits

theorem run_opened {start : State} (starts : Starts start)
    (run : Reaches env (Steady env) start s) : Opened s :=
  run.invariant (starts_opened starts) fun _ _ _ opened steady stepped =>
    step_opened opened steady stepped

def stage : VaultStatus → Nat
  | .pending => 0
  | .active => 1
  | .withdrawn => 2

theorem Follows.stage_le {old new : VaultStatus} (follows : Follows old new) :
    stage old ≤ stage new := by
  rcases follows with rfl | ⟨rfl, rfl⟩ | ⟨rfl, rfl⟩
  · exact le_rfl
  · decide
  · decide

/-- In a run of steady steps over any database each step leaves the status of a vault or moves it
from pending to active or from active to withdrawn, and no later state takes it back. -/
theorem lifecycle_monotone {start s : State} (starts : Starts start)
    (run : Reaches env (Steady env) start s) :
    (∀ label s', Steady env s label → step env s label = some s' → Progress s.db s'.db) ∧
    ∀ s', Reaches env (Steady env) s s' → ∀ row ∈ s.db.vaults.rows,
      ∃ row' ∈ s'.db.vaults.rows, row'.id = row.id ∧ stage row.status ≤ stage row'.status := by
  have opened := run_opened starts run
  refine ⟨fun label s' steady stepped => step_progress opened steady stepped, ?_⟩
  intro s' later row member
  let Kept (s' : State) : Prop := Opened s' ∧
    ∃ row' ∈ s'.db.vaults.rows, row'.id = row.id ∧ stage row.status ≤ stage row'.status
  have first : Kept s := ⟨opened, row, member, rfl, le_rfl⟩
  have both : Kept s' := by
    refine later.invariant first ?_
    rintro s₁ label s₂ ⟨opened₁, row₁, member₁, same, below⟩ steady stepped
    obtain ⟨row₂, member₂, same', follows⟩ := step_progress opened₁ steady stepped row₁ member₁
    exact ⟨step_opened opened₁ steady stepped, row₂, member₂, same'.trans same,
      below.trans follows.stage_le⟩
  exact both.2

section Reopened

/-- The withdrawal of the sample deposit, given up by its race; then an audit. -/
def reopeningLabels : List Label :=
  withdrawLabels ++ [.timeout 1 (sampleMoment ['t']), .request 2 .auditVerify (sampleMoment ['a'])]

/-- The deposit's receipt says that it has succeeded. -/
def goodReceipt (id : Nat) : Label :=
  .reply id (.rpc (.rawReceipt (some ⟨some .succeeded, some .acceptedOnL2⟩))) (sampleMoment ['r'])

/-- The audit makes a withdrawn vault active. -/
theorem audit_reopens :
    ∃ start s s' label, Starts start ∧ Reaches covenantMode (fun _ _ => True) start s ∧
      step covenantMode s label = some s' ∧ ¬ Progress s.db s'.db := by
  have ran : ((GuardedRun.run (step covenantMode) (boot sampleGenesis) reopeningLabels).bind
      fun s => (step covenantMode s (goodReceipt 2)).map fun s' =>
        (s.db.vaults.rows.map fun v => v.status, s'.db.vaults.rows.map fun v => v.status)) =
      some ([.withdrawn], [.active]) := by decide +kernel
  simp only [Option.bind_eq_some_iff, Option.map_eq_some_iff, Prod.mk.injEq] at ran
  obtain ⟨s, ran, s', stepped, before, after⟩ := ran
  have reached : Reaches covenantMode (fun _ _ => True) (boot sampleGenesis) s :=
    GuardedRun.Reaches.start.of_run (fun _ _ _ => trivial) ran
  refine ⟨boot sampleGenesis, s, s', _, ⟨fun _ => rfl, rfl⟩, reached, stepped, fun progress => ?_⟩
  obtain ⟨row, member, withdrawn⟩ : ∃ row ∈ s.db.vaults.rows, row.status = .withdrawn := by
    rw [← List.mem_map, before]
    exact List.mem_cons_self
  obtain ⟨row', member', -, follows⟩ := progress row member
  have active : row'.status ∈ s'.db.vaults.rows.map fun v => v.status := List.mem_map_of_mem member'
  rw [after, List.mem_singleton] at active
  rw [withdrawn, active] at follows
  exact absurd follows (by unfold Follows; decide)

theorem request_steady {id : Nat} {request : Request} {moment : Moment} :
    Steady env s (.request id request moment) := by
  intro write issues
  cases issues

theorem audit_steady {id : Nat} {request : Request} {moment : Moment} {task : AuditTask}
    {reply : RpcReply} (waits : s.tasks id = some (request, .audit task))
    (active : finds task reply = some .active)
    (open_ : ∀ row ∈ s.db.vaults.rows, row.status ≠ .withdrawn) :
    Steady env s (.reply id (.rpc reply) moment) := by
  intro write issues row member _
  cases issues with
  | @refreshed _ _ _ _ task' status waits' told =>
      cases waits.symm.trans waits'
      cases active.symm.trans told
      exact open_ row member
  | prepared waits' _ => cases waits.symm.trans waits'
  | activated waits' _ => cases waits.symm.trans waits'
  | spv waits' _ _ _ _ _ => cases waits.symm.trans waits'
  | relayed waits' _ _ _ => cases waits.symm.trans waits'
  | submitted waits' => cases waits.symm.trans waits'
  | raced waits' _ => cases waits.symm.trans waits'
  | spent waits' _ _ => cases waits.symm.trans waits'

def audits (s : State) (id : Nat) : Bool :=
  (s.tasks id).any fun held =>
    match held.2 with
    | .audit _ => true
    | _ => false

theorem audits_waits {id : Nat} (waits : audits s id = true) :
    ∃ request task, s.tasks id = some (request, .audit task) := by
  unfold audits at waits
  cases held : s.tasks id with
  | none =>
      rw [held] at waits
      cases waits
  | some pair =>
      rcases pair with ⟨request, task⟩
      rw [held] at waits
      cases task with
      | audit task => exact ⟨request, task, rfl⟩
      | _ => cases waits

/-- An audit of an active vault on a restarted server. -/
theorem audit_progress :
    ∃ s s', step covenantMode restarted (.request 0 .auditVerify (sampleMoment ['a'])) = some s ∧
      step covenantMode s (goodReceipt 0) = some s' ∧ Progress s.db s'.db := by
  have ran : ((step covenantMode restarted (.request 0 .auditVerify (sampleMoment ['a']))).bind
      fun s => (step covenantMode s (goodReceipt 0)).map fun s' =>
        (audits s 0, s.db.vaults.rows.map fun v => v.status)) = some (true, [.active]) := by
    decide +kernel
  simp only [Option.bind_eq_some_iff, Option.map_eq_some_iff, Prod.mk.injEq] at ran
  obtain ⟨s, begun, s', stepped, waits, before⟩ := ran
  have starts : Starts restarted := ⟨fun _ => rfl, rfl⟩
  have run : Reaches covenantMode (Steady covenantMode) restarted s :=
    GuardedRun.Reaches.start.step request_steady begun
  obtain ⟨request, task, waits⟩ := audits_waits waits
  have open_ : ∀ row ∈ s.db.vaults.rows, row.status ≠ .withdrawn := by
    intro row member
    have active : row.status ∈ s.db.vaults.rows.map fun v => v.status := List.mem_map_of_mem member
    rw [before, List.mem_singleton] at active
    simp [active]
  have steady : Steady covenantMode s (goodReceipt 0) :=
    audit_steady waits (by cases task <;> rfl) open_
  exact ⟨s, s', begun, stepped, (lifecycle_monotone starts run).1 _ _ steady stepped⟩

end Reopened

end PrivateBtc.Backend.VaultLifecycle
