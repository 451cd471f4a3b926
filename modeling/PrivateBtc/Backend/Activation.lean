/- PrivateBtc/Backend/Activation
   digest: When a vault becomes active on a receipt that its deposit transaction has succeeded. -/

import PrivateBtc.Backend.ChainEvidence

set_option autoImplicit false
set_option relaxedAutoImplicit false

namespace PrivateBtc.Backend.Activation

open Library Library.JsText Library.Outcome
open ChainEvidence Database Deposits Http Processor Server Starknet VaultWrites

variable (env : Environment)

/-- The server, and for each handler the receipt it has read last: its hash, and whether its
execution_status is SUCCEEDED. -/
structure Watched where
  state : State
  read : Nat → Option (Text × Bool)

/-- The receipt that a reply brings to a handler; a failed call brings none. -/
def receiptIn (task : Task) (reply : Reply) : Option (Text × Bool) :=
  match reply with
  | .rpc (.receipt (.ok _)) | .rpc (.rawReceipt (some _)) =>
      (asksReceipt task).map fun txHash => (txHash, showsSuccess reply)
  | _ => none

def watch (w : Watched) : Label → Nat → Option (Text × Bool)
  | .request id _ _ => Function.update w.read id none
  | .reply id reply _ =>
      match w.state.tasks id with
      | some (_, task) =>
          match receiptIn task reply with
          | some receipt => Function.update w.read id (some receipt)
          | none => w.read
      | none => w.read
  | _ => w.read

def watchedStep (w : Watched) (label : Label) : Option Watched :=
  (step env w.state label).map fun state => ⟨state, watch w label⟩

/-- The row is active after the step and was not before it. -/
def Activates (s s' : State) (row : VaultRow) : Prop :=
  row ∈ s'.db.vaults.rows ∧ row.status = .active ∧
    ∀ v ∈ s.db.vaults.rows, v.id = row.id → v.status ≠ .active

/-- The receipts that an activation rests on show success: the one that confirm-deposit reads
for its event; the one that the audit reads for a vault that is not active, where its first
status word counts as accepted; and the one that the start-up sync reads for such a vault,
where either word does and the vault still has the hash that was listed. -/
def Sincere (s : State) : Label → Prop
  | .reply id reply _ => ∀ request task, s.tasks id = some (request, task) →
      match task, reply with
      | .deposit (.depositEvent _ confirming), .rpc (.receipt (.ok receipt)) =>
          verifyDepositEvent env.vaultContractAddress receipt confirming.commitment = .ok true →
            receipt.succeeded = true
      | .audit (.auditing txHash _ _), .rpc (.rawReceipt (some receipt)) =>
          ∀ row ∈ s.db.vaults.rows, row.depositTxHash = some txHash → row.status ≠ .active →
            receipt.executionStatus.or receipt.finalityStatus = some .acceptedOnL2 ∨
              receipt.executionStatus.or receipt.finalityStatus = some .succeeded →
            receipt.executionStatus = some .succeeded
      | .audit (.syncing vault _), .rpc (.rawReceipt (some receipt)) =>
          ∀ row ∈ s.db.vaults.rows, row.id = vault.id → row.status ≠ .active →
            receipt.executionStatus = some .succeeded ∨
              receipt.finalityStatus = some .acceptedOnL2 →
            receipt.executionStatus = some .succeeded ∧
              ∀ txHash, row.depositTxHash = some txHash → vault.depositTxHash = some txHash
      | _, _ => True
  | _ => True

variable {env} {w w' : Watched} {label : Label}

theorem watchedStep_ok (stepped : watchedStep env w label = some w') :
    step env w.state label = some w'.state ∧ w'.read = watch w label := by
  obtain ⟨s', went, same⟩ := Option.map_eq_some_iff.mp stepped
  cases same
  exact ⟨went, rfl⟩

theorem sincere_reply {s : State} {id : Nat} {reply : Reply} {moment : Moment}
    (shown : ∀ receipt, reply = .rpc (.receipt (.ok receipt)) → receipt.succeeded = true)
    (quiet : ∀ receipt, reply ≠ .rpc (.rawReceipt receipt)) :
    Sincere env s (.reply id reply moment) := by
  intro request task _
  split
  · intro _
    exact shown _ rfl
  · exact absurd rfl (quiet _)
  · exact absurd rfl (quiet _)
  · trivial

/-- The watched runs are the server's runs. -/
theorem watched_run {allowed : State → Label → Prop} {start : Watched}
    (run : GuardedRun.Reaches (watchedStep env) (fun w => allowed w.state) start w) :
    Reaches env allowed start.state w.state := by
  induction run with
  | start => exact .start
  | step _ permitted stepped ih => exact ih.step permitted (watchedStep_ok stepped).1

/-- A handler that is about to activate its vault has just read that its hash succeeded. -/
def Backed (w : Watched) : Prop :=
  ∀ id request txHash confirming blockNumber,
    w.state.tasks id = some (request, .deposit (.block txHash confirming blockNumber)) →
    w.read id = some (txHash, true)

theorem watch_reply {id : Nat} {request : Request} {task : Task} {reply : Reply}
    {moment : Moment} (waits : w.state.tasks id = some (request, task)) :
    watch w (.reply id reply moment) =
      match receiptIn task reply with
      | some receipt => Function.update w.read id (some receipt)
      | none => w.read := by
  simp only [watch, waits]

theorem watch_read {id : Nat} {request : Request} {task : Task} {reply : Reply}
    {moment : Moment} {receipt : Text × Bool} (waits : w.state.tasks id = some (request, task))
    (brings : receiptIn task reply = some receipt) :
    watch w (.reply id reply moment) id = some receipt := by
  rw [watch_reply waits, brings]
  exact Function.update_self ..

theorem watch_other {id other : Nat} {request : Request} {task : Task} {reply : Reply}
    {moment : Moment} (waits : w.state.tasks id = some (request, task)) (apart : other ≠ id) :
    watch w (.reply id reply moment) other = w.read other := by
  rw [watch_reply waits]
  split
  · exact Function.update_of_ne apart ..
  · rfl

/-- A request does not come to wait for a block. -/
theorem begin_block {moment : Moment} {issued : List ProofVerifier.ProofToken} {db : Db}
    {request : Request} {txHash : Text} {confirming : Confirming} {blockNumber : Nat} :
    (begin env moment issued db request).next ≠
      some (.deposit (.block txHash confirming blockNumber)) := by
  intro next
  cases begin_deposit env next

theorem step_backed (backed : Backed w) (sincere : Sincere env w.state label)
    (stepped : watchedStep env w label = some w') : Backed w' := by
  obtain ⟨went, read⟩ := watchedStep_ok stepped
  intro id request txHash confirming blockNumber waits
  obtain ⟨s', read'⟩ := w'
  subst read
  dsimp only at went waits ⊢
  cases step_stepped env went with
  | @request own asked moment idle =>
      rw [settle_tasks] at waits
      split_ifs at waits with same
      · obtain ⟨later, next, told⟩ := Option.map_eq_some_iff.mp waits
        cases told
        exact absurd next begin_block
      · rw [watch, Function.update_of_ne same]
        exact backed id request txHash confirming blockNumber waits
  | @reply own asked task reply moment turn held resumed =>
      rw [settle_tasks] at waits
      split_ifs at waits with same
      · obtain ⟨later, next, told⟩ := Option.map_eq_some_iff.mp waits
        cases told
        subst same
        obtain ⟨before, rpc, after, rfl, rfl, goes, next'⟩ := resume_deposit resumed next
        cases resumeDeposit_awaiting _ _ goes next' with
        | block was shown verified =>
            subst was shown
            rw [watch_read held rfl, showsSuccess, sincere _ _ held verified]
      · rw [watch_other held same]
        exact backed id request txHash confirming blockNumber waits
  | @timeout own asked task moment turn held expired =>
      rw [settle_tasks] at waits
      split_ifs at waits with same
      · obtain ⟨later, next, told⟩ := Option.map_eq_some_iff.mp waits
        cases told
        obtain ⟨t, other⟩ := expire_next expired next
        cases other
      · exact backed id request txHash confirming blockNumber waits
  | land => exact backed id request txHash confirming blockNumber waits
  | block fresh => exact backed id request txHash confirming blockNumber waits

/-- The handler of the label has read last that the hash succeeded. -/
def JustRead (w : Watched) (label : Label) (txHash : Text) : Prop :=
  ∃ id reply moment, label = .reply id reply moment ∧ w.read id = some (txHash, true)

theorem watch_block {id blockNumber : Nat} {request : Request} {reply : Reply} {moment : Moment}
    {txHash : Text} {confirming : Confirming}
    (waits : w.state.tasks id =
      some (request, .deposit (.block txHash confirming blockNumber))) :
    watch w (.reply id reply moment) = w.read := by
  have silent : receiptIn (.deposit (.block txHash confirming blockNumber)) reply = none := by
    unfold receiptIn
    split <;> rfl
  rw [watch_reply waits, silent]

/-- What a refresh that makes vaults active has read. -/
theorem refresh_read {id : Nat} {request : Request} {task : AuditTask} {reply : RpcReply}
    {moment : Moment} {v : VaultRow} {txHash : Text}
    (sincere : Sincere env w.state (.reply id (.rpc reply) moment))
    (waits : w.state.tasks id = some (request, .audit task))
    (told : finds task reply = some .active) (member : v ∈ w.state.db.vaults.rows)
    (inactive : v.status ≠ .active) (selected : refreshed task v = true)
    (hash : v.depositTxHash = some txHash) :
    watch w (.reply id (.rpc reply) moment) id = some (txHash, true) := by
  unfold finds at told
  split at told
  · next asked rest audit receipt =>
    dsimp only at told
    split_ifs at told with word
    · have same : v.depositTxHash = some asked := beq_iff_eq.mp selected
      have succeeded := sincere request _ waits v member same inactive word
      rw [hash, Option.some.injEq] at same
      subst same
      rw [watch_read waits rfl, showsSuccess, succeeded]
      rfl
    · cases told
  · next vault rest receipt =>
    split_ifs at told with word
    obtain ⟨succeeded, same⟩ :=
      sincere request _ waits v member (beq_iff_eq.mp selected) inactive word
    have asked : asksReceipt (.audit (.syncing vault rest)) = some txHash := same txHash hash
    have brings : receiptIn (.audit (.syncing vault rest)) (.rpc (.rawReceipt (some receipt))) =
        some (txHash, true) := by
      rw [receiptIn, asked, showsSuccess, succeeded]
      rfl
    rw [watch_read waits brings]
  · cases told

/-- An activated row was inserted or selected by a statement that makes vaults active. -/
theorem activates_cases {s s' : State} {row : VaultRow} (stepped : step env s label = some s')
    (activates : Activates s s' row) :
    ∃ write, Issues env s label write ∧ write.status = .active ∧
      (write = .insert row ∨ ∃ v ∈ s.db.vaults.rows, v.status ≠ .active ∧
        write.selects v = true ∧ row = write.change v) := by
  obtain ⟨member, active, before⟩ := activates
  cases step_wrote env stepped with
  | nothing vaults _ =>
      rw [vaults] at member
      exact absurd active (before row member rfl)
  | wrote write issues rows _ =>
      rw [rows, VaultWrite.onVaults, List.mem_append] at member
      refine ⟨write, issues, ?_⟩
      rcases member with old | new
      · obtain ⟨v, there, rfl⟩ := List.mem_map.mp old
        have inactive := before v there (write.written_id v).symm
        unfold VaultWrite.written at active ⊢
        split_ifs at active ⊢ with selected
        · rw [VaultWrite.change_status selected] at active
          exact ⟨active, Or.inr ⟨v, there, inactive, selected, rfl⟩⟩
        · exact absurd active inactive
      · cases write with
        | insert other =>
            rw [List.mem_singleton.mp new] at active ⊢
            exact ⟨active, Or.inl rfl⟩
        | _ => cases new

/-- In every run whose receipts are sincere where it matters, every activation of a vault rests
on the receipt that its handler has just read: it is of the vault's deposit transaction and
shows that it succeeded. -/
theorem activation_sound {start : Watched} (starts : ∀ id, start.state.tasks id = none)
    (run : GuardedRun.Reaches (watchedStep env) (fun w => Sincere env w.state) start w)
    (sincere : Sincere env w.state label) (stepped : watchedStep env w label = some w')
    {row : VaultRow} {txHash : Text} (activates : Activates w.state w'.state row)
    (hash : row.depositTxHash = some txHash) : JustRead w' label txHash := by
  have backed : Backed w := by
    refine run.invariant ?_ fun _ _ _ backed sincere stepped => step_backed backed sincere stepped
    intro id request txHash confirming blockNumber waits
    rw [starts] at waits
    cases waits
  obtain ⟨went, read⟩ := watchedStep_ok stepped
  obtain ⟨write, issues, active, written⟩ := activates_cases went activates
  unfold JustRead
  rw [read]
  cases issues with
  | prepared waits made =>
      simp only [preparedRow, bind_eq_ok, pure_eq_ok, Except.ok.injEq] at made
      obtain ⟨commitment, -, nullifierHash, -, rfl⟩ := made
      cases active
  | @activated id request moment reply own confirming blockNumber timestamp db' waits stored =>
      rcases written with told | ⟨v, member, inactive, selected, rfl⟩
      · cases told
      · cases hash
        exact ⟨id, reply, moment, rfl, by rw [watch_block waits, backed _ _ _ _ _ waits]⟩
  | @spv id attempt request moment receipt own vaultId nullifierHash body amount db' _ waits
      succeeded stores converted stored told =>
      have shown : own = txHash := by
        split_ifs at told
        · subst told
          rcases written with told | ⟨v, member, inactive, selected, rfl⟩
          · cases told
          · exact Option.some.inj hash
        · subst told
          rcases written with told | ⟨v, member, inactive, selected, rfl⟩
          · cases told
            exact Option.some.inj hash
          · cases selected
      subst shown
      exact ⟨id, _, moment, rfl, by rw [watch_read waits rfl, showsSuccess, succeeded]⟩
  | @relayed id attempt request moment receipt own relaying db' _ waits succeeded stored told =>
      have shown : own = txHash := by
        rcases told with told | told
        · subst told
          rcases written with told | ⟨v, member, inactive, selected, rfl⟩
          · cases told
            exact Option.some.inj hash
          · cases selected
        · subst told
          rcases written with told | ⟨v, member, inactive, selected, rfl⟩
          · cases told
          · exact Option.some.inj hash
      subst shown
      exact ⟨id, _, moment, rfl, by rw [watch_read waits rfl, showsSuccess, succeeded]⟩
  | @refreshed id request moment reply task status waits told =>
      rcases written with other | ⟨v, member, inactive, selected, rfl⟩
      · cases other
      · have now : status = .active := active
        subst now
        exact ⟨id, _, moment, rfl,
          refresh_read sincere waits told member inactive selected hash⟩
  | submitted waits => cases active
  | raced waits first => cases active
  | expired waits first => cases active
  | spent waits own answer shown stored => cases active

section Samples

def watchedBoot : Watched := ⟨boot sampleGenesis, fun _ => none⟩

def acceptedReceipt : Label :=
  .reply 0 (.rpc (.receipt (.ok ⟨1, true, []⟩))) (sampleMoment ['d'])

/-- The vault of the sample deposit is active on the receipt that spv-deposit has just read. -/
theorem activation_spv :
    ∃ w w' row, GuardedRun.Reaches (watchedStep covenantMode)
        (fun w => Sincere covenantMode w.state) watchedBoot w ∧
      watchedStep covenantMode w acceptedReceipt = some w' ∧ Activates w.state w'.state row ∧
      JustRead w' acceptedReceipt (sampleHash '3') := by
  have ran : ((GuardedRun.run (watchedStep covenantMode) watchedBoot (depositLabels.take 3)).bind
      fun w => (watchedStep covenantMode w acceptedReceipt).map fun w' =>
        (w.state.db.vaults.rows.length,
          w'.state.db.vaults.rows.map fun v => (v.status, v.depositTxHash))) =
      some (0, [(.active, some (sampleHash '3'))]) := by decide +kernel
  obtain ⟨w, ran, seen⟩ := Option.bind_eq_some_iff.mp ran
  obtain ⟨w', stepped, seen⟩ := Option.map_eq_some_iff.mp seen
  simp only [Prod.mk.injEq, List.map_eq_singleton_iff] at seen
  obtain ⟨empty, row, rows, active, hash⟩ := seen
  have activates : Activates w.state w'.state row := by
    refine ⟨by rw [rows]; exact List.mem_singleton_self row, active, ?_⟩
    rw [List.eq_nil_of_length_eq_zero empty]
    intro v none
    cases none
  have sincere : ∀ label ∈ depositLabels, ∀ s, Sincere covenantMode s label := by
    intro label member s
    simp only [depositLabels, List.mem_cons, List.not_mem_nil, or_false] at member
    rcases member with rfl | rfl | rfl | rfl
    · trivial
    · exact sincere_reply (fun _ shown => by cases shown) (fun _ raw => by cases raw)
    · exact sincere_reply (fun _ shown => by cases shown) (fun _ raw => by cases raw)
    · exact sincere_reply (fun _ shown => by cases shown; rfl) (fun _ raw => by cases raw)
  have run : GuardedRun.Reaches (watchedStep covenantMode)
      (fun w => Sincere covenantMode w.state) watchedBoot w :=
    GuardedRun.Reaches.start.of_run
      (fun label member w => sincere label (List.mem_of_mem_take member) w.state) ran
  have last : Sincere covenantMode w.state acceptedReceipt :=
    sincere acceptedReceipt (by simp [depositLabels, acceptedReceipt]) w.state
  exact ⟨w, w', row, run, stepped, activates,
    activation_sound (fun _ => rfl) run last stepped activates hash⟩

/-- The transaction of the deposit is reverted after all: the audit takes the vault back, and
the start-up sync makes it active again on that receipt. -/
def revertedLabels : List Label :=
  depositLabels ++
    [.request 1 .auditVerify (sampleMoment ['a']),
      .reply 1 (.rpc (.rawReceipt (some ⟨some .reverted, some .acceptedOnL2⟩)))
        (sampleMoment ['a']),
      .request 2 .autoSync (sampleMoment ['a'])]

def revertedReceipt : Label :=
  .reply 2 (.rpc (.rawReceipt (some ⟨some .reverted, some .acceptedOnL2⟩))) (sampleMoment ['a'])

theorem activation_reverted :
    ∃ w w' row, GuardedRun.Reaches (watchedStep covenantMode) (fun _ _ => True) watchedBoot w ∧
      watchedStep covenantMode w revertedReceipt = some w' ∧ Activates w.state w'.state row ∧
      row.depositTxHash = some (sampleHash '3') ∧
      ¬ JustRead w' revertedReceipt (sampleHash '3') := by
  have ran : ((GuardedRun.run (watchedStep covenantMode) watchedBoot revertedLabels).bind
      fun w => (watchedStep covenantMode w revertedReceipt).map fun w' =>
        (w.state.db.vaults.rows.map fun v => v.status == .active, (w'.read 2).map Prod.snd,
          w'.state.db.vaults.rows.map fun v =>
            (v.status == .active, v.depositTxHash == some (sampleHash '3')))) =
      some ([false], some false, [(true, true)]) := by decide +kernel
  obtain ⟨w, ran, seen⟩ := Option.bind_eq_some_iff.mp ran
  obtain ⟨w', stepped, seen⟩ := Option.map_eq_some_iff.mp seen
  simp only [Prod.mk.injEq, List.map_eq_singleton_iff] at seen
  obtain ⟨⟨before, was, pending⟩, read, row, rows, active, hash⟩ := seen
  refine ⟨w, w', row, GuardedRun.Reaches.start.of_run (fun _ _ _ => trivial) ran, stepped,
    ⟨by rw [rows]; exact List.mem_singleton_self row, beq_iff_eq.mp active, ?_⟩,
    beq_iff_eq.mp hash, ?_⟩
  · intro v member _
    rw [was, List.mem_singleton] at member
    rw [member]
    simpa using pending
  · rintro ⟨id, reply, moment, told, just⟩
    cases told
    rw [just] at read
    cases read

end Samples

end PrivateBtc.Backend.Activation
