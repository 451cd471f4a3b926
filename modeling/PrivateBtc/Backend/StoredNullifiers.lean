/- PrivateBtc/Backend/StoredNullifiers
   digest: A vault keeps the nullifier hash it has, because every handler and token names that one. -/

import PrivateBtc.Backend.VaultWrites

set_option autoImplicit false
set_option relaxedAutoImplicit false

namespace PrivateBtc.Backend.StoredNullifiers

open Library Library.JsText
open Database Http Processor ProofVerifier Server VaultWrites Withdrawals

/-- A vault has the nullifier hash, if there is one. -/
def Holds (db : Db) (vaultId : Text) (nullifierHash : Option Text) : Prop :=
  ∀ own, nullifierHash = some own → ∃ row ∈ db.vaults.rows, row.id = vaultId ∧
    row.nullifierHash = some own

/-- The vault of a waiting handler with the nullifier hash that the handler has read. -/
def named : Task → Option (Text × Option Text)
  | .execute (.checking vault _) => some (vault.id, vault.nullifierHash)
  | task => about task

/-- What the handlers and the proof tokens say of nullifier hashes is in the table. -/
structure Consistent (s : State) : Prop where
  tasks : ∀ id request task subject, s.tasks id = some (request, task) →
    named task = some subject → Holds s.db subject.1 subject.2
  issued : ∀ token ∈ s.issued, Holds s.db token.vaultId token.nullifierHash

/-- The columns of a vault that no statement changes once it has a nullifier hash. -/
structure Kept (row row' : VaultRow) : Prop where
  same : SameVault row row'
  nullifier : ∀ own, row.nullifierHash = some own → row'.nullifierHash = some own

def Keeps (db db' : Db) : Prop :=
  ∀ row ∈ db.vaults.rows, ∃ row' ∈ db'.vaults.rows, Kept row row'

theorem Kept.trans {row row' row'' : VaultRow} (first : Kept row row') (second : Kept row' row'') :
    Kept row row'' :=
  ⟨first.same.trans second.same, fun own told => second.nullifier own (first.nullifier own told)⟩

theorem Holds.kept {db db' : Db} {vaultId : Text} {nullifierHash : Option Text}
    (holds : Holds db vaultId nullifierHash) (keeps : Keeps db db') :
    Holds db' vaultId nullifierHash := by
  intro own told
  obtain ⟨row, member, here, has⟩ := holds own told
  obtain ⟨row', member', kept⟩ := keeps row member
  exact ⟨row', member', kept.same.id.trans here, kept.nullifier own has⟩

theorem holds_of_mem {db : Db} {row : VaultRow} (member : row ∈ db.vaults.rows) :
    Holds db row.id row.nullifierHash :=
  fun _ told => ⟨row, member, rfl, told⟩

theorem named_of_about {task : Task} {subject : Text × Option Text}
    (told : about task = some subject) : named task = some subject := by
  unfold named
  split
  · cases told
  · exact told

theorem named_cases {task : Task} {subject : Text × Option Text}
    (told : named task = some subject) : about task = some subject ∨
      ∃ vault checks, task = .execute (.checking vault checks) ∧
        (vault.id, vault.nullifierHash) = subject := by
  unfold named at told
  split at told
  · next vault checks => exact Or.inr ⟨vault, checks, rfl, Option.some.inj told⟩
  · exact Or.inl told

variable {env : Environment} {s s' : State} {label : Label}

/-- Only a withdrawal by proof writes over a nullifier hash, and it writes the same. -/
theorem written_kept (consistent : Consistent s) {write : VaultWrite}
    (issues : Issues env s label write) {row : VaultRow} (member : row ∈ s.db.vaults.rows) :
    Kept row (write.written row) := by
  have filled : ∀ own other, row.nullifierHash = some own →
      row.nullifierHash.or other = some own := by
    intro own other told
    rw [told, Option.some_or]
  refine ⟨write.written_same row, fun own told => ?_⟩
  unfold VaultWrite.written
  split_ifs with selected
  · cases write with
    | revive new => exact filled own _ told
    | reviveRelayed relaying txHash => exact filled own _ told
    | spend txHash nullifierHash withdrawal usedAt =>
        have here : (row.id == withdrawal.vaultId) = true := selected
        obtain ⟨id, request, task, waits, asked⟩ := spend_about env issues
        obtain ⟨row₁, member₁, id₁, has⟩ :=
          consistent.tasks id request task _ waits (named_of_about asked) nullifierHash rfl
        have equal : row₁ = row := s.db.vaults.eq_of_clash member₁ member (by
          simp [vaultSchema, id₁, beq_iff_eq.mp here])
        rw [equal, told] at has
        exact has.symm
    | _ => exact told
  · exact told

theorem step_keeps (consistent : Consistent s) (stepped : step env s label = some s') :
    Keeps s.db s'.db := by
  intro row member
  cases step_wrote env stepped with
  | nothing vaults _ => exact ⟨row, by rwa [vaults], SameVault.refl row, fun _ told => told⟩
  | wrote write issues rows _ =>
      refine ⟨write.written row, ?_, written_kept consistent issues member⟩
      rw [rows]
      exact List.mem_append_left _ (List.mem_map_of_mem member)

/-- A turn that neither starts a verification nor issues a token. -/
structure Inert (turn : SystemTurn) : Prop where
  next : ∀ vault checks, turn.next ≠ some (.execute (.checking vault checks))
  issued : issuedBy turn.answer = []

theorem lift_inert {T A : Type} {task : T → Task} {answer : A → Answer} {turn : Turn T A}
    (apart : ∀ t later, task t ≠ .execute later) (silent : ∀ a told, answer a ≠ .execute told) :
    Inert (lift task answer turn) := by
  constructor
  · intro vault checks next
    obtain ⟨t, _, told⟩ := Option.map_eq_some_iff.mp next
    exact apart t _ told
  · show issuedBy (turn.answer.map fun result => result.map answer) = []
    rcases turn.answer with _ | rejection | a
    · rfl
    · rfl
    · show issuedBy (some (.ok (answer a))) = []
      unfold issuedBy
      split
      · next told => exact absurd (Except.ok.inj (Option.some.inj told)) (silent a _)
      · rfl

theorem liftPay_inert {T A : Type} {task : T → Task} {answer : A → Answer} {turn : PayTurn T A}
    (apart : ∀ t later, task t ≠ .execute later) (silent : ∀ a told, answer a ≠ .execute told) :
    Inert (liftPay task answer turn) :=
  ⟨(lift_inert apart silent).next, (lift_inert apart silent).issued⟩

theorem withdraw_inert (turn : WithdrawTurn) : Inert (liftPay .withdraw .withdraw turn) :=
  liftPay_inert (fun _ _ told => by cases told) fun _ _ told => by cases told

theorem processor_inert (turn : ProcessorTurn) :
    Inert (liftPay .processor (fun _ => .processed) turn) :=
  liftPay_inert (fun _ _ told => by cases told) fun _ _ told => by cases told

/-- A request begins a verification with a vault of the table, and issues no token yet. -/
theorem begin_checking {moment : Moment} {issued : List ProofToken} {db : Db} {request : Request} :
    issuedBy (begin env moment issued db request).answer = [] ∧ ∀ vault checks,
      (begin env moment issued db request).next = some (.execute (.checking vault checks)) →
        vault ∈ db.vaults.rows := by
  have inert : ∀ turn, Inert turn → issuedBy turn.answer = [] ∧ ∀ vault checks,
      turn.next = some (.execute (.checking vault checks)) → vault ∈ db.vaults.rows :=
    fun turn inert => ⟨inert.issued, fun vault checks next => absurd next (inert.next vault checks)⟩
  cases request with
  | verifyWithdraw proof =>
      simp only [begin, lift, Withdrawals.verifyWithdraw]
      split_ifs
      · exact ⟨rfl, fun _ _ next => (by cases next)⟩
      · split
        · exact ⟨rfl, fun _ _ next => (by cases next)⟩
        · next vault found =>
          refine ⟨rfl, fun _ _ next => ?_⟩
          cases next
          exact (Table.find?_some found).1
  | executeWithdraw body =>
      simp only [begin, executeWithdraw]
      unfold Turn.orReject
      split
      · exact ⟨rfl, fun _ _ next => (by cases next)⟩
      · exact ⟨rfl, fun _ _ next => (by cases next)⟩
  | withdraw body => exact inert _ (withdraw_inert _)
  | processAuthorizations => exact inert _ (processor_inert _)
  | _ => exact inert _ (lift_inert (fun _ _ told => by cases told) fun _ _ told => by cases told)

theorem conclude_token {vault : VaultRow} {checks : Checks} {registered : Bool} {nowSecs : Nat}
    {token : ProofToken}
    (made : token ∈ (conclude vault checks registered nowSecs).proofToken.toList) :
    token.vaultId = vault.id ∧ token.nullifierHash = vault.nullifierHash := by
  unfold conclude at made
  dsimp only at made
  split_ifs at made
  · rw [List.mem_singleton.mp made]
    exact ⟨rfl, rfl⟩
  · cases made

theorem reject_inert (db : Db) (rejection : Rejection) :
    Inert (lift .execute .execute (.reject db rejection : ExecuteTurn)) := by
  refine ⟨fun vault checks next => ?_, rfl⟩
  cases next

theorem wait_inert (db : Db) {task : ExecuteTask}
    (apart : ∀ vault checks, task ≠ .checking vault checks) :
    Inert (lift .execute .execute (.wait db task : ExecuteTurn)) := by
  refine ⟨fun vault checks next => ?_, rfl⟩
  cases next
  exact apart vault checks rfl

/-- A verification that goes on ends, and a token that it issues is about its own vault. -/
theorem execute_checking {cfg : Payments.Config} {moment : Moment} {db : Db} {task : ExecuteTask}
    {reply : Starknet.RpcReply} {turn : ExecuteTurn}
    (resumed : resumeExecute cfg moment db task reply = some turn) :
    Inert (lift .execute .execute turn) ∨ ∃ vault checks, task = .checking vault checks ∧
      turn.next = none ∧ ∀ token ∈ issuedBy (lift .execute .execute turn).answer,
        token.vaultId = vault.id ∧ token.nullifierHash = vault.nullifierHash := by
  unfold resumeExecute at resumed
  split at resumed
  · next vault checks registered =>
    cases resumed
    unfold afterCheck
    dsimp only
    split_ifs
    · exact Or.inr ⟨vault, checks, rfl, rfl, fun token issued => conclude_token issued⟩
    · exact Or.inl (reject_inert _ _)
  · cases resumed
    unfold afterWithdrawReceipt
    split
    · exact Or.inl (wait_inert _ fun _ _ told => by cases told)
    · exact Or.inl (reject_inert _ _)
    · exact Or.inl (wait_inert _ fun _ _ told => by cases told)
  · next txHash withdrawal blockNumber answer =>
    cases resumed
    unfold afterEvent
    split
    · exact Or.inl (reject_inert _ _)
    · split
      · exact Or.inl (reject_inert _ _)
      · next nullifierHash _ =>
        split_ifs
        · cases spend moment txHash nullifierHash withdrawal blockNumber db with
          | error message => exact Or.inl (reject_inert _ _)
          | ok db' =>
              refine Or.inl ⟨fun vault checks next => ?_, rfl⟩
              cases next
        · exact Or.inl (reject_inert _ _)
  · cases resumed

theorem resume_checking {moment : Moment} {nextRequest : Nat} {db : Db} {task : Task}
    {reply : Reply} {turn : SystemTurn}
    (resumed : resume env moment nextRequest db task reply = some turn) :
    Inert turn ∨ ∃ vault checks, task = .execute (.checking vault checks) ∧
      turn.next = none ∧ ∀ token ∈ issuedBy turn.answer,
        token.vaultId = vault.id ∧ token.nullifierHash = vault.nullifierHash := by
  cases resume_resumed env resumed with
  | execute went =>
      rcases execute_checking went with inert | ⟨vault, checks, rfl, ends, tokens⟩
      · exact Or.inl inert
      · exact Or.inr ⟨vault, checks, rfl, by rw [lift, ends]; rfl, tokens⟩
  | deposit _ =>
      exact Or.inl (lift_inert (fun _ _ told => by cases told) fun _ _ told => by cases told)
  | audit _ =>
      exact Or.inl (lift_inert (fun _ _ told => by cases told) fun _ _ told => by cases told)
  | executing => exact Or.inl (withdraw_inert _)
  | racing _ => exact Or.inl (withdraw_inert _)
  | orphaned _ => exact Or.inl (withdraw_inert _)
  | verifying => exact Or.inl (processor_inert _)
  | paying _ => exact Or.inl (processor_inert _)

theorem expire_inert {moment : Moment} {db : Db} {task : Task} {turn : SystemTurn}
    (expired : expire moment db task = some turn) : Inert turn := by
  cases expire_expired expired with
  | racing => exact withdraw_inert _

/-- A waiting handler still names a nullifier hash of the table. -/
theorem step_named (consistent : Consistent s) (stepped : step env s label = some s') {id : Nat}
    {request : Request} {task : Task} {subject : Text × Option Text}
    (waits : s'.tasks id = some (request, task)) (told : named task = some subject) :
    Holds s.db subject.1 subject.2 := by
  cases step_arises env stepped waits with
  | kept held => exact consistent.tasks _ request task subject held told
  | begun next =>
      rcases named_cases told with told | ⟨vault, checks, rfl, rfl⟩
      · obtain ⟨vault, member, here, -, own | ⟨token, shown, there, same⟩⟩ :=
          begin_about env next told
        · rw [← here, ← own]
          exact holds_of_mem member
        · rw [← there, ← same]
          exact consistent.issued token shown
      · exact holds_of_mem (begin_checking.2 vault checks next)
  | resumed held went next =>
      rcases named_cases told with told | ⟨vault, checks, rfl, rfl⟩
      · exact consistent.tasks _ request _ subject held
          (named_of_about (resume_stays env went task next subject told))
      · rcases resume_checking went with inert | ⟨_, _, _, ends, _⟩
        · exact absurd next (inert.next vault checks)
        · rw [ends] at next
          cases next
  | expired held went next =>
      rcases named_cases told with told | ⟨vault, checks, rfl, rfl⟩
      · exact consistent.tasks _ request _ subject held
          (named_of_about (expire_stays went task next subject told))
      · exact absurd next ((expire_inert went).next vault checks)

/-- A proof token is issued for the nullifier hash of its vault. -/
theorem step_tokens (consistent : Consistent s) (stepped : step env s label = some s')
    {token : ProofToken} (issued : token ∈ s'.issued) :
    Holds s.db token.vaultId token.nullifierHash := by
  cases step_stepped env stepped with
  | request idle =>
      rcases List.mem_append.mp issued with old | new
      · exact consistent.issued token old
      · rw [begin_checking.1] at new
        cases new
  | @reply id request task reply moment turn waits resumed =>
      rcases List.mem_append.mp issued with old | new
      · exact consistent.issued token old
      · rcases resume_checking resumed with inert | ⟨vault, checks, rfl, _, tokens⟩
        · rw [inert.issued] at new
          cases new
        · obtain ⟨here, own⟩ := tokens token new
          rw [here, own]
          exact consistent.tasks id request _ _ waits rfl
  | timeout waits expired =>
      rcases List.mem_append.mp issued with old | new
      · exact consistent.issued token old
      · rw [(expire_inert expired).issued] at new
        cases new
  | land => exact consistent.issued token issued
  | block fresh => exact consistent.issued token issued

theorem step_consistent (consistent : Consistent s) (stepped : step env s label = some s') :
    Consistent s' := by
  have keeps := step_keeps consistent stepped
  constructor
  · intro id request task subject waits told
    exact (step_named consistent stepped waits told).kept keeps
  · intro token issued
    exact (step_tokens consistent stepped issued).kept keeps

theorem starts_consistent (starts : Starts s) (untold : s.issued = []) : Consistent s := by
  constructor
  · intro id request task subject waits
    rw [starts.tasks] at waits
    cases waits
  · intro token issued
    rw [untold] at issued
    cases issued

/-- No later state changes the columns of a vault that has its nullifier hash. -/
theorem run_kept (consistent : Consistent s) {row : VaultRow} (member : row ∈ s.db.vaults.rows)
    (run : Reaches env (fun _ _ => True) s s') :
    ∃ row' ∈ s'.db.vaults.rows, Kept row row' := by
  let Held (s' : State) : Prop := Consistent s' ∧ ∃ row' ∈ s'.db.vaults.rows, Kept row row'
  have first : Held s := ⟨consistent, row, member, SameVault.refl row, fun _ told => told⟩
  have held : Held s' := by
    refine run.invariant first ?_
    rintro s₁ label s₂ ⟨consistent₁, row₁, member₁, kept₁⟩ - stepped
    obtain ⟨row₂, member₂, kept₂⟩ := step_keeps consistent₁ stepped row₁ member₁
    exact ⟨step_consistent consistent₁ stepped, row₂, member₂, kept₁.trans kept₂⟩
  exact held.2

end PrivateBtc.Backend.StoredNullifiers
