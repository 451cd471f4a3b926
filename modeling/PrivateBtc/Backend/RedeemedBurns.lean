/- PrivateBtc/Backend/RedeemedBurns
   digest: Which runs give every burn of a withdrawal its authorization, whatever throws in them. -/

import PrivateBtc.Backend.BurnGrants

set_option autoImplicit false
set_option relaxedAutoImplicit false

namespace PrivateBtc.Backend.RedeemedBurns

open Library Library.JsText Library.Outcome
open Calldata (Invocation)
open Contracts.Vault (Call execute)
open Authorizations BurnGrants CarriedRows CryptoService Database Http Payments Server Starknet
open StatementFaults Withdrawals
open WithdrawGate (WithdrawBody WithdrawCall WithdrawRequest)

variable (env : Environment)

/-- A step in which statements of the withdraw handler may throw, with the calls it answers. -/
def logUnder (t : Logged) (label : Label × Faults) : Option Logged :=
  (stepUnder env t.state label).map fun s => ⟨s, t.submissions ++ answered t.state label.1⟩

/-- The call is in a transaction that was included and not reverted: its nullifier is consumed. -/
def Consumed (chain : Chain) (hash : Text) (call : WithdrawCall) : Prop :=
  chain.included hash = some ⟨(Invocation.withdraw call).calls env.felts env.relayer, true⟩

/-- The call is in such a transaction, and nobody was told its hash. -/
def Unheard (chain : Chain) (call : WithdrawCall) : Prop :=
  ∃ hash, chain.submitted hash = none ∧ Consumed env chain hash call

/-- The transaction of a handler has consumed its nullifier: the handler knows the hash, or its
call was answered with an error although the transaction is included. -/
def Burnt (chain : Chain) (submission : Submission) : Prop :=
  match submission.outcome with
  | .ok txHash => Consumed env chain (canonicalHash txHash) submission.call
  | .error _ => Unheard env chain submission.call

/-- A later request makes the authorization, without another Starknet call. -/
def Recoverable (db : Db) (nullifierHash : Text) : Prop :=
  ∃ body moment, Authorized (withdraw env.toConfig moment db body).db nullifierHash

/-- Every burn has an authorization, or can still get one. -/
def Redeemed (t : Logged) : Prop :=
  ∀ submission ∈ t.submissions, Burnt env t.state.chain submission →
    Authorized t.state.db submission.request.nullifierHash ∨
      Recoverable env t.state.db submission.request.nullifierHash

/-- The calls of a block run through. -/
def RunsThrough (chain : Chain) (calls : Option (List Call)) : Prop :=
  ∃ held world, calls = some held ∧ held.foldlM (execute env.sha) chain.world = .ok world

/-- The answer of a Starknet call is a hash that an authorization can be stored under, with no
statement throwing before it is stored, and an error only for a transaction that is not included
and never will be. -/
def Secured (t : Logged) : Label × Faults → Prop
  | (.reply id (.rpc (.executed outcome)) moment, faults) => ∀ asked request vault call,
      t.state.tasks id = some (asked, .withdraw (.executing request vault call)) →
        Authorized t.state.db request.nullifierHash ∨
          match outcome with
          | .ok txHash => Storable t.state.db moment txHash ∧ Stores faults
          | .error _ => ¬ Unheard env t.state.chain call
  | (.block txHash calls, _) => t.state.chain.submitted (canonicalHash txHash) = none →
      RunsThrough env t.state.chain calls → ∀ submission ∈ t.submissions,
        ∀ failure, submission.outcome = .error failure →
          Authorized t.state.db submission.request.nullifierHash ∨
            calls ≠ (Invocation.withdraw submission.call).calls env.felts env.relayer
  | _ => True

/-- What every secured run keeps for each call that was answered. -/
def Kept (s : State) (submission : Submission) : Prop :=
  Authorized s.db submission.request.nullifierHash ∨
    ∃ failure, submission.outcome = .error failure ∧ ¬ Unheard env s.chain submission.call

theorem submit_included {chain : Chain} {task : Task} {reply : Reply} :
    (submit env chain task reply).included = chain.included := by
  unfold submit
  split
  · split <;> rfl
  · rfl

/-- A hash that has been told stays told. -/
theorem submit_untold {chain : Chain} {task : Task} {reply : Reply} {hash : Text}
    (untold : (submit env chain task reply).submitted hash = none) :
    chain.submitted hash = none := by
  unfold submit at untold
  split at untold
  · split at untold
    · dsimp only at untold
      rw [Function.update_apply] at untold
      split_ifs at untold
      exact untold
    · exact untold
  · exact untold

theorem unheard_submit {chain : Chain} {task : Task} {reply : Reply} {call : WithdrawCall}
    (unheard : Unheard env (submit env chain task reply) call) : Unheard env chain call := by
  obtain ⟨hash, untold, included⟩ := unheard
  rw [Consumed, submit_included] at included
  exact ⟨hash, submit_untold env untold, included⟩

theorem unheard_include {chain : Chain} {txHash : Text} {held : Option (List Call)}
    {call : WithdrawCall} (unheard : Unheard env (includeCalls env chain txHash held) call) :
    Unheard env chain call ∨ chain.submitted txHash = none ∧ RunsThrough env chain held ∧
      held = (Invocation.withdraw call).calls env.felts env.relayer := by
  obtain ⟨hash, untold, included⟩ := unheard
  unfold Consumed includeCalls at included
  dsimp only at included
  rw [Function.update_apply] at included
  split_ifs at included with here
  · right
    simp only [Option.some.injEq, Included.mk.injEq] at included
    obtain ⟨same, succeeded⟩ := included
    refine ⟨here ▸ untold, ?_, same⟩
    cases held with
    | none => cases succeeded
    | some calls =>
        dsimp only at succeeded
        cases ran : calls.foldlM (execute env.sha) chain.world with
        | error message =>
            rw [ran] at succeeded
            cases succeeded
        | ok world => exact ⟨calls, world, rfl, ran⟩
  · exact Or.inl ⟨hash, untold, included⟩

section Steps

variable {env} {t : Logged} {s s' : State} {label : Label} {faults : Faults}
  {submission : Submission}

/-- What a Starknet call was admitted for still stands, whatever has thrown since. -/
theorem stepUnder_standing (carries : Carries s) (standing : Standing env s)
    (stepped : stepUnder env s (label, faults) = some s') : Standing env s' := by
  obtain ⟨retains, -, calls⟩ := stepUnder_retains faults carries stepped
  have later : ∀ request vault, Admits env.crypto s.db request vault →
      Admits env.crypto s'.db request vault := by
    intro request vault admits
    obtain ⟨row, member, same⟩ := admits.row
    obtain ⟨row', member', same'⟩ := retains.vaults row member
    exact ⟨admits.signet, ⟨row', member', same.trans same'⟩, admits.readable⟩
  intro id asked request vault call waits
  apply later
  rcases calls id asked request vault call waits with held | ⟨body, gate⟩
  · exact standing id asked request vault call held
  · exact admits_of_gate env gate

/-- An answered Starknet call leaves its authorization. -/
theorem executedUnder_authorized {id : Nat} {asked : Request} {moment : Moment}
    {request : WithdrawRequest} {vault : VaultRow} {call : WithdrawCall} {txHash : Text}
    (standing : Standing env s)
    (waits : s.tasks id = some (asked, .withdraw (.executing request vault call)))
    (permitted : Authorized s.db request.nullifierHash ∨
      Storable s.db moment txHash ∧ Stores faults)
    (stepped : stepUnder env s (.reply id (.rpc (.executed (.ok txHash))) moment, faults) =
      some s') : Authorized s'.db request.nullifierHash := by
  have admits := standing id asked request vault call waits
  simp only [stepUnder, waits, Option.bind_eq_bind, Option.bind_some, resumeUnder,
    Option.pure_def, Option.some.injEq] at stepped
  subst stepped
  exact authorizeUnder_authorizes admits rfl permitted

/-- A call that was answered before stays accounted for. -/
theorem stepUnder_kept (carries : Carries t.state) (secured : Secured env t (label, faults))
    (member : submission ∈ t.submissions) (kept : Kept env t.state submission)
    (stepped : stepUnder env t.state (label, faults) = some s') : Kept env s' submission := by
  obtain ⟨retains, -⟩ := stepUnder_retains faults carries stepped
  rcases kept with authorized | ⟨failure, failed, silent⟩
  · exact Or.inl (authorized.extends retains.extends_)
  · cases stepUnder_stepped env stepped with
    | request idle => exact Or.inr ⟨failure, failed, silent⟩
    | reply waits resumed =>
        exact Or.inr ⟨failure, failed, fun unheard => silent (unheard_submit env unheard)⟩
    | timeout waits expired => exact Or.inr ⟨failure, failed, silent⟩
    | land => exact Or.inr ⟨failure, failed, silent⟩
    | @block txHash calls fresh =>
        by_cases late : Unheard env (includeCalls env t.state.chain (canonicalHash txHash)
            ((t.state.chain.submitted (canonicalHash txHash)).getD calls)) submission.call
        · rcases unheard_include env late with unheard | ⟨untold, runs, same⟩
          · exact absurd unheard silent
          · rw [untold] at runs same
            rcases secured untold runs submission member failure failed with authorized | other
            · exact Or.inl authorized
            · exact absurd same other
        · exact Or.inr ⟨failure, failed, late⟩

/-- A call that is answered is accounted for at once. -/
theorem answered_kept (carries : Carries t.state) (standing : Standing env t.state)
    (secured : Secured env t (label, faults)) (member : submission ∈ answered t.state label)
    (stepped : stepUnder env t.state (label, faults) = some s') : Kept env s' submission := by
  unfold answered at member
  split at member
  · next id outcome moment =>
    split at member
    · next asked request vault call waits =>
      rw [List.mem_singleton] at member
      subst member
      have permitted := secured asked request vault call waits
      cases outcome with
      | ok txHash => exact Or.inl (executedUnder_authorized standing waits permitted stepped)
      | error failure =>
          rcases permitted with authorized | silent
          · have retains := (stepUnder_retains faults carries stepped).1
            exact Or.inl (authorized.extends retains.extends_)
          · simp only [stepUnder, waits, Option.bind_eq_bind, Option.bind_some, resumeUnder,
              Option.pure_def, Option.some.injEq] at stepped
            subst stepped
            exact Or.inr ⟨failure, rfl, silent⟩
    · cases member
  · cases member

end Steps

/-- In a secured run every nullifier that a withdraw handler has burnt has its authorization,
whatever statements of the handlers throw. -/
theorem burn_redeemed {start : State} {t : Logged} (starts : Starts start)
    (run : GuardedRun.Reaches (logUnder env) (Secured env) ⟨start, []⟩ t) : Redeemed env t := by
  let Invariant (t : Logged) : Prop := Carries t.state ∧ Standing env t.state ∧
    ∀ submission ∈ t.submissions, Kept env t.state submission
  have first : Invariant ⟨start, []⟩ := by
    refine ⟨?_, ?_, by simp⟩
    · intro id request task waits
      rw [starts.tasks] at waits
      cases waits
    · intro id asked request vault call waits
      rw [starts.tasks] at waits
      cases waits
  have holds : Invariant t := by
    refine run.invariant first ?_
    rintro t ⟨label, faults⟩ t' ⟨carries, standing, kept⟩ secured logged
    obtain ⟨s', stepped, rfl⟩ := Option.map_eq_some_iff.mp logged
    refine ⟨(stepUnder_retains faults carries stepped).2.1,
      stepUnder_standing carries standing stepped, ?_⟩
    intro submission member
    rcases List.mem_append.mp member with old | new
    · exact stepUnder_kept carries secured old (kept submission old) stepped
    · exact answered_kept carries standing secured new stepped
  intro submission member burnt
  rcases holds.2.2 submission member with authorized | ⟨failure, failed, silent⟩
  · exact Or.inl authorized
  · rw [Burnt, failed] at burnt
    exact absurd burnt silent

section Timeout

theorem logUnder_calm (t : Logged) (label : Label) :
    logUnder env t (label, calm) = log env t label := by
  rw [logUnder, stepUnder_calm]
  rfl

/-- A run in which nothing throws is a run of the server. -/
theorem run_calm (t : Logged) (labels : List Label) :
    GuardedRun.run (logUnder env) t (labels.map fun label => (label, calm)) =
      GuardedRun.run (log env) t labels := by
  induction labels generalizing t with
  | nil => rfl
  | cons label labels ih =>
      rw [List.map_cons, GuardedRun.run, GuardedRun.run, logUnder_calm]
      congr 1
      funext t₁
      exact ih t₁

def sampleCall : WithdrawCall where
  nullifierHash := ['0', 'x', '7']
  proof := [['0', 'x', '7']]
  recipient := burnMode.accountAddress
  amount := 1000000000000000

/-- The eight seconds of the RPC wrapper are over before the node answers. -/
def timedOutLabels : List Label :=
  depositLabels ++ [fundLabel, .request 1 (.withdraw sampleWithdraw) (sampleMoment ['w']),
    .reply 1 (.rpc (.executed (.error (.wrapper "RPC request timed out")))) (sampleMoment ['w'])]

def lateHash : Text := canonicalHash (sampleHash '9')

def lateLabel : Label :=
  .block (sampleHash '9') ((Invocation.withdraw sampleCall).calls .shortStrings 12)

theorem block_included {s s' : State} {txHash : Text} {calls : Option (List Call)}
    (untold : s.chain.submitted (canonicalHash txHash) = none)
    (stepped : step env s (.block txHash calls) = some s') :
    (s'.chain.included (canonicalHash txHash)).map (fun included => included.calls) =
      some calls := by
  cases step_stepped env stepped with
  | block fresh =>
      rw [untold]
      simp [includeCalls]

/-- While no vault records a withdrawal, a request makes no authorization at once. -/
theorem unrecoverable {db : Db} {nullifierHash : Text}
    (open_ : ∀ row ∈ db.vaults.rows, row.withdrawTxHash = none)
    (missing : ¬ Authorized db nullifierHash) : ¬ Recoverable env db nullifierHash := by
  rintro ⟨body, moment, authorized⟩
  unfold withdraw at authorized
  split at authorized
  · exact missing authorized
  · exact missing authorized
  · next request vault txHash gate =>
    obtain ⟨screens, recorded⟩ := WithdrawGate.withdrawGate_retry gate
    rw [open_ vault screens.member.1] at recorded
    cases recorded

/-- The answer comes too late, the transaction is included, and the handler has left nothing
that a later request could go on from. -/
theorem timed_out_burn :
    ∃ t, GuardedRun.Reaches (logUnder burnMode) (fun _ _ => True) ⟨boot sampleGenesis, []⟩ t ∧
      t.state.tasks 1 = none ∧ t.state.chain.world.vault.nullifiers 7 = true ∧
      ¬ Redeemed burnMode t := by
  have ran : ((GuardedRun.run (log burnMode) ⟨boot sampleGenesis, []⟩ timedOutLabels).bind fun t =>
      (step burnMode t.state lateLabel).map fun s =>
        ([(t.state.chain.submitted lateHash).isNone,
            (s.chain.included lateHash).any fun included => included.succeeded,
            (s.tasks 1).isNone, s.chain.world.vault.nullifiers 7, s.db.authorizations.rows.isEmpty,
            s.db.vaults.rows.all fun row => row.withdrawTxHash.isNone],
          t.submissions.map fun sub => (sub.request.nullifierHash,
            [decide (sub.call = sampleCall), sub.outcome.toOption.isNone]))) =
      some ([true, true, true, true, true, true], [(['0', 'x', '7'], [true, true])]) := by
    decide +kernel
  simp only [Option.bind_eq_some_iff, Option.map_eq_some_iff, Prod.mk.injEq, List.cons.injEq,
    and_true, Option.isNone_iff_eq_none, Option.any_eq_true, List.isEmpty_iff,
    List.all_eq_true] at ran
  obtain ⟨t, ran, s, stepped, ⟨untold, ⟨held, atHash, succeeded⟩, ended, consumed, unauthorized,
    open_⟩, made⟩ := ran
  have reached : GuardedRun.Reaches (logUnder burnMode) (fun _ _ => True)
      ⟨boot sampleGenesis, []⟩ t := by
    rw [← run_calm] at ran
    exact GuardedRun.Reaches.start.of_run (fun _ _ _ => trivial) ran
  have logged : logUnder burnMode t (lateLabel, calm) = some ⟨s, t.submissions ++ []⟩ := by
    rw [logUnder_calm, log, stepped]
    rfl
  refine ⟨_, reached.step trivial logged, ended, consumed, fun redeemed => ?_⟩
  obtain ⟨sub, member, nullifier, call, failed⟩ : ∃ sub ∈ t.submissions,
      sub.request.nullifierHash = ['0', 'x', '7'] ∧ sub.call = sampleCall ∧
        sub.outcome.toOption = none := by
    obtain ⟨sub, member, told⟩ := List.mem_map.mp (made ▸ List.mem_singleton_self _)
    simp only [Prod.mk.injEq, List.cons.injEq, decide_eq_true_eq, and_true,
      Option.isNone_iff_eq_none] at told
    exact ⟨sub, member, told⟩
  have burnt : Burnt burnMode s.chain sub := by
    have here : s.chain.included lateHash = some held := atHash
    have calls : (s.chain.included lateHash).map (fun included => included.calls) =
        some ((Invocation.withdraw sampleCall).calls .shortStrings 12) :=
      block_included burnMode untold stepped
    rw [here, Option.map_some, Option.some.injEq] at calls
    have consumes : Consumed burnMode s.chain lateHash sub.call := by
      rw [Consumed, here, call]
      rcases held with ⟨held, done⟩
      subst calls succeeded
      rfl
    cases outcome : sub.outcome with
    | ok txHash =>
        rw [outcome] at failed
        cases failed
    | error failure =>
        rw [Burnt, outcome]
        cases step_stepped burnMode stepped with
        | block fresh => exact ⟨lateHash, untold, consumes⟩
  have missing : ¬ Authorized s.db sub.request.nullifierHash := by
    rintro ⟨row, there, -⟩
    rw [unauthorized] at there
    cases there
  rcases redeemed sub (List.mem_append_left _ member) burnt with authorized | recoverable
  · exact missing authorized
  · exact unrecoverable burnMode open_ missing recoverable

/-- The UPDATE of the vault throws. -/
def busy : Faults
  | .closeVault => some "database is locked"
  | _ => none

def offlineLabel : Label := .reply 0 (.mempool (.utxos (.error "offline"))) (sampleMoment ['e'])

/-- The answer comes in time: the burn has its authorization, although the immediate payout fails
and the vault is then left open. -/
theorem answered_burn_redeemed :
    ∃ t, GuardedRun.Reaches (logUnder burnMode) (Secured burnMode) ⟨deposited, []⟩ t ∧
      t.state.chain.world.vault.nullifiers 7 = true ∧ t.state.tasks 0 = none ∧
      (∀ row ∈ t.state.db.vaults.rows, row.withdrawTxHash = none) ∧
      t.submissions.map (fun sub => sub.request.nullifierHash) = [['0', 'x', '7']] ∧
      Redeemed burnMode t := by
  have ran : ((logUnder burnMode ⟨deposited, []⟩ (fundLabel, calm)).bind fun t₁ =>
      (logUnder burnMode t₁ (withdrawRequest, calm)).bind fun t₂ =>
      (logUnder burnMode t₂ (withdrawAnswer, busy)).bind fun t₃ =>
      (logUnder burnMode t₃ (.block (sampleHash '4') none, calm)).bind fun t₄ =>
        (logUnder burnMode t₄ (offlineLabel, busy)).map fun t₅ =>
          ([t₂.state.db.authorizations.rows.isEmpty,
              (t₃.state.chain.submitted (canonicalHash (sampleHash '4'))).isNone,
              t₅.state.chain.world.vault.nullifiers 7, (t₅.state.tasks 0).isNone,
              t₅.state.db.vaults.rows.all fun row => row.withdrawTxHash.isNone],
            t₅.submissions.map fun sub => sub.request.nullifierHash)) =
      some ([true, false, true, true, true], [['0', 'x', '7']]) := by decide +kernel
  simp only [Option.bind_eq_some_iff, Option.map_eq_some_iff, Prod.mk.injEq, List.cons.injEq,
    and_true, List.isEmpty_iff, Option.isNone_iff_eq_none, List.all_eq_true] at ran
  obtain ⟨t₁, funded, t₂, asked, t₃, told, t₄, included, t₅, ended, ⟨unauthorized, known, consumed,
    idle, open_⟩, made⟩ := ran
  have run₁ : GuardedRun.Reaches (logUnder burnMode) (Secured burnMode) ⟨deposited, []⟩ t₁ := by
    refine GuardedRun.Reaches.start.step ?_ funded
    intro _ _ sub member
    cases member
  have permitted : Secured burnMode t₁ (withdrawRequest, calm) := trivial
  have run₂ := run₁.step permitted asked
  have run₃ : GuardedRun.Reaches (logUnder burnMode) (Secured burnMode) ⟨deposited, []⟩ t₃ := by
    refine run₂.step ?_ told
    intro _ _ _ _ _
    refine Or.inr ⟨⟨by decide, by decide, fun row member => ?_⟩, by simp [Stores, storing, busy]⟩
    rw [unauthorized] at member
    cases member
  have run₄ : GuardedRun.Reaches (logUnder burnMode) (Secured burnMode) ⟨deposited, []⟩ t₄ := by
    refine run₃.step ?_ included
    intro untold
    rw [untold] at known
    cases known
  have permitted' : Secured burnMode t₄ (offlineLabel, busy) := trivial
  have run₅ := run₄.step permitted' ended
  exact ⟨t₅, run₅, consumed, idle, open_, made, burn_redeemed burnMode ⟨fun _ => rfl, rfl⟩ run₅⟩

end Timeout

end PrivateBtc.Backend.RedeemedBurns
