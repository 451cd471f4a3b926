/- PrivateBtc/Backend/Server
   digest: The whole backend: handlers that take turns over one database, a chain and a mempool. -/

import PrivateBtc.Backend.Deposits
import PrivateBtc.Backend.Processor
import PrivateBtc.Contracts.VaultRuns
import PrivateBtc.Library.GuardedRun

set_option autoImplicit false
set_option relaxedAutoImplicit false

namespace PrivateBtc.Backend.Server

open Library Library.JsText
open Calldata (FeltReading Invocation)
open Contracts.Corelib (Felt)
open Contracts.Hashing (HashFunction)
open Contracts.Vault (Call Genesis World)
open Authorizations Database Deposits Http Payments Processor ProofVerifier Starknet Withdrawals
open WithdrawGate (WithdrawBody)

inductive Request where
  | prepareDeposit (body : PrepareBody)
  | confirmDeposit (body : ConfirmBody)
  | relayDeposit (body : RelayDepositBody)
  | spvDeposit (body : SpvDepositBody)
  | withdraw (body : WithdrawBody)
  | verifyWithdraw (proof : WithdrawProof)
  | executeWithdraw (body : ExecuteBody)
  | auditVerify
  | autoSync
  | processAuthorizations

inductive Task where
  | deposit (task : DepositTask)
  | withdraw (task : WithdrawTask)
  | execute (task : ExecuteTask)
  | audit (task : AuditTask)
  | processor (task : ProcessorTask)

inductive Answer where
  | deposit (answer : DepositAnswer)
  | withdraw (answer : WithdrawAnswer)
  | execute (answer : ExecuteAnswer)
  | audit (answer : Audit)
  | processed

inductive Reply where
  | rpc (reply : RpcReply)
  | mempool (reply : MempoolReply)

/-- A payment that was handed to the mempool for an authorization. -/
structure Broadcast where
  authId : Text
  payment : Payment
  landed : Bool

/-- A transaction in a block; `none` stands for calldata that no entry point can read. -/
structure Included where
  calls : Option (List Call)
  succeeded : Bool

/-- Both maps are over canonical hashes. -/
structure Chain where
  world : World
  included : Text → Option Included
  submitted : Text → Option (Option (List Call))

structure State where
  db : Db
  tasks : Nat → Option (Request × Task)
  answers : List (Request × Except Rejection Answer)
  issued : List ProofToken
  broadcasts : List Broadcast
  observed : List Text
  chain : Chain

/-- The system around the handlers: the hash function of the contracts and the relayer account. -/
structure Environment extends Config where
  sha : HashFunction
  relayer : Felt
  felts : FeltReading

/-- What happens next: a request comes, a handler gets a reply or runs out of time, a payment
lands in the mempool, or a block includes a transaction (of which `calls` is what it holds if
the backend has not submitted it). -/
inductive Label where
  | request (id : Nat) (request : Request) (moment : Moment)
  | reply (id : Nat) (reply : Reply) (moment : Moment)
  | timeout (id : Nat) (moment : Moment)
  | land (index : Nat)
  | block (hash : Text) (calls : Option (List Call))

variable (env : Environment)

/-- One turn, told for the whole system. -/
structure SystemTurn where
  db : Db
  next : Option Task
  answer : Option (Except Rejection Answer)
  sends : Option (Text × Payment)

def lift {T A : Type} (task : T → Task) (answer : A → Answer) (turn : Turn T A) : SystemTurn where
  db := turn.db
  next := turn.next.map task
  answer := turn.answer.map fun result => result.map answer
  sends := none

def liftPay {T A : Type} (task : T → Task) (answer : A → Answer) (turn : PayTurn T A) :
    SystemTurn :=
  { lift task answer turn.toTurn with sends := turn.sends }

theorem lift_next {T A : Type} {task : T → Task} {answer : A → Answer} {turn : Turn T A}
    {later : Task} :
    (lift task answer turn).next = some later ↔ ∃ t, turn.next = some t ∧ task t = later :=
  Option.map_eq_some_iff

theorem liftPay_next {T A : Type} {task : T → Task} {answer : A → Answer} {turn : PayTurn T A}
    {later : Task} :
    (liftPay task answer turn).next = some later ↔ ∃ t, turn.next = some t ∧ task t = later :=
  Option.map_eq_some_iff

def begin (moment : Moment) (issued : List ProofToken) (db : Db) : Request → SystemTurn
  | .prepareDeposit body => lift .deposit .deposit (prepareDeposit db body)
  | .confirmDeposit body => lift .deposit .deposit (confirmDeposit db body)
  | .relayDeposit body => lift .deposit .deposit (relayDeposit env.toConfig moment db body)
  | .spvDeposit body => lift .deposit .deposit (spvDeposit db body)
  | .withdraw body => liftPay .withdraw .withdraw (withdraw env.toConfig moment db body)
  | .verifyWithdraw proof => lift .execute .execute (verifyWithdraw env.toConfig moment db proof)
  | .executeWithdraw body => lift .execute .execute (executeWithdraw moment issued db body)
  | .auditVerify => lift .audit .audit (auditVerify db)
  | .autoSync => lift .audit .audit (autoSync db)
  | .processAuthorizations =>
      liftPay .processor (fun _ => .processed) (processAuthorizations moment db)

def resume (moment : Moment) (nextRequest : Nat) (db : Db) : Task → Reply → Option SystemTurn
  | .deposit task, .rpc reply =>
      (resumeDeposit env.toConfig moment db task reply).map (lift .deposit .deposit)
  | .execute task, .rpc reply =>
      (resumeExecute env.toConfig moment db task reply).map (lift .execute .execute)
  | .audit task, .rpc reply => (resumeAudit db task reply).map (lift .audit .audit)
  | .withdraw (.executing request vault _), .rpc (.executed reply) =>
      some (liftPay .withdraw .withdraw (afterWithdraw env.toConfig moment db request vault reply))
  | .withdraw (.racing withdrawing payout), .mempool reply =>
      (resumeRacing env.toConfig moment nextRequest db withdrawing payout reply).map
        (liftPay .withdraw .withdraw)
  | .withdraw (.orphaned payout), .mempool reply =>
      (resumeOrphaned env.toConfig moment nextRequest db payout reply).map
        (liftPay .withdraw .withdraw)
  | .processor (.verifying auth rest), .rpc (.receipt reply) =>
      some (liftPay .processor (fun _ => .processed)
        (afterVerification env.toConfig moment db auth rest reply))
  | .processor (.paying payout rest), .mempool reply =>
      (resumePaying env.toConfig moment nextRequest db payout rest reply).map
        (liftPay .processor fun _ => .processed)
  | _, _ => none

/-- The timer that lets a handler go on by itself: the race of the route's payout. A timer on an
answer of the node ends the wait with an error reply, and the processor's own timer of 15 s never
fires: the 8 s of `withResilience` have decided its check by then. -/
def expire (moment : Moment) (db : Db) : Task → Option SystemTurn
  | .withdraw (.racing withdrawing payout) =>
      some (liftPay .withdraw .withdraw (loseRace moment db withdrawing payout))
  | _ => none

/-- How a handler goes on with a reply. -/
inductive Resumed (moment : Moment) (nextRequest : Nat) (db : Db) : Task → Reply → SystemTurn → Prop
  | deposit {task : DepositTask} {reply : RpcReply} {turn : DepositTurn}
      (went : resumeDeposit env.toConfig moment db task reply = some turn) :
      Resumed moment nextRequest db (.deposit task) (.rpc reply) (lift .deposit .deposit turn)
  | execute {task : ExecuteTask} {reply : RpcReply} {turn : ExecuteTurn}
      (went : resumeExecute env.toConfig moment db task reply = some turn) :
      Resumed moment nextRequest db (.execute task) (.rpc reply) (lift .execute .execute turn)
  | audit {task : AuditTask} {reply : RpcReply} {turn : AuditTurn}
      (went : resumeAudit db task reply = some turn) :
      Resumed moment nextRequest db (.audit task) (.rpc reply) (lift .audit .audit turn)
  | executing {request : WithdrawGate.WithdrawRequest} {vault : VaultRow}
      {call : WithdrawGate.WithdrawCall} {reply : Except ExecuteFailure Text} :
      Resumed moment nextRequest db (.withdraw (.executing request vault call))
        (.rpc (.executed reply))
        (liftPay .withdraw .withdraw (afterWithdraw env.toConfig moment db request vault reply))
  | racing {withdrawing : Withdrawing} {payout : Payout} {reply : MempoolReply}
      {turn : WithdrawTurn}
      (went : resumeRacing env.toConfig moment nextRequest db withdrawing payout reply =
        some turn) :
      Resumed moment nextRequest db (.withdraw (.racing withdrawing payout)) (.mempool reply)
        (liftPay .withdraw .withdraw turn)
  | orphaned {payout : Payout} {reply : MempoolReply} {turn : WithdrawTurn}
      (went : resumeOrphaned env.toConfig moment nextRequest db payout reply = some turn) :
      Resumed moment nextRequest db (.withdraw (.orphaned payout)) (.mempool reply)
        (liftPay .withdraw .withdraw turn)
  | verifying {auth : WithdrawalAuthorization} {rest : List WithdrawalAuthorization}
      {reply : Except String TransactionReceipt} :
      Resumed moment nextRequest db (.processor (.verifying auth rest)) (.rpc (.receipt reply))
        (liftPay .processor (fun _ => .processed)
          (afterVerification env.toConfig moment db auth rest reply))
  | paying {payout : Payout} {rest : List WithdrawalAuthorization} {reply : MempoolReply}
      {turn : ProcessorTurn}
      (went : resumePaying env.toConfig moment nextRequest db payout rest reply = some turn) :
      Resumed moment nextRequest db (.processor (.paying payout rest)) (.mempool reply)
        (liftPay .processor (fun _ => .processed) turn)

theorem resume_resumed {moment : Moment} {nextRequest : Nat} {db : Db} {task : Task}
    {reply : Reply} {turn : SystemTurn}
    (resumed : resume env moment nextRequest db task reply = some turn) :
    Resumed env moment nextRequest db task reply turn := by
  unfold resume at resumed
  split at resumed
  · obtain ⟨after, went, rfl⟩ := Option.map_eq_some_iff.mp resumed
    exact .deposit went
  · obtain ⟨after, went, rfl⟩ := Option.map_eq_some_iff.mp resumed
    exact .execute went
  · obtain ⟨after, went, rfl⟩ := Option.map_eq_some_iff.mp resumed
    exact .audit went
  · cases resumed
    exact .executing
  · obtain ⟨after, went, rfl⟩ := Option.map_eq_some_iff.mp resumed
    exact .racing went
  · obtain ⟨after, went, rfl⟩ := Option.map_eq_some_iff.mp resumed
    exact .orphaned went
  · cases resumed
    exact .verifying
  · obtain ⟨after, went, rfl⟩ := Option.map_eq_some_iff.mp resumed
    exact .paying went
  · cases resumed

/-- How a handler goes on without a reply. -/
inductive Expired (moment : Moment) (db : Db) : Task → SystemTurn → Prop
  | racing {withdrawing : Withdrawing} {payout : Payout} :
      Expired moment db (.withdraw (.racing withdrawing payout))
        (liftPay .withdraw .withdraw (loseRace moment db withdrawing payout))

theorem expire_expired {moment : Moment} {db : Db} {task : Task} {turn : SystemTurn}
    (expired : expire moment db task = some turn) : Expired moment db task turn := by
  unfold expire at expired
  split at expired
  · cases expired
    exact .racing
  · cases expired

/-- The timer only lets a payout of the route go on. -/
theorem expire_next {moment : Moment} {db : Db} {task later : Task} {turn : SystemTurn}
    (expired : expire moment db task = some turn) (next : turn.next = some later) :
    ∃ t, later = .withdraw t := by
  cases expire_expired expired with
  | racing =>
      obtain ⟨t, -, rfl⟩ := liftPay_next.mp next
      exact ⟨t, rfl⟩

/-- The hash whose receipt a task waits for. -/
def asksReceipt : Task → Option Text
  | .deposit (.waiting txHash _ _) | .deposit (.depositEvent txHash _) => some txHash
  | .execute (.waiting txHash _ _) | .execute (.event txHash _ _) => some txHash
  | .audit (.auditing txHash _ _) => some txHash
  | .audit (.syncing vault _) => vault.depositTxHash
  | .processor (.verifying auth _) => some auth.starknetTxHash
  | _ => none

def showsSuccess : Reply → Bool
  | .rpc (.receipt (.ok receipt)) => receipt.succeeded
  | .rpc (.rawReceipt (some receipt)) => receipt.executionStatus == some .succeeded
  | _ => false

/-- One spelling for each transaction hash. -/
def canonicalHash (txHash : Text) : Text := toLowerCase (paddedHash txHash)

/-- The hashes for which this reply shows a receipt with execution_status SUCCEEDED. -/
def observes (task : Task) (reply : Reply) : List Text :=
  if showsSuccess reply then ((asksReceipt task).map canonicalHash).toList else []

def payoutOf : Task → Option Payout
  | .withdraw (.racing _ payout) | .withdraw (.orphaned payout) => some payout
  | .processor (.paying payout _) => some payout
  | _ => none

def land (broadcasts : List Broadcast) (index : Nat) : List Broadcast :=
  broadcasts.modify index fun broadcast => { broadcast with landed := true }

/-- A broadcast that is answered with a txid has landed. -/
def landAnswered (task : Task) (reply : Reply) (broadcasts : List Broadcast) : List Broadcast :=
  match payoutOf task, reply with
  | some (.sent _ request), .mempool (.broadcast (.ok _)) => land broadcasts request
  | _, _ => broadcasts

/-- The transaction that a task waits to see submitted. -/
def invocation : Task → Option Invocation
  | .deposit (.executing (.spv body)) => some (.spvDeposit body.toSpvDepositParams)
  | .deposit (.executing (.relay relaying)) =>
      some (.mintAndDeposit env.vaultContractAddress relaying.body.commitment relaying.amountInWei)
  | .withdraw (.executing _ _ call) => some (.withdraw call)
  | _ => none

/-- An answered `account.execute` fixes what its hash stands for. -/
def submit (chain : Chain) (task : Task) : Reply → Chain
  | .rpc (.executed (.ok txHash)) =>
      match invocation env task with
      | some sent =>
          { chain with
            submitted := Function.update chain.submitted (canonicalHash txHash)
              (some (sent.calls env.felts env.relayer)) }
      | none => chain
  | _ => chain

/-- What a reply tells about the world, before its handler goes on. -/
def hear (s : State) (task : Task) (reply : Reply) : State :=
  { s with
    broadcasts := landAnswered task reply s.broadcasts
    observed := s.observed ++ observes task reply
    chain := submit env s.chain task reply }

def issuedBy : Option (Except Rejection Answer) → List ProofToken
  | some (.ok (.execute (.verified result))) => result.proofToken.toList
  | _ => []

/-- The state after a turn of the handler `id`. -/
def settle (s : State) (id : Nat) (request : Request) (turn : SystemTurn) : State :=
  { s with
    db := turn.db
    tasks := Function.update s.tasks id (turn.next.map fun task => (request, task))
    answers := s.answers ++ (turn.answer.map fun answer => (request, answer)).toList
    issued := s.issued ++ issuedBy turn.answer
    broadcasts := s.broadcasts ++
      (turn.sends.map fun sent => ⟨sent.1, sent.2, false⟩).toList }

@[simp] theorem settle_db (s : State) (id : Nat) (request : Request) (turn : SystemTurn) :
    (settle s id request turn).db = turn.db := rfl

theorem settle_tasks (s : State) (id other : Nat) (request : Request) (turn : SystemTurn) :
    (settle s id request turn).tasks other =
      if other = id then turn.next.map fun task => (request, task) else s.tasks other := by
  rw [settle]
  exact Function.update_apply ..

def includeCalls (chain : Chain) (hash : Text) (calls : Option (List Call)) : Chain :=
  let outcome :=
    match calls with
    | some calls => (calls.foldlM (Contracts.Vault.execute env.sha) chain.world).toOption
    | none => none
  { chain with
    world := outcome.getD chain.world
    included := Function.update chain.included hash (some ⟨calls, outcome.isSome⟩) }

def step (s : State) : Label → Option State
  | .request id request moment =>
      match s.tasks id with
      | some _ => none
      | none => some (settle s id request (begin env moment s.issued s.db request))
  | .reply id reply moment => do
      let (request, task) ← s.tasks id
      let turn ← resume env moment s.broadcasts.length s.db task reply
      pure (settle (hear env s task reply) id request turn)
  | .timeout id moment => do
      let (request, task) ← s.tasks id
      let turn ← expire moment s.db task
      pure (settle s id request turn)
  | .land index =>
      if s.broadcasts[index]?.any fun broadcast => !broadcast.landed then
        some { s with broadcasts := land s.broadcasts index }
      else none
  | .block txHash calls =>
      let hash := canonicalHash txHash
      match s.chain.included hash with
      | some _ => none
      | none =>
          let held := (s.chain.submitted hash).getD calls
          some { s with chain := includeCalls env s.chain hash held }

/-- What a step can be. -/
inductive Stepped (s : State) : Label → State → Prop where
  | request {id : Nat} {request : Request} {moment : Moment} (idle : s.tasks id = none) :
      Stepped s (.request id request moment)
        (settle s id request (begin env moment s.issued s.db request))
  | reply {id : Nat} {request : Request} {task : Task} {reply : Reply} {moment : Moment}
      {turn : SystemTurn} (waits : s.tasks id = some (request, task))
      (resumed : resume env moment s.broadcasts.length s.db task reply = some turn) :
      Stepped s (.reply id reply moment) (settle (hear env s task reply) id request turn)
  | timeout {id : Nat} {request : Request} {task : Task} {moment : Moment} {turn : SystemTurn}
      (waits : s.tasks id = some (request, task))
      (expired : expire moment s.db task = some turn) :
      Stepped s (.timeout id moment) (settle s id request turn)
  | land {index : Nat} : Stepped s (.land index) { s with broadcasts := land s.broadcasts index }
  | block {txHash : Text} {calls : Option (List Call)}
      (fresh : s.chain.included (canonicalHash txHash) = none) :
      Stepped s (.block txHash calls)
        { s with
          chain := includeCalls env s.chain (canonicalHash txHash)
            ((s.chain.submitted (canonicalHash txHash)).getD calls) }

theorem step_stepped {s s' : State} {label : Label} (step : step env s label = some s') :
    Stepped env s label s' := by
  unfold Server.step at step
  cases label with
  | request id request moment =>
      cases idle : s.tasks id with
      | some held =>
          simp only [idle] at step
          cases step
      | none =>
          simp only [idle, Option.some.injEq] at step
          subst step
          exact .request idle
  | reply id reply moment =>
      simp only [Option.bind_eq_bind, Option.bind_eq_some_iff] at step
      obtain ⟨⟨request, task⟩, waits, turn, resumed, told⟩ := step
      cases told
      exact .reply waits resumed
  | timeout id moment =>
      simp only [Option.bind_eq_bind, Option.bind_eq_some_iff] at step
      obtain ⟨⟨request, task⟩, waits, turn, expired, told⟩ := step
      cases told
      exact .timeout waits expired
  | land index =>
      dsimp only at step
      split_ifs at step
      cases step
      exact .land
  | block txHash calls =>
      cases fresh : s.chain.included (canonicalHash txHash) with
      | some included =>
          simp only [fresh] at step
          cases step
      | none =>
          simp only [fresh, Option.some.injEq] at step
          subst step
          exact .block fresh

/-- Where a waiting handler comes from: it has waited before, or a turn has left it so. -/
inductive Arises (s : State) : Label → Request → Task → Prop where
  | kept {label : Label} {id : Nat} {request : Request} {task : Task}
      (waits : s.tasks id = some (request, task)) : Arises s label request task
  | begun {id : Nat} {request : Request} {moment : Moment} {later : Task}
      (next : (begin env moment s.issued s.db request).next = some later) :
      Arises s (.request id request moment) request later
  | resumed {id : Nat} {request : Request} {task later : Task} {reply : Reply} {moment : Moment}
      {turn : SystemTurn} (waits : s.tasks id = some (request, task))
      (went : resume env moment s.broadcasts.length s.db task reply = some turn)
      (next : turn.next = some later) : Arises s (.reply id reply moment) request later
  | expired {id : Nat} {request : Request} {task later : Task} {moment : Moment}
      {turn : SystemTurn} (waits : s.tasks id = some (request, task))
      (went : expire moment s.db task = some turn) (next : turn.next = some later) :
      Arises s (.timeout id moment) request later

theorem step_arises {s s' : State} {label : Label} (stepped : step env s label = some s')
    {id : Nat} {request : Request} {task : Task} (waits : s'.tasks id = some (request, task)) :
    Arises env s label request task := by
  have settled : ∀ {before : State} {own : Nat} {asked : Request} {turn : SystemTurn},
      before.tasks = s.tasks → (settle before own asked turn).tasks id = some (request, task) →
      (asked = request ∧ turn.next = some task) ∨ s.tasks id = some (request, task) := by
    intro before own asked turn same waits
    rw [settle_tasks, same] at waits
    split_ifs at waits
    · obtain ⟨later, next, told⟩ := Option.map_eq_some_iff.mp waits
      cases told
      exact Or.inl ⟨rfl, next⟩
    · exact Or.inr waits
  cases step_stepped env stepped with
  | request idle =>
      rcases settled rfl waits with ⟨rfl, next⟩ | before
      · exact .begun next
      · exact .kept before
  | reply held went =>
      rcases settled rfl waits with ⟨rfl, next⟩ | before
      · exact .resumed held went next
      · exact .kept before
  | timeout held went =>
      rcases settled rfl waits with ⟨rfl, next⟩ | before
      · exact .expired held went next
      · exact .kept before
  | land => exact .kept waits
  | block fresh => exact .kept waits

/-- The runs whose steps all meet a condition. -/
abbrev Reaches (allowed : State → Label → Prop) (start s : State) : Prop :=
  GuardedRun.Reaches (step env) allowed start s

/-- The handler that a label is about. -/
def Label.handler : Label → Option Nat
  | .request id _ _ | .reply id _ _ | .timeout id _ => some id
  | .land _ | .block _ _ => none

/-- A run leaves those handlers idle that its labels do not name. -/
theorem run_idle {labels : List Label} {s s' : State} {id : Nat}
    (unnamed : ∀ label ∈ labels, label.handler ≠ some id) (idle : s.tasks id = none)
    (ran : GuardedRun.run (step env) s labels = some s') : s'.tasks id = none := by
  induction labels generalizing s with
  | nil =>
      cases ran
      exact idle
  | cons label labels ih =>
      rw [GuardedRun.run, Option.bind_eq_some_iff] at ran
      obtain ⟨s₁, stepped, rest⟩ := ran
      have apart : ∀ other, label.handler = some other → id ≠ other := by
        rintro other named rfl
        exact unnamed label List.mem_cons_self named
      have still : s₁.tasks id = none := by
        cases step_stepped env stepped with
        | request _ => rw [settle_tasks, if_neg (apart _ rfl), idle]
        | reply _ _ =>
            rw [settle_tasks, if_neg (apart _ rfl)]
            exact idle
        | timeout _ _ => rw [settle_tasks, if_neg (apart _ rfl), idle]
        | land => exact idle
        | block _ => exact idle
      exact ih (fun l member => unnamed l (.tail _ member)) still rest

theorem begin_db_of_silent (moment : Moment) (issued : List ProofToken) (db : Db)
    (request : Request) (silent : ∀ body, request ≠ .withdraw body)
    (idle : request ≠ .processAuthorizations) :
    (begin env moment issued db request).db = db ∧
      (begin env moment issued db request).sends = none := by
  have orReject : ∀ {T A B : Type} (x : Except Rejection B) (f : B → Turn T A),
      (∀ b, (f b).db = db) → (Turn.orReject db x f).db = db := by
    intro T A B x f writes
    cases x with
    | error rejection => rfl
    | ok b => exact writes b
  cases request with
  | prepareDeposit body => exact ⟨orReject _ _ fun _ => rfl, rfl⟩
  | confirmDeposit body => exact ⟨orReject _ _ fun _ => rfl, rfl⟩
  | relayDeposit body => exact ⟨orReject _ _ fun _ => rfl, rfl⟩
  | spvDeposit body =>
      refine ⟨?_, rfl⟩
      simp only [begin, lift, spvDeposit]
      split_ifs <;> rfl
  | withdraw body => exact absurd rfl (silent body)
  | verifyWithdraw proof =>
      refine ⟨?_, rfl⟩
      simp only [begin, lift, Withdrawals.verifyWithdraw]
      split_ifs
      · rfl
      · split <;> rfl
  | executeWithdraw body => exact ⟨orReject _ _ fun _ => rfl, rfl⟩
  | auditVerify => exact ⟨auditNext_db .., rfl⟩
  | autoSync => exact ⟨syncNext_db .., rfl⟩
  | processAuthorizations => exact absurd rfl idle

/-- The database after a request: a retried withdrawal goes on to step 5, a poll takes up what is
pending, and every other request first reads. -/
inductive Begun (moment : Moment) (db : Db) : Request → Db → Prop where
  | unchanged {request : Request} : Begun moment db request db
  | retried {body : WithdrawBody} {request : WithdrawGate.WithdrawRequest} {vault : VaultRow}
      {txHash : Text}
      (gate : WithdrawGate.withdrawGate env.senderAddress env.crypto db body =
        .ok (.retry request vault txHash)) :
      Begun moment db (.withdraw body)
        (authorize env.toConfig moment db ⟨request, vault.id, txHash, true⟩).db
  | polled : Begun moment db .processAuthorizations
      (takeNext moment db (getPendingAuthorizations db)).db

theorem begin_begun (moment : Moment) (issued : List ProofToken) (db : Db) (request : Request) :
    Begun env moment db request (begin env moment issued db request).db := by
  have quiet : ∀ r, (∀ body, r ≠ .withdraw body) → r ≠ .processAuthorizations →
      Begun env moment db r (begin env moment issued db r).db := by
    intro r silent idle
    rw [(begin_db_of_silent env moment issued db r silent idle).1]
    exact .unchanged
  cases request with
  | withdraw body =>
      simp only [begin, liftPay, lift, Withdrawals.withdraw]
      split
      · exact .unchanged
      · exact .unchanged
      · next request vault txHash gate => exact .retried gate
  | processAuthorizations => exact .polled
  | _ => exact quiet _ (by simp) (by simp)

/-- A server that starts: nothing waits and nothing has been sent. -/
structure Starts (s : State) : Prop where
  tasks : ∀ id, s.tasks id = none
  broadcasts : s.broadcasts = []

/-- The server as it starts on an empty database over fresh contracts. -/
def boot (genesis : Genesis) : State where
  db := Database.empty
  tasks _ := none
  answers := []
  issued := []
  broadcasts := []
  observed := []
  chain := ⟨genesis.world, fun _ => none, fun _ => none⟩

section Sample

def sampleGenesis : Genesis where
  world :=
    { address := 11
      vault := ⟨fun _ => false, fun _ => false, ⟨0, 0, 0, 0, 0, 0, 0, 0⟩, fun _ => false, []⟩
      token :=
        { totalSupply := Contracts.MockBtc.initialMint
          balances := Function.update (fun _ => 0) 13 Contracts.MockBtc.initialMint
          allowances := fun _ _ => 0
          events := [.transfer 0 13 Contracts.MockBtc.initialMint] }
      headers := Contracts.HeaderStore.constructor 12 }
  vaultTapkey := ⟨0, 0, 0, 0, 0, 0, 0, 0⟩
  relayer := 12
  holder := 13
  address_ne_zero := by decide
  deployed := rfl

def sampleHash (digit : Char) : Text := '0' :: 'x' :: List.replicate 64 digit

/-- USE_OPCAT_COVENANTS=true -/
def covenantMode : Environment where
  crypto := CryptoService.plainCrypto
  useCovenants := true
  senderAddress := none
  senderPrivateKey := none
  covenantAddress := ['t', 'b', '1', 'c']
  accountAddress := sampleHash '1'
  vaultContractAddress := sampleHash '2'
  addOutput _ _ := .ok ()
  sha := Sha256.sha256
  relayer := 12
  felts := .shortStrings

def sampleMoment (uuid : Text) : Moment where
  now := 1700000000000
  random := ⟨uuid, [1], [2], WithdrawGate.zeroIv, WithdrawGate.zeroIv⟩

def nilUuid : Text :=
  ['0', '0', '0', '0', '0', '0', '0', '0', '-', '0', '0', '0', '0', '-', '0', '0', '0', '0', '-',
    '0', '0', '0', '0', '-', '0', '0', '0', '0', '0', '0', '0', '0', '0', '0', '0', '0']

/-- A deposit of 0.001 BTC. -/
def sampleDeposit : SpvDepositBody where
  commitment := ['0', 'x', '5']
  blockHeight := 1
  txPos := 0
  rawTxBytes := []
  voutIndex := 0
  merkleProofWords := []
  bitcoinTxid := none
  vaultId := some nilUuid
  nullifierHash := some ['0', 'x', '7']
  amount := some (.finite (1 / 1000))
  depositSenderAddress := none

def sampleWithdraw : WithdrawBody where
  headers := ⟨applicationJson, false⟩
  secret := some ['s']
  nullifierHash := some ['0', 'x', '7']
  bitcoinAddress := some ['t', 'b', '1', 'q']

def depositLabels : List Label :=
  [.request 0 (.spvDeposit sampleDeposit) (sampleMoment ['d']),
    .reply 0 (.rpc (.headerStored true)) (sampleMoment ['d']),
    .reply 0 (.rpc (.executed (.ok (sampleHash '3')))) (sampleMoment ['d']),
    .reply 0 (.rpc (.receipt (.ok ⟨1, true, []⟩))) (sampleMoment ['d'])]

/-- The deposit, then a withdrawal up to its immediate payout. -/
def withdrawLabels : List Label :=
  depositLabels ++
    [.request 1 (.withdraw sampleWithdraw) (sampleMoment ['w']),
      .reply 1 (.rpc (.executed (.ok (sampleHash '4')))) (sampleMoment ['w'])]

def sampleUtxo (txid : Text) : Utxo := ⟨txid, 0, 500000, ['5', '1']⟩

/-- The withdrawal of the sample deposit; its payout fails at once, so the handler ends. -/
def unpaidLabels : List Label :=
  withdrawLabels ++ [.reply 1 (.mempool (.utxos (.error "offline"))) (sampleMoment ['e'])]

/-- The UTXO list is answered, so the handler `id` sends its payment. -/
def fetchLabel (id : Nat) (txid : Text) : Label :=
  .reply id (.mempool (.utxos (.ok ([sampleUtxo txid], 1)))) (sampleMoment ['f'])

def withdrawnDb : Db :=
  ((GuardedRun.run (step covenantMode) (boot sampleGenesis) withdrawLabels).map State.db).getD
    Database.empty

/-- A server that starts again on the database of that withdrawal. -/
def restarted : State := { boot sampleGenesis with db := withdrawnDb }

def pollLabels : List Label :=
  [.request 0 .processAuthorizations (sampleMoment ['p']),
    .reply 0 (.rpc (.receipt (.ok ⟨2, true, []⟩))) (sampleMoment ['p'])]

end Sample

end PrivateBtc.Backend.Server
