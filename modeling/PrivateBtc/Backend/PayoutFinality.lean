/- PrivateBtc/Backend/PayoutFinality
   digest: Which runs send bitcoin only after a receipt of the Starknet withdrawal was seen. -/

import PrivateBtc.Backend.CarriedRows

set_option autoImplicit false
set_option relaxedAutoImplicit false

namespace PrivateBtc.Backend.PayoutFinality

open Library Library.JsText
open Authorizations CarriedRows Database Http Payments Processor ProofVerifier Server Withdrawals
open WithdrawGate (WithdrawBody WithdrawRequest withdrawGate)

/-- A receipt with execution_status SUCCEEDED was seen for this hash. -/
def Final (s : State) (txHash : Text) : Prop := canonicalHash txHash ∈ s.observed

/-- Every payout that has been sent after the step had its receipt seen before the step. -/
def PaidAfterReceipt (s s' : State) : Prop :=
  ∀ broadcast ∈ s'.broadcasts, ∃ txHash, hashOf s.db broadcast.authId = some txHash ∧ Final s txHash

/-- The starknet_tx_hash of the authorization that step 5 of the route takes up. -/
def takenHash (db : Db) (request : WithdrawRequest) (txHash : Text) : Text :=
  match getAuthorizationByNullifier db request.nullifierHash with
  | some auth => auth.starknetTxHash
  | none => txHash

/-- The route attempts a payout only for an authorization whose receipt was seen. -/
def Patient (env : Environment) (s : State) : Label → Prop
  | .request _ (.withdraw body) _ => ∀ request vault txHash,
      withdrawGate env.senderAddress env.crypto s.db body = .ok (.retry request vault txHash) →
        Final s (takenHash s.db request txHash)
  | .reply id (.rpc (.executed (.ok txHash))) _ => ∀ r request vault call,
      s.tasks id = some (r, .withdraw (.executing request vault call)) →
        Final s (takenHash s.db request txHash)
  | _ => True

/-- What a turn pays is for hashes in `seen`, and what it leaves to pay for those in `later`. -/
structure TurnFinal (seen later : List Text) (db : Db) (turn : SystemTurn) : Prop where
  next : ∀ task payout, turn.next = some task → payoutOf task = some payout →
    canonicalHash payout.auth.starknetTxHash ∈ later
  sends : ∀ authId payment, turn.sends = some (authId, payment) →
    ∃ txHash, hashOf db authId = some txHash ∧ canonicalHash txHash ∈ seen

variable {seen later : List Text} {db : Db}

theorem TurnFinal.of_idle {turn : SystemTurn} (silent : turn.sends = none)
    (next : ∀ task, turn.next = some task → payoutOf task = none) :
    TurnFinal seen later db turn := by
  constructor
  · intro task payout waits pays
    rw [next task waits] at pays
    cases pays
  · intro authId payment sends
    rw [silent] at sends
    cases sends

theorem closes_final {withdrawing : Withdrawing} {db₁ : Db} {turn : WithdrawTurn}
    (closes : Closes withdrawing db₁ turn) (ends : turn.next = none) :
    TurnFinal seen later db (liftPay .withdraw .withdraw turn) := by
  refine .of_idle closes.silent fun task waits => ?_
  simp [liftPay, lift, ends] at waits

theorem takes_hash {withdrawing : Withdrawing} {authId : Text} {db₁ : Db}
    (takes : Takes withdrawing db authId db₁) :
    hashOf db₁ authId = some (takenHash db withdrawing.request withdrawing.txHash) := by
  unfold takenHash
  cases takes with
  | created missing row hash =>
      obtain ⟨_, stored, _⟩ := createAuthorization_ok row
      rw [missing, hashOf, stored, Option.map_some]
      exact congrArg some hash
  | existing found marks =>
      have stored := getAuthorizationById_of_mem (Table.find?_some found).1
      rw [found, marks.hashes, hashOf, stored]
      rfl

/-- A row found by its id has the hash of that id. -/
theorem hash_of_found {id txHash : Text} {auth : WithdrawalAuthorization}
    (found : getAuthorizationById db id = some auth) (hash : hashOf db id = some txHash) :
    auth.starknetTxHash = txHash := by
  rw [hashOf, found] at hash
  exact Option.some.inj hash

theorem authorized_final {withdrawing : Withdrawing} {turn : WithdrawTurn}
    (authorized : Authorized withdrawing db turn)
    (final : canonicalHash (takenHash db withdrawing.request withdrawing.txHash) ∈ later) :
    TurnFinal seen later db (liftPay .withdraw .withdraw turn) := by
  cases authorized with
  | given_up closes ends => exact closes_final closes ends
  | attempted takes attempt =>
      cases attempt with
      | ended marks closes ends => exact closes_final closes ends
      | racing marks found =>
          constructor
          · intro task payout waits pays
            cases waits
            cases pays
            rw [Payout.auth, hash_of_found found (takes_hash takes)]
            exact final
          · intro authId payment sends
            cases sends

/-- A payout that goes on keeps its authorization. -/
theorem sent_final {task : Task} {payout : Payout} {nextRequest : Nat} {payment : Payment}
    {turn : SystemTurn} (current : Current db [payout.auth])
    (final : canonicalHash payout.auth.starknetTxHash ∈ seen) (grows : seen ⊆ later)
    (next : turn.next = some task) (goes_on : payoutOf task = some (.sent payout.auth nextRequest))
    (sends : turn.sends = some (payout.auth.id, payment)) : TurnFinal seen later db turn := by
  constructor
  · intro task' payout' waits pays
    rw [next, Option.some.injEq] at waits
    subst waits
    rw [goes_on, Option.some.injEq] at pays
    subst pays
    exact grows final
  · intro authId payment' told
    rw [sends, Option.some.injEq, Prod.mk.injEq] at told
    obtain ⟨rfl, rfl⟩ := told
    exact ⟨_, current _ List.mem_cons_self, final⟩

theorem continues_final {ids : Set Text} {db₁ : Db} {rest : List WithdrawalAuthorization}
    {turn : ProcessorTurn} (continues_ : Continues ids db₁ rest turn) :
    TurnFinal seen later db (liftPay .processor (fun _ => .processed) turn) := by
  refine .of_idle continues_.silent fun task waits => ?_
  obtain ⟨loop, next, rfl⟩ := Option.map_eq_some_iff.mp waits
  obtain ⟨auth, left, rfl, _, _⟩ := continues_.next loop next
  rfl

theorem payoutSent_final {cfg : Config} {moment : Moment} {auth : WithdrawalAuthorization}
    {rest : List WithdrawalAuthorization} {turn : ProcessorTurn}
    (sent : PayoutSent cfg moment auth rest db turn) (current : Current db [auth])
    (final : canonicalHash auth.starknetTxHash ∈ later) :
    TurnFinal seen later db (liftPay .processor (fun _ => .processed) turn) := by
  cases sent with
  | given_back _ continues_ => exact continues_final continues_
  | paying marks found =>
      constructor
      · intro task payout waits pays
        cases waits
        cases pays
        rw [Payout.auth, hash_of_found found (current auth List.mem_cons_self)]
        exact final
      · intro authId payment sends
        cases sends

variable (env : Environment)

theorem begin_final {s : State} {id : Nat} {request : Request} {moment : Moment}
    (patient : Patient env s (.request id request moment)) :
    TurnFinal s.observed s.observed s.db (begin env moment s.issued s.db request) := by
  have quiet : ∀ r, (∀ body, r ≠ .withdraw body) → r ≠ .processAuthorizations →
      (∀ task, (begin env moment s.issued s.db r).next = some task → payoutOf task = none) →
      TurnFinal s.observed s.observed s.db (begin env moment s.issued s.db r) := by
    intro r silent idle
    exact .of_idle (begin_db_of_silent env moment s.issued s.db r silent idle).2
  cases request with
  | withdraw body =>
      simp only [begin, Withdrawals.withdraw]
      split
      · exact closes_final (rejected_closes s.db default _) rfl
      · exact .of_idle rfl fun task waits => by cases waits; rfl
      · next request vault txHash admitted =>
        exact authorized_final (authorize_authorized ..) (patient request vault txHash admitted)
  | processAuthorizations => exact continues_final (takeNext_continues moment s.db _)
  | _ =>
      refine quiet _ (by simp) (by simp) fun task waits => ?_
      obtain ⟨_, _, rfl⟩ := Option.map_eq_some_iff.mp waits
      rfl

theorem observes_receipt {auth : WithdrawalAuthorization} {rest : List WithdrawalAuthorization}
    {answer : Except String Starknet.TransactionReceipt} (shown : isFinalized answer = true) :
    canonicalHash auth.starknetTxHash ∈
      observes (.processor (.verifying auth rest)) (.rpc (.receipt answer)) := by
  cases answer with
  | error message => cases shown
  | ok receipt =>
      have succeeded : receipt.succeeded = true := shown
      simp [observes, showsSuccess, succeeded, asksReceipt]

theorem lift_final {T A : Type} {task : T → Task} {answer : A → Answer} {turn : Turn T A}
    (quiet : ∀ t, payoutOf (task t) = none) : TurnFinal seen later db (lift task answer turn) := by
  refine .of_idle rfl fun next waits => ?_
  obtain ⟨t, _, rfl⟩ := Option.map_eq_some_iff.mp waits
  exact quiet t

theorem resume_final {s : State} {id : Nat} {request : Request} {task : Task} {reply : Reply}
    {moment : Moment} {nextRequest : Nat} {turn : SystemTurn}
    (waits : s.tasks id = some (request, task)) (current : Current s.db (carried task))
    (final : ∀ payout, payoutOf task = some payout → Final s payout.auth.starknetTxHash)
    (patient : Patient env s (.reply id reply moment))
    (resumed : resume env moment nextRequest s.db task reply = some turn) :
    TurnFinal s.observed (s.observed ++ observes task reply) s.db turn := by
  have seen : s.observed ⊆ s.observed ++ observes task reply := List.subset_append_left _ _
  cases resume_resumed env resumed with
  | deposit _ | execute _ | audit _ => exact lift_final fun _ => rfl
  | @executing body vault call answer =>
      cases answer with
      | error failure => exact closes_final (rejected_closes s.db default _) rfl
      | ok txHash =>
          refine authorized_final (authorize_authorized ..) (List.mem_append_left _ ?_)
          exact patient request body vault call waits
  | @racing withdrawing payout answer after went =>
      cases resumeRacing_resumed _ _ went with
      | send _ _ => exact sent_final current (final payout rfl) seen rfl rfl rfl
      | failed _ _ closes ends => exact closes_final closes ends
      | paid _ _ _ closes ends => exact closes_final closes ends
  | @orphaned payout answer after went =>
      cases resumeOrphaned_resumed _ _ went with
      | send _ _ => exact sent_final current (final payout rfl) seen rfl rfl rfl
      | _ => exact .of_idle rfl fun task waits => by cases waits
  | @verifying auth rest answer =>
      unfold afterVerification
      split_ifs with shown
      · refine payoutSent_final (sendPayout_sent ..) (fun row member => ?_)
          (List.mem_append_right _ (observes_receipt shown))
        rw [List.mem_singleton] at member
        subst member
        exact current row List.mem_cons_self
      · exact continues_final (giveBack_continues moment (Marks.refl _ _) rest)
  | @paying payout rest answer after went =>
      cases resumePaying_resumed _ _ went with
      | send _ _ =>
          refine sent_final (fun row member => ?_) (final payout rfl) seen rfl rfl rfl
          rw [List.mem_singleton] at member
          subst member
          exact current _ List.mem_cons_self
      | failed _ _ continues_ => exact continues_final continues_
      | paid _ _ _ _ continues_ => exact continues_final continues_

theorem expire_final {s : State} {task : Task} {moment : Moment} {turn : SystemTurn}
    (final : ∀ payout, payoutOf task = some payout → Final s payout.auth.starknetTxHash)
    (expired : expire moment s.db task = some turn) :
    TurnFinal s.observed s.observed s.db turn := by
  cases expire_expired expired with
  | @racing withdrawing payout =>
      obtain ⟨closes, orphaned⟩ := loseRace_closes moment s.db withdrawing payout
      constructor
      · intro next later waits' pays
        simp only [liftPay, lift, orphaned, Option.map_some, Option.some.injEq] at waits'
        subst waits'
        cases pays
        exact final payout rfl
      · intro authId payment sends
        rw [liftPay, closes.silent] at sends
        cases sends

/-- The receipts of all payouts that are under way or sent have been seen. -/
structure Justified (s : State) : Prop where
  carries : Carries s
  waiting : ∀ id request task payout, s.tasks id = some (request, task) →
    payoutOf task = some payout → Final s payout.auth.starknetTxHash
  sent : ∀ broadcast ∈ s.broadcasts, ∃ txHash, hashOf s.db broadcast.authId = some txHash ∧
    Final s txHash

theorem settle_waiting {s : State} {id : Nat} {request : Request} {turn : SystemTurn}
    (waiting : ∀ id request task payout, s.tasks id = some (request, task) →
      payoutOf task = some payout → Final s payout.auth.starknetTxHash)
    (turns : TurnFinal seen s.observed db turn) :
    ∀ other r task payout, (settle s id request turn).tasks other = some (r, task) →
      payoutOf task = some payout → Final (settle s id request turn) payout.auth.starknetTxHash := by
  intro other r task payout waits pays
  rw [settle_tasks] at waits
  split_ifs at waits
  · obtain ⟨next, waits, told⟩ := Option.map_eq_some_iff.mp waits
    cases told
    exact turns.next task payout waits pays
  · exact waiting other r task payout waits pays

theorem settle_paid {s heard : State} {id : Nat} {request : Request} {turn : SystemTurn}
    (justified : Justified s)
    (same : ∀ b ∈ heard.broadcasts, ∃ b' ∈ s.broadcasts, b'.authId = b.authId)
    (turns : TurnFinal s.observed later s.db turn) :
    PaidAfterReceipt s (settle heard id request turn) := by
  intro broadcast member
  simp only [settle, List.mem_append, Option.mem_toList, Option.map_eq_some_iff] at member
  rcases member with old | ⟨⟨authId, payment⟩, sends, rfl⟩
  · obtain ⟨earlier, there, named⟩ := same broadcast old
    rw [← named]
    exact justified.sent earlier there
  · exact turns.sends authId payment sends

theorem land_authId {broadcasts : List Broadcast} {index : Nat} {broadcast : Broadcast}
    (member : broadcast ∈ land broadcasts index) :
    ∃ earlier ∈ broadcasts, earlier.authId = broadcast.authId := by
  obtain ⟨n, found⟩ := List.mem_iff_getElem?.mp member
  rw [land, List.getElem?_modify, Option.map_eq_map, Option.map_eq_some_iff] at found
  obtain ⟨earlier, there, rfl⟩ := found
  refine ⟨earlier, List.mem_iff_getElem?.mpr ⟨n, there⟩, ?_⟩
  split_ifs <;> rfl

theorem landAnswered_authId {task : Task} {reply : Reply} {broadcasts : List Broadcast}
    {broadcast : Broadcast} (member : broadcast ∈ landAnswered task reply broadcasts) :
    ∃ earlier ∈ broadcasts, earlier.authId = broadcast.authId := by
  unfold landAnswered at member
  split at member
  · exact land_authId member
  · exact ⟨broadcast, member, rfl⟩

/-- Whatever was paid before a step is paid after it, for what has been seen by then. -/
theorem paid_sent {s s' : State} (paid : PaidAfterReceipt s s') (extends_ : Extends s.db s'.db)
    (grows : s.observed ⊆ s'.observed) :
    ∀ broadcast ∈ s'.broadcasts, ∃ txHash, hashOf s'.db broadcast.authId = some txHash ∧
      Final s' txHash := by
  intro broadcast member
  obtain ⟨txHash, stored, final⟩ := paid broadcast member
  exact ⟨txHash, extends_.hash stored, grows final⟩

theorem step_justified {s s' : State} {label : Label} (justified : Justified s)
    (patient : Patient env s label) (stepped : step env s label = some s') :
    PaidAfterReceipt s s' ∧ Justified s' := by
  obtain ⟨extends_, carries⟩ := step_carries env justified.carries stepped
  have same : ∀ b ∈ s.broadcasts, ∃ b' ∈ s.broadcasts, b'.authId = b.authId :=
    fun b member => ⟨b, member, rfl⟩
  cases step_stepped env stepped with
  | @request id request moment idle =>
      have turns := begin_final env patient
      have paid : PaidAfterReceipt s (settle s id request _) := settle_paid justified same turns
      exact ⟨paid, carries, settle_waiting justified.waiting turns,
        paid_sent paid extends_ fun _ seen => seen⟩
  | @reply id request task reply moment turn waits resumed =>
      have turns := resume_final env waits (justified.carries id request task waits)
        (justified.waiting id request task · waits) patient resumed
      have paid : PaidAfterReceipt s (settle (hear env s task reply) id request turn) :=
        settle_paid justified (fun b member => landAnswered_authId member) turns
      refine ⟨paid, carries, ?_, paid_sent paid extends_ (List.subset_append_left _ _)⟩
      refine settle_waiting (fun other r later payout waits' pays => ?_) turns
      exact List.mem_append_left _ (justified.waiting other r later payout waits' pays)
  | @timeout id request task moment turn waits expired =>
      have turns := expire_final (justified.waiting id request task · waits) expired
      have paid : PaidAfterReceipt s (settle s id request turn) :=
        settle_paid justified same turns
      exact ⟨paid, carries, settle_waiting justified.waiting turns,
        paid_sent paid extends_ fun _ seen => seen⟩
  | @land index =>
      have paid : PaidAfterReceipt s { s with broadcasts := land s.broadcasts index } := by
        intro broadcast member
        obtain ⟨earlier, there, named⟩ := land_authId member
        rw [← named]
        exact justified.sent earlier there
      exact ⟨paid, carries, justified.waiting, paid_sent paid extends_ fun _ seen => seen⟩
  | block fresh => exact ⟨justified.sent, carries, justified.waiting, justified.sent⟩

theorem starts_justified {s : State} (starts : Starts s) : Justified s := by
  constructor
  · intro id request task waits
    rw [starts.tasks] at waits
    cases waits
  · intro id request task payout waits
    rw [starts.tasks] at waits
    cases waits
  · intro broadcast member
    rw [starts.broadcasts] at member
    cases member

/-- In a patient run every payout is sent after the receipt of its Starknet transaction was seen. -/
theorem patient_run_pays_after_receipt (start s s' : State) (label : Label) (starts : Starts start)
    (run : Reaches env (Patient env) start s) (patient : Patient env s label)
    (stepped : step env s label = some s') : PaidAfterReceipt s s' := by
  have justified : Justified s := by
    refine run.invariant (starts_justified starts) ?_
    intro before label after justified patient stepped
    exact (step_justified env justified patient stepped).2
  exact (step_justified env justified patient stepped).1

section Hasty

/-- The route pays as soon as `account.execute` has answered: the only receipt seen is that of
the deposit. -/
theorem immediate_payout_unseen :
    ∃ start s s' label, Starts start ∧ Reaches covenantMode (fun _ _ => True) start s ∧
      step covenantMode s label = some s' ∧ ¬ PaidAfterReceipt s s' := by
  have ran : ((GuardedRun.run (step covenantMode) (boot sampleGenesis) withdrawLabels).bind fun s =>
      (step covenantMode s (fetchLabel 1 ['u'])).map fun s' =>
        (s'.broadcasts.map Broadcast.authId, hashOf s.db ['w'], s.observed)) =
      some ([['w']], some (sampleHash '4'), [sampleHash '3']) := by decide +kernel
  simp only [Option.bind_eq_some_iff, Option.map_eq_some_iff, Prod.mk.injEq] at ran
  obtain ⟨s, ran, s', stepped, sent, hash, seen⟩ := ran
  have reached : Reaches covenantMode (fun _ _ => True) (boot sampleGenesis) s :=
    GuardedRun.Reaches.start.of_run (fun _ _ _ => trivial) ran
  refine ⟨boot sampleGenesis, s, s', _, ⟨fun _ => rfl, rfl⟩, reached, stepped, fun paid => ?_⟩
  obtain ⟨broadcast, member, named⟩ : ∃ b ∈ s'.broadcasts, b.authId = ['w'] := by
    rw [← List.mem_map, sent]
    exact List.mem_cons_self
  obtain ⟨txHash, stored, final⟩ := paid broadcast member
  rw [named, hash, Option.some.injEq] at stored
  subst stored
  rw [Final, seen] at final
  exact absurd final (by decide +kernel)

/-- The processor of the restarted server sees the receipt and then pays. -/
theorem restarted_pays_after_receipt :
    ∃ s s', Reaches covenantMode (Patient covenantMode) restarted s ∧
      step covenantMode s (fetchLabel 0 ['u']) = some s' ∧
      s'.broadcasts.map Broadcast.authId = [['w']] ∧ PaidAfterReceipt s s' := by
  have ran : ((GuardedRun.run (step covenantMode) restarted pollLabels).bind fun s =>
      (step covenantMode s (fetchLabel 0 ['u'])).map fun s' =>
        s'.broadcasts.map Broadcast.authId) = some [['w']] := by decide +kernel
  simp only [Option.bind_eq_some_iff, Option.map_eq_some_iff] at ran
  obtain ⟨s, ran, s', stepped, sent⟩ := ran
  have patient : ∀ label ∈ pollLabels, ∀ s, Patient covenantMode s label := by
    intro label member s
    simp only [pollLabels, List.mem_cons, List.not_mem_nil, or_false] at member
    rcases member with rfl | rfl <;> trivial
  have reached : Reaches covenantMode (Patient covenantMode) restarted s :=
    GuardedRun.Reaches.start.of_run patient ran
  exact ⟨s, s', reached, stepped, sent,
    patient_run_pays_after_receipt covenantMode restarted s s' (fetchLabel 0 ['u'])
      ⟨fun _ => rfl, rfl⟩ reached trivial stepped⟩

end Hasty

end PrivateBtc.Backend.PayoutFinality
