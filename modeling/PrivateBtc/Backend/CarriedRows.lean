/- PrivateBtc/Backend/CarriedRows
   digest: The authorization rows that handlers carry across their waits stay those of the table. -/

import PrivateBtc.Backend.Server

set_option autoImplicit false
set_option relaxedAutoImplicit false

namespace PrivateBtc.Backend.CarriedRows

open Library Library.JsText
open Authorizations Database Http Payments Processor ProofVerifier Server Withdrawals
open WithdrawGate (WithdrawBody)

/-- The authorization rows in the variables of a waiting handler. -/
def carried : Task → List WithdrawalAuthorization
  | .withdraw (.racing _ payout) | .withdraw (.orphaned payout) => [payout.auth]
  | .processor (.verifying auth rest) => auth :: rest
  | .processor (.paying payout rest) => payout.auth :: rest
  | _ => []

/-- The rows stand in the table with the same Starknet transaction. -/
def Current (db : Db) (rows : List WithdrawalAuthorization) : Prop :=
  ∀ row ∈ rows, hashOf db row.id = some row.starknetTxHash

theorem Current.extends {db db' : Db} {rows : List WithdrawalAuthorization}
    (current : Current db rows) (extends_ : Extends db db') : Current db' rows :=
  fun row member => extends_.hash (current row member)

theorem current_of_found {db : Db} {id : Text} {auth : WithdrawalAuthorization}
    (found : getAuthorizationById db id = some auth) : Current db [auth] := by
  intro row member
  rw [List.mem_singleton] at member
  subst member
  have named := getAuthorizationById_id found
  rw [hashOf, named, found]
  rfl

theorem current_pending (db : Db) : Current db (getPendingAuthorizations db) := by
  intro row member
  have listed : row ∈ db.authorizations.filter fun row => row.status == .pending :=
    (List.perm_insertionSort _ _).mem_iff.mp member
  have stored : row ∈ db.authorizations.rows := List.mem_of_mem_filter listed
  rw [hashOf, getAuthorizationById_of_mem stored]
  rfl

theorem closes_extends {withdrawing : Withdrawing} {db : Db} {turn : WithdrawTurn}
    (closes : Closes withdrawing db turn) : Extends db turn.db :=
  Extends.of_grants (grantOf_congr closes.apart.authorizations)

/-- What a turn does to the table and to the rows that its handler carries on. -/
structure TurnCarries (db : Db) (turn : SystemTurn) : Prop where
  extends_ : Extends db turn.db
  next : ∀ task, turn.next = some task → Current turn.db (carried task)

theorem TurnCarries.of_authorizations {db : Db} {turn : SystemTurn}
    (same : turn.db.authorizations = db.authorizations)
    (next : ∀ task, turn.next = some task → carried task = []) : TurnCarries db turn := by
  refine ⟨Extends.of_grants (grantOf_congr same), fun task waits row member => ?_⟩
  rw [next task waits] at member
  cases member

theorem TurnCarries.after {db db₁ : Db} {turn : SystemTurn} (extends_ : Extends db db₁)
    (carries : TurnCarries db₁ turn) : TurnCarries db turn :=
  ⟨extends_.trans carries.extends_, carries.next⟩

theorem lift_carries {T A : Type} {task : T → Task} {answer : A → Answer} {turn : Turn T A}
    {db : Db} (same : turn.db.authorizations = db.authorizations)
    (none_carried : ∀ t, carried (task t) = []) : TurnCarries db (lift task answer turn) := by
  refine TurnCarries.of_authorizations same ?_
  intro next waits
  obtain ⟨t, _, rfl⟩ := Option.map_eq_some_iff.mp waits
  exact none_carried t

section Turns

variable {db : Db} {answer : WithdrawAnswer → Answer} {processed : Unit → Answer}

theorem closes_carries {withdrawing : Withdrawing} {turn : WithdrawTurn}
    (closes : Closes withdrawing db turn)
    (ends : turn.next = none) : TurnCarries db (liftPay .withdraw answer turn) := by
  refine TurnCarries.of_authorizations closes.apart.authorizations ?_
  intro task waits
  simp [liftPay, lift, ends] at waits

theorem attempted_carries {authId : Text} {withdrawing : Withdrawing} {turn : WithdrawTurn}
    (attempted : Attempted authId withdrawing db turn) :
    TurnCarries db (liftPay .withdraw answer turn) := by
  cases attempted with
  | @racing db' auth marks found =>
      have extends_ : Extends db db' := Extends.of_grants marks.grants
      refine ⟨extends_, fun task waits => ?_⟩
      cases waits
      exact (current_of_found found).extends extends_
  | ended marks closes ends =>
      exact .after (Extends.of_grants marks.grants) (closes_carries closes ends)

theorem takes_extends {withdrawing : Withdrawing} {authId : Text} {db₁ : Db}
    (takes : Takes withdrawing db authId db₁) : Extends db db₁ := by
  cases takes with
  | created _ row _ => exact createAuthorization_extends row
  | existing _ marks => exact Extends.of_grants marks.grants

theorem authorized_carries {withdrawing : Withdrawing} {turn : WithdrawTurn}
    (authorized : Authorized withdrawing db turn) :
    TurnCarries db (liftPay .withdraw answer turn) := by
  cases authorized with
  | given_up closes ends => exact closes_carries closes ends
  | attempted takes attempt => exact .after (takes_extends takes) (attempted_carries attempt)

theorem raceResumed_carries {nextRequest : Nat} {withdrawing : Withdrawing} {payout : Payout}
    {reply : MempoolReply} {turn : WithdrawTurn}
    (resumed : RaceResumed nextRequest db withdrawing payout reply turn)
    (current : Current db [payout.auth]) : TurnCarries db (liftPay .withdraw answer turn) := by
  cases resumed with
  | send unsent silent =>
      refine ⟨Extends.refl _, fun task waits => ?_⟩
      cases waits
      exact current
  | failed marks _ closes ends =>
      exact .after (Extends.of_grants marks.grants) (closes_carries closes ends)
  | paid _ _ completes closes ends =>
      exact .after (Extends.of_grants completes.grants) (closes_carries closes ends)

theorem orphanResumed_carries {cfg : Config} {nextRequest : Nat} {payout : Payout}
    {reply : MempoolReply} {turn : WithdrawTurn}
    (resumed : OrphanResumed cfg nextRequest db payout reply turn)
    (current : Current db [payout.auth]) : TurnCarries db (liftPay .withdraw answer turn) := by
  cases resumed with
  | send unsent silent =>
      refine ⟨Extends.refl _, fun task waits => ?_⟩
      cases waits
      exact current
  | failed marks _ _ => exact ⟨Extends.of_grants marks.grants, fun _ waits => by cases waits⟩
  | lost covenants => exact ⟨Extends.refl _, fun _ waits => by cases waits⟩
  | paid _ _ _ completes => exact ⟨Extends.of_grants completes.grants, fun _ waits => by cases waits⟩

theorem continues_carries {ids : Set Text} {rest : List WithdrawalAuthorization}
    {turn : ProcessorTurn} (continues_ : Continues ids db rest turn) (current : Current db rest) :
    TurnCarries db (liftPay .processor processed turn) := by
  have extends_ : Extends db turn.db := Extends.of_grants continues_.marks.grants
  refine ⟨extends_, fun task waits => ?_⟩
  obtain ⟨loop, next, rfl⟩ := Option.map_eq_some_iff.mp waits
  obtain ⟨auth, left, rfl, _, within⟩ := continues_.next loop next
  exact fun row member => extends_.hash (current row (within row member))

theorem payoutSent_carries {cfg : Config} {moment : Moment} {auth : WithdrawalAuthorization}
    {rest : List WithdrawalAuthorization} {turn : ProcessorTurn}
    (sent : PayoutSent cfg moment auth rest db turn) (current : Current db rest) :
    TurnCarries db (liftPay .processor processed turn) := by
  cases sent with
  | @paying db' row marks found =>
      have extends_ : Extends db db' := Extends.of_grants marks.grants
      refine ⟨extends_, fun task waits => ?_⟩
      cases waits
      intro a member
      rcases List.mem_cons.mp member with rfl | member
      · exact extends_.hash (current_of_found found _ List.mem_cons_self)
      · exact extends_.hash (current a member)
  | given_back _ continues_ => exact continues_carries continues_ current

theorem payingResumed_carries {cfg : Config} {moment : Moment} {nextRequest : Nat} {payout : Payout}
    {rest : List WithdrawalAuthorization} {reply : MempoolReply} {turn : ProcessorTurn}
    (resumed : PayingResumed cfg moment nextRequest db payout rest reply turn)
    (current : Current db (payout.auth :: rest)) :
    TurnCarries db (liftPay .processor processed turn) := by
  have later : Current db rest := fun row member => current row (.tail _ member)
  cases resumed with
  | send unsent silent =>
      refine ⟨Extends.refl _, fun task waits => ?_⟩
      cases waits
      exact current
  | failed _ _ continues_ => exact continues_carries continues_ later
  | paid _ _ _ completes continues_ =>
      have extends_ := Extends.of_grants completes.grants
      exact .after extends_ (continues_carries continues_ (later.extends extends_))

end Turns

variable (env : Environment)

theorem begin_carries (moment : Moment) (issued : List ProofToken) (db : Db) (request : Request) :
    TurnCarries db (begin env moment issued db request) := by
  have quiet : ∀ r, (∀ body, r ≠ .withdraw body) → r ≠ .processAuthorizations →
      (∀ task, (begin env moment issued db r).next = some task → carried task = []) →
      TurnCarries db (begin env moment issued db r) := by
    intro r silent idle
    refine TurnCarries.of_authorizations ?_
    rw [(begin_db_of_silent env moment issued db r silent idle).1]
  cases request with
  | withdraw body =>
      simp only [begin, Withdrawals.withdraw]
      split
      · exact closes_carries (rejected_closes db default _) rfl
      · exact ⟨Extends.refl _, fun task waits => by cases waits; exact fun _ no => by cases no⟩
      · exact authorized_carries (authorize_authorized ..)
  | processAuthorizations =>
      exact continues_carries (takeNext_continues moment db _) (current_pending db)
  | _ =>
      refine quiet _ (by simp) (by simp) fun task waits => ?_
      obtain ⟨_, _, rfl⟩ := Option.map_eq_some_iff.mp waits
      rfl

theorem resume_carries {moment : Moment} {nextRequest : Nat} {db : Db} {task : Task}
    {reply : Reply} {turn : SystemTurn} (current : Current db (carried task))
    (resumed : resume env moment nextRequest db task reply = some turn) : TurnCarries db turn := by
  cases resume_resumed env resumed with
  | deposit went =>
      exact lift_carries (Deposits.resumeDeposit_writes _ _ went).apart.authorizations fun _ => rfl
  | execute went =>
      exact lift_carries ((resumeExecute_writes _ _ went).authorizations _ _) fun _ => rfl
  | audit went =>
      exact lift_carries (resumeAudit_refreshes went).apart.authorizations fun _ => rfl
  | @executing request vault call answer =>
      cases answer with
      | error failure => exact closes_carries (rejected_closes db default _) rfl
      | ok txHash => exact authorized_carries (authorize_authorized ..)
  | racing went => exact raceResumed_carries (resumeRacing_resumed _ _ went) current
  | orphaned went => exact orphanResumed_carries (resumeOrphaned_resumed _ _ went) current
  | @verifying auth rest answer =>
      have later : Current db rest := fun row member => current row (.tail _ member)
      unfold afterVerification
      split_ifs
      · exact payoutSent_carries (sendPayout_sent ..) later
      · exact continues_carries (giveBack_continues moment (Marks.refl _ _) rest) later
  | paying went => exact payingResumed_carries (resumePaying_resumed _ _ went) current

theorem expire_carries {moment : Moment} {db : Db} {task : Task} {turn : SystemTurn}
    (current : Current db (carried task)) (expired : expire moment db task = some turn) :
    TurnCarries db turn := by
  cases expire_expired expired with
  | @racing withdrawing payout =>
      obtain ⟨closes, orphaned⟩ := loseRace_closes moment db withdrawing payout
      refine ⟨(closes_extends closes), fun task waits => ?_⟩
      simp only [liftPay, lift, orphaned, Option.map_some, Option.some.injEq] at waits
      subst waits
      exact current.extends (closes_extends closes)

/-- Every waiting handler carries rows of the table. -/
def Carries (s : State) : Prop :=
  ∀ id request task, s.tasks id = some (request, task) → Current s.db (carried task)

theorem settle_carries {s : State} {id : Nat} {request : Request} {turn : SystemTurn}
    (carries : Carries s) (turns : TurnCarries s.db turn) : Carries (settle s id request turn) := by
  intro other r task waits
  rw [settle_tasks] at waits
  split_ifs at waits
  · obtain ⟨next, waits, told⟩ := Option.map_eq_some_iff.mp waits
    cases told
    exact turns.next task waits
  · exact (carries other r task waits).extends turns.extends_

/-- A step deletes no authorization, and the handlers still carry rows of the table. -/
theorem step_carries {s s' : State} {label : Label} (carries : Carries s)
    (stepped : step env s label = some s') : Extends s.db s'.db ∧ Carries s' := by
  cases step_stepped env stepped with
  | @request id request moment idle =>
      have turns := begin_carries env moment s.issued s.db request
      exact ⟨turns.extends_, settle_carries carries turns⟩
  | @reply id request task reply moment turn waits resumed =>
      have turns := resume_carries env (carries id request task waits) resumed
      have heard : Carries (hear env s task reply) := carries
      exact ⟨turns.extends_, settle_carries heard turns⟩
  | @timeout id request task moment turn waits expired =>
      have turns := expire_carries (carries id request task waits) expired
      exact ⟨turns.extends_, settle_carries carries turns⟩
  | land => exact ⟨Extends.refl _, carries⟩
  | block fresh => exact ⟨Extends.refl _, carries⟩

end PrivateBtc.Backend.CarriedRows
