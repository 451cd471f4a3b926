/- PrivateBtc/Backend/CompletedPaid
   digest: A completed authorization has a landed payment whose txid the mempool has told. -/

import PrivateBtc.Backend.CompletedFinal
import PrivateBtc.Backend.PayoutFidelity

set_option autoImplicit false
set_option relaxedAutoImplicit false

namespace PrivateBtc.Backend.CompletedPaid

open Library Library.JsText
open Authorizations CompletedFinal Database Http Payments PayoutFidelity Processor Server
open Withdrawals

/-- The mempool has answered a broadcast with this txid. -/
def Told (labels : List Label) (txid : Text) : Prop :=
  ∃ id moment, Label.reply id (.mempool (.broadcast (.ok txid))) moment ∈ labels

section Records

variable {cfg : Config} {moment : Moment} {db db₁ db' : Db} {authId txid : Text}

/-- The authorization is open, or it is completed with this txid. -/
def AtMost (db : Db) (authId txid : Text) : Prop :=
  ∀ recorded, completion db authId = some recorded → recorded = some txid

theorem atMost_complete (nowSecs : Nat) (errorMessage : Option String) :
    AtMost (writeStatus authId .completed nowSecs (some txid) errorMessage db) authId txid := by
  intro recorded told
  rw [completion, getAuthorizationById_writeStatus] at told
  cases found : getAuthorizationById db authId with
  | none =>
      rw [found] at told
      cases told
  | some row =>
      rw [found] at told
      simp only [Option.map_some, if_true, Option.bind_some, setStatus, Option.some.injEq] at told
      exact told.symm

theorem AtMost.later {more : Set Text} (atMost : AtMost db₁ authId txid)
    (writes : Writes more none db₁ db') : AtMost db' authId txid := by
  intro recorded told
  by_cases again : authId ∈ more
  · rw [writes.reopens authId again] at told
    cases told
  · rw [writes.keeps authId again (by simp)] at told
    exact atMost recorded told

theorem AtMost.same (atMost : AtMost db₁ authId txid)
    (same : db'.authorizations = db₁.authorizations) : AtMost db' authId txid :=
  atMost.later (Writes.of_same same)

theorem paid_cases {payout : Payout} {reply : MempoolReply} (paid : Paid payout reply = some txid) :
    ∃ auth request, payout = .sent auth request ∧ reply = .broadcast (.ok txid) ∧
      txid.isEmpty = false := by
  unfold Paid at paid
  split at paid
  · next told =>
    cases blank : told.isEmpty with
    | true =>
        rw [if_pos blank] at paid
        cases paid
    | false =>
        rw [if_neg (by simp [blank])] at paid
        cases paid
        exact ⟨_, _, rfl, rfl, blank⟩
  · cases paid

theorem paid_atMost {nowSecs nextRequest : Nat} {payout : Payout} {reply : MempoolReply}
    {turn : PayoutTurn} (resumed : resumePayout cfg nowSecs nextRequest db payout reply = some turn)
    (paid : Paid payout reply = some txid) :
    turn.progress = .settled (.ok txid) ∧ txid.isEmpty = false ∧
      (cfg.useCovenants = false → AtMost turn.db payout.auth.id txid) := by
  obtain ⟨auth, request, rfl, rfl, legible⟩ := paid_cases paid
  cases resumed
  cases mode : cfg.useCovenants with
  | true => exact ⟨by simp [settleBroadcast, mode], legible, fun legacy => by cases legacy⟩
  | false =>
      simp only [settleBroadcast, mode, markCompleted, legible, Bool.false_eq_true, if_false]
      exact ⟨trivial, trivial, fun _ => atMost_complete nowSecs none⟩

theorem resumeRacing_atMost {nextRequest : Nat} {withdrawing : Withdrawing} {payout : Payout}
    {reply : MempoolReply} {turn : WithdrawTurn}
    (resumed : resumeRacing cfg moment nextRequest db withdrawing payout reply = some turn)
    (paid : Paid payout reply = some txid) : AtMost turn.db payout.auth.id txid := by
  simp only [resumeRacing, Option.bind_eq_bind, Option.bind_eq_some_iff] at resumed
  obtain ⟨after, went, told⟩ := resumed
  obtain ⟨settled, legible, -⟩ := paid_atMost went paid
  rw [settled] at told
  cases told
  simp only [finish, Except.toOption, Option.filter, legible, Bool.not_false, if_true]
  exact (atMost_complete _ _).same (closeVault_closes ..).1.apart.authorizations

theorem resumeOrphaned_atMost {nextRequest : Nat} {payout : Payout} {reply : MempoolReply}
    {turn : WithdrawTurn}
    (resumed : resumeOrphaned cfg moment nextRequest db payout reply = some turn)
    (paid : Paid payout reply = some txid) (legacy : cfg.useCovenants = false) :
    AtMost turn.db payout.auth.id txid := by
  simp only [resumeOrphaned, Option.bind_eq_bind, Option.bind_eq_some_iff] at resumed
  obtain ⟨after, went, told⟩ := resumed
  obtain ⟨settled, -, recorded⟩ := paid_atMost went paid
  rw [settled] at told
  cases told
  exact recorded legacy

theorem resumePaying_atMost {nextRequest : Nat} {payout : Payout}
    {rest : List WithdrawalAuthorization} {reply : MempoolReply} {turn : ProcessorTurn}
    (resumed : resumePaying cfg moment nextRequest db payout rest reply = some turn)
    (paid : Paid payout reply = some txid) : AtMost turn.db payout.auth.id txid := by
  simp only [resumePaying, Option.bind_eq_bind, Option.bind_eq_some_iff] at resumed
  obtain ⟨after, went, told⟩ := resumed
  obtain ⟨settled, legible, -⟩ := paid_atMost went paid
  rw [settled] at told
  simp only [markCompleted, legible, Bool.false_eq_true, if_false] at told
  cases told
  exact (atMost_complete _ _).later (takeNext_writes ..)

end Records

variable (env : Environment)

theorem payoutOf_of_records {task : Task} {reply : Reply} {authId txid : Text}
    (told : records env task reply = some (authId, txid)) :
    ∃ auth request, payoutOf task = some (.sent auth request) ∧ auth.id = authId ∧
      reply = .mempool (.broadcast (.ok txid)) ∧ txid.isEmpty = false := by
  have read : ∀ payout answer, payoutOf task = some payout → reply = .mempool answer →
      paidFor payout answer = some (authId, txid) →
      ∃ auth request, payoutOf task = some (.sent auth request) ∧ auth.id = authId ∧
        reply = .mempool (.broadcast (.ok txid)) ∧ txid.isEmpty = false := by
    rintro payout answer pays rfl told
    obtain ⟨told', paid, same⟩ := Option.map_eq_some_iff.mp told
    cases same
    obtain ⟨auth, request, rfl, rfl, legible⟩ := paid_cases paid
    exact ⟨auth, request, pays, rfl, rfl, legible⟩
  unfold records at told
  split at told
  · exact read _ _ rfl rfl told
  · split_ifs at told
    exact read _ _ rfl rfl told
  · exact read _ _ rfl rfl told
  · cases told

/-- What a handler records is at most what it was told. -/
theorem resume_atMost {moment : Moment} {nextRequest : Nat} {db : Db} {task : Task} {reply : Reply}
    {turn : SystemTurn} {authId txid : Text}
    (resumed : resume env moment nextRequest db task reply = some turn)
    (told : records env task reply = some (authId, txid)) : AtMost turn.db authId txid := by
  cases resume_resumed env resumed with
  | deposit _ | execute _ | audit _ | executing | verifying => cases told
  | racing went =>
      obtain ⟨_, paid, same⟩ := Option.map_eq_some_iff.mp told
      cases same
      exact resumeRacing_atMost went paid
  | orphaned went =>
      unfold records at told
      split_ifs at told with covenants
      obtain ⟨_, paid, same⟩ := Option.map_eq_some_iff.mp told
      cases same
      exact resumeOrphaned_atMost went paid (by simpa using covenants)
  | paying went =>
      obtain ⟨_, paid, same⟩ := Option.map_eq_some_iff.mp told
      cases same
      exact resumePaying_atMost went paid

/-- A payout waits for the answer to a payment of its own authorization. -/
def Points (s : State) : Prop :=
  ∀ id request task auth index, s.tasks id = some (request, task) →
    payoutOf task = some (.sent auth index) →
      ∃ broadcast, s.broadcasts[index]? = some broadcast ∧ broadcast.authId = auth.id

/-- What a turn leaves to wait for an answer was waiting before, or is sent by the turn. -/
def Follows (before : Option Payout) (nextRequest : Nat) (turn : SystemTurn) : Prop :=
  ∀ task auth index, turn.next = some task → payoutOf task = some (.sent auth index) →
    before = some (.sent auth index) ∨
      index = nextRequest ∧ ∃ payment, turn.sends = some (auth.id, payment)

section Points

variable {env} {before : Option Payout} {nextRequest : Nat} {db : Db} {turn : SystemTurn}

theorem Follows.of_idle (idle : ∀ task, turn.next = some task → payoutOf task = none) :
    Follows before nextRequest turn := by
  intro task auth index waits pays
  rw [idle task waits] at pays
  cases pays

theorem authorized_follows {withdrawing : Withdrawing} {turn : WithdrawTurn}
    (authorized : Withdrawals.Authorized withdrawing db turn) :
    Follows before nextRequest (liftPay .withdraw .withdraw turn) := by
  intro task auth index waits pays
  obtain ⟨later, next, rfl⟩ := liftPay_next.mp waits
  cases authorized with
  | given_up _ ends =>
      rw [ends] at next
      cases next
  | attempted _ attempt =>
      cases attempt with
      | racing _ _ =>
          cases next
          cases pays
      | ended _ _ ends =>
          rw [ends] at next
          cases next

theorem continues_follows {ids : Set Text} {rest : List WithdrawalAuthorization}
    {turn : ProcessorTurn} (continues_ : Continues ids db rest turn) :
    Follows before nextRequest (liftPay .processor (fun _ => .processed) turn) := by
  refine .of_idle fun task waits => ?_
  obtain ⟨later, next, rfl⟩ := liftPay_next.mp waits
  obtain ⟨auth, left, rfl, -, -⟩ := continues_.next later next
  rfl

theorem payoutSent_follows {cfg : Config} {moment : Moment} {auth : WithdrawalAuthorization}
    {rest : List WithdrawalAuthorization} {turn : ProcessorTurn}
    (sent : PayoutSent cfg moment auth rest db turn) :
    Follows before nextRequest (liftPay .processor (fun _ => .processed) turn) := by
  cases sent with
  | given_back _ continues_ => exact continues_follows continues_
  | paying _ _ =>
      intro task auth index waits pays
      cases waits
      cases pays

theorem lift_follows {T A : Type} {task : T → Task} {answer : A → Answer} {turn : Turn T A}
    (quiet : ∀ t, payoutOf (task t) = none) :
    Follows before nextRequest (lift task answer turn) := by
  refine .of_idle fun later waits => ?_
  obtain ⟨t, -, rfl⟩ := lift_next.mp waits
  exact quiet t

theorem begin_follows (moment : Moment) (issued : List ProofVerifier.ProofToken)
    (request : Request) : Follows none nextRequest (begin env moment issued db request) := by
  cases request with
  | withdraw body =>
      simp only [begin, Withdrawals.withdraw]
      split
      · exact .of_idle fun task waits => by cases waits
      · exact .of_idle fun task waits => by cases waits; rfl
      · exact authorized_follows (authorize_authorized ..)
  | processAuthorizations => exact continues_follows (takeNext_continues moment db _)
  | _ => exact lift_follows fun _ => rfl

/-- The payout of a handler is sent as the broadcast of the given number. -/
theorem sent_follows {payout : Payout} {payment : Payment} {task : Task}
    (next : turn.next = some task) (goes_on : payoutOf task = some (.sent payout.auth nextRequest))
    (sends : turn.sends = some (payout.auth.id, payment)) : Follows before nextRequest turn := by
  intro later auth index waits pays
  rw [next, Option.some.injEq] at waits
  subst waits
  rw [goes_on, Option.some.injEq, Payout.sent.injEq] at pays
  obtain ⟨rfl, rfl⟩ := pays
  exact Or.inr ⟨rfl, payment, sends⟩

theorem ended_follows {T A : Type} {task : T → Task} {answer : A → Answer} {turn : PayTurn T A}
    (ends : turn.next = none) : Follows before nextRequest (liftPay task answer turn) := by
  refine .of_idle fun later waits => ?_
  obtain ⟨t, next, -⟩ := liftPay_next.mp waits
  rw [ends] at next
  cases next

theorem resume_follows {moment : Moment} {task : Task} {reply : Reply}
    (resumed : resume env moment nextRequest db task reply = some turn) :
    Follows (payoutOf task) nextRequest turn := by
  cases resume_resumed env resumed with
  | deposit _ | execute _ | audit _ => exact lift_follows fun _ => rfl
  | @executing request vault call answer =>
      cases answer with
      | error failure => exact ended_follows rfl
      | ok txHash => exact authorized_follows (authorize_authorized ..)
  | racing went =>
      cases resumeRacing_resumed _ _ went with
      | send _ _ => exact sent_follows rfl rfl rfl
      | failed _ _ _ ends => exact ended_follows ends
      | paid _ _ _ _ ends => exact ended_follows ends
  | orphaned went =>
      cases resumeOrphaned_resumed _ _ went with
      | send _ _ => exact sent_follows rfl rfl rfl
      | failed _ _ _ => exact ended_follows rfl
      | lost _ => exact ended_follows rfl
      | paid _ _ _ _ => exact ended_follows rfl
  | verifying =>
      unfold afterVerification
      split_ifs
      · exact payoutSent_follows (sendPayout_sent ..)
      · exact continues_follows (giveBack_continues moment (Marks.refl _ _) _)
  | paying went =>
      cases resumePaying_resumed _ _ went with
      | send _ _ => exact sent_follows rfl rfl rfl
      | failed _ _ continues_ => exact continues_follows continues_
      | paid _ _ _ _ continues_ => exact continues_follows continues_

theorem expire_follows {moment : Moment} {task : Task}
    (expired : expire moment db task = some turn) :
    Follows (payoutOf task) nextRequest turn := by
  cases expire_expired expired with
  | @racing withdrawing payout =>
      obtain ⟨-, orphaned⟩ := loseRace_closes moment db withdrawing payout
      intro later auth index waits pays
      obtain ⟨next, left, rfl⟩ := liftPay_next.mp waits
      rw [orphaned] at left
      cases left
      exact Or.inl pays

end Points

/-- What every run keeps of the completed authorizations, with the answers that it has had. -/
structure Recorded (labels : List Label) (s : State) : Prop where
  sound : Sound env labels s
  points : Points s
  paid : ∀ authId recorded, completion s.db authId = some recorded →
    ∃ txid, recorded = some txid ∧ txid.isEmpty = false ∧ Told labels txid ∧
      ∃ broadcast ∈ s.broadcasts, broadcast.authId = authId ∧ broadcast.landed = true

theorem land_getElem {broadcasts : List Broadcast} (index : Nat) {other : Nat}
    {broadcast : Broadcast}
    (found : broadcasts[other]? = some broadcast) :
    ∃ later, (land broadcasts index)[other]? = some later ∧ later.authId = broadcast.authId ∧
      (broadcast.landed = true ∨ other = index → later.landed = true) := by
  refine ⟨_, by rw [land, List.getElem?_modify, found]; rfl, ?_, ?_⟩
  · split_ifs <;> rfl
  · rintro (landed | rfl)
    · split_ifs
      · rfl
      · exact landed
    · simp only [if_true]

/-- Broadcasts stay where they are, for their authorization, and landed if they were. -/
def Stays (broadcasts broadcasts' : List Broadcast) : Prop :=
  ∀ (index : Nat) (broadcast : Broadcast), broadcasts[index]? = some broadcast →
    ∃ later : Broadcast, broadcasts'[index]? = some later ∧ later.authId = broadcast.authId ∧
      (broadcast.landed = true → later.landed = true)

theorem Stays.refl (broadcasts : List Broadcast) : Stays broadcasts broadcasts :=
  fun _ broadcast found => ⟨broadcast, found, rfl, fun landed => landed⟩

theorem Stays.land (broadcasts : List Broadcast) (index : Nat) :
    Stays broadcasts (land broadcasts index) := by
  intro other broadcast found
  obtain ⟨later, there, same, landed⟩ := land_getElem index found
  exact ⟨later, there, same, fun done => landed (Or.inl done)⟩

theorem Stays.append {broadcasts broadcasts' : List Broadcast}
    (stays : Stays broadcasts broadcasts') (more : List Broadcast) :
    Stays broadcasts (broadcasts' ++ more) := by
  intro index broadcast found
  obtain ⟨later, there, same, landed⟩ := stays index broadcast found
  refine ⟨later, ?_, same, landed⟩
  rw [List.getElem?_append_left (List.getElem?_eq_some_iff.mp there).1, there]

theorem landAnswered_stays (task : Task) (reply : Reply) (broadcasts : List Broadcast) :
    Stays broadcasts (landAnswered task reply broadcasts) := by
  unfold landAnswered
  split
  · exact Stays.land broadcasts _
  · exact Stays.refl broadcasts

theorem landAnswered_length (task : Task) (reply : Reply) (broadcasts : List Broadcast) :
    (landAnswered task reply broadcasts).length = broadcasts.length := by
  unfold landAnswered
  split
  · exact List.length_modify ..
  · rfl

theorem step_stays {s s' : State} {label : Label} (stepped : step env s label = some s') :
    Stays s.broadcasts s'.broadcasts := by
  cases step_stepped env stepped with
  | request idle => exact (Stays.refl s.broadcasts).append _
  | @reply _ _ task reply _ _ waits resumed =>
      exact (landAnswered_stays task reply s.broadcasts).append _
  | timeout waits expired => exact (Stays.refl s.broadcasts).append _
  | @land index => exact Stays.land s.broadcasts index
  | block fresh => exact Stays.refl s.broadcasts

theorem settle_points {s heard : State} {id : Nat} {request : Request} {turn : SystemTurn}
    {before : Option Payout} (points : Points s) (same : heard.tasks = s.tasks)
    (stays : Stays s.broadcasts heard.broadcasts)
    (length : heard.broadcasts.length = s.broadcasts.length)
    (waits : ∀ auth index, before = some (.sent auth index) →
      ∃ broadcast, s.broadcasts[index]? = some broadcast ∧ broadcast.authId = auth.id)
    (follows : Follows before s.broadcasts.length turn) :
    Points (settle heard id request turn) := by
  have kept : ∀ (auth : WithdrawalAuthorization) (index : Nat),
      (∃ broadcast, s.broadcasts[index]? = some broadcast ∧ broadcast.authId = auth.id) →
      ∃ broadcast, (settle heard id request turn).broadcasts[index]? = some broadcast ∧
        broadcast.authId = auth.id := by
    rintro auth index ⟨broadcast, found, named⟩
    obtain ⟨later, there, own, -⟩ := stays.append _ index broadcast found
    exact ⟨later, there, own.trans named⟩
  intro other r task auth index there pays
  rw [settle_tasks, same] at there
  split_ifs at there
  · obtain ⟨next, left, told⟩ := Option.map_eq_some_iff.mp there
    cases told
    rcases follows task auth index left pays with old | ⟨rfl, payment, sends⟩
    · exact kept auth index (waits auth index old)
    · refine ⟨⟨auth.id, payment, false⟩, ?_, rfl⟩
      rw [← length]
      simp [settle, sends]
  · exact kept auth index (points other r task auth index there pays)

theorem step_points {s s' : State} {label : Label} (points : Points s)
    (stepped : step env s label = some s') : Points s' := by
  cases step_stepped env stepped with
  | @request id request moment idle =>
      exact settle_points points rfl (Stays.refl _) rfl (fun _ _ none_ => by cases none_)
        (begin_follows moment s.issued request)
  | @reply id request task reply moment turn waits resumed =>
      exact settle_points points rfl (landAnswered_stays task reply s.broadcasts)
        (landAnswered_length ..)
        (fun auth index pays => points id request task auth index waits pays)
        (resume_follows resumed)
  | @timeout id request task moment turn waits expired =>
      exact settle_points points rfl (Stays.refl _) rfl
        (fun auth index pays => points id request task auth index waits pays)
        (expire_follows expired)
  | @land index =>
      intro id request task auth other waits pays
      obtain ⟨broadcast, found, named⟩ := points id request task auth other waits pays
      obtain ⟨later, there, same, -⟩ := Stays.land s.broadcasts index other broadcast found
      exact ⟨later, there, same.trans named⟩
  | block fresh => exact points

/-- A completion was there before, or the label has brought its txid and its payment has landed. -/
theorem step_completion {s s' : State} {label : Label} (points : Points s)
    (stepped : step env s label = some s') {authId : Text} {recorded : Option Text}
    (done : completion s'.db authId = some recorded) :
    completion s.db authId = some recorded ∨
      ∃ txid, recorded = some txid ∧ txid.isEmpty = false ∧ Told [label] txid ∧
        ∃ broadcast ∈ s'.broadcasts, broadcast.authId = authId ∧ broadcast.landed = true := by
  have kept : ∀ {reopened : Set Text} {db' : Db}, Writes reopened none s.db db' →
      completion db' authId = some recorded → completion s.db authId = some recorded := by
    intro reopened db' writes done
    by_cases again : authId ∈ reopened
    · rw [writes.reopens authId again] at done
      cases done
    · rwa [writes.keeps authId again (by simp)] at done
  cases step_stepped env stepped with
  | request idle => exact Or.inl (kept (begin_writes s.issued _) done)
  | @reply id request task reply moment turn waits resumed =>
      have writes := resume_writes resumed
      by_cases own : ∃ txid, records env task reply = some (authId, txid)
      · obtain ⟨txid, told⟩ := own
        have recorded_ := resume_atMost env resumed told recorded done
        obtain ⟨auth, index, pays, rfl, rfl, legible⟩ := payoutOf_of_records env told
        obtain ⟨broadcast, found, named⟩ := points id request task auth index waits pays
        obtain ⟨later, there, same, landed⟩ := land_getElem index found
        refine Or.inr ⟨txid, recorded_, legible, ⟨id, moment, List.mem_cons_self⟩, later, ?_,
          same.trans named, landed (Or.inr rfl)⟩
        refine List.mem_append_left _ ?_
        simp only [hear, landAnswered, pays]
        exact List.mem_of_getElem? there
      · left
        by_cases again : authId ∈ reopens env s.db task reply
        · rw [settle_db, writes.reopens authId again] at done
          cases done
        · rwa [settle_db, writes.keeps authId again fun txid told => own ⟨txid, told⟩] at done
  | timeout waits expired => exact Or.inl (kept (expire_writes expired) done)
  | land => exact Or.inl done
  | block fresh => exact Or.inl done

theorem step_recorded {s s' : State} {label : Label} {labels : List Label}
    (recorded : Recorded env labels s) (stepped : step env s label = some s') :
    Recorded env (labels ++ [label]) s' := by
  refine ⟨step_sound env recorded.sound stepped, step_points env recorded.points stepped, ?_⟩
  intro authId told done
  rcases step_completion env recorded.points stepped done with old | new
  · obtain ⟨txid, same, legible, ⟨id, moment, member⟩, broadcast, there, own, landed⟩ :=
      recorded.paid authId told old
    obtain ⟨index, found⟩ := List.mem_iff_getElem?.mp there
    obtain ⟨later, found', own', landed'⟩ := step_stays env stepped index broadcast found
    exact ⟨txid, same, legible, ⟨id, moment, List.mem_append_left _ member⟩, later,
      List.mem_of_getElem? found', own'.trans own, landed' landed⟩
  · obtain ⟨txid, same, legible, ⟨id, moment, member⟩, paid⟩ := new
    exact ⟨txid, same, legible, ⟨id, moment, List.mem_append_right _ member⟩, paid⟩

theorem boot_recorded (genesis : Contracts.Vault.Genesis) : Recorded env [] (boot genesis) := by
  refine ⟨boot_sound env genesis, ?_, ?_⟩
  · intro id request task auth index waits
    cases waits
  · intro authId told done
    cases done

/-- In every run of the server an authorization that is completed has a txid that the mempool has
told, and a payment that has landed and pays the authorization. -/
theorem completed_paid {genesis : Contracts.Vault.Genesis} {labels : List Label} {s : State}
    (ran : GuardedRun.run (step env) (boot genesis) labels = some s)
    {row : WithdrawalAuthorization} (member : row ∈ s.db.authorizations.rows)
    (completed : row.status = .completed) :
    (∃ txid, row.bitcoinTxid = some txid ∧ txid.isEmpty = false ∧ Told labels txid) ∧
      ∃ broadcast ∈ s.broadcasts, broadcast.authId = row.id ∧ broadcast.landed = true ∧
        ∃ utxos feeRate, Fetched labels utxos feeRate ∧
          PaysGrant env.toConfig utxos feeRate (granted row) broadcast.payment := by
  have recorded : Recorded env labels s :=
    GuardedRun.run_traces (fun _ _ _ _ => step_recorded env) ran (boot_recorded env genesis)
  have stored := getAuthorizationById_of_mem member
  have done : completion s.db row.id = some row.bitcoinTxid := by
    rw [completion, stored, Option.bind_some, if_pos completed]
  obtain ⟨txid, same, legible, told, broadcast, there, own, landed⟩ := recorded.paid _ _ done
  refine ⟨⟨txid, same, legible, told⟩, broadcast, there, own, landed, ?_⟩
  obtain ⟨grant, found, pays⟩ := recorded.sound.paid broadcast there
  rw [own, grantOf, stored, Option.map_some, Option.some.injEq] at found
  rw [found]
  exact pays

/-- The withdrawal of the sample deposit, which the route has completed. -/
theorem completed_paid_sample :
    ∃ s, GuardedRun.run (step covenantMode) (boot sampleGenesis) recordedLabels = some s ∧
      ∃ row ∈ s.db.authorizations.rows, row.status = .completed ∧
        ∃ broadcast ∈ s.broadcasts, broadcast.authId = row.id ∧ broadcast.landed = true ∧
          ∃ utxos feeRate, Fetched recordedLabels utxos feeRate ∧
            PaysGrant covenantMode.toConfig utxos feeRate (granted row) broadcast.payment := by
  have ran : ((GuardedRun.run (step covenantMode) (boot sampleGenesis) recordedLabels).map
      fun s => s.db.authorizations.rows.map fun row => row.status) = some [.completed] := by
    decide +kernel
  obtain ⟨s, ran, statuses⟩ := Option.map_eq_some_iff.mp ran
  obtain ⟨row, member, completed⟩ : ∃ row ∈ s.db.authorizations.rows, row.status = .completed := by
    rw [← List.mem_map, statuses]
    exact List.mem_cons_self
  exact ⟨s, ran, row, member, completed, (completed_paid covenantMode ran member completed).2⟩

end PrivateBtc.Backend.CompletedPaid
