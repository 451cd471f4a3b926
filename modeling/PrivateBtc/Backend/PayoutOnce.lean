/- PrivateBtc/Backend/PayoutOnce
   digest: Which runs land at most one bitcoin payout for each withdrawal authorization. -/

import PrivateBtc.Backend.CarriedRows
import PrivateBtc.Library.JobLease

set_option autoImplicit false
set_option relaxedAutoImplicit false

namespace PrivateBtc.Backend.PayoutOnce

open Library Library.JsText
open Library.JobLease (Effect Lease Steps)
open Authorizations CarriedRows Database Http Payments Processor ProofVerifier Server Withdrawals
open WithdrawGate (WithdrawBody WithdrawRequest withdrawGate)

variable (env : Environment)

def leaseOf (payout : Payout) : Lease Text := ⟨payout.auth.id, payout.request⟩

/-- The authorization that a waiting handler is about to pay and will record as paid; in covenant
mode nothing records a payout that has lost its race. -/
def leased : Task → Option (Lease Text)
  | .withdraw (.racing _ payout) => some (leaseOf payout)
  | .withdraw (.orphaned payout) => if env.useCovenants then none else some (leaseOf payout)
  | .processor (.verifying auth _) => some ⟨auth.id, none⟩
  | .processor (.paying payout _) => some (leaseOf payout)
  | _ => none

def completed (db : Db) : Set Text := {id | statusOf db id = some .completed}

def effects (broadcasts : List Broadcast) : List (Effect Text) :=
  broadcasts.map fun broadcast => ⟨broadcast.authId, broadcast.landed⟩

/-- The server as handlers that lease authorizations. -/
def view (s : State) : JobLease.State Text Nat where
  done := completed s.db
  leases id := (s.tasks id).bind fun held => leased env held.2
  effects := effects s.broadcasts

/-- No handler is about to pay the authorization, and it is not completed. -/
def Free (s : State) (authId : Text) : Prop := (view env s).Free authId

def HasLanded (s : State) (index : Nat) : Prop :=
  ∃ broadcast, s.broadcasts[index]? = some broadcast ∧ broadcast.landed = true

/-- The authorization that step 5 of the route finds. -/
def RouteFree (s : State) (request : WithdrawRequest) : Prop :=
  ∀ auth, getAuthorizationByNullifier s.db request.nullifierHash = some auth → Free env s auth.id

/-- All that the loop of the processor comes by until its next wait. -/
def LoopFree (s : State) (rest : List WithdrawalAuthorization) : Prop :=
  ∀ authId ∈ reached rest, Free env s authId

/-- A payout that has landed is answered with its txid. -/
def Recorded (s : State) (payout : Payout) (reply : MempoolReply) : Prop :=
  Paid payout reply = none →
    (∀ index, payout.request = some index → ¬ HasLanded s index) ∧
      ∀ txid, reply ≠ .broadcast (.ok txid)

def OrderlyReply (s : State) (moment : Moment) : Task → Reply → Prop
  | .withdraw (.executing request _ _), .rpc (.executed (.ok _)) => RouteFree env s request
  | .withdraw (.racing _ payout), .mempool reply => Recorded s payout reply
  | .withdraw (.orphaned payout), .mempool reply =>
      if env.useCovenants then ∀ txid, reply ≠ .broadcast (.ok txid) else Recorded s payout reply
  | .processor (.verifying auth rest), .rpc (.receipt reply) =>
      (isFinalized reply = true →
        (startPayout env.toConfig auth.id moment.nowSecs s.db).settles = true) → LoopFree env s rest
  | .processor (.paying payout rest), .mempool reply =>
      Recorded s payout reply ∧
        ((resumePayout env.toConfig moment.nowSecs s.broadcasts.length s.db payout reply).any
          PayoutTurn.settles = true → LoopFree env s rest)
  | _, _ => True

def OrderlyTimeout (s : State) : Task → Prop
  | .withdraw (.racing _ payout) =>
      env.useCovenants = true → ∀ index, payout.request = some index → ¬ HasLanded s index
  | _ => True

/-- Authorizations are taken up only when nobody else is at them and they are not completed, and
a payment lands only while its sender waits and will record it. -/
def Orderly (s : State) : Label → Prop
  | .request _ (.withdraw body) _ => ∀ request vault txHash,
      withdrawGate env.senderAddress env.crypto s.db body = .ok (.retry request vault txHash) →
        RouteFree env s request
  | .request _ .processAuthorizations _ => LoopFree env s (getPendingAuthorizations s.db)
  | .request .. => True
  | .reply id reply moment => ∀ request task, s.tasks id = some (request, task) →
      OrderlyReply env s moment task reply
  | .timeout id _ => ∀ request task, s.tasks id = some (request, task) →
      OrderlyTimeout env s task
  | .land index => ∃ id lease, (view env s).leases id = some lease ∧ lease.effect = some index
  | .block .. => True

theorem effects_land (broadcasts : List Broadcast) (index : Nat) :
    effects (land broadcasts index) = JobLease.land (effects broadcasts) index := by
  unfold effects land JobLease.land
  ext n effect
  simp only [List.getElem?_map, List.getElem?_modify, Option.map_eq_map, Option.map_map,
    Function.comp_def]
  split_ifs <;> rfl

theorem landed_iff {s : State} {index : Nat} {authId : Text} :
    JobLease.Landed (view env s).effects index authId ↔
      ∃ broadcast, s.broadcasts[index]? = some broadcast ∧ broadcast.authId = authId ∧
        broadcast.landed = true := by
  simp [JobLease.Landed, view, effects, List.getElem?_map]

theorem idle_of_not_landed {s : State} {lease : Lease Text}
    (unheard : ∀ index, lease.effect = some index → ¬ HasLanded s index) :
    JobLease.Idle (view env s).effects lease := by
  intro index waits landed
  obtain ⟨broadcast, found, _, there⟩ := (landed_iff env).mp landed
  exact unheard index waits ⟨broadcast, found, there⟩

theorem view_settle (s : State) (id : Nat) (request : Request) (turn : SystemTurn) :
    view env (settle s id request turn) =
      { done := completed turn.db
        leases := Function.update (view env s).leases id (turn.next.bind (leased env))
        effects := (view env s).effects ++ (turn.sends.map fun sent => ⟨sent.1, false⟩).toList } := by
  have leases : (view env (settle s id request turn)).leases =
      Function.update (view env s).leases id (turn.next.bind (leased env)) := by
    funext other
    rw [Function.update_apply]
    show ((settle s id request turn).tasks other).bind _ = _
    rw [settle_tasks]
    split_ifs
    · cases turn.next <;> rfl
    · rfl
  have sent : effects (settle s id request turn).broadcasts =
      effects s.broadcasts ++ (turn.sends.map fun sent => ⟨sent.1, false⟩).toList := by
    unfold effects settle
    rw [List.map_append]
    cases turn.sends <;> rfl
  exact JobLease.State.ext rfl leases sent

/-- A turn without a payment moves the lease of its handler. -/
theorem settle_put {s : State} {id : Nat} {request : Request} {turn : SystemTurn}
    {lease : Option (Lease Text)} (done : completed turn.db = completed s.db)
    (next : turn.next.bind (leased env) = lease) (silent : turn.sends = none) :
    view env (settle s id request turn) = (view env s).put id lease := by
  rw [view_settle, done, next, silent]
  simp [JobLease.State.put, view]

/-- A turn with a payment appends an effect that has not landed. -/
theorem settle_sends {s : State} {id : Nat} {request : Request} {turn : SystemTurn}
    {lease : Option (Lease Text)} {authId : Text} {payment : Payment}
    (done : completed turn.db = completed s.db) (next : turn.next.bind (leased env) = lease)
    (sends : turn.sends = some (authId, payment)) :
    view env (settle s id request turn) =
      { (view env s).put id lease with effects := (view env s).effects ++ [⟨authId, false⟩] } := by
  rw [view_settle, done, next, sends]
  simp [JobLease.State.put, view]

/-- A turn that leaves the lease, the completed authorizations and the mempool alone. -/
theorem settle_idle {s : State} {id : Nat} {request : Request} {turn : SystemTurn}
    (done : completed turn.db = completed s.db)
    (lease : turn.next.bind (leased env) = (view env s).leases id) (silent : turn.sends = none) :
    Steps (view env s) (view env (settle s id request turn)) := by
  rw [settle_put env done lease silent, JobLease.put_same]

theorem completed_congr {db db' : Db} (same : db'.authorizations = db.authorizations) :
    completed db' = completed db := by
  ext authId
  show statusOf db' authId = _ ↔ statusOf db authId = _
  rw [statusOf_congr same]

theorem completed_marks {ids : Set Text} {db db' : Db} (marks : Marks ids db db')
    (undone : ∀ authId ∈ ids, authId ∉ completed db) : completed db' = completed db := by
  ext authId
  exact marks.completed_iff undone authId

theorem completed_completes {authId : Text} {db db' : Db} (completes : Completes authId db db')
    (known : (hashOf db authId).isSome) : completed db' = insert authId (completed db) := by
  ext other
  exact completes.completed_iff known other

theorem reached_of_nextUp {rest : List WithdrawalAuthorization} {auth : WithdrawalAuthorization}
    (next : nextUp rest = some auth) : auth.id ∈ reached rest := by
  induction rest with
  | nil => cases next
  | cons first rest ih =>
      cases formed : wellFormed first with
      | true =>
          rw [nextUp, List.find?_cons_of_pos formed] at next
          cases next
          simp [reached, formed]
      | false =>
          rw [nextUp, List.find?_cons_of_neg (by simp [formed])] at next
          simp only [reached, formed, Bool.false_eq_true, if_false]
          exact Set.mem_insert_of_mem _ (ih next)

/-- The processor goes on with its loop when it holds nothing: it takes up a free authorization. -/
theorem loop_steps (id : Nat) {v : JobLease.State Text Nat} {ids : Set Text} {db : Db}
    {rest : List WithdrawalAuthorization} {turn : ProcessorTurn}
    (continues_ : Continues ids db rest turn) (unleased : v.leases id = none)
    (done : v.done = completed db) (undone : ∀ authId ∈ ids, authId ∉ v.done)
    (free : ∀ authId ∈ reached rest, v.Free authId) :
    Steps v
      { done := completed turn.db
        leases := Function.update v.leases id ((turn.next.map Task.processor).bind (leased env))
        effects := v.effects } := by
  have kept : completed turn.db = v.done := by
    rw [done]
    refine completed_marks continues_.marks ?_
    rintro authId (own | passed)
    · exact done ▸ undone authId own
    · exact done ▸ (free authId passed).1
  rw [kept]
  cases next : turn.next with
  | none =>
      have same : Function.update v.leases id none = v.leases := by
        rw [← unleased, Function.update_eq_self]
      simp only [Option.map_none, Option.bind_none, same]
      exact .refl
  | some task =>
      obtain ⟨auth, left, rfl, up, _⟩ := continues_.next task next
      exact .single (.take id auth.id unleased (free auth.id (reached_of_nextUp up)))

/-- The heads of the turns: what they end the handler with. -/
theorem closes_idle {s : State} {id : Nat} {request : Request} {db : Db} {withdrawing : Withdrawing}
    {turn : WithdrawTurn} (closes : Closes withdrawing db turn) (ends : turn.next = none)
    (done : completed db = completed s.db) (unleased : (view env s).leases id = none) :
    Steps (view env s) (view env (settle s id request (liftPay .withdraw .withdraw turn))) := by
  refine settle_idle env ((completed_congr closes.apart.authorizations).trans done) ?_ closes.silent
  rw [unleased, liftPay, lift, ends]
  rfl

/-- Every leased authorization is in the table. -/
theorem leased_known {db : Db} {task : Task} {lease : Lease Text}
    (current : Current db (carried task)) (holds : leased env task = some lease) :
    (hashOf db lease.job).isSome := by
  have carries : ∃ row ∈ carried task, row.id = lease.job := by
    unfold leased at holds
    split at holds
    · cases holds
      exact ⟨_, List.mem_cons_self, rfl⟩
    · split_ifs at holds
      cases holds
      exact ⟨_, List.mem_cons_self, rfl⟩
    · cases holds
      exact ⟨_, List.mem_cons_self, rfl⟩
    · cases holds
      exact ⟨_, List.mem_cons_self, rfl⟩
    · cases holds
  obtain ⟨row, member, named⟩ := carries
  rw [← named, current row member]
  rfl

/-- The route takes up an authorization that is free, or a new one. -/
theorem authorized_steps {s : State} {id : Nat} {request : Request} {withdrawing : Withdrawing}
    {turn : WithdrawTurn} (authorized : Authorized withdrawing s.db turn)
    (unleased : (view env s).leases id = none) (carries : Carries s)
    (free : RouteFree env s withdrawing.request) :
    Steps (view env s) (view env (settle s id request (liftPay .withdraw .withdraw turn))) := by
  cases authorized with
  | given_up closes ends => exact closes_idle env closes ends rfl unleased
  | @attempted authId db₁ _ takes attempt =>
      have taken : Free env s authId ∧ completed db₁ = completed s.db := by
        cases takes with
        | created missing row hash =>
            obtain ⟨fresh, _⟩ := createAuthorization_ok row
            refine ⟨⟨?_, ?_⟩, ?_⟩
            · show ¬ statusOf s.db authId = some .completed
              simp [statusOf, fresh]
            · rintro other lease held rfl
              obtain ⟨⟨r, task⟩, waits, holds⟩ := Option.bind_eq_some_iff.mp held
              have known := leased_known env (carries other r task waits) holds
              simp [hashOf, fresh] at known
            · ext other
              exact createAuthorization_completed_iff row other
        | existing found marks =>
            have unheld := free _ found
            refine ⟨unheld, completed_marks marks ?_⟩
            rintro other rfl
            exact unheld.1
      have undone : ∀ other ∈ ({authId} : Set Text), other ∉ completed db₁ := by
        rintro other rfl
        rw [taken.2]
        exact taken.1.1
      cases attempt with
      | ended marks closes ends =>
          exact closes_idle env closes ends ((completed_marks marks undone).trans taken.2) unleased
      | @racing db' auth marks found =>
          have named := getAuthorizationById_id found
          have next : (some (Task.withdraw (.racing withdrawing (.fetching auth)))).bind
              (leased env) = some ⟨authId, none⟩ := by
            rw [← named]
            rfl
          rw [settle_put env ((completed_marks marks undone).trans taken.2) next rfl]
          exact .single (.take id authId unleased taken.1)

/-- The handler gives its authorization back. -/
theorem release_steps {s : State} {id : Nat} {request : Request} {turn : SystemTurn}
    {lease : Lease Text} (done : completed turn.db = completed s.db) (ends : turn.next = none)
    (silent : turn.sends = none) (holds : (view env s).leases id = some lease)
    (unheard : ∀ index, lease.effect = some index → ¬ HasLanded s index) :
    Steps (view env s) (view env (settle s id request turn)) := by
  have next : turn.next.bind (leased env) = none := by
    rw [ends]
    rfl
  rw [settle_put env done next silent]
  exact .single (.release id lease holds (idle_of_not_landed env unheard))

/-- The handler has recorded its payout. -/
theorem finish_steps {s : State} {id index : Nat} {request : Request} {turn : SystemTurn}
    {authId : Text} (done : completed turn.db = insert authId (completed s.db))
    (ends : turn.next = none) (silent : turn.sends = none)
    (holds : (view env s).leases id = some ⟨authId, some index⟩) :
    Steps (view env s) (view env (settle s id request turn)) := by
  have moved : view env (settle s id request turn) =
      { (view env s).put id none with done := insert authId (view env s).done } := by
    rw [view_settle, done, ends, silent]
    simp [JobLease.State.put, view]
  rw [moved]
  exact .single (.finish id authId index holds)

/-- The handler sends the payment of its authorization. -/
theorem send_steps {s : State} {id : Nat} {request : Request} {turn : SystemTurn} {authId : Text}
    {payment : Payment} (done : completed turn.db = completed s.db)
    (next : turn.next.bind (leased env) = some ⟨authId, some s.broadcasts.length⟩)
    (sends : turn.sends = some (authId, payment))
    (holds : (view env s).leases id = some ⟨authId, none⟩) :
    Steps (view env s) (view env (settle s id request turn)) := by
  have length : (view env s).effects.length = s.broadcasts.length := by
    simp [view, effects]
  rw [settle_sends env done next sends, ← length]
  exact .single (.start id authId holds)

/-- What the server hears before a handler goes on lands at most the handler's own payment. -/
theorem hear_steps {s : State} {id : Nat} {request : Request} {task : Task} {reply : Reply}
    (waits : s.tasks id = some (request, task))
    (owned : ∀ payout txid, payoutOf task = some payout →
      reply = .mempool (.broadcast (.ok txid)) → leased env task = some (leaseOf payout)) :
    Steps (view env s) (view env (hear env s task reply)) := by
  have same : view env (hear env s task reply) =
      { view env s with effects := effects (landAnswered task reply s.broadcasts) } := rfl
  rw [same]
  unfold landAnswered
  split
  · next auth index txid pays =>
    rw [effects_land]
    refine .single (.land id auth.id index ?_)
    show (s.tasks id).bind _ = _
    rw [waits]
    exact owned _ txid pays rfl
  · exact .refl

/-- The lease of a waiting handler. -/
theorem view_leases {s : State} {id : Nat} {request : Request} {task : Task}
    (waits : s.tasks id = some (request, task)) : (view env s).leases id = leased env task := by
  show (s.tasks id).bind _ = _
  rw [waits]
  rfl

theorem begin_steps {s : State} {id : Nat} {request : Request} {moment : Moment}
    (idle : s.tasks id = none) (carries : Carries s)
    (orderly : Orderly env s (.request id request moment)) :
    Steps (view env s)
      (view env (settle s id request (begin env moment s.issued s.db request))) := by
  have unleased : (view env s).leases id = none := by
    show (s.tasks id).bind _ = none
    rw [idle]
    rfl
  have quiet : ∀ r, (∀ body, r ≠ .withdraw body) → r ≠ .processAuthorizations →
      (∀ task, (begin env moment s.issued s.db r).next = some task → leased env task = none) →
      Steps (view env s) (view env (settle s id r (begin env moment s.issued s.db r))) := by
    intro r calm loop next
    obtain ⟨db, silent⟩ := begin_db_of_silent env moment s.issued s.db r calm loop
    refine settle_idle env (by rw [db]) ?_ silent
    rw [unleased, Option.bind_eq_none_iff]
    exact next
  cases request with
  | withdraw body =>
      simp only [begin, Withdrawals.withdraw]
      split
      · exact closes_idle env (rejected_closes s.db default _) rfl rfl unleased
      · exact settle_idle env rfl unleased.symm rfl
      · next request vault txHash admitted =>
        exact authorized_steps env (authorize_authorized ..) unleased carries
          (orderly request vault txHash admitted)
  | processAuthorizations =>
      have continues_ := takeNext_continues moment s.db (getPendingAuthorizations s.db)
      have steps := loop_steps env _ continues_ unleased rfl (by simp) orderly
      rw [view_settle]
      simpa [begin, processAuthorizations, liftPay, lift, continues_.silent] using steps
  | _ =>
      refine quiet _ (by simp) (by simp) fun task waits => ?_
      obtain ⟨_, _, rfl⟩ := Option.map_eq_some_iff.mp waits
      rfl

/-- A payout of the route: it goes on, fails, or is recorded. -/
theorem race_steps {s : State} {id : Nat} {request : Request} {withdrawing : Withdrawing}
    {payout : Payout} {reply : MempoolReply} {turn : WithdrawTurn}
    (inv : JobLease.Invariant (view env s)) (carries : Carries s)
    (waits : s.tasks id = some (request, .withdraw (.racing withdrawing payout)))
    (resumed : RaceResumed s.broadcasts.length s.db withdrawing payout reply turn)
    (unheard : Paid payout reply = none →
      ∀ index, payout.request = some index → ¬ HasLanded s index) :
    Steps (view env s) (view env (settle s id request (liftPay .withdraw .withdraw turn))) := by
  have holds : (view env s).leases id = some (leaseOf payout) := view_leases env waits
  have undone : ∀ other ∈ ({payout.auth.id} : Set Text), other ∉ completed s.db := by
    rintro other rfl
    exact inv.undone id _ holds
  have own : leased env (.withdraw (.racing withdrawing payout)) = some (leaseOf payout) := rfl
  have known : (hashOf s.db payout.auth.id).isSome :=
    leased_known env (carries id request _ waits) own
  cases resumed with
  | send unsent _ =>
      have open_ : leaseOf payout = ⟨payout.auth.id, none⟩ := by rw [leaseOf, unsent]
      exact send_steps env rfl rfl rfl (holds.trans (congrArg some open_))
  | failed marks unpaid closes ends =>
      have done : completed turn.db = completed s.db :=
        (completed_congr closes.apart.authorizations).trans (completed_marks marks undone)
      exact release_steps env done (by simp [liftPay, lift, ends]) closes.silent holds
        (unheard unpaid)
  | paid sent _ completes closes ends =>
      have done : completed turn.db = insert payout.auth.id (completed s.db) :=
        (completed_congr closes.apart.authorizations).trans (completed_completes completes known)
      obtain ⟨index, sends⟩ := Option.ne_none_iff_exists'.mp sent
      have closed : leaseOf payout = ⟨payout.auth.id, some index⟩ := by rw [leaseOf, sends]
      exact finish_steps env done (by simp [liftPay, lift, ends]) closes.silent
        (holds.trans (congrArg some closed))

/-- A payout that has lost its race: in legacy mode it still records itself. -/
theorem orphan_steps {s : State} {id : Nat} {request : Request} {payout : Payout}
    {reply : MempoolReply} {turn : WithdrawTurn} (inv : JobLease.Invariant (view env s))
    (carries : Carries s) (waits : s.tasks id = some (request, .withdraw (.orphaned payout)))
    (resumed : OrphanResumed env.toConfig s.broadcasts.length s.db payout reply turn)
    (unheard : env.useCovenants = false → Paid payout reply = none →
      ∀ index, payout.request = some index → ¬ HasLanded s index) :
    Steps (view env s) (view env (settle s id request (liftPay .withdraw .withdraw turn))) := by
  cases mode : env.useCovenants with
  | true =>
      have unleased : (view env s).leases id = none := by
        rw [view_leases env waits, leased, if_pos mode]
      cases resumed with
      | @send payment unsent _ =>
          have next : ((some (WithdrawTask.orphaned (.sent payout.auth s.broadcasts.length))).map
              Task.withdraw).bind (leased env) = none := if_pos mode
          rw [settle_sends env rfl next rfl, ← unleased, JobLease.put_same]
          exact .single (.stray payout.auth.id)
      | failed marks kept _ =>
          rw [kept mode]
          exact settle_idle env rfl unleased.symm rfl
      | lost _ => exact settle_idle env rfl unleased.symm rfl
      | paid legacy _ _ _ =>
          rw [mode] at legacy
          cases legacy
  | false =>
      have own : ∀ other, leased env (.withdraw (.orphaned other)) = some (leaseOf other) := by
        intro other
        rw [leased, mode]
        rfl
      have holds : (view env s).leases id = some (leaseOf payout) :=
        (view_leases env waits).trans (own payout)
      have known : (hashOf s.db payout.auth.id).isSome :=
        leased_known env (carries id request _ waits) (own payout)
      cases resumed with
      | send unsent _ =>
          have open_ : leaseOf payout = ⟨payout.auth.id, none⟩ := by rw [leaseOf, unsent]
          exact send_steps env rfl (own _) rfl (holds.trans (congrArg some open_))
      | failed marks _ unpaid =>
          refine release_steps env (completed_marks marks ?_) rfl rfl holds (unheard mode unpaid)
          rintro other rfl
          exact inv.undone id _ holds
      | lost covenants =>
          rw [mode] at covenants
          cases covenants
      | paid _ sent _ completes =>
          obtain ⟨index, sends⟩ := Option.ne_none_iff_exists'.mp sent
          have closed : leaseOf payout = ⟨payout.auth.id, some index⟩ := by rw [leaseOf, sends]
          exact finish_steps env (completed_completes completes known) rfl rfl
            (holds.trans (congrArg some closed))

/-- The processor lets its authorization go and takes up the next one. -/
theorem pass_on_steps {s : State} {id : Nat} {request : Request} {lease : Lease Text}
    {rest : List WithdrawalAuthorization} {turn : ProcessorTurn}
    (inv : JobLease.Invariant (view env s)) (holds : (view env s).leases id = some lease)
    (continues_ : Continues {lease.job} s.db rest turn) (free : LoopFree env s rest)
    (unheard : ∀ index, lease.effect = some index → ¬ HasLanded s index) :
    Steps (view env s)
      (view env (settle s id request (liftPay .processor (fun _ => .processed) turn))) := by
  have released : Steps (view env s) ((view env s).put id none) :=
    .single (.release id lease holds (idle_of_not_landed env unheard))
  have undone : ∀ other ∈ ({lease.job} : Set Text), other ∉ (view env s).done := by
    rintro other rfl
    exact inv.undone id lease holds
  have goes_on := loop_steps env id continues_ (v := (view env s).put id none)
    (by simp [JobLease.State.put]) rfl undone fun other member => (free other member).release id
  refine released.trans ?_
  rw [view_settle]
  simpa [liftPay, lift, continues_.silent, JobLease.State.put] using goes_on

/-- The processor has recorded its payout and takes up the next authorization. -/
theorem finish_on_steps {s : State} {id index : Nat} {request : Request} {authId : Text}
    {rest : List WithdrawalAuthorization} {turn : ProcessorTurn} {db₁ : Db}
    (holds : (view env s).leases id = some ⟨authId, some index⟩)
    (done : completed db₁ = insert authId (completed s.db))
    (continues_ : Continues ∅ db₁ rest turn) (free : LoopFree env s rest) :
    Steps (view env s)
      (view env (settle s id request (liftPay .processor (fun _ => .processed) turn))) := by
  have finished : Steps (view env s)
      { (view env s).put id none with done := insert authId (view env s).done } :=
    .single (.finish id authId index holds)
  have goes_on := loop_steps env id continues_
    (v := { (view env s).put id none with done := insert authId (view env s).done })
    (by simp [JobLease.State.put]) done.symm (by simp)
    fun other member => (free other member).finish holds
  refine finished.trans ?_
  rw [view_settle]
  simpa [liftPay, lift, continues_.silent, JobLease.State.put] using goes_on

/-- A verified authorization, or one whose time is up, is paid or let go. -/
theorem sent_steps {s : State} {id : Nat} {request : Request} {moment : Moment}
    {auth : WithdrawalAuthorization} {rest : List WithdrawalAuthorization} {turn : ProcessorTurn}
    (inv : JobLease.Invariant (view env s))
    (waits : s.tasks id = some (request, .processor (.verifying auth rest)))
    (sent : PayoutSent env.toConfig moment auth rest s.db turn)
    (free : (startPayout env.toConfig auth.id moment.nowSecs s.db).settles = true →
      LoopFree env s rest) :
    Steps (view env s)
      (view env (settle s id request (liftPay .processor (fun _ => .processed) turn))) := by
  have holds : (view env s).leases id = some ⟨auth.id, none⟩ := view_leases env waits
  cases sent with
  | @paying db' row marks found =>
      have named := getAuthorizationById_id found
      refine settle_idle env (completed_marks marks ?_) ?_ rfl
      · rintro other rfl
        exact inv.undone id _ holds
      · rw [holds, ← named]
        rfl
  | given_back ended continues_ =>
      exact pass_on_steps env inv holds continues_ (free ended) (by simp)

theorem paying_steps {s : State} {id : Nat} {request : Request} {moment : Moment}
    {payout : Payout} {rest : List WithdrawalAuthorization} {reply : MempoolReply}
    {turn : ProcessorTurn} (inv : JobLease.Invariant (view env s)) (carries : Carries s)
    (waits : s.tasks id = some (request, .processor (.paying payout rest)))
    (resumed : PayingResumed env.toConfig moment s.broadcasts.length s.db payout rest reply turn)
    (unheard : Paid payout reply = none →
      ∀ index, payout.request = some index → ¬ HasLanded s index)
    (free : (resumePayout env.toConfig moment.nowSecs s.broadcasts.length s.db payout reply).any
      PayoutTurn.settles = true → LoopFree env s rest) :
    Steps (view env s)
      (view env (settle s id request (liftPay .processor (fun _ => .processed) turn))) := by
  have holds : (view env s).leases id = some (leaseOf payout) := view_leases env waits
  have own : leased env (.processor (.paying payout rest)) = some (leaseOf payout) := rfl
  have known : (hashOf s.db payout.auth.id).isSome :=
    leased_known env (carries id request _ waits) own
  cases resumed with
  | send unsent _ =>
      have open_ : leaseOf payout = ⟨payout.auth.id, none⟩ := by rw [leaseOf, unsent]
      exact send_steps env rfl rfl rfl (holds.trans (congrArg some open_))
  | failed unpaid ended continues_ =>
      exact pass_on_steps env inv holds continues_ (free ended) (unheard unpaid)
  | paid sent _ ended completes continues_ =>
      obtain ⟨index, sends⟩ := Option.ne_none_iff_exists'.mp sent
      have closed : leaseOf payout = ⟨payout.auth.id, some index⟩ := by rw [leaseOf, sends]
      exact finish_on_steps env (holds.trans (congrArg some closed))
        (completed_completes completes known) continues_ (free ended)

theorem landAnswered_length (task : Task) (reply : Reply) (broadcasts : List Broadcast) :
    (landAnswered task reply broadcasts).length = broadcasts.length := by
  unfold landAnswered
  split
  · simp [land]
  · rfl

theorem landAnswered_unanswered {task : Task} {reply : Reply} {broadcasts : List Broadcast}
    (unanswered : ∀ txid, reply ≠ .mempool (.broadcast (.ok txid))) :
    landAnswered task reply broadcasts = broadcasts := by
  unfold landAnswered
  split
  · next txid _ => exact absurd rfl (unanswered txid)
  · rfl

/-- A reply that answers no broadcast changes nothing in the mempool. -/
theorem hear_view {s : State} {task : Task} {reply : Reply}
    (unanswered : ∀ txid, reply ≠ .mempool (.broadcast (.ok txid))) :
    view env (hear env s task reply) = view env s := by
  show view env { s with broadcasts := landAnswered task reply s.broadcasts } = _
  rw [landAnswered_unanswered unanswered]

theorem hear_rpc (s : State) (task : Task) (reply : Starknet.RpcReply) :
    view env (hear env s task (.rpc reply)) = view env s := hear_view env (by simp)

/-- A payout that is not paid by its reply has not landed when it hears the reply. -/
theorem heard {s : State} {payout : Payout} {reply : MempoolReply} {task : Task}
    (recorded : Recorded s payout reply) (unpaid : Paid payout reply = none) :
    ∀ index, payout.request = some index → ¬ HasLanded (hear env s task (.mempool reply)) index := by
  obtain ⟨unheard, unanswered⟩ := recorded unpaid
  have same : landAnswered task (.mempool reply) s.broadcasts = s.broadcasts := by
    refine landAnswered_unanswered fun txid answer => ?_
    injection answer with answer
    exact unanswered txid answer
  rintro index sent ⟨broadcast, found, there⟩
  refine unheard index sent ⟨broadcast, ?_, there⟩
  rw [← same]
  exact found

/-- A turn of a handler that leases nothing. -/
theorem lift_steps {T A : Type} {s : State} {id : Nat} {request : Request} {held : Task}
    {task : T → Task} {answer : A → Answer} {turn : Turn T A}
    (waits : s.tasks id = some (request, held)) (unleased : leased env held = none)
    (same : turn.db.authorizations = s.db.authorizations)
    (quiet : ∀ t, leased env (task t) = none) :
    Steps (view env s) (view env (settle s id request (lift task answer turn))) := by
  refine settle_idle env (completed_congr same) ?_ rfl
  rw [view_leases env waits, unleased, Option.bind_eq_none_iff]
  intro next told
  obtain ⟨t, _, rfl⟩ := Option.map_eq_some_iff.mp told
  exact quiet t

theorem resume_steps {s : State} {id : Nat} {request : Request} {task : Task} {reply : Reply}
    {moment : Moment} {turn : SystemTurn} (inv : JobLease.Invariant (view env s))
    (carries : Carries s) (waits : s.tasks id = some (request, task))
    (orderly : OrderlyReply env s moment task reply)
    (resumed : resume env moment s.broadcasts.length s.db task reply = some turn) :
    Steps (view env s) (view env (settle (hear env s task reply) id request turn)) := by
  have length : (hear env s task reply).broadcasts.length = s.broadcasts.length :=
    landAnswered_length task reply s.broadcasts
  rw [← length] at resumed
  have later : Carries (hear env s task reply) := carries
  have waits' : (hear env s task reply).tasks id = some (request, task) := waits
  cases resume_resumed env resumed with
  | deposit went =>
      rw [← hear_rpc]
      exact lift_steps env waits' rfl
        (Deposits.resumeDeposit_writes _ _ went).apart.authorizations fun _ => rfl
  | execute went =>
      rw [← hear_rpc]
      exact lift_steps env waits' rfl ((resumeExecute_writes _ _ went).authorizations _ _)
        fun _ => rfl
  | audit went =>
      rw [← hear_rpc]
      exact lift_steps env waits' rfl (resumeAudit_refreshes went).apart.authorizations fun _ => rfl
  | @executing body vault call answer =>
      rw [← hear_rpc env s (.withdraw (.executing body vault call)) (.executed answer)]
      cases answer with
      | error failure =>
          exact closes_idle env (rejected_closes s.db default _) rfl rfl (view_leases env waits')
      | ok txHash =>
          exact authorized_steps env (authorize_authorized ..) (view_leases env waits') later
            orderly
  | @racing withdrawing payout answer after went =>
      have hears : Steps (view env s)
          (view env (hear env s (.withdraw (.racing withdrawing payout)) (.mempool answer))) := by
        refine hear_steps env waits fun other _ pays _ => ?_
        cases pays
        rfl
      exact hears.trans (race_steps env (hears.invariant inv) later waits'
        (resumeRacing_resumed _ _ went) (heard env orderly))
  | @orphaned payout answer after went =>
      cases mode : env.useCovenants with
      | true =>
          rw [OrderlyReply, if_pos mode] at orderly
          have same : view env (hear env s (.withdraw (.orphaned payout)) (.mempool answer)) =
              view env s := hear_view env (by simpa using orderly)
          rw [← same] at inv ⊢
          refine orphan_steps env inv later waits' (resumeOrphaned_resumed _ _ went) fun legacy => ?_
          rw [mode] at legacy
          cases legacy
      | false =>
          rw [OrderlyReply, mode, if_neg Bool.false_ne_true] at orderly
          have hears : Steps (view env s)
              (view env (hear env s (.withdraw (.orphaned payout)) (.mempool answer))) := by
            refine hear_steps env waits fun other _ pays _ => ?_
            cases pays
            rw [leased, mode]
            rfl
          exact hears.trans (orphan_steps env (hears.invariant inv) later waits'
            (resumeOrphaned_resumed _ _ went) fun _ => heard env orderly)
  | @verifying auth rest answer =>
      have same := hear_rpc env s (.processor (.verifying auth rest)) (.receipt answer)
      rw [← same] at inv ⊢
      unfold afterVerification
      split_ifs with shown
      · exact sent_steps env inv waits' (sendPayout_sent ..) fun ended => orderly fun _ => ended
      · exact pass_on_steps env inv (view_leases env waits')
          (giveBack_continues moment (Marks.refl _ _) rest)
          (orderly fun final => absurd final shown) (by simp)
  | @paying payout rest answer after went =>
      have hears : Steps (view env s)
          (view env (hear env s (.processor (.paying payout rest)) (.mempool answer))) := by
        refine hear_steps env waits fun other _ pays _ => ?_
        cases pays
        rfl
      refine hears.trans (paying_steps env (hears.invariant inv) later waits'
        (resumePaying_resumed _ _ went) (heard env orderly.1) ?_)
      rw [length]
      exact orderly.2

theorem expire_steps {s : State} {id : Nat} {request : Request} {task : Task} {moment : Moment}
    {turn : SystemTurn} (waits : s.tasks id = some (request, task)) (orderly : OrderlyTimeout env s task)
    (expired : expire moment s.db task = some turn) :
    Steps (view env s) (view env (settle s id request turn)) := by
  cases expire_expired expired with
  | @racing withdrawing payout =>
      have holds : (view env s).leases id = some (leaseOf payout) := view_leases env waits
      obtain ⟨closes, orphaned⟩ := loseRace_closes moment s.db withdrawing payout
      have done := completed_congr closes.apart.authorizations
      cases mode : env.useCovenants with
      | true =>
          have next : ((some (WithdrawTask.orphaned payout)).map Task.withdraw).bind
              (leased env) = none := if_pos mode
          rw [← orphaned] at next
          rw [settle_put env done next closes.silent]
          exact .single (.release id _ holds (idle_of_not_landed env (orderly mode)))
      | false =>
          refine settle_idle env done ?_ closes.silent
          simp [liftPay, lift, orphaned, holds, leased, mode]

/-- An orderly step of the server is a sequence of moves of the leases. -/
theorem step_steps {s s' : State} {label : Label} (inv : JobLease.Invariant (view env s))
    (carries : Carries s) (orderly : Orderly env s label)
    (stepped : step env s label = some s') : Steps (view env s) (view env s') := by
  cases step_stepped env stepped with
  | request idle => exact begin_steps env idle carries orderly
  | reply waits resumed => exact resume_steps env inv carries waits (orderly _ _ waits) resumed
  | timeout waits expired => exact expire_steps env waits (orderly _ _ waits) expired
  | @land index =>
      obtain ⟨id, lease, holds, sent⟩ := orderly
      have landed : view env { s with broadcasts := land s.broadcasts index } =
          { view env s with effects := JobLease.land (view env s).effects index } := by
        show JobLease.State.mk _ _ _ = _
        rw [effects_land]
        rfl
      rw [landed]
      refine .single (.land id lease.job index ?_)
      rw [holds, ← sent]
  | block fresh => exact .refl

/-- No two payments for one authorization have landed. -/
def PaidOnce (s : State) : Prop :=
  ∀ (first second : Nat) (a b : Broadcast),
    s.broadcasts[first]? = some a → s.broadcasts[second]? = some b → a.landed = true → b.landed = true → a.authId = b.authId → first = second

theorem starts_invariant {s : State} (starts : Starts s) : JobLease.Invariant (view env s) := by
  have unleased : ∀ id, (view env s).leases id = none := by
    intro id
    show (s.tasks id).bind _ = none
    rw [starts.tasks]
    rfl
  have silent : (view env s).effects = [] := by
    show effects s.broadcasts = []
    rw [starts.broadcasts]
    rfl
  constructor
  · intro h h' lease lease' held
    rw [unleased] at held
    cases held
  · intro h lease held
    rw [unleased] at held
    cases held
  · intro h lease n held
    rw [unleased] at held
    cases held
  · intro n authId landed
    simp [JobLease.Landed, silent] at landed
  · intro n m authId landed
    simp [JobLease.Landed, silent] at landed

/-- What every state of an orderly run keeps. -/
def Safe (s : State) : Prop := JobLease.Invariant (view env s) ∧ Carries s

/-- In an orderly run no authorization is paid twice. -/
theorem orderly_run_pays_once (start s : State) (starts : Starts start)
    (run : Reaches env (Orderly env) start s) : PaidOnce s := by
  have safe : Safe env s := by
    refine run.invariant ⟨starts_invariant env starts, ?_⟩ ?_
    · intro id request task waits
      rw [starts.tasks] at waits
      cases waits
    · rintro before label after ⟨inv, carries⟩ orderly stepped
      exact ⟨(step_steps env inv carries orderly stepped).invariant inv,
        (step_carries env carries stepped).2⟩
  intro first second a b at_first at_second a_landed b_landed same
  exact safe.1.once first second a.authId
    ((landed_iff env).mpr ⟨a, at_first, rfl, a_landed⟩)
    ((landed_iff env).mpr ⟨b, at_second, same.symm, b_landed⟩)

section Sample

/-- The immediate payout loses its race and lands afterwards; the processor pays once more. -/
def paidTwiceLabels : List Label :=
  withdrawLabels ++
    [fetchLabel 1 ['u'], .timeout 1 (sampleMoment ['t']), .land 0,
      .request 2 .processAuthorizations (sampleMoment ['p']),
      .reply 2 (.rpc (.receipt (.ok ⟨2, true, []⟩))) (sampleMoment ['p']), fetchLabel 2 ['v'],
      .reply 2 (.mempool (.broadcast (.ok ['x']))) (sampleMoment ['p'])]

theorem paid_twice :
    ∃ s, Reaches covenantMode (fun _ _ => True) (boot sampleGenesis) s ∧ ¬ PaidOnce s := by
  have ran : ((GuardedRun.run (step covenantMode) (boot sampleGenesis) paidTwiceLabels).map
      fun s => s.broadcasts.map fun b => (b.authId, b.landed)) =
      some [(['w'], true), (['w'], true)] := by decide +kernel
  rw [Option.map_eq_some_iff] at ran
  obtain ⟨s, ran, sent⟩ := ran
  refine ⟨s, GuardedRun.Reaches.start.of_run (fun _ _ _ => trivial) ran, fun once => ?_⟩
  rcases broadcasts : s.broadcasts with _ | ⟨a, _ | ⟨b, rest⟩⟩
  · simp [broadcasts] at sent
  · simp [broadcasts] at sent
  · simp only [broadcasts, List.map_cons, List.cons.injEq, Prod.mk.injEq] at sent
    obtain ⟨⟨a_id, a_landed⟩, ⟨b_id, b_landed⟩, -⟩ := sent
    have same := once 0 1 a b (by simp [broadcasts]) (by simp [broadcasts]) a_landed b_landed
      (a_id.trans b_id.symm)
    cases same

/-- What a processor with an empty rest of its loop waits for. -/
def lone : Task → Option (Option Nat)
  | .processor (.verifying _ []) => some none
  | .processor (.paying payout []) => some payout.request
  | _ => none

def lonely (s : State) : Option (Option Nat) := (s.tasks 0).bind fun held => lone held.2

def sampleReceipt : Label := .reply 0 (.rpc (.receipt (.ok ⟨2, true, []⟩))) (sampleMoment ['p'])

def sampleTxid : Label := .reply 0 (.mempool (.broadcast (.ok ['x']))) (sampleMoment ['p'])

theorem loopFree_nil (s : State) : LoopFree env s [] := by
  intro authId member
  cases member

theorem orderly_receipt {s : State} (alone : lonely s = some none) :
    Orderly env s sampleReceipt := by
  intro request task waits
  simp only [lonely, waits, Option.bind_some] at alone
  unfold lone at alone
  split at alone
  · exact fun _ => loopFree_nil env s
  · trivial
  · cases alone

theorem orderly_fetch {s : State} (alone : lonely s = some none) :
    Orderly env s (fetchLabel 0 ['u']) := by
  intro request task waits
  simp only [lonely, waits, Option.bind_some] at alone
  unfold lone at alone
  split at alone
  · trivial
  · next payout _ =>
    refine ⟨fun _ => ⟨?_, by simp⟩, fun _ => loopFree_nil env s⟩
    intro index sent
    rw [Option.some.inj alone] at sent
    cases sent
  · cases alone

theorem orderly_txid {s : State} (alone : lonely s = some (some 0)) :
    Orderly env s sampleTxid := by
  intro request task waits
  simp only [lonely, waits, Option.bind_some] at alone
  unfold lone at alone
  split at alone
  · trivial
  · next payout =>
    refine ⟨fun unpaid => ?_, fun _ => loopFree_nil env s⟩
    cases payout with
    | fetching auth => cases alone
    | sent auth index => cases unpaid
  · cases alone

/-- On the restarted server the processor is alone: it pays, and it records what it paid. -/
theorem restarted_pays_once :
    ∃ s, Reaches covenantMode (Orderly covenantMode) restarted s ∧
      (s.broadcasts.map fun b => (b.authId, b.landed)) = [(['w'], true)] ∧ PaidOnce s := by
  have ran : ((step covenantMode restarted (.request 0 .processAuthorizations (sampleMoment ['p']))).bind
      fun s₁ => (step covenantMode s₁ sampleReceipt).bind fun s₂ =>
        (step covenantMode s₂ (fetchLabel 0 ['u'])).bind fun s₃ =>
          (step covenantMode s₃ sampleTxid).map fun s₄ =>
            ([lonely s₁, lonely s₂, lonely s₃], s₄.broadcasts.map fun b => (b.authId, b.landed))) =
      some ([some none, some none, some (some 0)], [(['w'], true)]) := by decide +kernel
  simp only [Option.bind_eq_some_iff, Option.map_eq_some_iff, Prod.mk.injEq, List.cons.injEq,
    and_true] at ran
  obtain ⟨s₁, polled, s₂, confirmed, s₃, fetched, s₄, paid, ⟨alone₁, alone₂, alone₃⟩, landed⟩ := ran
  have ids : (getPendingAuthorizations restarted.db).map (fun auth => (auth.id, wellFormed auth)) =
      [(['w'], true)] := by decide +kernel
  have open_ : statusOf restarted.db ['w'] = some .pending := by decide +kernel
  have free : Orderly covenantMode restarted (.request 0 .processAuthorizations (sampleMoment ['p'])) := by
    intro authId member
    have named : authId = ['w'] := by
      rcases pending : getPendingAuthorizations restarted.db with _ | ⟨auth, rest⟩
      · rw [pending] at member
        cases member
      · rw [pending, List.map_cons, List.cons.injEq, Prod.mk.injEq] at ids
        simpa [pending, reached, ids.1.2, ids.1.1] using member
    subst named
    refine ⟨?_, ?_⟩
    · show ¬ statusOf restarted.db ['w'] = some .completed
      rw [open_]
      decide
    · intro id lease held
      cases held
  have reached : Reaches covenantMode (Orderly covenantMode) restarted s₄ :=
    (((GuardedRun.Reaches.start.step free polled).step (orderly_receipt _ alone₁) confirmed).step
      (orderly_fetch _ alone₂) fetched).step (orderly_txid _ alone₃) paid
  exact ⟨s₄, reached, landed,
    orderly_run_pays_once covenantMode restarted s₄ ⟨fun _ => rfl, rfl⟩ reached⟩

end Sample

end PrivateBtc.Backend.PayoutOnce
