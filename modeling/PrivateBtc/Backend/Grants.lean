/- PrivateBtc/Backend/Grants
   digest: What every authorization was granted for, and that payouts carry their own grant. -/

import PrivateBtc.Backend.CarriedRows
import PrivateBtc.Backend.VaultWrites

set_option autoImplicit false
set_option relaxedAutoImplicit false

namespace PrivateBtc.Backend.Grants

open Library Library.JsText
open Authorizations CarriedRows CryptoService Database Http Payments Processor Server Withdrawals
open WithdrawGate (WithdrawBody WithdrawRequest withdrawGate)

/-- The grant that step 5 makes for a withdrawal. -/
structure MadeFor (crypto : Crypto) (db : Db) (withdrawing : Withdrawing)
    (grant : AuthorizationParams) : Prop where
  vaultId : grant.vaultId = withdrawing.vaultId
  nullifierHash : grant.nullifierHash = withdrawing.request.nullifierHash
  starknetTxHash : grant.starknetTxHash = withdrawing.txHash
  bitcoinAddress : grant.bitcoinAddress = withdrawing.request.bitcoinAddress
  owed : ∃ vault ∈ db.vaults.rows, vault.id = withdrawing.vaultId ∧
    ∃ amountSats, decryptAmount crypto vault.encryptedAmount vault.salt = .ok amountSats ∧
      grant.amountSats = actualSats amountSats

/-- What a turn adds to the grants, and that a payout it leaves behind carries its grant. -/
structure TurnGrants (db : Db) (made : AuthorizationParams → Prop) (turn : SystemTurn) :
    Prop where
  new : ∀ id grant, grantOf turn.db id = some grant → grantOf db id = some grant ∨ made grant
  next : ∀ task payout, turn.next = some task → payoutOf task = some payout →
    grantOf turn.db payout.auth.id = some (granted payout.auth)

namespace TurnGrants

variable {db db₁ : Db} {made : AuthorizationParams → Prop} {turn : SystemTurn}

theorem of_quiet (same : ∀ id, grantOf turn.db id = grantOf db id)
    (next : ∀ task, turn.next = some task → payoutOf task = none) : TurnGrants db made turn := by
  constructor
  · intro id grant found
    exact Or.inl ((same id) ▸ found)
  · intro task payout waits pays
    rw [next task waits] at pays
    cases pays

theorem after (first : ∀ id grant, grantOf db₁ id = some grant →
    grantOf db id = some grant ∨ made grant) (later : TurnGrants db₁ made turn) :
    TurnGrants db made turn := by
  refine ⟨fun id grant found => ?_, later.next⟩
  rcases later.new id grant found with old | new
  · exact first id grant old
  · exact Or.inr new

theorem of_marked (same : ∀ id, grantOf db₁ id = grantOf db id)
    (later : TurnGrants db₁ made turn) : TurnGrants db made turn :=
  later.after fun id _ found => Or.inl ((same id) ▸ found)

theorem imp {made' : AuthorizationParams → Prop} (turns : TurnGrants db made turn)
    (implies : ∀ grant, made grant → made' grant) : TurnGrants db made' turn :=
  ⟨fun id grant found => (turns.new id grant found).imp_right (implies grant), turns.next⟩

end TurnGrants

section Turns

variable {db : Db} {made : AuthorizationParams → Prop}

theorem lift_grants {T A : Type} {task : T → Task} {answer : A → Answer} {turn : Turn T A}
    (same : turn.db.authorizations = db.authorizations) (quiet : ∀ t, payoutOf (task t) = none) :
    TurnGrants db made (lift task answer turn) := by
  refine .of_quiet (grantOf_congr same) fun next waits => ?_
  obtain ⟨t, -, rfl⟩ := Option.map_eq_some_iff.mp waits
  exact quiet t

theorem closes_grants {withdrawing : Withdrawing} {turn : WithdrawTurn}
    (closes : Closes withdrawing db turn) (ends : turn.next = none) :
    TurnGrants db made (liftPay .withdraw .withdraw turn) := by
  refine .of_quiet (grantOf_congr closes.apart.authorizations) fun task waits => ?_
  simp [liftPay, lift, ends] at waits

theorem granted_of_found {id : Text} {auth : WithdrawalAuthorization}
    (found : getAuthorizationById db id = some auth) :
    grantOf db auth.id = some (granted auth) := by
  rw [grantOf, getAuthorizationById_id found, found]
  rfl

theorem attempted_grants {authId : Text} {withdrawing : Withdrawing} {turn : WithdrawTurn}
    (attempted : Attempted authId withdrawing db turn) :
    TurnGrants db made (liftPay .withdraw .withdraw turn) := by
  cases attempted with
  | @racing db' auth marks found =>
      refine .of_marked marks.grants ⟨fun _ _ found => Or.inl found, fun task payout waits pays => ?_⟩
      cases waits
      cases pays
      exact (marks.grants auth.id).trans (granted_of_found found)
  | ended marks closes ends => exact .of_marked marks.grants (closes_grants closes ends)

/-- Step 5 grants nothing but the withdrawal it is at. -/
theorem authorize_grants (cfg : Config) (moment : Moment) (withdrawing : Withdrawing) :
    TurnGrants db (MadeFor cfg.crypto db withdrawing)
      (liftPay .withdraw .withdraw (authorize cfg moment db withdrawing)) := by
  unfold authorize
  cases found : vaultById db withdrawing.vaultId with
  | none => exact closes_grants (rejected_closes db withdrawing _) rfl
  | some vault =>
      dsimp only
      cases decrypted : decryptAmount cfg.crypto vault.encryptedAmount vault.salt with
      | error message => exact closes_grants (rejected_closes db withdrawing _) rfl
      | ok amountSats =>
          dsimp only
          cases held : getAuthorizationByNullifier db withdrawing.request.nullifierHash with
          | some auth =>
              dsimp only
              split_ifs
              · exact .of_marked (fun _ => grantOf_writeStatus ..)
                  (attempted_grants (attemptPayout_attempted ..))
              · exact attempted_grants (attemptPayout_attempted ..)
          | none =>
              dsimp only
              split
              · next message refused =>
                obtain ⟨closes, ends⟩ :=
                  finish_unpaid moment db withdrawing [] none rfl (some message)
                exact closes_grants closes ends
              · next db₁ created =>
                refine .after (fun id grant stored => ?_)
                  (attempted_grants (attemptPayout_attempted ..))
                obtain ⟨-, row, others, -⟩ := createAuthorization_ok created
                by_cases own : id = moment.random.uuid
                · rw [own, grantOf, row, Option.map_some, Option.some.injEq] at stored
                  subst stored
                  obtain ⟨member, named⟩ := Table.find?_some found
                  exact Or.inr ⟨rfl, rfl, rfl, rfl, vault, member, by simpa using named,
                    amountSats, decrypted, rfl⟩
                · rw [grantOf, others id own] at stored
                  exact Or.inl stored

theorem continues_grants {ids : Set Text} {rest : List WithdrawalAuthorization}
    {turn : ProcessorTurn} (continues_ : Continues ids db rest turn) :
    TurnGrants db made (liftPay .processor (fun _ => .processed) turn) := by
  refine .of_quiet continues_.marks.grants fun task waits => ?_
  obtain ⟨loop, next, rfl⟩ := Option.map_eq_some_iff.mp waits
  obtain ⟨auth, left, rfl, -, -⟩ := continues_.next loop next
  rfl

theorem payoutSent_grants {cfg : Config} {moment : Moment} {auth : WithdrawalAuthorization}
    {rest : List WithdrawalAuthorization} {turn : ProcessorTurn}
    (sent : PayoutSent cfg moment auth rest db turn) :
    TurnGrants db made (liftPay .processor (fun _ => .processed) turn) := by
  cases sent with
  | given_back _ continues_ => exact continues_grants continues_
  | @paying db' row marks found =>
      refine .of_marked marks.grants ⟨fun _ _ found => Or.inl found, fun task payout waits pays => ?_⟩
      cases waits
      cases pays
      exact (marks.grants row.id).trans (granted_of_found found)

/-- A payout that goes on keeps its grant. -/
theorem sent_grants {payout : Payout} {nextRequest : Nat} {task : Task} {turn : SystemTurn}
    (held : grantOf db payout.auth.id = some (granted payout.auth)) (same : turn.db = db)
    (next : turn.next = some task) (goes_on : payoutOf task = some (.sent payout.auth nextRequest)) :
    TurnGrants db made turn := by
  refine ⟨fun id grant found => Or.inl (same ▸ found), fun task' payout' waits pays => ?_⟩
  rw [next, Option.some.injEq] at waits
  subst waits
  rw [goes_on, Option.some.injEq] at pays
  subst pays
  rw [same]
  exact held

end Turns

variable (env : Environment)

/-- The grants that a step can make: for a retried withdrawal, or for an answered Starknet call. -/
def Makes (s : State) (label : Label) (grant : AuthorizationParams) : Prop :=
  (∃ id body moment request vault txHash, label = .request id (.withdraw body) moment ∧
    withdrawGate env.senderAddress env.crypto s.db body = .ok (.retry request vault txHash) ∧
    MadeFor env.crypto s.db ⟨request, vault.id, txHash, true⟩ grant) ∨
  ∃ id moment asked request vault call txHash,
    label = .reply id (.rpc (.executed (.ok txHash))) moment ∧
    s.tasks id = some (asked, .withdraw (.executing request vault call)) ∧
    MadeFor env.crypto s.db ⟨request, vault.id, txHash, false⟩ grant

/-- Every payout under way carries its grant. -/
def Granted (s : State) : Prop :=
  ∀ id request task payout, s.tasks id = some (request, task) → payoutOf task = some payout →
    grantOf s.db payout.auth.id = some (granted payout.auth)

theorem begin_grants (s : State) (id : Nat) (request : Request) (moment : Moment) :
    TurnGrants s.db (Makes env s (.request id request moment))
      (begin env moment s.issued s.db request) := by
  have quiet : ∀ r, (∀ body, r ≠ .withdraw body) → r ≠ .processAuthorizations →
      (∀ task, (begin env moment s.issued s.db r).next = some task → payoutOf task = none) →
      TurnGrants s.db (Makes env s (.request id r moment)) (begin env moment s.issued s.db r) := by
    intro r silent idle
    refine .of_quiet fun id => ?_
    rw [(begin_db_of_silent env moment s.issued s.db r silent idle).1]
  cases request with
  | withdraw body =>
      simp only [begin, Withdrawals.withdraw]
      split
      · exact closes_grants (rejected_closes s.db default _) rfl
      · exact .of_quiet (fun _ => rfl) fun task waits => by cases waits; rfl
      · next request vault txHash gate =>
        exact (authorize_grants _ moment _).imp fun grant made =>
          Or.inl ⟨id, body, moment, request, vault, txHash, rfl, gate, made⟩
  | processAuthorizations => exact continues_grants (takeNext_continues moment s.db _)
  | _ =>
      refine quiet _ (by simp) (by simp) fun task waits => ?_
      obtain ⟨_, _, rfl⟩ := Option.map_eq_some_iff.mp waits
      rfl

theorem resume_grants {s : State} {id : Nat} {request : Request} {task : Task} {reply : Reply}
    {moment : Moment} {nextRequest : Nat} {turn : SystemTurn}
    (waits : s.tasks id = some (request, task))
    (held : ∀ payout, payoutOf task = some payout →
      grantOf s.db payout.auth.id = some (granted payout.auth))
    (resumed : resume env moment nextRequest s.db task reply = some turn) :
    TurnGrants s.db (Makes env s (.reply id reply moment)) turn := by
  cases resume_resumed env resumed with
  | deposit went =>
      exact lift_grants (Deposits.resumeDeposit_writes _ _ went).apart.authorizations fun _ => rfl
  | execute went =>
      exact lift_grants ((resumeExecute_writes _ _ went).authorizations _ _) fun _ => rfl
  | audit went => exact lift_grants (resumeAudit_refreshes went).apart.authorizations fun _ => rfl
  | @executing body vault call answer =>
      cases answer with
      | error failure => exact closes_grants (rejected_closes s.db default _) rfl
      | ok txHash =>
          exact (authorize_grants _ moment _).imp fun grant made =>
            Or.inr ⟨id, moment, request, body, vault, call, txHash, rfl, waits, made⟩
  | @racing withdrawing payout answer after went =>
      cases resumeRacing_resumed _ _ went with
      | send _ _ => exact sent_grants (held payout rfl) rfl rfl rfl
      | failed marks _ closes ends => exact .of_marked marks.grants (closes_grants closes ends)
      | paid _ _ completes closes ends =>
          exact .of_marked completes.grants (closes_grants closes ends)
  | @orphaned payout answer after went =>
      cases resumeOrphaned_resumed _ _ went with
      | send _ _ => exact sent_grants (held payout rfl) rfl rfl rfl
      | failed marks _ _ => exact .of_quiet marks.grants fun task waits => by cases waits
      | lost _ => exact .of_quiet (fun _ => rfl) fun task waits => by cases waits
      | paid _ _ _ completes => exact .of_quiet completes.grants fun task waits => by cases waits
  | @verifying auth rest answer =>
      unfold afterVerification
      split_ifs
      · exact payoutSent_grants (sendPayout_sent ..)
      · exact continues_grants (giveBack_continues moment (Marks.refl _ _) rest)
  | @paying payout rest answer after went =>
      cases resumePaying_resumed _ _ went with
      | send _ _ => exact sent_grants (held payout rfl) rfl rfl rfl
      | failed _ _ continues_ => exact continues_grants continues_
      | paid _ _ _ completes continues_ =>
          exact .of_marked completes.grants (continues_grants continues_)

theorem expire_grants {s : State} {task : Task} {moment : Moment} {turn : SystemTurn}
    {made : AuthorizationParams → Prop}
    (held : ∀ payout, payoutOf task = some payout →
      grantOf s.db payout.auth.id = some (granted payout.auth))
    (expired : expire moment s.db task = some turn) : TurnGrants s.db made turn := by
  cases expire_expired expired with
  | @racing withdrawing payout =>
      obtain ⟨closes, orphaned⟩ := loseRace_closes moment s.db withdrawing payout
      have same := grantOf_congr closes.apart.authorizations
      refine ⟨fun id grant found => Or.inl ((same id) ▸ found), fun next later waits pays => ?_⟩
      simp only [liftPay, lift, orphaned, Option.map_some, Option.some.injEq] at waits
      subst waits
      cases pays
      exact (same _).trans (held payout rfl)

/-- The handlers carry rows of the table, and each payout the whole grant it is for. -/
structure Tracked (s : State) : Prop where
  carries : Carries s
  granted : Granted s

theorem settle_granted {s heard : State} {id : Nat} {request : Request} {turn : SystemTurn}
    {made : AuthorizationParams → Prop} (granted : Granted s) (same : heard.tasks = s.tasks)
    (extends_ : Extends s.db turn.db) (turns : TurnGrants s.db made turn) :
    Granted (settle heard id request turn) := by
  intro other r task payout waits pays
  rw [settle_tasks, same] at waits
  split_ifs at waits
  · obtain ⟨next, waits, told⟩ := Option.map_eq_some_iff.mp waits
    cases told
    exact turns.next task payout waits pays
  · exact extends_.kept _ _ (granted other r task payout waits pays)

/-- A step keeps the grants, and makes a new one only for a withdrawal. -/
theorem step_grants {s s' : State} {label : Label} (tracked : Tracked s)
    (stepped : step env s label = some s') :
    (∀ id grant, grantOf s'.db id = some grant →
      grantOf s.db id = some grant ∨ Makes env s label grant) ∧ Tracked s' := by
  obtain ⟨extends_, carries⟩ := step_carries env tracked.carries stepped
  cases step_stepped env stepped with
  | @request id request moment idle =>
      have turns := begin_grants env s id request moment
      exact ⟨turns.new, carries, settle_granted tracked.granted rfl extends_ turns⟩
  | @reply id request task reply moment turn waits resumed =>
      have turns := resume_grants env waits (tracked.granted id request task · waits) resumed
      exact ⟨turns.new, carries, settle_granted tracked.granted rfl extends_ turns⟩
  | @timeout id request task moment turn waits expired =>
      have turns : TurnGrants s.db (fun grant => Makes env s (.timeout id moment) grant) turn :=
        expire_grants (tracked.granted id request task · waits) expired
      exact ⟨turns.new, carries, settle_granted tracked.granted rfl extends_ turns⟩
  | land => exact ⟨fun _ _ found => Or.inl found, carries, tracked.granted⟩
  | block fresh => exact ⟨fun _ _ found => Or.inl found, carries, tracked.granted⟩

theorem starts_tracked {s : State} (starts : Starts s) : Tracked s := by
  constructor
  · intro id request task waits
    rw [starts.tasks] at waits
    cases waits
  · intro id request task payout waits
    rw [starts.tasks] at waits
    cases waits

end PrivateBtc.Backend.Grants
