/- PrivateBtc/Backend/PayoutMarks
   digest: Which authorizations a turn leaves processing or failed: at most those still held. -/

import PrivateBtc.Backend.Processor

set_option autoImplicit false
set_option relaxedAutoImplicit false

namespace PrivateBtc.Backend.PayoutMarks

open Library Library.JsText
open Authorizations CryptoService Database Http Payments Processor Withdrawals
open WithdrawGate (tb1)

/-- Nobody takes up such an authorization again of its own accord. -/
def Unsettled (db : Db) (authId : Text) : Prop :=
  statusOf db authId = some .processing ∨ statusOf db authId = some .failed

/-- A turn of a handler that held one authorization and goes on with another leaves unsettled
at most the one it goes on with, and what was so before and was not its own. -/
def Tends (held : Option Text) (db db' : Db) (next : Option Text) : Prop :=
  ∀ authId, Unsettled db' authId → next = some authId ∨ held ≠ some authId ∧ Unsettled db authId

namespace Tends

variable {held mid next : Option Text} {db db₁ db' : Db}

theorem trans (first : Tends held db db₁ mid) (second : Tends mid db₁ db' next) :
    Tends held db db' next := by
  intro authId unsettled
  rcases second authId unsettled with taken | ⟨other, before⟩
  · exact Or.inl taken
  · rcases first authId before with own | earlier
    · exact absurd own other
    · exact Or.inr earlier

theorem of_same (same : db'.authorizations = db.authorizations) : Tends held db db' held := by
  intro authId unsettled
  rw [Unsettled, statusOf_congr same] at unsettled
  by_cases own : held = some authId
  · exact Or.inl own
  · exact Or.inr ⟨own, unsettled⟩

theorem write {authId : Text} {status : AuthStatus} {nowSecs : Nat} {bitcoinTxid : Option Text}
    {errorMessage : Option String} (alone : held = none ∨ held = some authId)
    (tended : status = .processing ∨ status = .failed → next = some authId) :
    Tends held db (writeStatus authId status nowSecs bitcoinTxid errorMessage db) next := by
  intro other unsettled
  rw [Unsettled, statusOf_writeStatus] at unsettled
  split_ifs at unsettled with same
  · subst same
    have written : status = .processing ∨ status = .failed := by
      cases before : statusOf db other with
      | none => simp [before] at unsettled
      | some old => simpa [before] using unsettled
    exact Or.inl (tended written)
  · right
    refine ⟨?_, unsettled⟩
    rintro rfl
    rcases alone with nothing | own
    · cases nothing
    · exact same (Option.some.inj own)

/-- Taking an authorization up. -/
theorem mark {authId : Text} {status : AuthStatus} {nowSecs : Nat} {bitcoinTxid : Option Text}
    {errorMessage : Option String} (alone : held = none ∨ held = some authId) :
    Tends held db (writeStatus authId status nowSecs bitcoinTxid errorMessage db) (some authId) :=
  write alone fun _ => rfl

/-- Letting it go as pending or as completed. -/
theorem settle {authId : Text} {status : AuthStatus} {nowSecs : Nat} {bitcoinTxid : Option Text}
    {errorMessage : Option String} (alone : held = none ∨ held = some authId)
    (settled : status ≠ .processing ∧ status ≠ .failed) :
    Tends held db (writeStatus authId status nowSecs bitcoinTxid errorMessage db) next := by
  refine write alone ?_
  rintro (processing | failed)
  · exact absurd processing settled.1
  · exact absurd failed settled.2

theorem create {params : AuthorizationParams} {id : Text} {nowSecs : Nat}
    (created : createAuthorization params id nowSecs db = .ok db') : Tends none db db' none := by
  obtain ⟨-, stored, others, -⟩ := createAuthorization_ok created
  intro other unsettled
  right
  refine ⟨by simp, ?_⟩
  by_cases same : other = id
  · subst same
    simp [Unsettled, statusOf, stored, AuthorizationParams.row] at unsettled
  · rwa [Unsettled, statusOf, others other same] at unsettled

end Tends

section Loop

variable (cfg : Config) (moment : Moment)

def heldByLoop : ProcessorTask → Text
  | .verifying auth _ => auth.id
  | .paying payout _ => payout.auth.id

theorem takeNext_tends (db : Db) (rest : List WithdrawalAuthorization) :
    Tends none db (takeNext moment db rest).db ((takeNext moment db rest).next.map heldByLoop) := by
  induction rest generalizing db with
  | nil => exact Tends.of_same rfl
  | cons auth rest ih =>
      have processing : Tends none db (markStatus auth.id .processing moment.nowSecs db)
          (some auth.id) := Tends.mark (Or.inl rfl)
      rw [takeNext]
      split_ifs
      · exact processing
      · have pending : Tends (some auth.id) (markStatus auth.id .processing moment.nowSecs db)
            (markStatus auth.id .pending moment.nowSecs
              (markStatus auth.id .processing moment.nowSecs db)) none :=
          Tends.settle (Or.inr rfl) (by decide)
        exact (processing.trans pending).trans (ih _)

theorem giveBack_tends (db : Db) (authId : Text) (rest : List WithdrawalAuthorization) :
    Tends (some authId) db (giveBack moment db authId rest).db
      ((giveBack moment db authId rest).next.map heldByLoop) := by
  have pending : Tends (some authId) db (markStatus authId .pending moment.nowSecs db) none :=
    Tends.settle (Or.inr rfl) (by decide)
  exact pending.trans (takeNext_tends moment _ rest)

theorem settleError_tends (nowSecs : Nat) (auth : WithdrawalAuthorization) (message : String)
    (db : Db) :
    Tends (some auth.id) db (settleError cfg nowSecs auth message db).db (some auth.id) := by
  unfold settleError
  dsimp only
  split_ifs
  · exact Tends.of_same rfl
  · exact Tends.mark (Or.inr rfl)

/-- Whatever the start of a payout writes, it writes to the authorization that the loop holds. -/
theorem startPayout_tends (authId : Text) (nowSecs : Nat) (db : Db) :
    Tends (some authId) db (startPayout cfg authId nowSecs db).db (some authId) := by
  have unchanged : Tends (some authId) db db (some authId) := Tends.of_same rfl
  unfold startPayout executeCovenantWithdrawal sendBitcoinWithAuthorization
  cases found : getAuthorizationById db authId with
  | none => split_ifs <;> exact unchanged
  | some auth =>
      have named := getAuthorizationById_id found
      subst named
      split_ifs
      · exact unchanged
      · dsimp only
        cases verifyAuthorization db auth.nullifierHash with
        | error message => exact unchanged
        | ok checked =>
            have processing : Tends (some auth.id) db (markStatus auth.id .processing nowSecs db)
                (some auth.id) := Tends.mark (Or.inr rfl)
            dsimp only
            cases senderOf cfg auth.bitcoinAddress with
            | error message => exact processing.trans (settleError_tends cfg _ _ _ _)
            | ok sender => exact processing

theorem sendPayout_tends (db : Db) (auth : WithdrawalAuthorization)
    (rest : List WithdrawalAuthorization) :
    Tends (some auth.id) db (sendPayout cfg moment db auth rest).db
      ((sendPayout cfg moment db auth rest).next.map heldByLoop) := by
  have tends := startPayout_tends cfg auth.id moment.nowSecs db
  have started := startPayout_started cfg auth.id moment.nowSecs db
  unfold sendPayout
  generalize startPayout cfg auth.id moment.nowSecs db = turn at tends started
  cases started with
  | fetching marks found =>
      have named := getAuthorizationById_id found
      simpa [Turn.wait, heldByLoop, Payout.auth, named] using tends
  | failed marks => exact tends.trans (giveBack_tends moment _ auth.id rest)

theorem resumePayout_tends {nowSecs nextRequest : Nat} {db : Db} {payout : Payout}
    {reply : MempoolReply} {turn : PayoutTurn}
    (resumed : resumePayout cfg nowSecs nextRequest db payout reply = some turn) :
    Tends (some payout.auth.id) db turn.db (some payout.auth.id) := by
  unfold resumePayout at resumed
  split at resumed
  · split at resumed
    · cases resumed
      exact Tends.of_same rfl
    · cases resumed
      exact settleError_tends cfg _ _ _ _
  · cases resumed
    exact settleError_tends cfg _ _ _ _
  · cases resumed
    unfold settleBroadcast markCompleted
    split_ifs
    · exact Tends.of_same rfl
    · exact settleError_tends cfg _ _ _ _
    · exact Tends.mark (Or.inr rfl)
  · cases resumed
    exact settleError_tends cfg _ _ _ _
  · cases resumed

theorem resumePaying_tends {nextRequest : Nat} {db : Db} {payout : Payout}
    {rest : List WithdrawalAuthorization} {reply : MempoolReply} {turn : ProcessorTurn}
    (resumed : resumePaying cfg moment nextRequest db payout rest reply = some turn) :
    Tends (some payout.auth.id) db turn.db (turn.next.map heldByLoop) := by
  simp only [resumePaying, Option.bind_eq_bind, Option.bind_eq_some_iff] at resumed
  obtain ⟨after, went, told⟩ := resumed
  have tends := resumePayout_tends cfg went
  cases resumePayout_resumed cfg went with
  | send unsent silent =>
      cases told
      exact tends
  | failed marks _ unpaid =>
      cases told
      exact tends.trans (giveBack_tends moment _ payout.auth.id rest)
  | @paid txid sent answer legible =>
      cases empty : txid.isEmpty with
      | true =>
          simp only [markCompleted, empty, if_true] at told
          cases told
          exact tends.trans (giveBack_tends moment _ payout.auth.id rest)
      | false =>
          simp only [markCompleted, empty] at told
          cases told
          have completed : ∀ db₁, Tends (some payout.auth.id) db₁
              (writeStatus payout.auth.id .completed moment.nowSecs (some txid) none db₁) none :=
            fun _ => Tends.settle (Or.inr rfl) (by decide)
          exact (tends.trans (completed _)).trans (takeNext_tends moment _ rest)

end Loop

section Route

variable (cfg : Config) (moment : Moment)

/-- The legacy sender marks what it pays; the covenant service marks nothing. -/
def heldByRoute : WithdrawTask → Option Text
  | .executing .. => none
  | .racing _ payout | .orphaned payout => if cfg.useCovenants then none else some payout.auth.id

/-- The legacy sender has a wallet. -/
def Funded : Prop :=
  cfg.useCovenants = false → cfg.senderPrivateKey.isSome = true ∧ cfg.senderAddress.isSome = true

/-- The mempool gives a payout what it waits for. -/
def Proceeds : Payout → MempoolReply → Prop
  | .fetching auth, .utxos (.ok (utxos, feeRate)) =>
      ∃ payment, buildFor cfg auth utxos feeRate = .ok payment
  | .sent _ _, .broadcast (.ok txid) => txid.isEmpty = false
  | .fetching _, .utxos (.error _) | .sent _ _, .broadcast (.error _) => False
  | _, _ => True

def Signet (db : Db) : Prop :=
  ∀ id grant, grantOf db id = some grant → tb1.isPrefixOf grant.bitcoinAddress = true

variable {cfg} {moment} {db db' : Db} {held : Option Text}

theorem Signet.extends (signet : Signet db) (extends_ : Extends db db') : Signet db' := by
  intro id grant found
  rcases extends_.known id grant found with old | new
  · exact signet id grant old
  · exact new

theorem senderOf_funded (funded : Funded cfg) (legacy : cfg.useCovenants = false) {address : Text}
    (signet : tb1.isPrefixOf address = true) : ∃ sender, senderOf cfg address = .ok sender := by
  obtain ⟨key, own⟩ := funded legacy
  obtain ⟨_, key⟩ := Option.isSome_iff_exists.mp key
  obtain ⟨sender, own⟩ := Option.isSome_iff_exists.mp own
  refine ⟨sender, ?_⟩
  rw [senderOf, key, own]
  exact if_pos signet

theorem Tends.of_completes {authId : Text} (alone : held = none ∨ held = some authId)
    (completes : Completes authId db db') : Tends held db db' none := by
  intro other unsettled
  right
  rw [Unsettled, completes.statuses] at unsettled
  split_ifs at unsettled with same
  · cases before : statusOf db other <;> simp [before] at unsettled
  · refine ⟨?_, unsettled⟩
    rintro rfl
    rcases alone with nothing | own
    · cases nothing
    · exact same (Option.some.inj own)

theorem closes_tends {withdrawing : Withdrawing} {turn : WithdrawTurn}
    (closes : Closes withdrawing db turn) (ends : turn.next = none) :
    Tends none db turn.db (turn.next.bind (heldByRoute cfg)) := by
  rw [ends]
  exact Tends.of_same closes.apart.authorizations

theorem finish_tends (db : Db) (withdrawing : Withdrawing) (authId : Text) (result : Option Text) :
    Tends none db (finish moment db withdrawing authId result none).db
      ((finish moment db withdrawing authId result none).next.bind (heldByRoute cfg)) := by
  cases legible : result.filter fun txid => !txid.isEmpty with
  | none =>
      obtain ⟨closes, ends⟩ := finish_unpaid moment db withdrawing authId result legible none
      exact closes_tends closes ends
  | some txid =>
      obtain ⟨rfl, kept⟩ := Option.filter_eq_some_iff.mp legible
      obtain ⟨db₁, completes, closes, ends⟩ :=
        finish_paid moment db withdrawing authId (by simpa using kept) none
      exact (Tends.of_completes (Or.inl rfl) completes).trans (closes_tends closes ends)

/-- A payout that the route starts is marked by the sender that goes on with it. -/
theorem attemptPayout_tends (funded : Funded cfg) (signet : Signet db) (withdrawing : Withdrawing)
    (authId : Text) :
    Tends none db (attemptPayout cfg moment db withdrawing authId).db
      ((attemptPayout cfg moment db withdrawing authId).next.bind (heldByRoute cfg)) := by
  unfold attemptPayout startPayout executeCovenantWithdrawal sendBitcoinWithAuthorization
  cases found : getAuthorizationById db authId with
  | none => split_ifs <;> exact finish_tends db withdrawing authId none
  | some auth =>
      have named := getAuthorizationById_id found
      subst named
      cases mode : cfg.useCovenants with
      | true =>
          have covenants : heldByRoute cfg (.racing withdrawing (.fetching auth)) = none :=
            if_pos mode
          show Tends none db db (heldByRoute cfg (.racing withdrawing (.fetching auth)))
          rw [covenants]
          exact Tends.of_same rfl
      | false =>
          dsimp only
          cases verifyAuthorization db auth.nullifierHash with
          | error message => exact finish_tends db withdrawing auth.id none
          | ok checked =>
              have pays : tb1.isPrefixOf auth.bitcoinAddress = true :=
                signet auth.id (granted auth) (by rw [grantOf, found]; rfl)
              obtain ⟨sender, sends⟩ := senderOf_funded funded mode pays
              have legacy : heldByRoute cfg (.racing withdrawing (.fetching auth)) =
                  some auth.id := by
                rw [heldByRoute, mode]
                rfl
              simp only [sends]
              show Tends none db (markStatus auth.id .processing moment.nowSecs db)
                (heldByRoute cfg (.racing withdrawing (.fetching auth)))
              rw [legacy]
              exact Tends.mark (Or.inl rfl)

theorem authorize_tends (funded : Funded cfg) (signet : Signet db) (withdrawing : Withdrawing) :
    Tends none db (authorize cfg moment db withdrawing).db
      ((authorize cfg moment db withdrawing).next.bind (heldByRoute cfg)) := by
  have went := authorize_went cfg moment db withdrawing
  generalize authorize cfg moment db withdrawing = turn at went ⊢
  cases went with
  | given_up closes ends => exact closes_tends closes ends
  | created _ row _ _ =>
      exact (Tends.create row).trans (attemptPayout_tends funded
        (signet.extends (createAuthorization_extends row)) withdrawing _)
  | @retried auth _ _ =>
      have pending : Tends none db (markStatus auth.id .pending moment.nowSecs db) none :=
        Tends.settle (Or.inl rfl) (by decide)
      have extends_ : Extends db (markStatus auth.id .pending moment.nowSecs db) :=
        Extends.of_grants fun _ => grantOf_writeStatus ..
      exact pending.trans (attemptPayout_tends funded (signet.extends extends_) withdrawing _)
  | resumed _ => exact attemptPayout_tends funded signet withdrawing _

/-- What a payout of the route leaves marked: it lets its authorization go only when it is paid,
unless it marks nothing anyway. -/
theorem proceeds_tends {nextRequest : Nat} {payout : Payout} {reply : MempoolReply}
    {after : PayoutTurn} {held : Option Text}
    (holds : held = if cfg.useCovenants then none else some payout.auth.id)
    (proceeds : cfg.useCovenants = false → Proceeds cfg payout reply)
    (resumed : resumePayout cfg moment.nowSecs nextRequest db payout reply = some after) :
    Tends held db after.db (if after.settles then none else held) := by
  subst holds
  cases mode : cfg.useCovenants with
  | true =>
      have kept : after.db = db := by
        cases resumePayout_resumed cfg resumed with
        | send _ _ => rfl
        | failed _ kept _ => exact kept mode
        | paid _ _ _ => exact if_pos mode
      simp only [if_true, ite_self]
      exact Tends.of_same (by rw [kept])
  | false =>
      have goes := proceeds mode
      simp only [Bool.false_eq_true, if_false]
      unfold resumePayout at resumed
      split at resumed
      · obtain ⟨payment, built⟩ := goes
        rw [built] at resumed
        cases resumed
        exact Tends.of_same rfl
      · exact goes.elim
      · have legible : List.isEmpty _ = false := goes
        simp only [settleBroadcast, mode, markCompleted, legible] at resumed
        cases resumed
        exact Tends.settle (Or.inr rfl) (by decide)
      · exact goes.elim
      · cases resumed

theorem resumeRacing_tends {nextRequest : Nat} {withdrawing : Withdrawing} {payout : Payout}
    {reply : MempoolReply} {turn : WithdrawTurn}
    (proceeds : cfg.useCovenants = false → Proceeds cfg payout reply)
    (resumed : resumeRacing cfg moment nextRequest db withdrawing payout reply = some turn) :
    Tends (heldByRoute cfg (.racing withdrawing payout)) db turn.db
      (turn.next.bind (heldByRoute cfg)) := by
  simp only [resumeRacing, Option.bind_eq_bind, Option.bind_eq_some_iff] at resumed
  obtain ⟨after, went, told⟩ := resumed
  have holds : heldByRoute cfg (.racing withdrawing payout) =
      if cfg.useCovenants then none else some payout.auth.id := rfl
  have tends := proceeds_tends holds proceeds went
  cases resumePayout_resumed cfg went with
  | send unsent silent =>
      cases told
      exact tends
  | failed marks _ unpaid =>
      cases told
      exact tends.trans (finish_tends _ withdrawing payout.auth.id none)
  | @paid txid sent answer legible =>
      cases told
      exact tends.trans (finish_tends _ withdrawing payout.auth.id (some txid))

theorem resumeOrphaned_tends {nextRequest : Nat} {payout : Payout} {reply : MempoolReply}
    {turn : WithdrawTurn} (proceeds : cfg.useCovenants = false → Proceeds cfg payout reply)
    (resumed : resumeOrphaned cfg moment nextRequest db payout reply = some turn) :
    Tends (heldByRoute cfg (.orphaned payout)) db turn.db (turn.next.bind (heldByRoute cfg)) := by
  simp only [resumeOrphaned, Option.bind_eq_bind, Option.bind_eq_some_iff] at resumed
  obtain ⟨after, went, told⟩ := resumed
  have holds : heldByRoute cfg (.orphaned payout) =
      if cfg.useCovenants then none else some payout.auth.id := rfl
  have tends := proceeds_tends holds proceeds went
  cases resumePayout_resumed cfg went with
  | send unsent silent =>
      cases told
      exact tends
  | failed marks _ unpaid =>
      cases told
      exact tends
  | @paid txid sent answer legible =>
      cases told
      exact tends

theorem loseRace_tends (db : Db) (withdrawing : Withdrawing) (payout : Payout) :
    Tends (heldByRoute cfg (.racing withdrawing payout)) db
      (loseRace moment db withdrawing payout).db
      ((loseRace moment db withdrawing payout).next.bind (heldByRoute cfg)) := by
  obtain ⟨closes, orphaned⟩ := loseRace_closes moment db withdrawing payout
  rw [orphaned]
  exact Tends.of_same closes.apart.authorizations

end Route

end PrivateBtc.Backend.PayoutMarks
