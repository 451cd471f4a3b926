/- PrivateBtc/Backend/CompletedFinal
   digest: Which runs leave every completed authorization completed, with its bitcoin txid. -/

import PrivateBtc.Backend.PayoutMarks
import PrivateBtc.Backend.Server

set_option autoImplicit false
set_option relaxedAutoImplicit false

namespace PrivateBtc.Backend.CompletedFinal

open Library Library.JsText
open Authorizations Database Http Payments PayoutMarks Processor Server Starknet Withdrawals

/-- The bitcoin_txid of an authorization whose status is completed. -/
def completion (db : Db) (authId : Text) : Option (Option Text) :=
  (getAuthorizationById db authId).bind fun row =>
    if row.status = .completed then some row.bitcoinTxid else none

/-- What is completed in the first database is so in the second, with the same bitcoin_txid. -/
def Keeps (db db' : Db) : Prop :=
  ∀ authId txid, completion db authId = some txid → completion db' authId = some txid

theorem Keeps.refl (db : Db) : Keeps db db := fun _ _ done => done

theorem Keeps.trans {db db₁ db' : Db} (first : Keeps db db₁) (second : Keeps db₁ db') :
    Keeps db db' :=
  fun authId txid done => second authId txid (first authId txid done)

theorem completion_congr {db db' : Db} (same : db'.authorizations = db.authorizations)
    (authId : Text) : completion db' authId = completion db authId := by
  rw [completion, completion, getAuthorizationById, same, getAuthorizationById]

/-- The last writes of a turn: those that leave the authorization open, and the one that records
a payout for good. -/
structure Writes (reopened : Set Text) (recorded : Option (Text × Text)) (db db' : Db) : Prop where
  reopens : ∀ authId ∈ reopened, completion db' authId = none
  records : ∀ authId txid, recorded = some (authId, txid) → authId ∉ reopened →
    (completion db authId).isSome → completion db' authId = some (some txid)
  keeps : ∀ authId, authId ∉ reopened → (∀ txid, recorded ≠ some (authId, txid)) →
    completion db' authId = completion db authId

namespace Writes

variable {reopened more : Set Text} {recorded : Option (Text × Text)} {db db₁ db' : Db}

theorem of_same (same : db'.authorizations = db.authorizations) : Writes ∅ none db db' := by
  refine ⟨?_, ?_, fun authId _ _ => completion_congr same authId⟩
  · intro authId none_
    cases none_
  · intro authId txid none_
    cases none_

theorem trans (first : Writes reopened recorded db db₁) (second : Writes more none db₁ db') :
    Writes (reopened ∪ more) recorded db db' := by
  have later : ∀ authId, authId ∉ more → completion db' authId = completion db₁ authId :=
    fun authId apart => second.keeps authId apart (by simp)
  constructor
  · rintro authId member
    by_cases again : authId ∈ more
    · exact second.reopens authId again
    · rw [later authId again]
      exact first.reopens authId (member.resolve_right again)
  · intro authId txid told apart done
    rw [Set.mem_union, not_or] at apart
    rw [later authId apart.2]
    exact first.records authId txid told apart.1 done
  · intro authId apart other
    rw [Set.mem_union, not_or] at apart
    rw [later authId apart.2]
    exact first.keeps authId apart.1 other

theorem then_same (first : Writes reopened recorded db db₁)
    (same : db'.authorizations = db₁.authorizations) : Writes reopened recorded db db' := by
  have both := first.trans (of_same same)
  rwa [Set.union_empty] at both

theorem after (first : Writes ∅ none db db₁) (second : Writes reopened recorded db₁ db') :
    Writes reopened recorded db db' := by
  have same : ∀ authId, completion db₁ authId = completion db authId :=
    fun authId => first.keeps authId (by simp) (by simp)
  refine ⟨second.reopens, ?_, ?_⟩
  · intro authId txid told apart done
    rw [← same] at done
    exact second.records authId txid told apart done
  · intro authId apart other
    rw [second.keeps authId apart other, same]

/-- Writes to authorizations that are open anyway. -/
theorem of_open (writes : Writes reopened recorded db db')
    (open_ : ∀ authId ∈ reopened, completion db authId = none) : Writes ∅ recorded db db' := by
  constructor
  · intro authId none_
    cases none_
  · intro authId txid told _ done
    refine writes.records authId txid told (fun member => ?_) done
    rw [open_ authId member] at done
    cases done
  · intro authId _ other
    by_cases member : authId ∈ reopened
    · rw [writes.reopens authId member, open_ authId member]
    · exact writes.keeps authId member other

theorem mark {authId : Text} {status : AuthStatus} {nowSecs : Nat} {bitcoinTxid : Option Text}
    {errorMessage : Option String} (open_ : status ≠ .completed) :
    Writes {authId} none db (writeStatus authId status nowSecs bitcoinTxid errorMessage db) := by
  constructor
  · rintro other rfl
    rw [completion, getAuthorizationById_writeStatus]
    cases getAuthorizationById db other <;> simp [setStatus, open_]
  · intro other txid none_
    cases none_
  · intro other apart _
    rw [Set.mem_singleton_iff] at apart
    rw [completion, getAuthorizationById_writeStatus, completion]
    simp [apart]

theorem complete {authId txid : Text} {nowSecs : Nat} {errorMessage : Option String} :
    Writes ∅ (some (authId, txid)) db
      (writeStatus authId .completed nowSecs (some txid) errorMessage db) := by
  constructor
  · intro other none_
    cases none_
  · intro other told same _ done
    cases same
    rw [completion, getAuthorizationById_writeStatus]
    cases found : getAuthorizationById db authId with
    | none => simp [completion, found] at done
    | some row => simp [setStatus]
  · intro other _ unpaid
    have apart : other ≠ authId := by
      rintro rfl
      exact unpaid txid rfl
    rw [completion, getAuthorizationById_writeStatus, completion]
    simp [apart]

/-- Recording the same payout twice. -/
theorem again {authId txid : Text} (first : Writes ∅ (some (authId, txid)) db db₁)
    (second : Writes ∅ (some (authId, txid)) db₁ db') : Writes ∅ (some (authId, txid)) db db' := by
  constructor
  · exact second.reopens
  · intro other told same apart done
    refine second.records other told same apart ?_
    rw [first.records other told same apart done]
    rfl
  · intro other apart unpaid
    rw [second.keeps other apart unpaid, first.keeps other apart unpaid]

/-- A turn loses a completion exactly when it reopens one or records another txid. -/
theorem keeps_iff (writes : Writes reopened recorded db db') :
    Keeps db db' ↔ (∀ authId ∈ reopened, completion db authId = none) ∧
      ∀ authId txid old, recorded = some (authId, txid) → completion db authId = some old →
        old = some txid := by
  constructor
  · intro kept
    have open_ : ∀ authId ∈ reopened, completion db authId = none := by
      intro authId member
      by_contra done
      obtain ⟨txid, done⟩ := Option.ne_none_iff_exists'.mp done
      have lost := writes.reopens authId member
      rw [kept authId txid done] at lost
      cases lost
    refine ⟨open_, fun authId txid old told done => ?_⟩
    have apart : authId ∉ reopened := by
      intro member
      rw [open_ authId member] at done
      cases done
    have now := writes.records authId txid told apart (by rw [done]; rfl)
    rw [kept authId old done] at now
    exact Option.some.inj now
  · rintro ⟨open_, same⟩ authId txid done
    have apart : authId ∉ reopened := by
      intro member
      rw [open_ authId member] at done
      cases done
    by_cases paid : ∃ new, recorded = some (authId, new)
    · obtain ⟨new, told⟩ := paid
      rw [writes.records authId new told apart (by rw [done]; rfl)]
      exact congrArg some (same authId new txid told done).symm
    · rw [not_exists] at paid
      rw [writes.keeps authId apart paid]
      exact done

end Writes

section Turns

variable (cfg : Config) (moment : Moment) {db : Db}

/-- A row that the check of the legacy sender lets through is not completed. -/
theorem verifyAuthorization_open {authId : Text} {auth checked : WithdrawalAuthorization}
    (found : getAuthorizationById db authId = some auth)
    (verified : verifyAuthorization db auth.nullifierHash = .ok checked) :
    completion db authId = none := by
  have own : getAuthorizationByNullifier db auth.nullifierHash = some auth := by
    refine Table.find?_of_mem (Table.find?_some found).1 (by simp) ?_
    intro a b a_hash b_hash
    rw [beq_iff_eq] at a_hash b_hash
    simp [authorizationSchema, a_hash, b_hash]
  rw [verifyAuthorization, own] at verified
  rw [completion, found]
  cases status : auth.status <;> simp [status] at verified ⊢

/-- The payout is refused before its first request. -/
def refused (db : Db) (authId : Text) : Bool :=
  match getAuthorizationById db authId with
  | none => true
  | some auth =>
      !cfg.useCovenants && !((verifyAuthorization db auth.nullifierHash).isOk &&
        (senderOf cfg auth.bitcoinAddress).isOk)

theorem startPayout_settles (authId : Text) (nowSecs : Nat) (db : Db) :
    (startPayout cfg authId nowSecs db).settles = refused cfg db authId := by
  unfold startPayout executeCovenantWithdrawal sendBitcoinWithAuthorization refused
  cases getAuthorizationById db authId with
  | none => split_ifs <;> rfl
  | some auth =>
      cases mode : cfg.useCovenants with
      | true => rfl
      | false =>
          dsimp only
          cases verifyAuthorization db auth.nullifierHash with
          | error message => rfl
          | ok checked => cases senderOf cfg auth.bitcoinAddress <;> rfl

/-- The start of a payout marks only what is open. -/
theorem startPayout_writes (authId : Text) (nowSecs : Nat) (db : Db) :
    Writes ∅ none db (startPayout cfg authId nowSecs db).db := by
  have unchanged : Writes ∅ none db db := Writes.of_same rfl
  unfold startPayout executeCovenantWithdrawal sendBitcoinWithAuthorization
  cases found : getAuthorizationById db authId with
  | none => split_ifs <;> exact unchanged
  | some auth =>
      have named := getAuthorizationById_id found
      subst named
      split_ifs
      · exact unchanged
      · dsimp only
        cases verified : verifyAuthorization db auth.nullifierHash with
        | error message => exact unchanged
        | ok checked =>
            have open_ := verifyAuthorization_open found verified
            have processing : Writes {auth.id} none db
                (markStatus auth.id .processing nowSecs db) := Writes.mark (by decide)
            dsimp only
            cases senderOf cfg auth.bitcoinAddress with
            | error message =>
                have failed : Writes {auth.id} none (markStatus auth.id .processing nowSecs db)
                    (settleError cfg nowSecs auth message
                      (markStatus auth.id .processing nowSecs db)).db := by
                  unfold settleError
                  dsimp only
                  split_ifs
                  exact Writes.mark (by decide)
                exact (processing.trans failed).of_open (by simpa using open_)
            | ok sender => exact processing.of_open (by simpa using open_)

theorem takeNext_writes (db : Db) (rest : List WithdrawalAuthorization) :
    Writes (reached rest) none db (takeNext moment db rest).db := by
  induction rest generalizing db with
  | nil => exact Writes.of_same rfl
  | cons auth rest ih =>
      have processing : Writes {auth.id} none db
          (markStatus auth.id .processing moment.nowSecs db) := Writes.mark (by decide)
      rw [takeNext, show validateTxHashFormat (paddedHash auth.starknetTxHash) = wellFormed auth
        from rfl, reached]
      split_ifs with formed
      · exact processing
      · have pending : Writes {auth.id} none (markStatus auth.id .processing moment.nowSecs db)
            (markStatus auth.id .pending moment.nowSecs
              (markStatus auth.id .processing moment.nowSecs db)) := Writes.mark (by decide)
        have both := (processing.trans pending).trans (ih _)
        rwa [Set.union_self, Set.singleton_union] at both

theorem giveBack_writes (db : Db) (authId : Text) (rest : List WithdrawalAuthorization) :
    Writes (insert authId (reached rest)) none db (giveBack moment db authId rest).db := by
  have pending : Writes {authId} none db (markStatus authId .pending moment.nowSecs db) :=
    Writes.mark (by decide)
  have both := pending.trans (takeNext_writes moment _ rest)
  rwa [Set.singleton_union] at both

/-- A payout that is refused is given back, even one that is refused for being completed. -/
theorem sendPayout_writes (db : Db) (auth : WithdrawalAuthorization)
    (rest : List WithdrawalAuthorization) :
    Writes (if refused cfg db auth.id then insert auth.id (reached rest) else ∅) none db
      (sendPayout cfg moment db auth rest).db := by
  have started := startPayout_writes cfg auth.id moment.nowSecs db
  have settles := startPayout_settles cfg auth.id moment.nowSecs db
  unfold sendPayout
  generalize startPayout cfg auth.id moment.nowSecs db = turn at started settles
  rcases turn with ⟨db₁, sends, progress⟩
  rw [← settles]
  cases progress with
  | waiting payout => exact started
  | settled result => exact started.after (giveBack_writes moment db₁ auth.id rest)

theorem pending_open {authId : Text} (listed : authId ∈ reached (getPendingAuthorizations db)) :
    completion db authId = none := by
  have row_of_reached : ∀ rest : List WithdrawalAuthorization, authId ∈ reached rest →
      ∃ row ∈ rest, row.id = authId := by
    intro rest member
    induction rest with
    | nil => cases member
    | cons auth rest ih =>
        rw [reached] at member
        split_ifs at member
        · exact ⟨auth, List.mem_cons_self, member.symm⟩
        · rcases member with rfl | later
          · exact ⟨auth, List.mem_cons_self, rfl⟩
          · obtain ⟨row, there, named⟩ := ih later
            exact ⟨row, .tail _ there, named⟩
  obtain ⟨row, member, rfl⟩ := row_of_reached _ listed
  have pending : row ∈ db.authorizations.filter fun row => row.status == .pending :=
    (List.perm_insertionSort _ _).mem_iff.mp member
  obtain ⟨stored, status⟩ := List.mem_filter.mp pending
  rw [completion, getAuthorizationById_of_mem stored]
  rw [beq_iff_eq] at status
  simp [status]

/-- What a payout does with a reply, by what the reply gives it. -/
inductive Told (db : Db) (payout : Payout) (reply : MempoolReply) : PayoutTurn → Prop where
  | sends {payment : Option Payment} {later : Payout} (proceeds : Proceeds cfg payout reply)
      (unpaid : Paid payout reply = none) :
      Told db payout reply ⟨db, payment, .waiting later⟩
  | fails {db' : Db} {message : String} (stuck : ¬ Proceeds cfg payout reply)
      (unpaid : Paid payout reply = none)
      (writes : Writes (if cfg.useCovenants then ∅ else {payout.auth.id}) none db db') :
      Told db payout reply ⟨db', none, .settled (.error message)⟩
  | blank (stuck : ¬ Proceeds cfg payout reply) (unpaid : Paid payout reply = none)
      (covenants : cfg.useCovenants = true) : Told db payout reply ⟨db, none, .settled (.ok [])⟩
  | pays {db' : Db} {txid : Text} (proceeds : Proceeds cfg payout reply)
      (paid : Paid payout reply = some txid) (legible : txid.isEmpty = false)
      (writes : Writes ∅ (if cfg.useCovenants then none else some (payout.auth.id, txid)) db db') :
      Told db payout reply ⟨db', none, .settled (.ok txid)⟩

theorem settleError_writes (nowSecs : Nat) (auth : WithdrawalAuthorization) (message : String)
    (db : Db) :
    Writes (if cfg.useCovenants then ∅ else {auth.id}) none db
      (settleError cfg nowSecs auth message db).db := by
  unfold settleError
  dsimp only
  split_ifs
  · exact Writes.of_same rfl
  · exact Writes.mark (by decide)

variable {cfg} {moment}

theorem resumePayout_told {nowSecs nextRequest : Nat} {payout : Payout} {reply : MempoolReply}
    {turn : PayoutTurn}
    (resumed : resumePayout cfg nowSecs nextRequest db payout reply = some turn) :
    Told cfg db payout reply turn := by
  unfold resumePayout at resumed
  split at resumed
  · next auth utxos feeRate =>
    cases built : buildFor cfg auth utxos feeRate with
    | ok payment =>
        rw [built] at resumed
        cases resumed
        exact .sends ⟨payment, built⟩ rfl
    | error message =>
        rw [built] at resumed
        cases resumed
        refine .fails ?_ rfl (settleError_writes cfg ..)
        rintro ⟨payment, other⟩
        rw [built] at other
        cases other
  · cases resumed
    exact .fails (fun stuck => stuck) rfl (settleError_writes cfg ..)
  · next auth request txid =>
    cases resumed
    unfold settleBroadcast markCompleted
    by_cases legible : txid.isEmpty = true
    · have unpaid : Paid (.sent auth request) (.broadcast (.ok txid)) = none := if_pos legible
      have stuck : ¬ Proceeds cfg (.sent auth request) (.broadcast (.ok txid)) := by
        simp [Proceeds, legible]
      cases mode : cfg.useCovenants with
      | true =>
          rw [List.isEmpty_iff] at legible
          subst legible
          exact .blank stuck unpaid mode
      | false =>
          simp only [legible, if_true]
          exact .fails stuck unpaid (settleError_writes cfg ..)
    · have paid : Paid (.sent auth request) (.broadcast (.ok txid)) = some txid := if_neg legible
      rw [Bool.not_eq_true] at legible
      cases mode : cfg.useCovenants with
      | true => exact .pays legible paid legible (by rw [mode]; exact Writes.of_same rfl)
      | false =>
          simp only [legible]
          exact .pays legible paid legible (by rw [mode]; exact Writes.complete)
  · cases resumed
    exact .fails (fun stuck => stuck) rfl (settleError_writes cfg ..)
  · cases resumed

/-- The authorization of a payout that the mempool lets down. -/
def abandoned (cfg : Config) (payout : Payout) (reply : MempoolReply) : Set Text :=
  {authId | authId = payout.auth.id ∧ ¬ Proceeds cfg payout reply}

theorem abandoned_of_proceeds {payout : Payout} {reply : MempoolReply}
    (proceeds : Proceeds cfg payout reply) : abandoned cfg payout reply = ∅ := by
  ext authId
  simp [abandoned, proceeds]

theorem abandoned_of_stuck {payout : Payout} {reply : MempoolReply}
    (stuck : ¬ Proceeds cfg payout reply) : abandoned cfg payout reply = {payout.auth.id} := by
  ext authId
  simp [abandoned, stuck]

/-- The txid that a handler is told for its authorization. -/
def paidFor (payout : Payout) (reply : MempoolReply) : Option (Text × Text) :=
  (Paid payout reply).map fun txid => (payout.auth.id, txid)

theorem finish_paid_writes (moment : Moment) (db : Db) (withdrawing : Withdrawing) (authId : Text)
    {txid : Text} (legible : txid.isEmpty = false) :
    Writes ∅ (some (authId, txid)) db
      (finish moment db withdrawing authId (some txid) none).db := by
  unfold finish
  simp only [Option.filter, legible, Bool.not_false, if_true]
  obtain ⟨closes, -⟩ := closeVault_closes moment
    (writeStatus authId .completed moment.nowSecs (some txid) none db) withdrawing
    ⟨withdrawing.txHash, some txid, none, withdrawing.isRetry⟩
  exact Writes.complete.then_same closes.apart.authorizations

theorem resumeRacing_writes {nextRequest : Nat} {withdrawing : Withdrawing} {payout : Payout}
    {reply : MempoolReply} {turn : WithdrawTurn}
    (resumed : resumeRacing cfg moment nextRequest db withdrawing payout reply = some turn) :
    Writes (if cfg.useCovenants then ∅ else abandoned cfg payout reply) (paidFor payout reply) db
      turn.db := by
  simp only [resumeRacing, Option.bind_eq_bind, Option.bind_eq_some_iff] at resumed
  obtain ⟨after, went, told⟩ := resumed
  have unpaid_same : ∀ (db₁ : Db) (result : Option Text),
      (result.filter fun txid => !txid.isEmpty) = none →
      (finish moment db₁ withdrawing payout.auth.id result none).db.authorizations =
        db₁.authorizations := fun db₁ result unpaid =>
    (finish_unpaid moment db₁ withdrawing payout.auth.id result unpaid none).1.apart.authorizations
  cases resumePayout_told went with
  | sends proceeds unpaid =>
      cases told
      rw [abandoned_of_proceeds proceeds, ite_self, paidFor, unpaid]
      exact Writes.of_same rfl
  | fails stuck unpaid writes =>
      cases told
      rw [abandoned_of_stuck stuck, paidFor, unpaid]
      exact writes.then_same (unpaid_same _ none rfl)
  | blank stuck unpaid covenants =>
      cases told
      rw [if_pos covenants, paidFor, unpaid]
      exact Writes.of_same (unpaid_same _ (some []) rfl)
  | @pays db₁ txid proceeds paid legible writes =>
      cases told
      rw [abandoned_of_proceeds proceeds, ite_self, paidFor, paid]
      have recorded := finish_paid_writes moment db₁ withdrawing payout.auth.id legible
      split_ifs at writes
      · exact writes.after recorded
      · exact writes.again recorded

theorem resumeOrphaned_writes {nextRequest : Nat} {payout : Payout} {reply : MempoolReply}
    {turn : WithdrawTurn}
    (resumed : resumeOrphaned cfg moment nextRequest db payout reply = some turn) :
    Writes (if cfg.useCovenants then ∅ else abandoned cfg payout reply)
      (if cfg.useCovenants then none else paidFor payout reply) db turn.db := by
  simp only [resumeOrphaned, Option.bind_eq_bind, Option.bind_eq_some_iff] at resumed
  obtain ⟨after, went, told⟩ := resumed
  cases resumePayout_told went with
  | sends proceeds unpaid =>
      cases told
      rw [abandoned_of_proceeds proceeds, paidFor, unpaid, ite_self, Option.map_none, ite_self]
      exact Writes.of_same rfl
  | fails stuck unpaid writes =>
      cases told
      rw [abandoned_of_stuck stuck, paidFor, unpaid, Option.map_none, ite_self]
      exact writes
  | blank stuck unpaid covenants =>
      cases told
      rw [if_pos covenants, if_pos covenants]
      exact Writes.of_same rfl
  | pays proceeds paid legible writes =>
      cases told
      rw [abandoned_of_proceeds proceeds, ite_self, paidFor, paid]
      exact writes

/-- The loop of the processor goes on with its list when its payout is over. -/
def passedOn (cfg : Config) (payout : Payout) (rest : List WithdrawalAuthorization)
    (reply : MempoolReply) : Set Text :=
  {authId | authId ∈ reached rest ∧ (Proceeds cfg payout reply → (Paid payout reply).isSome)}

theorem passedOn_of_over {payout : Payout} {rest : List WithdrawalAuthorization}
    {reply : MempoolReply} (over_ : Proceeds cfg payout reply → (Paid payout reply).isSome) :
    passedOn cfg payout rest reply = reached rest := by
  ext authId
  exact and_iff_left over_

theorem resumePaying_writes {nextRequest : Nat} {payout : Payout}
    {rest : List WithdrawalAuthorization} {reply : MempoolReply} {turn : ProcessorTurn}
    (resumed : resumePaying cfg moment nextRequest db payout rest reply = some turn) :
    Writes (abandoned cfg payout reply ∪ passedOn cfg payout rest reply) (paidFor payout reply) db
      turn.db := by
  simp only [resumePaying, Option.bind_eq_bind, Option.bind_eq_some_iff] at resumed
  obtain ⟨after, went, told⟩ := resumed
  cases resumePayout_told went with
  | sends proceeds unpaid =>
      cases told
      have stays : passedOn cfg payout rest reply = ∅ := by
        ext authId
        simp [passedOn, proceeds, unpaid]
      rw [abandoned_of_proceeds proceeds, stays, Set.union_empty, paidFor, unpaid]
      exact Writes.of_same rfl
  | fails stuck unpaid writes =>
      cases told
      rw [abandoned_of_stuck stuck, passedOn_of_over fun proceeds => absurd proceeds stuck, paidFor,
        unpaid, Set.singleton_union]
      split_ifs at writes
      · exact writes.after (giveBack_writes ..)
      · have both := writes.trans (giveBack_writes moment _ payout.auth.id rest)
        rwa [Set.singleton_union, Set.insert_idem] at both
  | blank stuck unpaid covenants =>
      cases told
      rw [abandoned_of_stuck stuck, passedOn_of_over fun proceeds => absurd proceeds stuck, paidFor,
        unpaid, Set.singleton_union]
      exact giveBack_writes ..
  | @pays db₁ txid proceeds paid legible writes =>
      simp only [markCompleted, legible] at told
      cases told
      rw [abandoned_of_proceeds proceeds, passedOn_of_over fun _ => by rw [paid]; rfl, paidFor, paid]
      have recorded : Writes ∅ (some (payout.auth.id, txid)) db
          (writeStatus payout.auth.id .completed moment.nowSecs (some txid) none db₁) := by
        split_ifs at writes
        · exact writes.after Writes.complete
        · exact writes.again Writes.complete
      exact recorded.trans (takeNext_writes ..)

theorem attemptPayout_writes (db : Db) (withdrawing : Withdrawing) (authId : Text) :
    Writes ∅ none db (attemptPayout cfg moment db withdrawing authId).db := by
  have writes := startPayout_writes cfg authId moment.nowSecs db
  have started := startPayout_started cfg authId moment.nowSecs db
  unfold attemptPayout
  generalize startPayout cfg authId moment.nowSecs db = turn at writes started
  cases started with
  | fetching _ found => exact writes
  | failed _ =>
      obtain ⟨closes, -⟩ := finish_unpaid moment _ withdrawing authId none rfl none
      exact writes.then_same closes.apart.authorizations

theorem createAuthorization_writes {params : AuthorizationParams} {id : Text} {nowSecs : Nat}
    {db' : Db} (created : createAuthorization params id nowSecs db = .ok db') :
    Writes ∅ none db db' := by
  obtain ⟨fresh, stored, others, -⟩ := createAuthorization_ok created
  refine ⟨by simp, by simp, ?_⟩
  intro authId _ _
  by_cases same : authId = id
  · subst same
    rw [completion, stored, completion, fresh]
    simp [AuthorizationParams.row]
  · rw [completion, others authId same, completion]

/-- Step 5 of the route takes back only what has failed. -/
theorem authorize_writes (db : Db) (withdrawing : Withdrawing) :
    Writes ∅ none db (authorize cfg moment db withdrawing).db := by
  have went := authorize_went cfg moment db withdrawing
  generalize authorize cfg moment db withdrawing = turn at went ⊢
  cases went with
  | given_up closes _ => exact Writes.of_same closes.apart.authorizations
  | created _ row _ _ => exact (createAuthorization_writes row).after (attemptPayout_writes _ _ _)
  | @retried auth found failed =>
      have open_ : completion db auth.id = none := by
        rw [completion, getAuthorizationById_of_mem (Table.find?_some found).1]
        simp [failed]
      have pending : Writes {auth.id} none db
          (markStatus auth.id .pending moment.nowSecs db) := Writes.mark (by decide)
      exact (pending.of_open (by simpa using open_)).after (attemptPayout_writes _ _ _)
  | resumed _ => exact attemptPayout_writes db _ _

end Turns

variable (env : Environment)

/-- What a handler reopens with a reply. -/
def reopens (db : Db) : Task → Reply → Set Text
  | .withdraw (.racing _ payout), .mempool reply
  | .withdraw (.orphaned payout), .mempool reply =>
      if env.useCovenants then ∅ else abandoned env.toConfig payout reply
  | .processor (.verifying auth rest), .rpc (.receipt reply) =>
      if isFinalized reply then
        if refused env.toConfig db auth.id then insert auth.id (reached rest) else ∅
      else insert auth.id (reached rest)
  | .processor (.paying payout rest), .mempool reply =>
      abandoned env.toConfig payout reply ∪ passedOn env.toConfig payout rest reply
  | _, _ => ∅

/-- The payout that a handler records with a reply. -/
def records : Task → Reply → Option (Text × Text)
  | .withdraw (.racing _ payout), .mempool reply => paidFor payout reply
  | .withdraw (.orphaned payout), .mempool reply =>
      if env.useCovenants then none else paidFor payout reply
  | .processor (.paying payout _), .mempool reply => paidFor payout reply
  | _, _ => none

/-- A handler that goes on reopens nothing that is completed, and records no other txid for it. -/
def Careful (s : State) : Label → Prop
  | .reply id reply _ => ∀ request task, s.tasks id = some (request, task) →
      (∀ authId ∈ reopens env s.db task reply, completion s.db authId = none) ∧
        ∀ authId txid old, records env task reply = some (authId, txid) →
          completion s.db authId = some old → old = some txid
  | _ => True

variable {env} {moment : Moment} {db : Db}

theorem begin_writes (issued : List ProofVerifier.ProofToken) (request : Request) :
    Writes ∅ none db (begin env moment issued db request).db := by
  have begun := begin_begun env moment issued db request
  generalize (begin env moment issued db request).db = db' at begun ⊢
  cases begun with
  | unchanged => exact Writes.of_same rfl
  | retried _ => exact authorize_writes ..
  | polled => exact (takeNext_writes moment db _).of_open fun _ listed => pending_open listed

theorem resume_writes {nextRequest : Nat} {task : Task} {reply : Reply} {turn : SystemTurn}
    (resumed : resume env moment nextRequest db task reply = some turn) :
    Writes (reopens env db task reply) (records env task reply) db turn.db := by
  cases resume_resumed env resumed with
  | deposit went =>
      exact Writes.of_same (Deposits.resumeDeposit_writes _ _ went).apart.authorizations
  | execute went => exact Writes.of_same ((resumeExecute_writes _ _ went).authorizations _ _)
  | audit went => exact Writes.of_same (resumeAudit_refreshes went).apart.authorizations
  | @executing request vault call answer =>
      cases answer with
      | ok txHash => exact authorize_writes ..
      | error failure => exact Writes.of_same rfl
  | racing went => exact resumeRacing_writes went
  | orphaned went => exact resumeOrphaned_writes went
  | @verifying auth rest answer =>
      show Writes (reopens env db _ _) none db
        (afterVerification env.toConfig moment db auth rest answer).db
      rw [reopens, afterVerification]
      split_ifs with final refuses
      · have writes := sendPayout_writes env.toConfig moment db auth rest
        rwa [if_pos refuses] at writes
      · have writes := sendPayout_writes env.toConfig moment db auth rest
        rwa [if_neg refuses] at writes
      · exact giveBack_writes ..
  | paying went => exact resumePaying_writes went

theorem expire_writes {task : Task} {turn : SystemTurn}
    (expired : expire moment db task = some turn) :
    Writes ∅ none db turn.db := by
  cases expire_expired expired with
  | @racing withdrawing payout =>
      obtain ⟨closes, -⟩ := loseRace_closes moment db withdrawing payout
      exact Writes.of_same closes.apart.authorizations

theorem careful_iff {s s' : State} {label : Label} (stepped : step env s label = some s') :
    Keeps s.db s'.db ↔ Careful env s label := by
  cases step_stepped env stepped with
  | @request id request moment idle =>
      have kept : Keeps s.db (begin env moment s.issued s.db request).db :=
        (begin_writes s.issued request).keeps_iff.mpr ⟨by simp, by simp⟩
      exact iff_of_true kept trivial
  | @reply id request task reply moment turn waits resumed =>
      have kept : Keeps s.db turn.db ↔ _ := (resume_writes resumed).keeps_iff
      refine kept.trans ⟨?_, fun careful => careful request task waits⟩
      intro holds other later there
      rw [waits] at there
      cases there
      exact holds
  | @timeout id request task moment turn waits expired =>
      have kept : Keeps s.db turn.db :=
        (expire_writes expired).keeps_iff.mpr ⟨by simp, by simp⟩
      exact iff_of_true kept trivial
  | land => exact iff_of_true (Keeps.refl s.db) trivial
  | block fresh => exact iff_of_true (Keeps.refl s.db) trivial

/-- From any state of a run to any later one every completed authorization keeps its status and
its bitcoin_txid, exactly when the steps of the run are all careful. -/
theorem completed_final_iff (start : State) (labels : List Label) :
    (∀ first middle last s₁ s₂, labels = first ++ middle ++ last →
        GuardedRun.run (step env) start first = some s₁ →
        GuardedRun.run (step env) s₁ middle = some s₂ → Keeps s₁.db s₂.db) ↔
      ∀ first label last s₁ s₂, labels = first ++ label :: last →
        GuardedRun.run (step env) start first = some s₁ → step env s₁ label = some s₂ →
        Careful env s₁ label := by
  let Kept (s₁ s₂ : State) : Prop := Keeps s₁.db s₂.db
  have refl : ∀ s, Kept s s := fun s => Keeps.refl s.db
  have trans : ∀ s₁ s₂ s₃, Kept s₁ s₂ → Kept s₂ s₃ → Kept s₁ s₃ :=
    fun _ _ _ first second => Keeps.trans first second
  refine (GuardedRun.run_keeps_iff refl trans).trans ?_
  constructor
  · intro kept first label last s₁ s₂ split before stepped
    exact (careful_iff stepped).mp (kept first label last s₁ s₂ split before stepped)
  · intro careful first label last s₁ s₂ split before stepped
    exact (careful_iff stepped).mpr (careful first label last s₁ s₂ split before stepped)

section Sample

/-- The processor polls while the route waits for its payout, which the route then records. -/
def recordedLabels : List Label :=
  withdrawLabels ++
    [.request 2 .processAuthorizations (sampleMoment ['p']), fetchLabel 1 ['u'],
      .reply 1 (.mempool (.broadcast (.ok ['x']))) (sampleMoment ['r'])]

def lateReceipt : Label := .reply 2 (.rpc (.receipt (.error "offline"))) (sampleMoment ['q'])

/-- The receipt that the processor waits for does not come: what the route has completed in the
meantime is pending again. -/
theorem completed_reopened :
    ∃ s s', Reaches covenantMode (fun _ _ => True) (boot sampleGenesis) s ∧
      step covenantMode s lateReceipt = some s' ∧
      completion s.db ['w'] = some (some ['x']) ∧ statusOf s'.db ['w'] = some .pending ∧
      ¬ Keeps s.db s'.db := by
  have ran : ((GuardedRun.run (step covenantMode) (boot sampleGenesis) recordedLabels).bind
      fun s => (step covenantMode s lateReceipt).map fun s' =>
        (completion s.db ['w'], statusOf s'.db ['w'], completion s'.db ['w'])) =
      some (some (some ['x']), some .pending, none) := by decide +kernel
  simp only [Option.bind_eq_some_iff, Option.map_eq_some_iff, Prod.mk.injEq] at ran
  obtain ⟨s, ran, s', stepped, done, reopened, lost⟩ := ran
  refine ⟨s, s', GuardedRun.Reaches.start.of_run (fun _ _ _ => trivial) ran, stepped, done, reopened,
    fun kept => ?_⟩
  rw [kept _ _ done] at lost
  cases lost

end Sample

end PrivateBtc.Backend.CompletedFinal
