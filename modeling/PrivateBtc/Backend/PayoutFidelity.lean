/- PrivateBtc/Backend/PayoutFidelity
   digest: Every payment that is ever sent pays its one grant what the vault of the grant holds. -/

import PrivateBtc.Backend.CoinSelection
import PrivateBtc.Backend.Grants
import PrivateBtc.Backend.StoredNullifiers

set_option autoImplicit false
set_option relaxedAutoImplicit false

namespace PrivateBtc.Backend.PayoutFidelity

open Library Library.JsText Library.Outcome
open Authorizations CarriedRows CryptoService Database Grants Http Payments Processor Server
open StoredNullifiers VaultWrites Withdrawals
open CoinSelection (Pays createCovenantWithdrawal_serves sendBitcoinToAddress_serves)
open WithdrawGate (WithdrawBody WithdrawCall WithdrawRequest tb1 withdrawGate)

/-- The fee of the service in use, by the number of inputs. -/
def feeOf (cfg : Config) (feeRate : ℚ) : Nat → Int :=
  if cfg.useCovenants then covenantFee else estimatedFee feeRate

/-- Where the service in use sends its change. -/
def changeAddressOf (cfg : Config) : Option Text :=
  if cfg.useCovenants then some cfg.covenantAddress else cfg.senderAddress

/-- The payment pays the grant from these UTXOs, and gives the rest less the fee back. -/
def PaysGrant (cfg : Config) (utxos : List Utxo) (feeRate : ℚ) (grant : AuthorizationParams)
    (payment : Payment) : Prop :=
  ∃ changeAddress, changeAddressOf cfg = some changeAddress ∧
    Pays (feeOf cfg feeRate) grant.bitcoinAddress changeAddress grant.amountSats utxos payment

/-- The mempool has answered a payout with these UTXOs and this fee rate. -/
def Fetched (labels : List Label) (utxos : List Utxo) (feeRate : ℚ) : Prop :=
  ∃ id moment, Label.reply id (.mempool (.utxos (.ok (utxos, feeRate)))) moment ∈ labels

/-- The grant is for a foreign signet address, and for what the vault of its nullifier holds. -/
structure Owed (cfg : Config) (db : Db) (grant : AuthorizationParams) : Prop where
  signet : tb1.isPrefixOf grant.bitcoinAddress = true
  foreign : some grant.bitcoinAddress ≠ cfg.senderAddress
  vault : ∃ vault ∈ db.vaults.rows, vault.id = grant.vaultId ∧
    vault.nullifierHash = some grant.nullifierHash ∧
    ∃ amountSats, decryptAmount cfg.crypto vault.encryptedAmount vault.salt = .ok amountSats ∧
      grant.amountSats = actualSats amountSats

section Payments

variable {cfg : Config}

theorem senderOf_ok {recipientAddress senderAddress : Text}
    (configured : senderOf cfg recipientAddress = .ok senderAddress) :
    cfg.senderAddress = some senderAddress := by
  unfold senderOf at configured
  split at configured
  · next key address _ own =>
    split_ifs at configured
    cases configured
    exact own
  · cases configured

theorem buildFor_pays {auth : WithdrawalAuthorization} {utxos : List Utxo} {feeRate : ℚ}
    {payment : Payment} (built : buildFor cfg auth utxos feeRate = .ok payment) :
    PaysGrant cfg utxos feeRate (granted auth) payment := by
  cases mode : cfg.useCovenants with
  | true =>
      simp only [buildFor, mode, if_true] at built
      refine ⟨cfg.covenantAddress, by simp [changeAddressOf, mode], ?_⟩
      rw [feeOf, mode, if_pos rfl]
      exact (createCovenantWithdrawal_serves cfg auth utxos).pays payment built
  | false =>
      simp only [buildFor, mode, Bool.false_eq_true, if_false] at built
      obtain ⟨senderAddress, configured, -⟩ := bind_eq_ok.mp built
      refine ⟨senderAddress, by simp [changeAddressOf, mode, senderOf_ok configured], ?_⟩
      rw [feeOf, mode, if_neg Bool.false_ne_true]
      exact (sendBitcoinToAddress_serves cfg configured auth.amountSats feeRate utxos).pays
        payment built

/-- What a turn hands to the mempool was built for its payout from the answer. -/
def Hands (cfg : Config) (payout : Payout) (reply : MempoolReply)
    (sends : Option (Text × Payment)) : Prop :=
  ∀ authId payment, sends = some (authId, payment) → authId = payout.auth.id ∧
    ∃ utxos feeRate, reply = .utxos (.ok (utxos, feeRate)) ∧
      PaysGrant cfg utxos feeRate (granted payout.auth) payment

theorem hands_none {payout : Payout} {reply : MempoolReply} : Hands cfg payout reply none := by
  intro authId payment sends
  cases sends

theorem settleError_settled (nowSecs : Nat) (auth : WithdrawalAuthorization) (message : String)
    (db : Db) : (settleError cfg nowSecs auth message db).progress = .settled (.error message) := rfl

/-- A payout that goes on has just handed over its payment. -/
theorem resumePayout_hands {nowSecs nextRequest : Nat} {db : Db} {payout : Payout}
    {reply : MempoolReply} {turn : PayoutTurn}
    (resumed : resumePayout cfg nowSecs nextRequest db payout reply = some turn) :
    (∃ result, turn.progress = .settled result) ∨
      ∃ later, turn.progress = .waiting later ∧ later.auth = payout.auth ∧
        Hands cfg payout reply (turn.sends.map fun payment => (later.auth.id, payment)) := by
  unfold resumePayout at resumed
  split at resumed
  · next auth utxos feeRate =>
    cases built : buildFor cfg auth utxos feeRate with
    | error message =>
        rw [built] at resumed
        cases resumed
        exact Or.inl ⟨_, settleError_settled ..⟩
    | ok payment =>
        rw [built] at resumed
        cases resumed
        refine Or.inr ⟨_, rfl, rfl, fun authId payment' told => ?_⟩
        cases told
        exact ⟨rfl, utxos, feeRate, rfl, buildFor_pays built⟩
  · cases resumed
    exact Or.inl ⟨_, settleError_settled ..⟩
  · cases resumed
    unfold settleBroadcast
    split_ifs
    · exact Or.inl ⟨_, rfl⟩
    · split <;> exact Or.inl ⟨_, rfl⟩
  · cases resumed
    exact Or.inl ⟨_, settleError_settled ..⟩
  · cases resumed

end Payments

section Turns

variable {cfg : Config} {moment : Moment} {db : Db} {nextRequest : Nat} {payout : Payout}
  {reply : MempoolReply}

theorem finish_silent (withdrawing : Withdrawing) (authId : Text) (result : Option Text)
    (sendError : Option String) :
    (finish moment db withdrawing authId result sendError).sends = none := by
  unfold finish
  split
  · exact (closeVault_closes ..).1.silent
  · exact (closeVault_closes ..).1.silent

theorem takeNext_silent (rest : List WithdrawalAuthorization) :
    (takeNext moment db rest).sends = none :=
  (takeNext_continues moment db rest).silent

theorem attemptPayout_silent (withdrawing : Withdrawing) (authId : Text) :
    (attemptPayout cfg moment db withdrawing authId).sends = none := by
  unfold attemptPayout
  dsimp only
  split
  · rfl
  · exact finish_silent ..

theorem authorize_silent (withdrawing : Withdrawing) :
    (authorize cfg moment db withdrawing).sends = none := by
  have went := authorize_went cfg moment db withdrawing
  generalize authorize cfg moment db withdrawing = turn at went
  cases went with
  | given_up closes _ => exact closes.silent
  | created _ _ _ _ => exact attemptPayout_silent ..
  | retried _ _ => exact attemptPayout_silent ..
  | resumed _ => exact attemptPayout_silent ..

theorem sendPayout_silent (auth : WithdrawalAuthorization) (rest : List WithdrawalAuthorization) :
    (sendPayout cfg moment db auth rest).sends = none := by
  unfold sendPayout giveBack
  dsimp only
  split
  · rfl
  · exact takeNext_silent ..

theorem resumeRacing_hands {withdrawing : Withdrawing} {turn : WithdrawTurn}
    (resumed : resumeRacing cfg moment nextRequest db withdrawing payout reply = some turn) :
    Hands cfg payout reply turn.sends := by
  simp only [resumeRacing, Option.bind_eq_bind, Option.bind_eq_some_iff] at resumed
  obtain ⟨after, went, told⟩ := resumed
  rcases resumePayout_hands went with ⟨result, settled⟩ | ⟨later, waits, -, hands⟩
  · rw [settled] at told
    cases told
    rw [finish_silent]
    exact hands_none
  · rw [waits] at told
    cases told
    exact hands

theorem resumeOrphaned_hands {turn : WithdrawTurn}
    (resumed : resumeOrphaned cfg moment nextRequest db payout reply = some turn) :
    Hands cfg payout reply turn.sends := by
  simp only [resumeOrphaned, Option.bind_eq_bind, Option.bind_eq_some_iff] at resumed
  obtain ⟨after, went, told⟩ := resumed
  rcases resumePayout_hands went with ⟨result, settled⟩ | ⟨later, waits, -, hands⟩
  · rw [settled] at told
    cases told
    exact hands_none
  · rw [waits] at told
    cases told
    exact hands

theorem resumePaying_hands {rest : List WithdrawalAuthorization} {turn : ProcessorTurn}
    (resumed : resumePaying cfg moment nextRequest db payout rest reply = some turn) :
    Hands cfg payout reply turn.sends := by
  simp only [resumePaying, Option.bind_eq_bind, Option.bind_eq_some_iff] at resumed
  obtain ⟨after, went, told⟩ := resumed
  have silent : ∀ db rest, Hands cfg payout reply (takeNext moment db rest).sends := by
    intro db rest
    rw [takeNext_silent]
    exact hands_none
  rcases resumePayout_hands went with ⟨result, settled⟩ | ⟨later, waits, -, hands⟩
  · rw [settled] at told
    cases result with
    | error message =>
        cases told
        exact silent _ rest
    | ok txid =>
        dsimp only at told
        split at told
        · cases told
          exact silent _ rest
        · cases told
          exact silent _ rest
  · rw [waits] at told
    cases told
    exact hands

end Turns

variable (env : Environment)

/-- What a label's step hands to the mempool, and for whose payout. -/
def Handed (s : State) (label : Label) (broadcast : Broadcast) : Prop :=
  ∃ id request task payout utxos feeRate moment,
    label = .reply id (.mempool (.utxos (.ok (utxos, feeRate)))) moment ∧
    s.tasks id = some (request, task) ∧ payoutOf task = some payout ∧
    broadcast.authId = payout.auth.id ∧
    PaysGrant env.toConfig utxos feeRate (granted payout.auth) broadcast.payment

theorem begin_silent (moment : Moment) (issued : List ProofVerifier.ProofToken) (db : Db)
    (request : Request) : (begin env moment issued db request).sends = none := by
  cases request with
  | withdraw body =>
      simp only [begin, Withdrawals.withdraw]
      split
      · rfl
      · rfl
      · exact authorize_silent _
  | processAuthorizations => exact takeNext_silent _
  | _ => rfl

theorem expire_silent {moment : Moment} {db : Db} {task : Task} {turn : SystemTurn}
    (expired : expire moment db task = some turn) : turn.sends = none := by
  cases expire_expired expired with
  | racing => exact finish_silent ..

theorem resume_handed {s : State} {id : Nat} {request : Request} {task : Task} {reply : Reply}
    {moment : Moment} {nextRequest : Nat} {turn : SystemTurn} {authId : Text} {payment : Payment}
    (waits : s.tasks id = some (request, task))
    (resumed : resume env moment nextRequest s.db task reply = some turn)
    (sends : turn.sends = some (authId, payment)) (landed : Bool) :
    Handed env s (.reply id reply moment) ⟨authId, payment, landed⟩ := by
  have handed : ∀ payout answer, payoutOf task = some payout → reply = .mempool answer →
      Hands env.toConfig payout answer turn.sends →
      Handed env s (.reply id reply moment) ⟨authId, payment, landed⟩ := by
    rintro payout answer pays rfl hands
    obtain ⟨named, utxos, feeRate, rfl, fits⟩ := hands authId payment sends
    exact ⟨id, request, task, payout, utxos, feeRate, moment, rfl, waits, pays, named, fits⟩
  cases resume_resumed env resumed with
  | deposit _ | execute _ | audit _ => cases sends
  | @executing body vault call answer =>
      cases answer with
      | error failure => cases sends
      | ok txHash =>
          have silent : (afterWithdraw env.toConfig moment s.db body vault (.ok txHash)).sends =
              none := authorize_silent _
          exact absurd (silent.symm.trans sends) (by simp)
  | racing went => exact handed _ _ rfl rfl (resumeRacing_hands went)
  | orphaned went => exact handed _ _ rfl rfl (resumeOrphaned_hands went)
  | @verifying auth rest answer =>
      have silent : (afterVerification env.toConfig moment s.db auth rest answer).sends = none := by
        unfold afterVerification
        split_ifs
        · exact sendPayout_silent ..
        · exact takeNext_silent _
      exact absurd (silent.symm.trans sends) (by simp)
  | paying went => exact handed _ _ rfl rfl (resumePaying_hands went)

/-- A payment in flight was in flight before, or the step has handed it over. -/
theorem step_handed {s s' : State} {label : Label} (stepped : step env s label = some s')
    {broadcast : Broadcast} (member : broadcast ∈ s'.broadcasts) :
    (∃ earlier ∈ s.broadcasts, earlier.authId = broadcast.authId ∧
      earlier.payment = broadcast.payment) ∨ Handed env s label broadcast := by
  have landed : ∀ index, broadcast ∈ land s.broadcasts index → ∃ earlier ∈ s.broadcasts,
      earlier.authId = broadcast.authId ∧ earlier.payment = broadcast.payment := by
    intro index there
    obtain ⟨n, found⟩ := List.mem_iff_getElem?.mp there
    rw [land, List.getElem?_modify, Option.map_eq_map, Option.map_eq_some_iff] at found
    obtain ⟨earlier, here, rfl⟩ := found
    refine ⟨earlier, List.mem_iff_getElem?.mpr ⟨n, here⟩, ?_⟩
    split_ifs <;> exact ⟨rfl, rfl⟩
  have settled : ∀ {before : State} {id : Nat} {request : Request} {turn : SystemTurn},
      turn.sends = none → broadcast ∈ (settle before id request turn).broadcasts →
      broadcast ∈ before.broadcasts := by
    intro before id request turn silent there
    simpa [settle, silent] using there
  cases step_stepped env stepped with
  | request idle => exact Or.inl ⟨_, settled (begin_silent env _ _ _ _) member, rfl, rfl⟩
  | @reply id request task reply moment turn waits resumed =>
      simp only [settle, List.mem_append, Option.mem_toList, Option.map_eq_some_iff] at member
      rcases member with old | ⟨⟨authId, payment⟩, sends, rfl⟩
      · simp only [hear, landAnswered] at old
        split at old
        · exact Or.inl (landed _ old)
        · exact Or.inl ⟨_, old, rfl, rfl⟩
      · exact Or.inr (resume_handed env waits resumed sends false)
  | timeout waits expired => exact Or.inl ⟨_, settled (expire_silent expired) member, rfl, rfl⟩
  | land => exact Or.inl (landed _ member)
  | block fresh => exact Or.inl ⟨_, member, rfl, rfl⟩

/-- The address of every withdrawal that waits for Starknet has passed the checks of the route. -/
def Screened (s : State) : Prop :=
  ∀ id asked request vault call,
    s.tasks id = some (asked, .withdraw (.executing request vault call)) →
      tb1.isPrefixOf request.bitcoinAddress = true ∧
        some request.bitcoinAddress ≠ env.senderAddress

theorem step_screened {s s' : State} {label : Label} (screened : Screened env s)
    (stepped : step env s label = some s') : Screened env s' := by
  intro id asked request vault call waits
  cases step_arises env stepped waits with
  | kept held => exact screened _ _ _ _ _ held
  | begun next =>
      cases begin_withdraw env next with
      | submit gate =>
          obtain ⟨-, admitted⟩ := (WithdrawGate.withdrawGate_submit _ _ _ _ _ _).mp ⟨call, gate⟩
          exact ⟨admitted.signet, admitted.foreign⟩
  | resumed held went next => cases resume_withdraw env went next
  | expired held went next =>
      obtain ⟨_, _, -, orphaned⟩ := expire_withdraw went next
      cases orphaned

/-- What step 5 grants is owed, when its request was screened and names its vault. -/
theorem madeFor_owed {db : Db} {withdrawing : Withdrawing} {grant : AuthorizationParams}
    (made : MadeFor env.crypto db withdrawing grant)
    (signet : tb1.isPrefixOf withdrawing.request.bitcoinAddress = true)
    (foreign : some withdrawing.request.bitcoinAddress ≠ env.senderAddress)
    (holds : Holds db withdrawing.vaultId (some withdrawing.request.nullifierHash)) :
    Owed env.toConfig db grant := by
  refine ⟨made.bitcoinAddress ▸ signet, made.bitcoinAddress ▸ foreign, ?_⟩
  obtain ⟨vault, member, here, amountSats, decrypted, owed⟩ := made.owed
  obtain ⟨row, there, named, own⟩ := holds _ rfl
  have same : row = vault := db.vaults.eq_of_clash there member (by
    simp [vaultSchema, named, here])
  subst same
  exact ⟨row, member, here.trans made.vaultId.symm, own.trans (made.nullifierHash ▸ rfl),
    amountSats, decrypted, owed⟩

theorem Owed.kept {cfg : Config} {db db' : Db} {grant : AuthorizationParams}
    (owed : Owed cfg db grant) (keeps : Keeps db db') : Owed cfg db' grant := by
  obtain ⟨vault, member, here, own, amountSats, decrypted, amount⟩ := owed.vault
  obtain ⟨vault', member', kept⟩ := keeps vault member
  refine ⟨owed.signet, owed.foreign, vault', member', kept.same.id.trans here,
    kept.nullifier _ own, amountSats, ?_, amount⟩
  rw [kept.same.encryptedAmount, kept.same.salt, decrypted]

/-- What every run keeps, with the answers that it has had. -/
structure Sound (labels : List Label) (s : State) : Prop where
  consistent : Consistent s
  tracked : Tracked s
  screened : Screened env s
  owed : ∀ id grant, grantOf s.db id = some grant → Owed env.toConfig s.db grant
  paid : ∀ broadcast ∈ s.broadcasts, ∃ grant, grantOf s.db broadcast.authId = some grant ∧
    ∃ utxos feeRate, Fetched labels utxos feeRate ∧
      PaysGrant env.toConfig utxos feeRate grant broadcast.payment

theorem makes_owed {s : State} {label : Label} {grant : AuthorizationParams}
    (consistent : Consistent s) (screened : Screened env s) (makes : Makes env s label grant) :
    Owed env.toConfig s.db grant := by
  rcases makes with ⟨_, body, _, request, vault, txHash, -, gate, made⟩ |
    ⟨id, _, asked, request, vault, call, txHash, -, waits, made⟩
  · obtain ⟨screens, -⟩ := WithdrawGate.withdrawGate_retry gate
    obtain ⟨member, own⟩ := screens.member
    exact madeFor_owed env made screens.signet screens.foreign (own ▸ holds_of_mem member)
  · obtain ⟨signet, foreign⟩ := screened id asked request vault call waits
    exact madeFor_owed env made signet foreign (consistent.tasks id asked _ _ waits rfl)

theorem step_sound {s s' : State} {label : Label} {labels : List Label}
    (sound : Sound env labels s) (stepped : step env s label = some s') :
    Sound env (labels ++ [label]) s' := by
  have keeps := step_keeps sound.consistent stepped
  have extends_ := (step_carries env sound.tracked.carries stepped).1
  obtain ⟨made, tracked⟩ := step_grants env sound.tracked stepped
  have later : ∀ utxos feeRate, Fetched labels utxos feeRate →
      Fetched (labels ++ [label]) utxos feeRate := by
    rintro utxos feeRate ⟨id, moment, member⟩
    exact ⟨id, moment, List.mem_append_left _ member⟩
  refine ⟨step_consistent sound.consistent stepped, tracked,
    step_screened env sound.screened stepped, fun id grant found => ?_, fun broadcast member => ?_⟩
  · rcases made id grant found with old | new
    · exact (sound.owed id grant old).kept keeps
    · exact (makes_owed env sound.consistent sound.screened new).kept keeps
  · rcases step_handed env stepped member with ⟨earlier, there, named, same⟩ | new
    · obtain ⟨grant, found, utxos, feeRate, fetched, pays⟩ := sound.paid earlier there
      rw [named] at found
      rw [same] at pays
      exact ⟨grant, extends_.kept _ _ found, utxos, feeRate, later _ _ fetched, pays⟩
    · obtain ⟨id, request, task, payout, utxos, feeRate, moment, rfl, waits, owns, named, pays⟩ := new
      have found := sound.tracked.granted id request task payout waits owns
      rw [← named] at found
      refine ⟨_, extends_.kept _ _ found, utxos, feeRate, ⟨id, moment, ?_⟩, pays⟩
      exact List.mem_append_right _ List.mem_cons_self

theorem boot_sound (genesis : Contracts.Vault.Genesis) : Sound env [] (boot genesis) := by
  have starts : Starts (boot genesis) := ⟨fun _ => rfl, rfl⟩
  refine ⟨starts_consistent starts rfl, starts_tracked starts, ?_, ?_, ?_⟩
  · intro id asked request vault call waits
    cases waits
  · intro id grant found
    cases found
  · intro broadcast member
    cases member

/-- In every run of the server each authorization is owed to a foreign signet address by a vault
of its own, and each payment that was ever handed to the mempool pays exactly one authorization,
from UTXOs that the mempool had answered. -/
theorem payouts_pay_owed {genesis : Contracts.Vault.Genesis} {labels : List Label} {s : State}
    (ran : GuardedRun.run (step env) (boot genesis) labels = some s) :
    (∀ row ∈ s.db.authorizations.rows, Owed env.toConfig s.db (granted row) ∧
      ∀ other ∈ s.db.authorizations.rows, other.vaultId = row.vaultId → other = row) ∧
    ∀ broadcast ∈ s.broadcasts, ∃ row ∈ s.db.authorizations.rows, row.id = broadcast.authId ∧
      ∃ utxos feeRate, Fetched labels utxos feeRate ∧
        PaysGrant env.toConfig utxos feeRate (granted row) broadcast.payment := by
  have sound : Sound env labels s :=
    GuardedRun.run_traces (fun _ _ _ _ => step_sound env) ran (boot_sound env genesis)
  have owed : ∀ row ∈ s.db.authorizations.rows, Owed env.toConfig s.db (granted row) := by
    intro row member
    exact sound.owed row.id _ (by rw [grantOf, getAuthorizationById_of_mem member]; rfl)
  refine ⟨fun row member => ⟨owed row member, fun other there same => ?_⟩, fun broadcast sent => ?_⟩
  · obtain ⟨vault, stored, here, own, -⟩ := (owed row member).vault
    obtain ⟨vault', stored', here', own', -⟩ := (owed other there).vault
    have vaults : vault' = vault := s.db.vaults.eq_of_clash stored' stored (by
      have ids : vault'.id = vault.id := here'.trans (same.trans here.symm)
      simp [vaultSchema, ids])
    rw [vaults, own, Option.some.injEq] at own'
    refine s.db.authorizations.eq_of_clash there member ?_
    have nullifiers : other.nullifierHash = row.nullifierHash := own'.symm
    simp [authorizationSchema, nullifiers]
  · obtain ⟨grant, found, utxos, feeRate, fetched, pays⟩ := sound.paid broadcast sent
    obtain ⟨row, stored, rfl⟩ := Option.map_eq_some_iff.mp found
    have named := getAuthorizationById_id stored
    exact ⟨row, (Table.find?_some stored).1, named, utxos, feeRate, fetched, pays⟩

/-- The payout of the sample withdrawal. -/
theorem payouts_pay_owed_sample :
    ∃ s, GuardedRun.run (step covenantMode) (boot sampleGenesis)
        (withdrawLabels ++ [fetchLabel 1 ['u']]) = some s ∧
      s.broadcasts.map (fun b => (b.authId, b.payment.outputs)) =
        [(['w'], [(['t', 'b', '1', 'q'], 100000), (['t', 'b', '1', 'c'], 398000)])] ∧
      ∀ broadcast ∈ s.broadcasts, ∃ row ∈ s.db.authorizations.rows, row.id = broadcast.authId ∧
        ∃ utxos feeRate, Fetched (withdrawLabels ++ [fetchLabel 1 ['u']]) utxos feeRate ∧
          PaysGrant covenantMode.toConfig utxos feeRate (granted row) broadcast.payment := by
  have ran : ((GuardedRun.run (step covenantMode) (boot sampleGenesis)
        (withdrawLabels ++ [fetchLabel 1 ['u']])).map fun s =>
          s.broadcasts.map fun b => (b.authId, b.payment.outputs)) =
      some [(['w'], [(['t', 'b', '1', 'q'], 100000), (['t', 'b', '1', 'c'], 398000)])] := by
    decide +kernel
  obtain ⟨s, ran, sent⟩ := Option.map_eq_some_iff.mp ran
  exact ⟨s, ran, sent, (payouts_pay_owed covenantMode ran).2⟩

end PrivateBtc.Backend.PayoutFidelity
