/- PrivateBtc/Backend/BurnGrants
   digest: Which runs give every burn of a withdrawal its authorization. -/

import PrivateBtc.Backend.StatementFaults

set_option autoImplicit false
set_option relaxedAutoImplicit false

namespace PrivateBtc.Backend.BurnGrants

open Library Library.JsText Library.Outcome
open Calldata (Invocation)
open Contracts.Vault (Call execute)
open Authorizations CarriedRows CryptoService Database Http Payments Server Starknet
open StatementFaults VaultWrites Withdrawals
open WithdrawGate (WithdrawBody WithdrawCall WithdrawRequest tb1)

/-- The nullifier has a row in withdrawal_authorizations. -/
def Authorized (db : Db) (nullifierHash : Text) : Prop :=
  ∃ row ∈ db.authorizations.rows, row.nullifierHash = nullifierHash

/-- A hash and an id that a new authorization can be stored under. -/
def Storable (db : Db) (moment : Moment) (txHash : Text) : Prop :=
  ['0', 'x'].isPrefixOf txHash = true ∧ 34 ≤ txHash.length ∧
    ∀ row ∈ db.authorizations.rows, row.starknetTxHash ≠ txHash ∧ row.id ≠ moment.random.uuid

theorem authorized_iff {db : Db} {nullifierHash : Text} :
    Authorized db nullifierHash ↔
      ∃ id grant, grantOf db id = some grant ∧ grant.nullifierHash = nullifierHash := by
  constructor
  · rintro ⟨row, member, named⟩
    exact ⟨row.id, granted row, by rw [grantOf, getAuthorizationById_of_mem member]; rfl, named⟩
  · rintro ⟨id, grant, stored, named⟩
    obtain ⟨row, found, rfl⟩ := Option.map_eq_some_iff.mp stored
    exact ⟨row, (Table.find?_some found).1, named⟩

theorem Authorized.extends {db db' : Db} {nullifierHash : Text}
    (authorized : Authorized db nullifierHash) (extends_ : Extends db db') :
    Authorized db' nullifierHash := by
  obtain ⟨id, grant, stored, named⟩ := authorized_iff.mp authorized
  exact authorized_iff.mpr ⟨id, grant, extends_.kept id grant stored, named⟩

theorem authorized_of_found {db : Db} {nullifierHash : Text} {auth : WithdrawalAuthorization}
    (found : getAuthorizationByNullifier db nullifierHash = some auth) :
    Authorized db nullifierHash := by
  obtain ⟨member, named⟩ := Table.find?_some found
  exact ⟨auth, member, by simpa using named⟩

theorem like_of_prefix {text : Text} (start : Text) (lower : toLowerCase start = start)
    (begins : start.isPrefixOf text = true) : like start text = true := by
  rw [List.isPrefixOf_iff_prefix] at begins
  obtain ⟨rest, rfl⟩ := begins
  rw [like, List.isPrefixOf_iff_prefix]
  refine ⟨toLowerCase rest, ?_⟩
  unfold toLowerCase at lower ⊢
  rw [List.map_append, lower]

/-- What a waiting Starknet call was admitted for still stands. -/
structure Admits (crypto : Crypto) (db : Db) (request : WithdrawRequest) (vault : VaultRow) :
    Prop where
  signet : tb1.isPrefixOf request.bitcoinAddress = true
  row : ∃ row ∈ db.vaults.rows, SameVault vault row
  readable : ∃ amountSats, decryptAmount crypto vault.encryptedAmount vault.salt = .ok amountSats

section Creation

variable {db : Db} {moment : Moment}

/-- The service takes a hash that is fit and new, for an address and a vault that it knows. -/
theorem createAuthorization_accepted {params : AuthorizationParams} {vault : VaultRow}
    (signet : tb1.isPrefixOf params.bitcoinAddress = true)
    (member : vault ∈ db.vaults.rows) (named : vault.id = params.vaultId)
    (missing : getAuthorizationByNullifier db params.nullifierHash = none)
    (storable : Storable db moment params.starknetTxHash) :
    ∃ db', createAuthorization params moment.random.uuid moment.nowSecs db = .ok db' := by
  obtain ⟨hex, long, new⟩ := storable
  have apart : ∀ row ∈ db.authorizations.rows, row.nullifierHash ≠ params.nullifierHash := by
    intro row there
    simpa using Table.find?_none missing there
  have unclaimed : (db.authorizations.find? fun row => row.nullifierHash == params.nullifierHash ||
      row.starknetTxHash == params.starknetTxHash) = none := by
    refine List.find?_eq_none.mpr fun row there => ?_
    simp [apart row there, (new row there).1]
  have fits : ∃ table', db.authorizations.insert (params.row moment.random.uuid moment.nowSecs) =
      .ok table' := by
    rw [Table.insert_accepted_iff]
    constructor
    · have hash : isTxHash params.starknetTxHash = true := by
        rw [isTxHash, like_of_prefix _ rfl hex]
        simpa using long
      have address : like ['t', 'b', '1'] params.bitcoinAddress = true :=
        like_of_prefix _ rfl signet
      simp [authorizationSchema, AuthorizationParams.row, hash, address]
    · intro row there
      simp [authorizationSchema, AuthorizationParams.row, (new row there).1, (new row there).2,
        apart row there]
  obtain ⟨table', inserted⟩ := fits
  have known : references params.vaultId db = .ok () := by
    have found : (db.vaults.find? fun v => v.id == params.vaultId).isSome = true := by
      rw [Table.find?, List.find?_isSome]
      exact ⟨vault, member, by simpa using named⟩
    rw [references, if_pos found]
  refine ⟨{ db with authorizations := table' }, ?_⟩
  have short : ¬ params.starknetTxHash.length < 34 := by omega
  have signet' : ['t', 'b', '1'].isPrefixOf params.bitcoinAddress = true := signet
  rw [createAuthorization, if_neg (by simp [signet']), if_neg (by simp [hex, short]),
    if_neg (by simp [unclaimed]), insertAuthorization]
  have row_id : (params.row moment.random.uuid moment.nowSecs).vaultId = params.vaultId := rfl
  simp only [inserted, orThrow, row_id, known]
  rfl

theorem created_authorized {params : AuthorizationParams} {id : Text} {nowSecs : Nat} {db' : Db}
    (created : createAuthorization params id nowSecs db = .ok db') :
    Authorized db' params.nullifierHash := by
  obtain ⟨-, stored, -⟩ := createAuthorization_ok created
  exact authorized_iff.mpr ⟨id, params, by rw [grantOf, stored]; rfl, rfl⟩

/-- Step 5 leaves an authorization for an admitted withdrawal with a fit hash, if no statement
throws before it is stored. -/
theorem authorizeUnder_authorizes {cfg : Config} {faults : Faults} {withdrawing : Withdrawing}
    {vault : VaultRow} (admits : Admits cfg.crypto db withdrawing.request vault)
    (named : vault.id = withdrawing.vaultId)
    (granted : Authorized db withdrawing.request.nullifierHash ∨
      Storable db moment withdrawing.txHash ∧ Stores faults) :
    Authorized (authorizeUnder cfg moment faults db withdrawing).db
      withdrawing.request.nullifierHash := by
  by_cases before : Authorized db withdrawing.request.nullifierHash
  · exact before.extends (authorizeUnder_retains cfg moment faults db withdrawing).retains.extends_
  · obtain ⟨storable, stores⟩ := granted.resolve_left before
    obtain ⟨row, member, same⟩ := admits.row
    obtain ⟨amountSats, decrypted⟩ := admits.readable
    have id : row.id = withdrawing.vaultId := same.id.trans named
    have found : vaultById db withdrawing.vaultId = some row := vaultById_of_mem member id
    have missing : getAuthorizationByNullifier db withdrawing.request.nullifierHash = none := by
      cases exists_ : getAuthorizationByNullifier db withdrawing.request.nullifierHash with
      | none => rfl
      | some auth => exact absurd (authorized_of_found exists_) before
    have read : decryptAmount cfg.crypto row.encryptedAmount row.salt = .ok amountSats := by
      rw [same.encryptedAmount, same.salt, decrypted]
    let params : AuthorizationParams := ⟨withdrawing.vaultId, withdrawing.request.nullifierHash,
      withdrawing.txHash, withdrawing.request.bitcoinAddress, actualSats amountSats⟩
    obtain ⟨db₁, created⟩ :
        ∃ db₁, createAuthorization params moment.random.uuid moment.nowSecs db = .ok db₁ :=
      createAuthorization_accepted admits.signet member id missing storable
    have stored : Authorized db₁ withdrawing.request.nullifierHash := created_authorized created
    have turn : authorizeUnder cfg moment faults db withdrawing =
        (faults .created).elim
          (attemptPayoutUnder cfg moment faults db₁ withdrawing moment.random.uuid)
          fun message => finishUnder moment faults db₁ withdrawing [] none (some message) := by
      have inserted : createAuthorizationUnder faults params moment.random.uuid moment.nowSecs db =
          (db₁, faults .created) := by
        rw [createAuthorizationUnder, created_insertedUnder faults db stores, created]
      simp only [authorizeUnder, stores .amount (by simp [storing]), found, read, missing,
        stores .authorizationByNullifier (by simp [storing]), orFault_none]
      rw [show createAuthorizationUnder _ _ _ _ db = _ from inserted]
      cases faults .created <;> rfl
    rw [turn]
    cases faults .created with
    | some message =>
        rw [Option.elim_some]
        exact stored.extends (finishUnder_retains moment faults db₁ withdrawing ..).1.extends_
    | none =>
        rw [Option.elim_none]
        exact stored.extends
          (attemptPayoutUnder_retains cfg moment faults db₁ withdrawing _).retains.extends_

theorem authorize_authorizes {cfg : Config} {withdrawing : Withdrawing} {vault : VaultRow}
    (admits : Admits cfg.crypto db withdrawing.request vault)
    (named : vault.id = withdrawing.vaultId)
    (granted : Authorized db withdrawing.request.nullifierHash ∨
      Storable db moment withdrawing.txHash) :
    Authorized (authorize cfg moment db withdrawing).db withdrawing.request.nullifierHash := by
  have permitted : Authorized db withdrawing.request.nullifierHash ∨
      Storable db moment withdrawing.txHash ∧ Stores calm :=
    granted.imp_right fun storable => ⟨storable, fun _ _ => rfl⟩
  rw [← authorizeUnder_calm]
  exact authorizeUnder_authorizes admits named permitted

end Creation

variable (env : Environment)

/-- Every Starknet call that a withdrawal waits for stands as it was admitted. -/
def Standing (s : State) : Prop :=
  ∀ id asked request vault call,
    s.tasks id = some (asked, .withdraw (.executing request vault call)) →
      Admits env.crypto s.db request vault

theorem Admits.wrote {issued : VaultWrite → Prop} {crypto : Crypto} {db db' : Db}
    {request : WithdrawRequest} {vault : VaultRow} (admits : Admits crypto db request vault)
    (wrote : Wrote issued db db') : Admits crypto db' request vault := by
  obtain ⟨row, member, same⟩ := admits.row
  obtain ⟨row', member', same'⟩ := wrote.kept member
  exact ⟨admits.signet, ⟨row', member', same.trans same'⟩, admits.readable⟩

theorem admits_of_gate {db : Db} {body : WithdrawBody} {request : WithdrawRequest}
    {vault : VaultRow} {call : WithdrawCall}
    (gate : WithdrawGate.withdrawGate env.senderAddress env.crypto db body =
      .ok (.submit request vault call)) : Admits env.crypto db request vault := by
  obtain ⟨-, admitted⟩ := (WithdrawGate.withdrawGate_submit _ _ _ _ _ _).mp ⟨call, gate⟩
  obtain ⟨member, -⟩ := Table.find?_some admitted.found
  exact ⟨admitted.signet, ⟨vault, member, SameVault.refl vault⟩, admitted.readable⟩

theorem step_standing {s s' : State} {label : Label} (standing : Standing env s)
    (stepped : step env s label = some s') : Standing env s' := by
  have wrote := step_wrote env stepped
  have later : ∀ request vault, Admits env.crypto s.db request vault →
      Admits env.crypto s'.db request vault := fun _ _ admits => admits.wrote wrote
  intro id asked request vault call waits
  apply later
  cases step_arises env stepped waits with
  | kept held => exact standing _ _ _ _ _ held
  | begun next =>
      cases begin_withdraw env next with
      | submit gate => exact admits_of_gate env gate
  | resumed held went next => cases resume_withdraw env went next
  | expired held went next =>
      obtain ⟨_, _, -, orphaned⟩ := expire_withdraw went next
      cases orphaned

/-- An answered Starknet call leaves its authorization. -/
theorem executed_authorized {s s' : State} {id : Nat} {asked : Request} {moment : Moment}
    {request : WithdrawRequest} {vault : VaultRow} {call : WithdrawCall} {txHash : Text}
    (standing : Standing env s)
    (waits : s.tasks id = some (asked, .withdraw (.executing request vault call)))
    (permitted : Authorized s.db request.nullifierHash ∨ Storable s.db moment txHash)
    (stepped : step env s (.reply id (.rpc (.executed (.ok txHash))) moment) = some s') :
    Authorized s'.db request.nullifierHash := by
  have admits := standing id asked request vault call waits
  simp only [step, waits, Option.bind_eq_bind, Option.bind_some, resume, Option.pure_def,
    Option.some.injEq] at stepped
  subst stepped
  exact authorize_authorizes admits rfl permitted

section Runs

/-- A Starknet call of a withdraw handler, as it was answered. -/
structure Submission where
  request : WithdrawRequest
  call : WithdrawCall
  outcome : Except ExecuteFailure Text

/-- The Starknet call whose answer a label brings. -/
def answered (s : State) : Label → List Submission
  | .reply id (.rpc (.executed outcome)) _ =>
      match s.tasks id with
      | some (_, .withdraw (.executing request _ call)) => [⟨request, call, outcome⟩]
      | _ => []
  | _ => []

/-- The server with the Starknet calls that its withdraw handlers have made. -/
structure Logged where
  state : State
  submissions : List Submission

def log (t : Logged) (label : Label) : Option Logged :=
  (step env t.state label).map fun s => ⟨s, t.submissions ++ answered t.state label⟩

end Runs

section Sample

/-- The sample server with a relayer account whose address is a field element. -/
def burnMode : Environment :=
  { covenantMode with accountAddress := '0' :: 'x' :: '0' :: List.replicate 63 '1' }

/-- The vault gets the tokens that it will pay out. -/
def fundLabel : Label := .block (sampleHash '8') (some [.mint 13 11 1000000000000000])

/-- The server on the database of the sample deposit. -/
def deposited : State :=
  { boot sampleGenesis with
    db := ((GuardedRun.run (step burnMode) (boot sampleGenesis) depositLabels).map State.db).getD
      Database.empty }

def withdrawRequest : Label := .request 0 (.withdraw sampleWithdraw) (sampleMoment ['w'])

def withdrawAnswer : Label :=
  .reply 0 (.rpc (.executed (.ok (sampleHash '4')))) (sampleMoment ['w'])

end Sample

end PrivateBtc.Backend.BurnGrants
