/- PrivateBtc/Backend/NullifierValues
   digest: Which runs store one vault and one authorization for the felt of each nullifier hash. -/

import PrivateBtc.Backend.StoredNullifiers

set_option autoImplicit false
set_option relaxedAutoImplicit false

namespace PrivateBtc.Backend.NullifierValues

open Library Library.JsText
open Calldata (FeltReading feltOf_eq_some isHex isStringWholeNumber)
open Contracts.Corelib (Felt)
open Contracts.Vault (Genesis)
open Authorizations Database Deposits Http Payments Processor Server StoredNullifiers VaultWrites
open Withdrawals

variable {env : Environment} {s s' : State} {label : Label}

/-- The texts are spellings of one felt. -/
def SameFelt (felts : FeltReading) (a b : Text) : Prop :=
  ∃ felt : Felt, felts.felt a = some felt ∧ felts.felt b = some felt

/-- No two rows of a table have nullifier hashes that denote one felt. -/
structure OneEach (felts : FeltReading) (db : Db) : Prop where
  vaults : ∀ a ∈ db.vaults.rows, ∀ b ∈ db.vaults.rows, ∀ m n, a.nullifierHash = some m →
    b.nullifierHash = some n → SameFelt felts m n → a = b
  authorizations : ∀ a ∈ db.authorizations.rows, ∀ b ∈ db.authorizations.rows,
    SameFelt felts a.nullifierHash b.nullifierHash → a = b

/-- The nullifier hash that a handler brings to the vault it stores. -/
def brought (env : Environment) (s : State) : Label → Option Text
  | .reply id _ moment => (s.tasks id).bind fun held =>
      match held.2 with
      | .deposit (.balance preparing) =>
          (preparedRow env.toConfig moment preparing).toOption.bind fun row => row.nullifierHash
      | .deposit (.waiting _ _ (.spv body)) => body.stores.map Prod.snd
      | .deposit (.waiting _ _ (.relay relaying)) => relaying.nullifierHash
      | _ => none
  | _ => none

/-- What a handler brings is no other spelling of the nullifier hash of a stored vault. -/
def Fits (env : Environment) (s : State) (label : Label) : Prop :=
  ∀ n, brought env s label = some n → ∀ v ∈ s.db.vaults.rows, ∀ m, v.nullifierHash = some m →
    SameFelt env.felts m n → m = n

/-- The vault has its nullifier hash from the last step. -/
structure Names (s s' : State) (row : VaultRow) : Prop where
  member : row ∈ s'.db.vaults.rows
  named : row.nullifierHash ≠ none
  fresh : ∀ v ∈ s.db.vaults.rows, v.id = row.id → v.nullifierHash = none

/-- A step that gives a vault its nullifier hash brings no other spelling of a stored one. -/
def NamesFit (env : Environment) (s : State) (label : Label) : Prop :=
  ∀ s' row, step env s label = some s' → Names s s' row → Fits env s label

theorem SameFelt.symm {felts : FeltReading} {a b : Text} (same : SameFelt felts a b) :
    SameFelt felts b a := by
  obtain ⟨felt, left, right⟩ := same
  exact ⟨felt, right, left⟩

/-- Two numerals are spellings of one felt if and only if they are spellings of one number of the
field, however starknet.js writes the other texts. -/
theorem sameFelt_numerals {felts : FeltReading} {a b : Text}
    (left : isHex a = true ∨ isStringWholeNumber a = true)
    (right : isHex b = true ∨ isStringWholeNumber b = true) :
    SameFelt felts a b ↔ ∃ felt : Felt, bigInt a = some (felt.val : Int) ∧
      bigInt b = some (felt.val : Int) := by
  have reads : ∀ {text : Text}, isHex text = true ∨ isStringWholeNumber text = true →
      ∀ felt : Felt, felts.felt text = some felt ↔ bigInt text = some (felt.val : Int) := by
    intro text numeral felt
    rw [felts.felt_numeral numeral, feltOf_eq_some]
  simp only [SameFelt, reads left, reads right]

theorem eq_of_nullifier {db : Db} {a b : VaultRow} {n : Text} (a_mem : a ∈ db.vaults.rows)
    (b_mem : b ∈ db.vaults.rows) (a_hash : a.nullifierHash = some n)
    (b_hash : b.nullifierHash = some n) : a = b := by
  refine db.vaults.eq_of_clash a_mem b_mem ?_
  simp [vaultSchema, a_hash, b_hash, sameValue]

/-- A statement names a vault with what its handler has brought. -/
theorem written_brought (consistent : Consistent s) {write : VaultWrite}
    (issues : Issues env s label write) {v : VaultRow} (member : v ∈ s.db.vaults.rows)
    (unnamed : v.nullifierHash = none) :
    (write.written v).nullifierHash = none ∨
      (write.written v).nullifierHash = brought env s label := by
  unfold VaultWrite.written
  split_ifs with selected
  · have filled : ∀ other : Option Text, v.nullifierHash.or other = other := by
      intro other
      rw [unnamed, Option.none_or]
    cases write with
    | insert row => cases selected
    | revive row =>
        right
        refine (filled row.nullifierHash).trans ?_
        cases issues with
        | spv waits _ stores _ _ told =>
            split_ifs at told
            cases told
            simp [brought, waits, stores, spvRow]
        | relayed _ _ _ told => rcases told with told | told <;> cases told
    | reviveRelayed relaying txHash =>
        right
        refine (filled relaying.nullifierHash).trans ?_
        cases issues with
        | spv _ _ _ _ _ told => split_ifs at told
        | relayed waits _ _ told =>
            rcases told with told | told
            · cases told
            · cases told
              simp [brought, waits]
    | spend txHash nullifierHash withdrawal usedAt =>
        obtain ⟨id, request, task, waits, asked⟩ := spend_about env issues
        obtain ⟨row, there, named, own⟩ :=
          consistent.tasks id request task _ waits (named_of_about asked) nullifierHash rfl
        have here : (v.id == withdrawal.vaultId) = true := selected
        rw [eq_of_id there member (named.trans (beq_iff_eq.mp here).symm), unnamed] at own
        cases own
    | _ => exact Or.inl unnamed
  · exact Or.inl unnamed

theorem inserted_brought {row : VaultRow} (issues : Issues env s label (.insert row)) :
    row.nullifierHash = brought env s label := by
  cases issues with
  | prepared waits made => simp [brought, waits, made, Except.toOption]
  | spv waits _ stores _ _ told =>
      split_ifs at told
      cases told
      simp [brought, waits, stores, spvRow]
  | relayed waits _ _ told =>
      rcases told with told | told
      · cases told
        simp [brought, waits, relayRow]
      · cases told

theorem names_brought (consistent : Consistent s) (stepped : step env s label = some s')
    {row : VaultRow} (names : Names s s' row) : brought env s label = row.nullifierHash := by
  have member := names.member
  cases step_wrote env stepped with
  | nothing vaults _ =>
      rw [vaults] at member
      exact absurd (names.fresh row member rfl) names.named
  | wrote write issues rows _ =>
      rw [rows] at member
      rcases List.mem_append.mp member with old | new
      · obtain ⟨v, there, rfl⟩ := List.mem_map.mp old
        have unnamed := names.fresh v there (write.written_id v).symm
        rcases written_brought consistent issues there unnamed with still | told
        · exact absurd still names.named
        · exact told.symm
      · cases write with
        | insert inserted =>
            cases List.mem_singleton.mp new
            exact (inserted_brought issues).symm
        | _ => cases new

/-- A vault has its nullifier hash from the last step, or it had it before. -/
theorem hash_cases (consistent : Consistent s) (stepped : step env s label = some s')
    {row : VaultRow} {n : Text} (member : row ∈ s'.db.vaults.rows)
    (own : row.nullifierHash = some n) :
    Names s s' row ∨ ∃ v ∈ s.db.vaults.rows, v.id = row.id ∧ v.nullifierHash = some n := by
  by_cases fresh : ∀ v ∈ s.db.vaults.rows, v.id = row.id → v.nullifierHash = none
  · exact Or.inl ⟨member, by simp [own], fresh⟩
  · simp only [not_forall] at fresh
    obtain ⟨v, there, same, named⟩ := fresh
    obtain ⟨m, had⟩ := Option.ne_none_iff_exists'.mp named
    obtain ⟨v', later, kept⟩ := step_keeps consistent stepped v there
    have here : v' = row := eq_of_id later member (kept.same.id.trans same)
    have still := kept.nullifier m had
    rw [here, own] at still
    exact Or.inr ⟨v, there, same, by rw [had, still]⟩

theorem step_vaults (consistent : Consistent s) (one : OneEach env.felts s.db)
    (fits : NamesFit env s label) (stepped : step env s label = some s') :
    ∀ a ∈ s'.db.vaults.rows, ∀ b ∈ s'.db.vaults.rows, ∀ m n, a.nullifierHash = some m →
      b.nullifierHash = some n → SameFelt env.felts m n → a = b := by
  -- one that is named by the step against one that was named before
  have apart : ∀ a ∈ s'.db.vaults.rows, ∀ b ∈ s'.db.vaults.rows, ∀ m n, a.nullifierHash = some m →
      b.nullifierHash = some n → Names s s' a → (∃ v ∈ s.db.vaults.rows, v.nullifierHash = some n) →
      SameFelt env.felts m n → a = b := by
    rintro a a_mem b b_mem m n a_hash b_hash names ⟨v, there, had⟩ same
    have told : brought env s label = some m :=
      (names_brought consistent stepped names).trans a_hash
    have equal := fits s' a stepped names m told v there n had same.symm
    rw [equal] at b_hash
    exact eq_of_nullifier a_mem b_mem a_hash b_hash
  intro a a_mem b b_mem m n a_hash b_hash same
  rcases hash_cases consistent stepped a_mem a_hash with a_new | ⟨v, v_mem, v_id, v_hash⟩
  · rcases hash_cases consistent stepped b_mem b_hash with b_new | ⟨w, w_mem, -, w_hash⟩
    · have equal := (names_brought consistent stepped a_new).symm.trans
        (names_brought consistent stepped b_new)
      rw [a_hash] at equal
      exact eq_of_nullifier a_mem b_mem a_hash equal.symm
    · exact apart a a_mem b b_mem m n a_hash b_hash a_new ⟨w, w_mem, w_hash⟩ same
  · rcases hash_cases consistent stepped b_mem b_hash with b_new | ⟨w, w_mem, w_id, w_hash⟩
    · exact (apart b b_mem a a_mem n m b_hash a_hash b_new ⟨v, v_mem, v_hash⟩ same.symm).symm
    · have equal := one.vaults v v_mem w w_mem m n v_hash w_hash same
      exact eq_of_id a_mem b_mem (by rw [← v_id, ← w_id, equal])

section Authorized

variable {cfg : Config} {moment : Moment} {db db' : Db}

/-- A stored vault has the nullifier hash. -/
def Stored (db : Db) (n : Text) : Prop := ∃ v ∈ db.vaults.rows, v.nullifierHash = some n

/-- Every new authorization is for an admitted nullifier hash. -/
def Adds (admitted : Text → Prop) (db db' : Db) : Prop :=
  ∀ id grant, grantOf db' id = some grant → grantOf db id = some grant ∨ admitted grant.nullifierHash

theorem Adds.of_grants {admitted : Text → Prop} (grants : ∀ id, grantOf db' id = grantOf db id) :
    Adds admitted db db' := by
  intro id grant found
  rw [grants] at found
  exact Or.inl found

theorem closes_grants {withdrawing : Withdrawing} {db₁ : Db} {turn : WithdrawTurn}
    (closes : Closes withdrawing db₁ turn) (grants : ∀ id, grantOf db₁ id = grantOf db id)
    (id : Text) : grantOf turn.db id = grantOf db id :=
  (grantOf_congr closes.apart.authorizations id).trans (grants id)

theorem attemptPayout_grants (db : Db) (withdrawing : Withdrawing) (authId id : Text) :
    grantOf (attemptPayout cfg moment db withdrawing authId).db id = grantOf db id := by
  have attempted := attemptPayout_attempted cfg moment db withdrawing authId
  generalize attemptPayout cfg moment db withdrawing authId = turn at attempted
  cases attempted with
  | racing marks found => exact marks.grants id
  | ended marks closes ends => exact closes_grants closes marks.grants id

/-- Step 5 of the route creates an authorization only for the nullifier hash of its request. -/
theorem authorize_adds (db : Db) (withdrawing : Withdrawing) :
    Adds (fun n => n = withdrawing.request.nullifierHash) db
      (authorize cfg moment db withdrawing).db := by
  have went := authorize_went cfg moment db withdrawing
  generalize authorize cfg moment db withdrawing = turn at went ⊢
  cases went with
  | given_up closes _ => exact .of_grants (closes_grants closes fun _ => rfl)
  | created _ row _ nullifier =>
      obtain ⟨-, stored, others, -⟩ := createAuthorization_ok row
      intro id grant found
      rw [attemptPayout_grants] at found
      by_cases same : id = moment.random.uuid
      · rw [same, grantOf, stored, Option.map_some, Option.some.injEq] at found
        exact Or.inr (by rw [← found]; exact nullifier)
      · rw [grantOf, others id same] at found
        exact Or.inl found
  | retried _ _ =>
      refine .of_grants fun id => ?_
      rw [attemptPayout_grants]
      exact grantOf_writeStatus ..
  | @resumed auth _ => exact .of_grants fun id => attemptPayout_grants db withdrawing auth.id id

theorem begin_adds (issued : List ProofVerifier.ProofToken) (request : Request) :
    Adds (Stored db) db (begin env moment issued db request).db := by
  have begun := begin_begun env moment issued db request
  generalize (begin env moment issued db request).db = db' at begun ⊢
  cases begun with
  | unchanged => exact .of_grants fun _ => rfl
  | retried gate =>
      intro id grant found
      refine (authorize_adds db _ id grant found).imp_right ?_
      intro own
      obtain ⟨screens, -⟩ := WithdrawGate.withdrawGate_retry gate
      rw [own]
      exact ⟨_, screens.member⟩
  | polled => exact .of_grants (takeNext_continues moment db _).marks.grants

theorem resume_adds (consistent : Consistent s) {id : Nat} {request : Request} {task : Task}
    {reply : Reply} {nextRequest : Nat} {turn : SystemTurn}
    (waits : s.tasks id = some (request, task))
    (resumed : resume env moment nextRequest s.db task reply = some turn) :
    Adds (Stored s.db) s.db turn.db := by
  cases resume_resumed env resumed with
  | deposit went =>
      exact .of_grants (grantOf_congr (resumeDeposit_writes _ _ went).apart.authorizations)
  | execute went =>
      exact .of_grants (grantOf_congr ((resumeExecute_writes _ _ went).authorizations _ _))
  | audit went => exact .of_grants (grantOf_congr (resumeAudit_refreshes went).apart.authorizations)
  | @executing asked vault call answer =>
      cases answer with
      | error failure => exact .of_grants fun _ => rfl
      | ok txHash =>
          obtain ⟨v, there, -, own⟩ := consistent.tasks id request _ _ waits rfl asked.nullifierHash rfl
          intro authId grant found
          refine (authorize_adds s.db _ authId grant found).imp_right ?_
          intro named
          exact ⟨v, there, by rw [own, named]⟩
  | racing went =>
      cases resumeRacing_resumed _ _ went with
      | send _ _ => exact .of_grants fun _ => rfl
      | failed marks _ closes _ => exact .of_grants (closes_grants closes marks.grants)
      | paid _ _ completes closes _ => exact .of_grants (closes_grants closes completes.grants)
  | orphaned went =>
      cases resumeOrphaned_resumed _ _ went with
      | send _ _ => exact .of_grants fun _ => rfl
      | failed marks _ _ => exact .of_grants marks.grants
      | lost _ => exact .of_grants fun _ => rfl
      | paid _ _ _ completes => exact .of_grants completes.grants
  | @verifying auth rest answer =>
      refine .of_grants ?_
      show ∀ id, grantOf (afterVerification env.toConfig moment s.db auth rest answer).db id = _
      unfold afterVerification
      split_ifs
      · have sent := sendPayout_sent env.toConfig moment s.db auth rest
        generalize sendPayout env.toConfig moment s.db auth rest = turn at sent
        cases sent with
        | paying marks _ => exact marks.grants
        | given_back _ continues_ => exact continues_.marks.grants
      · exact (giveBack_continues moment (Marks.refl {auth.id} s.db) rest).marks.grants
  | paying went =>
      cases resumePaying_resumed _ _ went with
      | send _ _ => exact .of_grants fun _ => rfl
      | failed _ _ continues_ => exact .of_grants continues_.marks.grants
      | paid _ _ _ completes continues_ =>
          exact .of_grants fun id => (continues_.marks.grants id).trans (completes.grants id)

theorem expire_grants {task : Task} {turn : SystemTurn}
    (expired : expire moment db task = some turn) (id : Text) :
    grantOf turn.db id = grantOf db id := by
  cases expire_expired expired with
  | @racing withdrawing payout =>
      exact closes_grants (loseRace_closes moment db withdrawing payout).1 (fun _ => rfl) id

theorem step_adds (consistent : Consistent s) (stepped : step env s label = some s') :
    Adds (Stored s.db) s.db s'.db := by
  cases step_stepped env stepped with
  | @request id request moment idle => exact begin_adds s.issued request
  | reply waits resumed => exact resume_adds consistent waits resumed
  | timeout waits expired => exact .of_grants (expire_grants expired)
  | land => exact .of_grants fun _ => rfl
  | block fresh => exact .of_grants fun _ => rfl

end Authorized

/-- Every authorization is for the nullifier hash of a stored vault. -/
def Backed (db : Db) : Prop :=
  ∀ id grant, grantOf db id = some grant → Stored db grant.nullifierHash

theorem step_backed (consistent : Consistent s) (backed : Backed s.db)
    (stepped : step env s label = some s') : Backed s'.db := by
  intro id grant found
  obtain ⟨v, there, own⟩ : Stored s.db grant.nullifierHash := by
    rcases step_adds consistent stepped id grant found with old | new
    · exact backed id grant old
    · exact new
  obtain ⟨v', later, kept⟩ := step_keeps consistent stepped v there
  exact ⟨v', later, kept.nullifier _ own⟩

/-- Authorizations are for vaults, so one vault for each felt is enough. -/
theorem oneEach_of_vaults {felts : FeltReading} {db : Db} (backed : Backed db)
    (vaults : ∀ a ∈ db.vaults.rows, ∀ b ∈ db.vaults.rows, ∀ m n, a.nullifierHash = some m →
      b.nullifierHash = some n → SameFelt felts m n → a = b) : OneEach felts db := by
  refine ⟨vaults, ?_⟩
  have stored : ∀ auth ∈ db.authorizations.rows, Stored db auth.nullifierHash := by
    intro auth member
    refine backed auth.id (granted auth) ?_
    rw [grantOf, getAuthorizationById_of_mem member]
    rfl
  intro a a_mem b b_mem same
  obtain ⟨v, v_mem, v_hash⟩ := stored a a_mem
  obtain ⟨w, w_mem, w_hash⟩ := stored b b_mem
  have equal := vaults v v_mem w w_mem _ _ v_hash w_hash same
  rw [equal, w_hash, Option.some.injEq] at v_hash
  refine db.authorizations.eq_of_clash a_mem b_mem ?_
  simp [authorizationSchema, v_hash]

structure Kept (felts : FeltReading) (s : State) : Prop where
  consistent : Consistent s
  backed : Backed s.db
  one : OneEach felts s.db

theorem step_kept (kept : Kept env.felts s) (fits : NamesFit env s label)
    (stepped : step env s label = some s') : Kept env.felts s' := by
  have backed := step_backed kept.consistent kept.backed stepped
  exact ⟨step_consistent kept.consistent stepped, backed,
    oneEach_of_vaults backed (step_vaults kept.consistent kept.one fits stepped)⟩

/-- A vault that is named as another one already is under another spelling ends the uniqueness. -/
theorem fits_of_oneEach (consistent : Consistent s) (stepped : step env s label = some s')
    {row : VaultRow} (names : Names s s' row) (one : OneEach env.felts s'.db) : Fits env s label := by
  intro n told v there m had same
  have own : row.nullifierHash = some n := (names_brought consistent stepped names).symm.trans told
  obtain ⟨v', later, kept⟩ := step_keeps consistent stepped v there
  have equal := one.vaults v' later row names.member m n (kept.nullifier m had) own same
  have still := kept.nullifier m had
  rw [equal, own] at still
  exact (Option.some.inj still).symm

/-- In a run that names no vault with another spelling of a stored nullifier hash, no two vaults
and no two authorizations have one felt; and the next vault that is named keeps it so exactly when
what its handler brings is no such spelling. -/
theorem one_value_iff {genesis : Genesis} (run : Reaches env (NamesFit env) (boot genesis) s) :
    OneEach env.felts s.db ∧ ∀ label s' row, step env s label = some s' → Names s s' row →
      (OneEach env.felts s'.db ↔ Fits env s label) := by
  have kept : Kept env.felts s := by
    refine run.invariant ⟨starts_consistent ⟨fun _ => rfl, rfl⟩ rfl, ?_, ?_⟩
      fun _ _ _ before fits stepped => step_kept before fits stepped
    · intro id grant found
      cases found
    · constructor
      · intro a member
        cases member
      · intro a member
        cases member
  refine ⟨kept.one, fun label s' row stepped names => ?_⟩
  constructor
  · exact fits_of_oneEach kept.consistent stepped names
  · intro fits
    exact (step_kept kept (fun _ _ _ _ => fits) stepped).one

section Samples

def fitsLabel (s : State) (label : Label) : Bool :=
  (brought covenantMode s label).all fun n => s.db.vaults.rows.all fun v =>
    v.nullifierHash.all fun m => m == n || covenantMode.felts.felt m != covenantMode.felts.felt n

theorem fitsLabel_fits {s : State} {label : Label} (told : fitsLabel s label = true) :
    Fits covenantMode s label := by
  rintro n named v member m own ⟨felt, left, right⟩
  simp only [fitsLabel, named, Option.all_some, List.all_eq_true] at told
  have clear := told v member
  rw [own, Option.all_some, Bool.or_eq_true, beq_iff_eq, bne_iff_ne] at clear
  exact clear.resolve_right fun apart => apart (left.trans right.symm)

def maxUuid : Text := nilUuid.map fun c => if c = '0' then 'f' else c

/-- A second deposit by the handler 2, with a nullifier hash of its own. -/
def secondLabels (nullifierHash : Text) : List Label :=
  [.request 2 (.spvDeposit { sampleDeposit with
      commitment := ['0', 'x', '6'], vaultId := some maxUuid
      nullifierHash := some nullifierHash }) (sampleMoment ['c']),
    .reply 2 (.rpc (.headerStored true)) (sampleMoment ['c']),
    .reply 2 (.rpc (.executed (.ok (sampleHash '5')))) (sampleMoment ['c']),
    .reply 2 (.rpc (.receipt (.ok ⟨3, true, []⟩))) (sampleMoment ['c'])]

/-- The second vault is withdrawn as well. -/
def secondWithdrawal (nullifierHash : Text) : List Label :=
  [.request 3 (.withdraw { sampleWithdraw with nullifierHash := some nullifierHash })
      (sampleMoment ['x']),
    .reply 3 (.rpc (.executed (.ok (sampleHash '6')))) (sampleMoment ['x'])]

def hashes (s : State) : List (Option Text) × List Text :=
  (s.db.vaults.rows.map VaultRow.nullifierHash,
    s.db.authorizations.rows.map WithdrawalAuthorization.nullifierHash)

/-- Two deposits with nullifier hashes 7 and 8. -/
theorem two_values :
    ∃ s, Reaches covenantMode (NamesFit covenantMode) (boot sampleGenesis) s ∧
      hashes s = ([some ['0', 'x', '7'], some ['8']], [['0', 'x', '7'], ['8']]) ∧
      OneEach covenantMode.felts s.db := by
  have ran : (GuardedRun.runIf (step covenantMode) fitsLabel (boot sampleGenesis)
      (withdrawLabels ++ secondLabels ['8'] ++ secondWithdrawal ['8'])).map hashes =
      some ([some ['0', 'x', '7'], some ['8']], [['0', 'x', '7'], ['8']]) := by decide +kernel
  obtain ⟨s, ran, stored⟩ := Option.map_eq_some_iff.mp ran
  have run : Reaches covenantMode (NamesFit covenantMode) (boot sampleGenesis) s :=
    GuardedRun.Reaches.start.of_runIf (fun _ _ told _ _ _ _ => fitsLabel_fits told) ran
  exact ⟨s, run, stored, (one_value_iff run).1⟩

/-- `0x7` and `0x07` are two texts and one felt: two vaults and two authorizations have it. -/
theorem two_spellings :
    ∃ s, Reaches covenantMode (fun _ _ => True) (boot sampleGenesis) s ∧
      hashes s = ([some ['0', 'x', '7'], some ['0', 'x', '0', '7']],
        [['0', 'x', '7'], ['0', 'x', '0', '7']]) ∧
      SameFelt covenantMode.felts ['0', 'x', '7'] ['0', 'x', '0', '7'] ∧
      ¬ OneEach covenantMode.felts s.db := by
  have ran : (GuardedRun.run (step covenantMode) (boot sampleGenesis)
      (withdrawLabels ++ secondLabels ['0', 'x', '0', '7'] ++
        secondWithdrawal ['0', 'x', '0', '7'])).map hashes =
      some ([some ['0', 'x', '7'], some ['0', 'x', '0', '7']],
        [['0', 'x', '7'], ['0', 'x', '0', '7']]) := by decide +kernel
  obtain ⟨s, ran, stored⟩ := Option.map_eq_some_iff.mp ran
  have same : SameFelt covenantMode.felts ['0', 'x', '7'] ['0', 'x', '0', '7'] :=
    (sameFelt_numerals (.inl rfl) (.inl rfl)).mpr ⟨7, rfl, rfl⟩
  refine ⟨s, GuardedRun.Reaches.start.of_run (fun _ _ _ => trivial) ran, stored, same, fun one => ?_⟩
  obtain ⟨vaults, -⟩ := Prod.mk.inj stored
  obtain ⟨a, rest, rows, a_hash, tail⟩ := List.map_eq_cons_iff.mp vaults
  obtain ⟨b, rfl, b_hash⟩ := List.map_eq_singleton_iff.mp tail
  have equal := one.vaults a (by simp [rows]) b (by simp [rows]) _ _ a_hash b_hash same
  rw [equal, b_hash] at a_hash
  cases a_hash

end Samples

end PrivateBtc.Backend.NullifierValues
