/- PrivateBtc/Backend/Payments
   digest: The two services that pay bitcoin for an authorization, from call to broadcast. -/

import Mathlib.Data.Rat.Floor
import PrivateBtc.Backend.Authorizations
import PrivateBtc.Backend.CryptoService

set_option autoImplicit false
set_option relaxedAutoImplicit false

namespace PrivateBtc.Backend.Payments

open Library Library.JsText Library.Outcome
open Database Authorizations

/-- The environment of the process; bitcoinjs accepts or rejects an output. -/
structure Config where
  crypto : CryptoService.Crypto
  useCovenants : Bool
  senderAddress : Option Text
  senderPrivateKey : Option Text
  covenantAddress : Text
  accountAddress : Text
  vaultContractAddress : Text
  addOutput : Text → Int → Except String Unit

structure Utxo where
  txid : Text
  vout : Nat
  value : Nat
  scriptPubKey : Text
  deriving DecidableEq

structure Payment where
  inputs : List Utxo
  outputs : List (Text × Int)
  deriving DecidableEq

def largestFirst (utxos : List Utxo) : List Utxo :=
  utxos.insertionSort fun a b => b.value ≤ a.value

def totalValue (utxos : List Utxo) : Int := (utxos.map fun utxo => (utxo.value : Int)).sum

/-- The loop of both selections: it stops at the first total that covers amount and fee. -/
def selectUtxos (fee : Nat → Int) (amount : Int) (selected : List Utxo) :
    List Utxo → Option (List Utxo)
  | [] => none
  | utxo :: rest =>
      let selected := selected ++ [utxo]
      if amount + fee selected.length ≤ totalValue selected then some selected
      else selectUtxos fee amount selected rest

def FEE_PER_INPUT : Int := 2000

def covenantFee (inputs : Nat) : Int := FEE_PER_INPUT * inputs

def estimatedFee (feeRate : ℚ) (inputs : Nat) : Int := ⌈(inputs * 68 + 2 * 31 + 12) * feeRate⌉

variable (cfg : Config)

/-- Recipient first, then change above the dust limit. -/
def buildPayment (selected : List Utxo) (recipient changeAddress : Text) (amount fee : Int) :
    Except String Payment := do
  cfg.addOutput recipient amount
  let change := totalValue selected - amount - fee
  if change > 546 then
    cfg.addOutput changeAddress change
    pure ⟨selected, [(recipient, amount), (changeAddress, change)]⟩
  else
    pure ⟨selected, [(recipient, amount)]⟩

def createCovenantWithdrawal (auth : WithdrawalAuthorization) (utxos : List Utxo) :
    Except String Payment :=
  if utxos.isEmpty then .error "No funds in covenant vault"
  else
    match selectUtxos covenantFee auth.amountSats [] (largestFirst utxos) with
    | some selected =>
        buildPayment cfg selected auth.bitcoinAddress cfg.covenantAddress auth.amountSats
          (covenantFee selected.length)
    | none =>
        .error (s!"Insufficient funds. Need {auth.amountSats + FEE_PER_INPUT} sats (incl. fee), " ++
          s!"covenant total: {totalValue utxos} sats across {utxos.length} UTXO(s).")

/-- The checks of `sendBitcoinToAddress` before its first request. -/
def senderOf (recipientAddress : Text) : Except String Text :=
  match cfg.senderPrivateKey, cfg.senderAddress with
  | some _, some senderAddress =>
      if ['t', 'b', '1'].isPrefixOf recipientAddress then .ok senderAddress
      else .error "Invalid recipient address - must be a Signet testnet address (starts with tb1)"
  | _, _ =>
      .error "Missing Bitcoin configuration in .env (SENDER_PRIVATE_KEY or SENDER_ADDRESS)"

/-- What the loop of `sendBitcoinToAddress` has selected, its total, and the fee for it. -/
structure Selection where
  selectedUtxos : List Utxo
  totalInput : Int
  estimatedFee : Int

def Selection.push (feeRate : ℚ) (loop : Selection) (utxo : Utxo) : Selection where
  selectedUtxos := loop.selectedUtxos ++ [utxo]
  totalInput := loop.totalInput + utxo.value
  estimatedFee := Payments.estimatedFee feeRate (loop.selectedUtxos ++ [utxo]).length

/-- The loop, which breaks once the total covers amount and fee. -/
def selectInputs (feeRate : ℚ) (amountSats : Int) : Selection → List Utxo → Selection
  | loop, [] => loop
  | loop, utxo :: rest =>
      let loop := loop.push feeRate utxo
      if loop.totalInput ≥ amountSats + loop.estimatedFee then loop
      else selectInputs feeRate amountSats loop rest

def sendBitcoinToAddress (recipientAddress : Text) (amountSats : Int) (allUtxos : List Utxo)
    (feeRate : ℚ) : Except String Payment := do
  let senderAddress ← senderOf cfg recipientAddress
  if allUtxos.isEmpty then
    throw (s!"No UTXOs found for sender address {String.ofList senderAddress}. " ++
      "Cannot process withdrawal.")
  let loop := selectInputs feeRate amountSats ⟨[], 0, 0⟩ (largestFirst allUtxos)
  if loop.totalInput < amountSats + loop.estimatedFee then
    throw (s!"Insufficient funds in custodian wallet. Have: {loop.totalInput} sats, " ++
      s!"Need: {amountSats + loop.estimatedFee} sats (amount + fee). " ++
      s!"Fund {String.ofList senderAddress} with Signet BTC.")
  buildPayment cfg loop.selectedUtxos recipientAddress senderAddress amountSats loop.estimatedFee

/-- The selection of these inputs, with their total and fee. -/
def Selection.of (feeRate : ℚ) (selectedUtxos : List Utxo) : Selection :=
  ⟨selectedUtxos, totalValue selectedUtxos, Payments.estimatedFee feeRate selectedUtxos.length⟩

theorem push_eq (feeRate : ℚ) (utxo : Utxo) {loop : Selection}
    (total : loop.totalInput = totalValue loop.selectedUtxos) :
    loop.push feeRate utxo = .of feeRate (loop.selectedUtxos ++ [utxo]) := by
  rw [Selection.push, Selection.of, total]
  simp [totalValue]

/-- The loop ends on the first sum that covers, which is what `selectUtxos` selects, or else with
all UTXOs. -/
inductive Ends (feeRate : ℚ) (amountSats : Int) (selected utxos : List Utxo) : Selection → Prop
  | breaks {chosen : List Utxo}
      (found : selectUtxos (estimatedFee feeRate) amountSats selected utxos = some chosen)
      (covers : amountSats + estimatedFee feeRate chosen.length ≤ totalValue chosen) :
      Ends feeRate amountSats selected utxos (.of feeRate chosen)
  | exhausts (found : selectUtxos (estimatedFee feeRate) amountSats selected utxos = none)
      (short : totalValue (selected ++ utxos) <
        amountSats + estimatedFee feeRate (selected ++ utxos).length) :
      Ends feeRate amountSats selected utxos (.of feeRate (selected ++ utxos))

/-- One round: it breaks where `selectUtxos` stops. -/
theorem selectInputs_round (feeRate : ℚ) (amountSats : Int) (utxo : Utxo) (rest : List Utxo)
    {loop : Selection} (total : loop.totalInput = totalValue loop.selectedUtxos) :
    (∃ chosen, selectInputs feeRate amountSats loop (utxo :: rest) = .of feeRate chosen ∧
      amountSats + estimatedFee feeRate chosen.length ≤ totalValue chosen ∧
      selectUtxos (estimatedFee feeRate) amountSats loop.selectedUtxos (utxo :: rest) =
        some chosen) ∨
    let selected := loop.selectedUtxos ++ [utxo]
    selectInputs feeRate amountSats loop (utxo :: rest) =
        selectInputs feeRate amountSats (.of feeRate selected) rest ∧
      totalValue selected < amountSats + estimatedFee feeRate selected.length ∧
      selectUtxos (estimatedFee feeRate) amountSats loop.selectedUtxos (utxo :: rest) =
        selectUtxos (estimatedFee feeRate) amountSats selected rest := by
  generalize joined : loop.selectedUtxos ++ [utxo] = selected
  have pushed := push_eq feeRate utxo total
  rw [joined] at pushed
  rw [selectInputs, selectUtxos, pushed, joined]
  by_cases covers : amountSats + estimatedFee feeRate selected.length ≤ totalValue selected
  · have breaks : (Selection.of feeRate selected).totalInput ≥
        amountSats + (Selection.of feeRate selected).estimatedFee := covers
    exact Or.inl ⟨selected, if_pos breaks, covers, if_pos covers⟩
  · have goes_on : ¬ (Selection.of feeRate selected).totalInput ≥
        amountSats + (Selection.of feeRate selected).estimatedFee := covers
    exact Or.inr ⟨if_neg goes_on, not_le.mp covers, if_neg covers⟩

theorem selectInputs_ends (feeRate : ℚ) (amountSats : Int) (utxo : Utxo) (rest : List Utxo)
    {loop : Selection} (total : loop.totalInput = totalValue loop.selectedUtxos) :
    Ends feeRate amountSats loop.selectedUtxos (utxo :: rest)
      (selectInputs feeRate amountSats loop (utxo :: rest)) := by
  induction rest generalizing utxo loop with
  | nil =>
      rcases selectInputs_round feeRate amountSats utxo [] total with
        ⟨chosen, ended, covers, found⟩ | ⟨ended, short, found⟩
      · rw [ended]
        exact .breaks found covers
      · rw [ended]
        exact .exhausts found short
  | cons next rest ih =>
      rcases selectInputs_round feeRate amountSats utxo (next :: rest) total with
        ⟨chosen, ended, covers, found⟩ | ⟨goes_on, -, same⟩
      · rw [ended]
        exact .breaks found covers
      · have ended := @ih next (.of feeRate (loop.selectedUtxos ++ [utxo])) rfl
        rw [goes_on]
        generalize selectInputs feeRate amountSats _ (next :: rest) = last at ended ⊢
        cases ended with
        | breaks found covers => exact .breaks (same.trans found) covers
        | exhausts found short =>
            have whole : (Selection.of feeRate (loop.selectedUtxos ++ [utxo])).selectedUtxos ++
                next :: rest = loop.selectedUtxos ++ utxo :: next :: rest := by
              simp [Selection.of]
            rw [whole] at short ⊢
            exact .exhausts (same.trans found) short

theorem length_largestFirst (utxos : List Utxo) : (largestFirst utxos).length = utxos.length :=
  List.length_insertionSort _ utxos

theorem totalValue_largestFirst (utxos : List Utxo) :
    totalValue (largestFirst utxos) = totalValue utxos :=
  ((List.perm_insertionSort _ utxos).map _).sum_eq

/-- The loop and its test select as the covenant service does. -/
theorem sendBitcoinToAddress_eq (recipientAddress : Text) (amountSats : Int)
    (allUtxos : List Utxo) (feeRate : ℚ) :
    sendBitcoinToAddress cfg recipientAddress amountSats allUtxos feeRate = (do
      let senderAddress ← senderOf cfg recipientAddress
      if allUtxos.isEmpty then
        throw (s!"No UTXOs found for sender address {String.ofList senderAddress}. " ++
          "Cannot process withdrawal.")
      match selectUtxos (estimatedFee feeRate) amountSats [] (largestFirst allUtxos) with
      | some selected =>
          buildPayment cfg selected recipientAddress senderAddress amountSats
            (estimatedFee feeRate selected.length)
      | none =>
          throw (s!"Insufficient funds in custodian wallet. Have: {totalValue allUtxos} sats, " ++
            s!"Need: {amountSats + estimatedFee feeRate allUtxos.length} sats (amount + fee). " ++
            s!"Fund {String.ofList senderAddress} with Signet BTC.")) := by
  rw [sendBitcoinToAddress]
  cases senderOf cfg recipientAddress with
  | error message => rfl
  | ok senderAddress =>
      cases sorted : largestFirst allUtxos with
      | nil =>
          have empty : allUtxos = [] := by
            have length := congrArg List.length sorted
            rw [length_largestFirst] at length
            exact List.length_eq_zero_iff.mp length
          rw [empty]
          rfl
      | cons utxo rest =>
          have filled : allUtxos.isEmpty = false := by
            cases allUtxos with
            | nil => cases sorted
            | cons first others => rfl
          have ended := selectInputs_ends feeRate amountSats utxo rest
            (rfl : (Selection.mk [] 0 0).totalInput = totalValue [])
          have length : (utxo :: rest).length = allUtxos.length := by
            rw [← sorted, length_largestFirst]
          have total : totalValue (utxo :: rest) = totalValue allUtxos := by
            rw [← sorted, totalValue_largestFirst]
          simp only [bind, Except.bind, filled]
          generalize selectInputs feeRate amountSats _ (utxo :: rest) = last at ended ⊢
          cases ended with
          | breaks found covers =>
              have found : selectUtxos (estimatedFee feeRate) amountSats [] (utxo :: rest) =
                some _ := found
              simp [found, Selection.of, not_lt.mpr covers]
          | exhausts found short =>
              have found : selectUtxos (estimatedFee feeRate) amountSats [] (utxo :: rest) =
                none := found
              rw [List.nil_append, total, length] at short
              rw [List.nil_append]
              simp only [found, Selection.of, total, length, if_pos short]
              rfl

/-- A payout that waits for the mempool API: for the UTXOs and the fee rate, or for the
answer to a broadcast. -/
inductive Payout where
  | fetching (auth : WithdrawalAuthorization)
  | sent (auth : WithdrawalAuthorization) (request : Nat)

def Payout.auth : Payout → WithdrawalAuthorization
  | .fetching auth => auth
  | .sent auth _ => auth

inductive MempoolReply where
  | utxos (reply : Except String (List Utxo × ℚ))
  | broadcast (reply : Except String Text)

/-- Where a payout stands after one turn. -/
inductive Progress where
  | waiting (payout : Payout)
  | settled (result : Except String Text)

structure PayoutTurn where
  db : Db
  sends : Option Payment
  progress : Progress

/-- The `catch` of `sendBitcoinWithAuthorization`; the covenant service has none. -/
def settleError (nowSecs : Nat) (auth : WithdrawalAuthorization) (message : String) (db : Db) :
    PayoutTurn where
  db :=
    if cfg.useCovenants then db
    else writeStatus auth.id .failed nowSecs none (some message) db
  sends := none
  progress := .settled (.error message)

def executeCovenantWithdrawal (authorizationId : Text) (db : Db) : PayoutTurn :=
  match getAuthorizationById db authorizationId with
  | none => ⟨db, none, .settled (.error "Authorization not found")⟩
  | some auth => ⟨db, none, .waiting (.fetching auth)⟩

def sendBitcoinWithAuthorization (authorizationId : Text) (nowSecs : Nat) (db : Db) :
    PayoutTurn :=
  match getAuthorizationById db authorizationId with
  | none =>
      ⟨db, none, .settled (.error ("Authorization not found: " ++ String.ofList authorizationId))⟩
  | some auth =>
      match verifyAuthorization db auth.nullifierHash with
      | .error message => ⟨db, none, .settled (.error ("Invalid authorization: " ++ message))⟩
      | .ok _ =>
          let db := markStatus auth.id .processing nowSecs db
          match senderOf cfg auth.bitcoinAddress with
          | .error message => settleError cfg nowSecs auth message db
          | .ok _ => ⟨db, none, .waiting (.fetching auth)⟩

def startPayout (authorizationId : Text) (nowSecs : Nat) (db : Db) : PayoutTurn :=
  if cfg.useCovenants then executeCovenantWithdrawal authorizationId db
  else sendBitcoinWithAuthorization cfg authorizationId nowSecs db

def buildFor (auth : WithdrawalAuthorization) (utxos : List Utxo) (feeRate : ℚ) :
    Except String Payment :=
  if cfg.useCovenants then createCovenantWithdrawal cfg auth utxos
  else sendBitcoinToAddress cfg auth.bitcoinAddress auth.amountSats utxos feeRate

/-- A broadcast that was answered; the legacy sender records it itself. -/
def settleBroadcast (nowSecs : Nat) (auth : WithdrawalAuthorization) (txid : Text) (db : Db) :
    PayoutTurn :=
  if cfg.useCovenants then ⟨db, none, .settled (.ok txid)⟩
  else
    match markCompleted auth.id nowSecs txid db with
    | .ok db => ⟨db, none, .settled (.ok txid)⟩
    | .error message => settleError cfg nowSecs auth message db

/-- `nextRequest` numbers the broadcast, if this turn sends one. -/
def resumePayout (nowSecs nextRequest : Nat) (db : Db) :
    Payout → MempoolReply → Option PayoutTurn
  | .fetching auth, .utxos (.ok (utxos, feeRate)) =>
      match buildFor cfg auth utxos feeRate with
      | .ok payment => some ⟨db, some payment, .waiting (.sent auth nextRequest)⟩
      | .error message => some (settleError cfg nowSecs auth message db)
  | .fetching auth, .utxos (.error message) => some (settleError cfg nowSecs auth message db)
  | .sent auth _, .broadcast (.ok txid) => some (settleBroadcast cfg nowSecs auth txid db)
  | .sent auth _, .broadcast (.error message) => some (settleError cfg nowSecs auth message db)
  | _, _ => none

def PayoutTurn.settles (turn : PayoutTurn) : Bool :=
  match turn.progress with
  | .settled _ => true
  | .waiting _ => false

/-- The broadcast that a payout waits for. -/
def Payout.request : Payout → Option Nat
  | .fetching _ => none
  | .sent _ request => some request

/-- A payout starts on the row of its authorization, or fails; it may mark the authorization. -/
inductive Started (authorizationId : Text) (db : Db) : PayoutTurn → Prop where
  | fetching {db' : Db} {auth : WithdrawalAuthorization}
      (marks : Marks {authorizationId} db db')
      (found : getAuthorizationById db authorizationId = some auth) :
      Started authorizationId db ⟨db', none, .waiting (.fetching auth)⟩
  | failed {db' : Db} {message : String} (marks : Marks {authorizationId} db db') :
      Started authorizationId db ⟨db', none, .settled (.error message)⟩

theorem settleError_marks (nowSecs : Nat) (auth : WithdrawalAuthorization) (message : String)
    (db : Db) : Marks {auth.id} db (settleError cfg nowSecs auth message db).db := by
  unfold settleError
  dsimp only
  split_ifs
  · exact Marks.refl _ _
  · exact Marks.of_writeStatus (Set.mem_singleton auth.id) (by decide) _ _ _ _

theorem settleError_kept {cfg : Config} {nowSecs : Nat} {auth : WithdrawalAuthorization}
    {message : String} {db : Db} (covenants : cfg.useCovenants = true) :
    (settleError cfg nowSecs auth message db).db = db := by
  rw [settleError]
  exact if_pos covenants

theorem startPayout_started (authorizationId : Text) (nowSecs : Nat) (db : Db) :
    Started authorizationId db (startPayout cfg authorizationId nowSecs db) := by
  unfold startPayout executeCovenantWithdrawal sendBitcoinWithAuthorization
  cases found : getAuthorizationById db authorizationId with
  | none => split_ifs <;> exact .failed (Marks.refl _ _)
  | some auth =>
      have named := getAuthorizationById_id found
      subst named
      split_ifs
      · exact .fetching (Marks.refl _ _) found
      · dsimp only
        cases verifyAuthorization db auth.nullifierHash with
        | error message => exact .failed (Marks.refl _ _)
        | ok checked =>
            have processing : Marks {auth.id} db (markStatus auth.id .processing nowSecs db) :=
              Marks.of_writeStatus (Set.mem_singleton auth.id) (by decide) _ _ _ _
            dsimp only
            cases senderOf cfg auth.bitcoinAddress with
            | error message => exact .failed (processing.trans (settleError_marks cfg ..))
            | ok sender => exact .fetching processing found

/-- A broadcast was answered with a txid that the caller can record. -/
def Paid : Payout → MempoolReply → Option Text
  | .sent _ _, .broadcast (.ok txid) => if txid.isEmpty then none else some txid
  | _, _ => none

/-- A payout goes on to its one broadcast, fails, or is paid. -/
inductive Resumed (nowSecs nextRequest : Nat) (db : Db) (payout : Payout) (reply : MempoolReply) :
    PayoutTurn → Prop where
  | send {payment : Payment} (unsent : payout.request = none)
      (silent : ∀ answer, reply ≠ .broadcast answer) :
      Resumed nowSecs nextRequest db payout reply
        ⟨db, some payment, .waiting (.sent payout.auth nextRequest)⟩
  | failed {db' : Db} {message : String} (marks : Marks {payout.auth.id} db db')
      (kept : cfg.useCovenants = true → db' = db) (unpaid : Paid payout reply = none) :
      Resumed nowSecs nextRequest db payout reply ⟨db', none, .settled (.error message)⟩
  | paid {txid : Text} (sent : payout.request ≠ none) (answer : reply = .broadcast (.ok txid))
      (legible : cfg.useCovenants = false → txid.isEmpty = false) :
      Resumed nowSecs nextRequest db payout reply
        ⟨if cfg.useCovenants then db
          else writeStatus payout.auth.id .completed nowSecs (some txid) none db,
          none, .settled (.ok txid)⟩

theorem resumePayout_resumed {nowSecs nextRequest : Nat} {db : Db} {payout : Payout}
    {reply : MempoolReply} {turn : PayoutTurn}
    (resumed : resumePayout cfg nowSecs nextRequest db payout reply = some turn) :
    Resumed cfg nowSecs nextRequest db payout reply turn := by
  cases payout with
  | fetching auth =>
      cases reply with
      | broadcast answer => cases resumed
      | utxos answer =>
          cases answer with
          | error message =>
              cases resumed
              exact .failed (settleError_marks cfg ..) settleError_kept rfl
          | ok fetched =>
              rcases fetched with ⟨utxos, feeRate⟩
              simp only [resumePayout] at resumed
              cases built : buildFor cfg auth utxos feeRate with
              | error message =>
                  rw [built] at resumed
                  cases resumed
                  exact .failed (settleError_marks cfg ..) settleError_kept rfl
              | ok payment =>
                  rw [built] at resumed
                  cases resumed
                  exact .send rfl (by simp)
  | sent auth request =>
      cases reply with
      | utxos answer => cases resumed
      | broadcast answer =>
          cases answer with
          | error message =>
              cases resumed
              exact .failed (settleError_marks cfg ..) settleError_kept rfl
          | ok txid =>
              simp only [resumePayout, Option.some.injEq] at resumed
              subst resumed
              by_cases covenants : cfg.useCovenants
              · have paid : Resumed cfg nowSecs nextRequest db (.sent auth request)
                    (.broadcast (.ok txid)) _ := .paid (by simp [Payout.request]) rfl
                  (by simp [covenants])
                simpa [settleBroadcast, covenants] using paid
              · cases legible : txid.isEmpty with
                | true =>
                    simp only [settleBroadcast, covenants, markCompleted, legible]
                    exact .failed (settleError_marks cfg ..) settleError_kept (by simp [Paid, legible])
                | false =>
                    have paid : Resumed cfg nowSecs nextRequest db (.sent auth request)
                        (.broadcast (.ok txid)) _ := .paid (by simp [Payout.request]) rfl
                      (fun _ => legible)
                    simpa [settleBroadcast, covenants, markCompleted, legible, Payout.auth] using paid

/-- A blank txid only comes through with covenants, and it pays nothing. -/
theorem blank_unpaid {payout : Payout} {reply : MempoolReply} {txid : Text}
    (answer : reply = .broadcast (.ok txid)) (blank : txid.isEmpty = true)
    (legible : cfg.useCovenants = false → txid.isEmpty = false) :
    Paid payout reply = none ∧ cfg.useCovenants = true := by
  constructor
  · subst answer
    cases payout with
    | fetching auth => rfl
    | sent auth request => exact if_pos blank
  · by_contra legacy
    rw [legible (by simpa using legacy)] at blank
    cases blank

end PrivateBtc.Backend.Payments
