/- PrivateBtc/Backend/CoinSelection
   digest: Both payment services choose a shortest list of UTXOs that covers amount and fee. -/

import PrivateBtc.Backend.Payments
import PrivateBtc.Library.Greedy

set_option autoImplicit false
set_option relaxedAutoImplicit false

namespace PrivateBtc.Backend.CoinSelection

open Library Library.JsText Library.Outcome
open Library.Greedy (Covers Shortest firstPrefix greedy_eq_none greedy_shortest)
open Database Payments

/-- A UTXO's value in satoshis. -/
def sats (utxo : Utxo) : Int := utxo.value

/-- Among these UTXOs some cover the amount and the fee for their number. -/
def Coverable (fee : Nat → Int) (amount : Int) (utxos : List Utxo) : Prop :=
  ∃ S : List Utxo, S.Subperm utxos ∧ Covers sats fee amount S

section Selection

variable (fee : Nat → Int) (amount : Int)

private theorem selectUtxos_eq (selected utxos : List Utxo) :
    selectUtxos fee amount selected utxos =
      firstPrefix (fun S => decide (amount + fee S.length ≤ totalValue S)) selected utxos := by
  induction utxos generalizing selected with
  | nil => rfl
  | cons utxo rest ih => simp only [selectUtxos, firstPrefix, decide_eq_true_eq, ih]

private theorem largestFirst_perm (utxos : List Utxo) : (largestFirst utxos).Perm utxos :=
  List.perm_insertionSort _ _

private theorem largestFirst_descending (utxos : List Utxo) :
    (largestFirst utxos).Pairwise fun a b => sats b ≤ sats a := by
  have total : Std.Total fun a b : Utxo => b.value ≤ a.value :=
    ⟨fun a b => Nat.le_total b.value a.value⟩
  have trans : IsTrans Utxo fun a b => b.value ≤ a.value := ⟨fun _ _ _ ab bc => Nat.le_trans bc ab⟩
  have sorted := List.pairwise_insertionSort (fun a b : Utxo => b.value ≤ a.value) utxos
  exact sorted.imp fun below => Int.ofNat_le.mpr below

/-- The loop gives up exactly when nothing covers, for any fee that the number of
inputs decides. -/
theorem selectUtxos_eq_none (utxos : List Utxo) :
    selectUtxos fee amount [] (largestFirst utxos) = none ↔ ¬ Coverable fee amount utxos := by
  rw [selectUtxos_eq]
  exact greedy_eq_none (largestFirst_perm utxos) (largestFirst_descending utxos)
    fun S => decide_eq_true_iff

/-- No covering choice has fewer inputs than the one the loop makes. -/
theorem selectUtxos_shortest {utxos selected : List Utxo}
    (found : selectUtxos fee amount [] (largestFirst utxos) = some selected) :
    Shortest sats fee amount utxos selected := by
  rw [selectUtxos_eq] at found
  exact greedy_shortest (largestFirst_perm utxos) (largestFirst_descending utxos)
    (fun S => decide_eq_true_iff) found

end Selection

/-- What the inputs are worth beyond the outputs. -/
def minerFee (payment : Payment) : Int :=
  totalValue payment.inputs - (payment.outputs.map Prod.snd).sum

/-- A payment of exactly `amount` from a shortest covering choice, with the change above
the dust limit sent back and the rest left to the miner. -/
structure Pays (fee : Nat → Int) (recipient changeAddress : Text) (amount : Int)
    (utxos : List Utxo) (payment : Payment) : Prop where
  selection : Shortest sats fee amount utxos payment.inputs
  outputs : payment.outputs = [(recipient, amount)] ∨
    ∃ change, 546 < change ∧ payment.outputs = [(recipient, amount), (changeAddress, change)]
  fee_le : fee payment.inputs.length ≤ minerFee payment
  le_fee : minerFee payment ≤ fee payment.inputs.length + 546

/-- The service fails when nothing covers, and else builds its transaction from a
shortest covering choice; what it builds is such a payment. -/
structure Serves (cfg : Config) (fee : Nat → Int) (recipient changeAddress : Text) (amount : Int)
    (utxos : List Utxo) (outcome : Except String Payment) : Prop where
  fails : ¬ Coverable fee amount utxos → ∃ e, outcome = .error e
  builds : Coverable fee amount utxos → ∃ selected, Shortest sats fee amount utxos selected ∧
    outcome = buildPayment cfg selected recipient changeAddress amount (fee selected.length)
  pays : ∀ payment, outcome = .ok payment → Pays fee recipient changeAddress amount utxos payment

section Services

variable (cfg : Config)

theorem buildPayment_pays {fee : Nat → Int} {amount : Int} {recipient changeAddress : Text}
    {utxos selected : List Utxo} {payment : Payment}
    (chosen : Shortest sats fee amount utxos selected)
    (built : buildPayment cfg selected recipient changeAddress amount (fee selected.length) =
      .ok payment) : Pays fee recipient changeAddress amount utxos payment := by
  have enough : amount + fee selected.length ≤ totalValue selected := chosen.covers.2
  simp only [buildPayment, bind_eq_ok] at built
  obtain ⟨_, -, built⟩ := built
  split_ifs at built with dust
  · obtain ⟨_, -, built⟩ := bind_eq_ok.mp built
    cases built
    have left : minerFee ⟨selected, [(recipient, amount),
        (changeAddress, totalValue selected - amount - fee selected.length)]⟩ =
        fee selected.length := by
      simp only [minerFee, List.map_cons, List.map_nil, List.sum_cons, List.sum_nil]
      omega
    refine ⟨chosen, Or.inr ⟨_, dust, rfl⟩, ?_, ?_⟩
    · rw [left]
    · rw [left]
      dsimp only
      omega
  · cases built
    have left : minerFee ⟨selected, [(recipient, amount)]⟩ = totalValue selected - amount := by
      simp [minerFee]
    refine ⟨chosen, Or.inl rfl, ?_, ?_⟩
    · rw [left]
      dsimp only
      omega
    · rw [left]
      dsimp only
      omega

private theorem serves_of_selection {fee : Nat → Int} {amount : Int}
    {recipient changeAddress : Text} {utxos : List Utxo} {outcome : Except String Payment}
    (none : selectUtxos fee amount [] (largestFirst utxos) = none → ∃ e, outcome = .error e)
    (some : ∀ selected, selectUtxos fee amount [] (largestFirst utxos) = some selected →
      outcome = buildPayment cfg selected recipient changeAddress amount (fee selected.length)) :
    Serves cfg fee recipient changeAddress amount utxos outcome := by
  have gave_up := selectUtxos_eq_none fee amount utxos
  cases chosen : selectUtxos fee amount [] (largestFirst utxos) with
  | none =>
      have uncovered := gave_up.mp chosen
      obtain ⟨e, failed⟩ := none chosen
      refine ⟨fun _ => ⟨e, failed⟩, fun covered => absurd covered uncovered, ?_⟩
      intro payment paid
      rw [failed] at paid
      cases paid
  | some selected =>
      have shortest := selectUtxos_shortest fee amount chosen
      have built := some selected chosen
      refine ⟨?_, fun _ => ⟨selected, shortest, built⟩, ?_⟩
      · intro uncovered
        rw [gave_up.mpr uncovered] at chosen
        cases chosen
      · intro payment paid
        exact buildPayment_pays cfg shortest (built.symm.trans paid)

theorem createCovenantWithdrawal_serves (auth : WithdrawalAuthorization) (utxos : List Utxo) :
    Serves cfg covenantFee auth.bitcoinAddress cfg.covenantAddress auth.amountSats utxos
      (createCovenantWithdrawal cfg auth utxos) := by
  apply serves_of_selection
  · intro none
    rw [createCovenantWithdrawal]
    split_ifs
    · exact ⟨_, rfl⟩
    · rw [none]
      exact ⟨_, rfl⟩
  · intro selected some
    have nonempty : utxos.isEmpty = false := by
      cases utxos with
      | nil => cases some
      | cons utxo rest => rfl
    rw [createCovenantWithdrawal, if_neg (by simp [nonempty]), some]

theorem sendBitcoinToAddress_serves {recipientAddress senderAddress : Text}
    (configured : senderOf cfg recipientAddress = .ok senderAddress) (amountSats : Int)
    (feeRate : ℚ) (utxos : List Utxo) :
    Serves cfg (estimatedFee feeRate) recipientAddress senderAddress amountSats utxos
      (sendBitcoinToAddress cfg recipientAddress amountSats utxos feeRate) := by
  apply serves_of_selection
  · intro none
    rw [sendBitcoinToAddress_eq, configured, ok_bind]
    cases utxos with
    | nil => exact ⟨_, rfl⟩
    | cons utxo rest =>
        rw [none]
        exact ⟨_, rfl⟩
  · intro selected some
    cases utxos with
    | nil => cases some
    | cons utxo rest =>
        rw [sendBitcoinToAddress_eq, configured, ok_bind, some]
        rfl

/-- Both selections are complete and frugal, and both services pay exactly the amount, for
every list of UTXOs, every amount and every fee rate. The selection is so for any fee
that is a function of the number of inputs, however it is rounded. -/
theorem selection_complete_frugal (auth : WithdrawalAuthorization) (utxos : List Utxo)
    {recipientAddress senderAddress : Text}
    (configured : senderOf cfg recipientAddress = .ok senderAddress) (amountSats : Int)
    (feeRate : ℚ) :
    (∀ (fee : Nat → Int) (amount : Int),
      (selectUtxos fee amount [] (largestFirst utxos) = none ↔
        ¬ ∃ S : List Utxo, S.Subperm utxos ∧ Covers sats fee amount S) ∧
      ∀ selected, selectUtxos fee amount [] (largestFirst utxos) = some selected →
        Shortest sats fee amount utxos selected) ∧
    Serves cfg covenantFee auth.bitcoinAddress cfg.covenantAddress auth.amountSats utxos
      (createCovenantWithdrawal cfg auth utxos) ∧
    Serves cfg (estimatedFee feeRate) recipientAddress senderAddress amountSats utxos
      (sendBitcoinToAddress cfg recipientAddress amountSats utxos feeRate) := by
  refine ⟨?_, createCovenantWithdrawal_serves cfg auth utxos,
    sendBitcoinToAddress_serves cfg configured amountSats feeRate utxos⟩
  intro fee amount
  exact ⟨selectUtxos_eq_none fee amount utxos, fun _ => selectUtxos_shortest fee amount⟩

end Services

/-- A wallet that is configured with an address and a key. -/
def sampleConfig : Config where
  crypto := CryptoService.plainCrypto
  useCovenants := false
  senderAddress := some ['t', 'b', '1', 's']
  senderPrivateKey := some ['k']
  covenantAddress := ['t', 'b', '1', 'c']
  accountAddress := ['a']
  vaultContractAddress := ['v']
  addOutput _ _ := .ok ()

def sampleUtxos : List Utxo := [⟨['x'], 0, 1000, []⟩, ⟨['y'], 1, 90000, []⟩, ⟨['z'], 0, 60000, []⟩]

/-- Two of three UTXOs pay 100000 satoshis at one and a half satoshis per byte. -/
theorem selection_complete_frugal_sample :
    (senderOf sampleConfig ['t', 'b', '1', 'r'] = .ok ['t', 'b', '1', 's'] ∧
      sendBitcoinToAddress sampleConfig ['t', 'b', '1', 'r'] 100000 sampleUtxos (3 / 2) =
        .ok ⟨[⟨['y'], 1, 90000, []⟩, ⟨['z'], 0, 60000, []⟩],
          [(['t', 'b', '1', 'r'], 100000), (['t', 'b', '1', 's'], 49685)]⟩) ∧
    Serves sampleConfig (estimatedFee (3 / 2)) ['t', 'b', '1', 'r'] ['t', 'b', '1', 's'] 100000
      sampleUtxos
      (sendBitcoinToAddress sampleConfig ['t', 'b', '1', 'r'] 100000 sampleUtxos (3 / 2)) := by
  have configured : senderOf sampleConfig ['t', 'b', '1', 'r'] = .ok ['t', 'b', '1', 's'] := rfl
  refine ⟨⟨configured, by decide +kernel⟩, ?_⟩
  let auth : WithdrawalAuthorization :=
    ⟨['i'], ['v'], ['n'], ['h'], ['b'], 5, .pending, 0, none, none, none⟩
  exact (selection_complete_frugal sampleConfig auth sampleUtxos configured 100000 (3 / 2)).2.2

end PrivateBtc.Backend.CoinSelection
