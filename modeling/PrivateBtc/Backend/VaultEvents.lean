/- PrivateBtc/Backend/VaultEvents
   digest: The vault's events as the node reports them, and what the backend reads in them. -/

import PrivateBtc.Backend.ChainEvidence

set_option autoImplicit false
set_option relaxedAutoImplicit false

namespace PrivateBtc.Backend.VaultEvents

open Library Library.JsText Library.Outcome
open Calldata (feltOf)
open ChainEvidence (depositEvent)
open Contracts.Corelib (ContractAddress Felt)
open Contracts.Hashing (HashFunction)
open Contracts.Vault (Call Event World execute)
open Contracts.VaultRuns (execute_ok)
open Starknet

/-- The hashes of the two event names. -/
structure Selectors where
  deposit : Felt
  withdrawal : Felt

structure Emitted where
  fromAddress : ContractAddress
  keys : List Felt
  data : List Felt

/-- A `u64` or a `u128` is one felt. -/
def serialized (n : Nat) : Felt := Fin.ofNat _ n

/-- The members without `#[key]`; a `u256` is its low half and its high half. -/
def eventData : Event → List Felt
  | .deposit _ amountSats blockHeight => [serialized amountSats, serialized blockHeight.toNat]
  | .withdrawal _ recipient amount =>
      [recipient, serialized (amount.val % 2 ^ 128), serialized (amount.val / 2 ^ 128)]

/-- The selector, then the members with `#[key]`. -/
def eventKeys (selectors : Selectors) : Event → List Felt
  | .deposit commitment _ _ => [selectors.deposit, commitment]
  | .withdrawal nullifier _ _ => [selectors.withdrawal, nullifier]

/-- The node writes every felt in hex, without leading zeros. -/
def Emitted.rpc (emitted : Emitted) : ChainEvent :=
  ⟨hexText emitted.fromAddress.val, emitted.keys.map fun felt => hexText felt.val,
    emitted.data.map fun felt => hexText felt.val⟩

/-- An event of a receipt: the vault's own, or any event of another contract. -/
inductive Emission (vault : ContractAddress) where
  | own (event : Event)
  | other (emitted : Emitted) (apart : emitted.fromAddress ≠ vault)

variable {vault : ContractAddress}

def Emission.emitted (selectors : Selectors) : Emission vault → Emitted
  | .own event => ⟨vault, eventKeys selectors event, eventData event⟩
  | .other emitted _ => emitted

def Emission.own? : Emission vault → Option Event
  | .own event => some event
  | .other _ _ => none

/-- The vault's events of a receipt, in order. -/
def ownEvents (emissions : List (Emission vault)) : List Event := emissions.filterMap Emission.own?

@[simp] theorem ownEvents_own (event : Event) (emissions : List (Emission vault)) :
    ownEvents (.own event :: emissions) = event :: ownEvents emissions := rfl

@[simp] theorem ownEvents_other (emitted : Emitted) (apart : emitted.fromAddress ≠ vault)
    (emissions : List (Emission vault)) :
    ownEvents (.other emitted apart :: emissions) = ownEvents emissions := rfl

def receiptOf (selectors : Selectors) (blockNumber : Nat) (emissions : List (Emission vault)) :
    TransactionReceipt where
  blockNumber := blockNumber
  succeeded := true
  events := emissions.map fun emission => (emission.emitted selectors).rpc

section Chain

/-- What one call of a transaction emits from the vault. -/
def callEvents : Call → List Event
  | .deposit _ args => [depositEvent args]
  | .withdraw _ args => [.withdrawal args.nullifier args.recipient args.amount]
  | _ => []

variable {sha : HashFunction} {w w' : World}

theorem execute_emits {call : Call} (accepted : execute sha w call = .ok w') :
    w'.vault.events = w.vault.events ++ callEvents call := by
  rcases execute_ok accepted with ⟨caller, args, rfl, made⟩ | ⟨caller, args, rfl, made⟩ |
    ⟨other, silent, -, same, -⟩
  · obtain ⟨_, token, -, -, -, -, -, -, -, -, rfl⟩ := Contracts.Vault.deposit_ok made
    rfl
  · obtain ⟨token, -, -, -, -, rfl⟩ := Contracts.Vault.withdraw_ok made
    rfl
  · have nothing : callEvents call = [] := by
      cases call with
      | deposit caller args => cases other
      | withdraw caller args => cases silent
      | _ => rfl
    rw [same, nothing, List.append_nil]

end Chain

section Decoding

variable (selectors : Selectors) (blockNumber : Nat) (emissions : List (Emission vault))

/-- The configured address is spelled as the node spells it, letter case aside. -/
def Spelled (vaultAddress : Text) (vault : ContractAddress) : Prop :=
  toLowerCase vaultAddress = hexText vault.val

instance (vaultAddress : Text) (vault : ContractAddress) :
    Decidable (Spelled vaultAddress vault) :=
  inferInstanceAs (Decidable (toLowerCase vaultAddress = hexText vault.val))

theorem feltOf_hexText (felt : Felt) : feltOf (hexText felt.val) = some felt := by
  have fits : 0 ≤ (felt.val : Int) ∧ (felt.val : Int).toNat < CryptoService.starkFieldPrime := by
    constructor
    · omega
    · rw [Int.toNat_natCast]
      exact felt.isLt
  rw [feltOf, bigInt_hexText]
  dsimp only
  rw [dif_pos fits]
  rfl

private theorem sameAddress_hexText (address : ContractAddress) (vaultAddress : Text) :
    sameAddress (hexText address.val) vaultAddress = decide (Spelled vaultAddress address) := by
  rw [sameAddress, toLowerCase_hexText, Bool.eq_iff_iff, beq_iff_eq, decide_eq_true_eq, Spelled,
    eq_comm]

/-- A spelling names one contract. -/
theorem spelled_unique {vaultAddress : Text} {address : ContractAddress}
    (configured : feltOf vaultAddress = some vault) (spelled : Spelled vaultAddress address) :
    address = vault := by
  have named : feltOf vaultAddress = feltOf (hexText address.val) := by
    rw [feltOf, feltOf, bigInt_of_toLowerCase spelled, bigInt_hexText]
  rw [configured, feltOf_hexText, Option.some_inj] at named
  exact named.symm

theorem normalized_hexText (felt : Felt) :
    normalized (hexText felt.val) = Nat.toDigits 16 felt.val := by
  rw [normalized, toLowerCase_hexText]
  rfl

/-- Of a receipt only the vault's own events pass the comparison of addresses. -/
private theorem fromVault {vaultAddress : Text} (configured : feltOf vaultAddress = some vault)
    (emission : Emission vault) :
    sameAddress (emission.emitted selectors).rpc.fromAddress vaultAddress =
      (decide (Spelled vaultAddress vault) && emission.own?.isSome) := by
  cases emission with
  | own event => exact (sameAddress_hexText vault vaultAddress).trans (Bool.and_true _).symm
  | other emitted apart =>
      have foreign : ¬ Spelled vaultAddress emitted.fromAddress :=
        fun spelled => apart (spelled_unique configured spelled)
      have told : sameAddress (hexText emitted.fromAddress.val) vaultAddress = false := by
        rw [sameAddress_hexText, decide_eq_false foreign]
      exact told.trans (Bool.and_false _).symm

/-- An event of the vault has keys and data. -/
private theorem candidate {vaultAddress : Text} (configured : feltOf vaultAddress = some vault)
    (emission : Emission vault) :
    (sameAddress (emission.emitted selectors).rpc.fromAddress vaultAddress &&
      !(emission.emitted selectors).rpc.keys.isEmpty &&
      !(emission.emitted selectors).rpc.data.isEmpty) =
      (decide (Spelled vaultAddress vault) && emission.own?.isSome) := by
  rw [fromVault selectors configured]
  cases emission with
  | own event => cases event <;> simp [Emission.emitted, Emitted.rpc, eventKeys, eventData]
  | other emitted apart => simp [Emission.own?]

/-- The member that stands first in the data: the amount of a deposit, the recipient of a
withdrawal. -/
def firstDatum : Event → Felt
  | .deposit _ amountSats _ => serialized amountSats
  | .withdrawal _ recipient _ => recipient

/-- The node's text of one of the vault's events. -/
def ownRpc (vault : ContractAddress) (selectors : Selectors) (event : Event) : ChainEvent :=
  ((Emission.own event : Emission vault).emitted selectors).rpc

theorem find_own (emissions : List (Emission vault)) {p : ChainEvent → Bool}
    {accepted : Bool}
    (own : ∀ emission : Emission vault,
      p (emission.emitted selectors).rpc = (accepted && emission.own?.isSome)) :
    (emissions.map fun emission => (emission.emitted selectors).rpc).find? p =
      if accepted then (ownEvents emissions).head?.map (ownRpc vault selectors) else none := by
  induction emissions with
  | nil => simp [ownEvents]
  | cons emission emissions ih =>
      rw [List.map_cons, List.find?_cons, own, ih]
      cases accepted with
      | false => simp
      | true =>
          cases emission with
          | own event => simp [Emission.own?, ownRpc]
          | other emitted apart => simp [Emission.own?]

/-- The first event of the vault decides, by the first member of its data. -/
theorem verifyDepositEvent_receipt {vaultAddress : Text}
    (configured : feltOf vaultAddress = some vault) (expected : Text) :
    verifyDepositEvent vaultAddress (receiptOf selectors blockNumber emissions) expected =
      if Spelled vaultAddress vault then
        match (ownEvents emissions).head? with
        | none => .ok false
        | some event =>
            if normalized expected = Nat.toDigits 16 (firstDatum event).val then .ok true
            else .error (.mismatch expected (hexText (firstDatum event).val))
      else .ok false := by
  rw [verifyDepositEvent, receiptOf]
  dsimp only
  rw [find_own selectors emissions (candidate selectors configured)]
  by_cases spelled : Spelled vaultAddress vault
  · rw [if_pos (decide_eq_true spelled), if_pos spelled]
    cases (ownEvents emissions).head? with
    | none => rfl
    | some event =>
        have head : (ownRpc vault selectors event).data.headD [] =
            hexText (firstDatum event).val := by
          cases event <;> rfl
        rw [Option.map_some]
        dsimp only
        rw [head, normalized_hexText]
        simp only [beq_iff_eq]
  · rw [if_neg (by simpa using spelled), if_neg spelled]

/-- What the verification of a deposit is for: it tells this commitment from every other
one, and never takes it for a mismatch. -/
def DecodesDeposit (vaultAddress : Text) (receipt : TransactionReceipt) (commitment : Felt)
    (expected : Text) : Prop :=
  (verifyDepositEvent vaultAddress receipt expected = .ok true ↔
    feltOf expected = some commitment) ∧
  (feltOf expected = some commitment → ∀ named found,
    verifyDepositEvent vaultAddress receipt expected ≠ .error (.mismatch named found))

/-- The verification is right about a commitment exactly when the expected text names it
just in case the text has the digits of the first data member of the vault's first
event, under an address spelled like the node's. -/
theorem decodesDeposit_iff {vaultAddress : Text} (configured : feltOf vaultAddress = some vault)
    (commitment : Felt) (expected : Text) :
    DecodesDeposit vaultAddress (receiptOf selectors blockNumber emissions) commitment expected ↔
      (feltOf expected = some commitment ↔ Spelled vaultAddress vault ∧
        ∃ event, (ownEvents emissions).head? = some event ∧
          normalized expected = Nat.toDigits 16 (firstDatum event).val) := by
  have answer := verifyDepositEvent_receipt selectors blockNumber emissions configured expected
  have accepts : verifyDepositEvent vaultAddress (receiptOf selectors blockNumber emissions)
      expected = .ok true ↔ Spelled vaultAddress vault ∧
        ∃ event, (ownEvents emissions).head? = some event ∧
          normalized expected = Nat.toDigits 16 (firstDatum event).val := by
    rw [answer]
    by_cases spelled : Spelled vaultAddress vault
    · rw [if_pos spelled]
      cases (ownEvents emissions).head? with
      | none => simp
      | some event =>
          by_cases same : normalized expected = Nat.toDigits 16 (firstDatum event).val
          · simp [same, spelled]
          · simp [same]
    · simp [spelled]
  rw [DecodesDeposit, accepts]
  constructor
  · rintro ⟨exact, -⟩
    exact exact.symm
  · intro exact
    refine ⟨exact.symm, ?_⟩
    intro named expectedFelt found failed
    have verified := accepts.mpr (exact.mp named)
    rw [failed] at verified
    cases verified

/-- A deposit whose commitment happens to be its amount is verified. -/
theorem decodesDeposit_amount :
    DecodesDeposit (hexText 5) (receiptOf ⟨1, 2⟩ 9
      [(Emission.own (.deposit 100000 100000 800000) : Emission 5)]) 100000 (hexText 100000) := by
  have configured : feltOf (hexText 5) = some 5 := feltOf_hexText 5
  refine (decodesDeposit_iff ⟨1, 2⟩ 9 [.own (.deposit 100000 100000 800000)] configured 100000
    (hexText 100000)).mpr ?_
  refine iff_of_true (feltOf_hexText 100000) ⟨toLowerCase_hexText 5, _, rfl, ?_⟩
  exact normalized_hexText 100000

/-- A genuine deposit under commitment 77 is reported as a mismatch, its amount is
verified in place of the commitment, and under an address padded like the default
configuration's it is not found at all. -/
theorem deposit_misread :
    let receipt := receiptOf ⟨1, 2⟩ 9 [(Emission.own (.deposit 77 100000 800000) : Emission 5)]
    (¬ DecodesDeposit (hexText 5) receipt 77 (hexText 77) ∧
      ¬ DecodesDeposit (hexText 5) receipt 77 (hexText 100000)) ∧
    feltOf "0x05".toList = some 5 ∧
      verifyDepositEvent "0x05".toList receipt (hexText 77) = .ok false := by
  intro receipt
  have minimal : Spelled (hexText 5) 5 := toLowerCase_hexText 5
  have padded : ¬ Spelled "0x05".toList 5 := by decide
  have named : feltOf "0x05".toList = some 5 := by decide +kernel
  refine ⟨⟨?_, ?_⟩, named, ?_⟩
  · have mismatch : verifyDepositEvent (hexText 5) receipt (hexText 77) =
        .error (.mismatch (hexText 77) (hexText 100000)) := by
      have apart : normalized (hexText 77) ≠ Nat.toDigits 16 100000 := by decide
      exact (verifyDepositEvent_receipt ⟨1, 2⟩ 9 _ (feltOf_hexText 5) _).trans
        ((if_pos minimal).trans (if_neg apart))
    intro decodes
    exact decodes.2 (feltOf_hexText 77) _ _ mismatch
  · have accepted : verifyDepositEvent (hexText 5) receipt (hexText 100000) = .ok true := by
      have same : normalized (hexText 100000) = Nat.toDigits 16 100000 :=
        normalized_hexText 100000
      exact (verifyDepositEvent_receipt ⟨1, 2⟩ 9 _ (feltOf_hexText 5) _).trans
        ((if_pos minimal).trans (if_pos same))
    intro decodes
    have wrong := decodes.1.mp accepted
    rw [show feltOf (hexText 100000) = some 100000 from feltOf_hexText 100000] at wrong
    exact absurd (Option.some.inj wrong) (by decide)
  · exact (verifyDepositEvent_receipt ⟨1, 2⟩ 9 _ named _).trans (if_neg padded)

/-- The members of the data of the vault's events, as the search sees them. -/
theorem verifyWithdrawalEvent_receipt {vaultAddress : Text}
    (configured : feltOf vaultAddress = some vault) (expected : Text) :
    verifyWithdrawalEvent vaultAddress (receiptOf selectors blockNumber emissions) expected =
        true ↔
      Spelled vaultAddress vault ∧ ∃ event ∈ ownEvents emissions, ∃ felt ∈ eventData event,
        normalized expected = Nat.toDigits 16 felt.val := by
  have search : ∀ event : Event,
      (ownRpc vault selectors event).data.any
          (fun datum => normalized datum == normalized expected) = true ↔
        ∃ felt ∈ eventData event, normalized expected = Nat.toDigits 16 felt.val := by
    intro event
    have texts : (ownRpc vault selectors event).data =
        (eventData event).map fun felt => hexText felt.val := rfl
    rw [texts, List.any_map, List.any_eq_true]
    simp only [Function.comp_apply, normalized_hexText, beq_iff_eq]
    exact exists_congr fun felt => and_congr_right fun _ => eq_comm
  rw [verifyWithdrawalEvent, receiptOf]
  simp only [List.any_map, List.any_eq_true, Function.comp_apply, Bool.and_eq_true,
    fromVault selectors configured, decide_eq_true_eq]
  constructor
  · rintro ⟨emission, member, ⟨spelled, isOwn⟩, holds⟩
    cases emission with
    | own event =>
        refine ⟨spelled, event, List.mem_filterMap.mpr ⟨_, member, rfl⟩, ?_⟩
        exact (search event).mp (List.any_eq_true.mpr holds)
    | other emitted apart => cases isOwn
  · rintro ⟨spelled, event, member, holds⟩
    obtain ⟨emission, inside, own⟩ := List.mem_filterMap.mp member
    cases emission with
    | own other =>
        cases own
        exact ⟨_, inside, ⟨spelled, rfl⟩, List.any_eq_true.mp ((search event).mpr holds)⟩
    | other emitted apart => cases own

/-- What the verification of a withdrawal is for. -/
def DecodesWithdrawal (vaultAddress : Text) (receipt : TransactionReceipt)
    (emissions : List (Emission vault)) (expected : Text) : Prop :=
  verifyWithdrawalEvent vaultAddress receipt expected = true ↔
    ∃ nullifier recipient amount, feltOf expected = some nullifier ∧
      Event.withdrawal nullifier recipient amount ∈ ownEvents emissions

/-- The verification is exact just in case the withdrawals of this nullifier are the
events with a data member of its digits, which the nullifier itself is not. -/
theorem decodesWithdrawal_iff {vaultAddress : Text}
    (configured : feltOf vaultAddress = some vault) (expected : Text) :
    DecodesWithdrawal vaultAddress (receiptOf selectors blockNumber emissions) emissions expected ↔
      ((∃ nullifier recipient amount, feltOf expected = some nullifier ∧
          Event.withdrawal nullifier recipient amount ∈ ownEvents emissions) ↔
        Spelled vaultAddress vault ∧ ∃ event ∈ ownEvents emissions, ∃ felt ∈ eventData event,
          normalized expected = Nat.toDigits 16 felt.val) := by
  rw [DecodesWithdrawal, verifyWithdrawalEvent_receipt selectors blockNumber emissions configured]
  exact Iff.comm

/-- A withdrawal to the recipient of the nullifier's own number is found. -/
theorem decodesWithdrawal_recipient :
    DecodesWithdrawal (hexText 5)
      (receiptOf ⟨1, 2⟩ 9 [(Emission.own (.withdrawal 7 7 3) : Emission 5)])
      [(Emission.own (.withdrawal 7 7 3) : Emission 5)] (hexText 7) := by
  have configured : feltOf (hexText 5) = some 5 := feltOf_hexText 5
  refine (decodesWithdrawal_iff ⟨1, 2⟩ 9 [.own (.withdrawal 7 7 3)] configured
    (hexText 7)).mpr ?_
  refine iff_of_true ⟨7, 7, 3, feltOf_hexText 7, List.mem_cons_self⟩ ?_
  exact ⟨toLowerCase_hexText 5, _, List.mem_cons_self, 7, List.mem_cons_self, normalized_hexText 7⟩

/-- The withdrawal of nullifier 7 is not found, and its recipient and its amount pass
for nullifiers. -/
theorem withdrawal_misread :
    let emissions := [(Emission.own (.withdrawal 7 9 3) : Emission 5)]
    let receipt := receiptOf ⟨1, 2⟩ 9 emissions
    ¬ DecodesWithdrawal (hexText 5) receipt emissions (hexText 7) ∧
      ¬ DecodesWithdrawal (hexText 5) receipt emissions (hexText 9) ∧
      ¬ DecodesWithdrawal (hexText 5) receipt emissions (hexText 3) := by
  intro emissions receipt
  have answer := verifyWithdrawalEvent_receipt ⟨1, 2⟩ 9 emissions (feltOf_hexText 5)
  have withdrawn : ∀ nullifier recipient amount,
      Event.withdrawal nullifier recipient amount ∈ ownEvents emissions → nullifier = 7 := by
    intro nullifier recipient amount member
    cases List.mem_singleton.mp member
    rfl
  have unwithdrawn (n : Felt) (other : n ≠ 7) : ¬ ∃ nullifier recipient amount,
      feltOf (hexText n.val) = some nullifier ∧
        Event.withdrawal nullifier recipient amount ∈ ownEvents emissions := by
    rintro ⟨nullifier, recipient, amount, named, member⟩
    rw [feltOf_hexText, Option.some_inj] at named
    exact other (named.trans (withdrawn nullifier recipient amount member))
  have found (n : Felt) (datum : n ∈ eventData (.withdrawal 7 9 3)) :
      verifyWithdrawalEvent (hexText 5) receipt (hexText n.val) = true :=
    (answer _).mpr ⟨toLowerCase_hexText 5, _, List.mem_cons_self, n, datum, normalized_hexText n⟩
  refine ⟨?_, ?_, ?_⟩
  · intro decodes
    have genuine := decodes.mpr ⟨7, 9, 3, feltOf_hexText 7, List.mem_cons_self⟩
    obtain ⟨-, event, member, felt, datum, same⟩ := (answer _).mp genuine
    obtain rfl := List.mem_singleton.mp member
    have equal : (7 : Felt) = felt :=
      Fin.ext (toDigits_injective ((normalized_hexText 7).symm.trans same))
    rw [← equal] at datum
    exact absurd datum (by decide +kernel)
  · intro decodes
    exact unwithdrawn 9 (by decide) (decodes.mp (found 9 (by decide)))
  · intro decodes
    exact unwithdrawn 3 (by decide) (decodes.mp (found 3 (by decide)))

end Decoding

end PrivateBtc.Backend.VaultEvents
