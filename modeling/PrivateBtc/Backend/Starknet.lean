/- PrivateBtc/Backend/Starknet
   digest: Receipts: how the backend waits for a transaction and reads the vault's events. -/

import PrivateBtc.Backend.CryptoService

set_option autoImplicit false
set_option relaxedAutoImplicit false

namespace PrivateBtc.Backend.Starknet

open Library Library.JsText

structure ChainEvent where
  fromAddress : Text
  keys : List Text
  data : List Text

/-- What the RPC node answers for a known transaction. -/
structure TransactionReceipt where
  blockNumber : Nat
  succeeded : Bool
  events : List ChainEvent

/-- The error classes that the routes tell apart. -/
inductive Thrown where
  | notFound (txHash : Text)
  | reverted (txHash : Text)
  | mismatch (expected actual : Text)
  | other (message : String)

def Thrown.message : Thrown → String
  | .notFound txHash => "Transaction not found on Starknet Sepolia: " ++ String.ofList txHash
  | .reverted txHash => "Transaction reverted on-chain: " ++ String.ofList txHash
  | .mismatch expected actual =>
      "Commitment mismatch — expected: " ++ String.ofList expected ++ ", found in event: " ++
        String.ofList actual
  | .other message => message

def mentions (message : String) (needle : String) : Bool := includes needle.toList message.toList

/-- Leading zeros that the node leaves out are put back. -/
def paddedHash (txHashRaw : Text) : Text :=
  match txHashRaw with
  | '0' :: 'x' :: hex => '0' :: 'x' :: padStart 64 '0' hex
  | hex => '0' :: 'x' :: padStart 64 '0' hex

def validateTxHashFormat (txHash : Text) : Bool := CryptoService.isHex 60 64 txHash

/-- `getTransactionReceipt` with the node's answer. -/
def getTransactionReceipt (txHashRaw : Text) (reply : Except String TransactionReceipt) :
    Except Thrown TransactionReceipt :=
  let txHash := paddedHash txHashRaw
  if !validateTxHashFormat txHash then
    .error (.other ("Invalid tx hash format: " ++ String.ofList txHashRaw))
  else
    match reply with
    | .ok receipt => .ok receipt
    | .error message =>
        if mentions message "not found" || mentions message "404" then .error (.notFound txHash)
        else .error (.other message)

/-- The words of `execution_status` and `finality_status`. -/
inductive StatusWord where
  | succeeded
  | reverted
  | rejected
  | received
  | acceptedOnL2
  | acceptedOnL1
  deriving DecidableEq

structure RawReceipt where
  executionStatus : Option StatusWord
  finalityStatus : Option StatusWord

/-- Why `account.execute` gave no hash: the account threw, or the resilience wrapper did. -/
inductive ExecuteFailure where
  | account (message : String)
  | wrapper (message : String)

/-- The messages of `executeDeposit`, `executeSpvDeposit` and `withdraw`. -/
def executeMessage (action : String) (funding : List String) : ExecuteFailure → String
  | .wrapper message => message
  | .account message =>
      if funding.any fun hint => includes hint.toList (toLowerCase message.toList) then
        "INSUFFICIENT SEPOLIA ETH"
      else action ++ " failed: " ++ message

/-- What a handler can be told about Starknet. -/
inductive RpcReply where
  | balance (reply : Except String Nat)
  | receipt (reply : Except String TransactionReceipt)
  | rawReceipt (reply : Option RawReceipt)
  | timestamp (reply : Option Nat)
  | headerStored (reply : Bool)
  | commitmentRegistered (reply : Bool)
  | executed (reply : Except ExecuteFailure Text)

inductive Waiting where
  | confirmed (receipt : TransactionReceipt)
  | failed (error : Thrown)
  | again (attempt : Nat)

def maxAttempts : Nat := 60

/-- One attempt of `waitForTransaction`; between attempts it sleeps five seconds. -/
def waitOnce (txHash : Text) (attempt : Nat) (reply : Except String TransactionReceipt) :
    Waiting :=
  match getTransactionReceipt txHash reply with
  | .ok receipt => if receipt.succeeded then .confirmed receipt else .failed (.reverted txHash)
  | .error error =>
      if mentions error.message "timeout" then .failed error
      else if attempt < maxAttempts then .again (attempt + 1)
      else
        .failed (.other ("Transaction " ++ String.ofList txHash ++
          " not confirmed after 60 attempts (300s)"))

def sameAddress (a b : Text) : Bool := toLowerCase a == toLowerCase b

def normalized (felt : Text) : Text := dropFirst0x (toLowerCase felt)

/-- The first vault event with keys and data decides. -/
def verifyDepositEvent (vaultAddress : Text) (receipt : TransactionReceipt)
    (expectedCommitment : Text) : Except Thrown Bool :=
  match receipt.events.find? fun event =>
      sameAddress event.fromAddress vaultAddress && !event.keys.isEmpty && !event.data.isEmpty with
  | none => .ok false
  | some event =>
      let actualCommitment := event.data.headD []
      if normalized expectedCommitment == normalized actualCommitment then .ok true
      else .error (.mismatch expectedCommitment actualCommitment)

def verifyWithdrawalEvent (vaultAddress : Text) (receipt : TransactionReceipt)
    (expectedNullifier : Text) : Bool :=
  receipt.events.any fun event =>
    sameAddress event.fromAddress vaultAddress &&
      event.data.any fun datum => normalized datum == normalized expectedNullifier

theorem getTransactionReceipt_ok {txHash : Text} {reply : Except String TransactionReceipt}
    {receipt : TransactionReceipt} (answer : getTransactionReceipt txHash reply = .ok receipt) :
    reply = .ok receipt := by
  unfold getTransactionReceipt at answer
  dsimp only at answer
  split_ifs at answer
  cases reply with
  | ok receipt =>
      cases answer
      rfl
  | error message =>
      dsimp only at answer
      split_ifs at answer

theorem waitOnce_confirmed {txHash : Text} {attempt : Nat}
    {reply : Except String TransactionReceipt} {receipt : TransactionReceipt}
    (confirmed : waitOnce txHash attempt reply = .confirmed receipt) :
    reply = .ok receipt ∧ receipt.succeeded = true := by
  unfold waitOnce at confirmed
  cases answer : getTransactionReceipt txHash reply with
  | error error =>
      rw [answer] at confirmed
      dsimp only at confirmed
      split_ifs at confirmed
  | ok found =>
      rw [answer] at confirmed
      dsimp only at confirmed
      split_ifs at confirmed with succeeded
      cases confirmed
      exact ⟨getTransactionReceipt_ok answer, succeeded⟩

end PrivateBtc.Backend.Starknet
