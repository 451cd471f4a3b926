/- PrivateBtc/Contracts/Htlc
   digest: The HTLC contract; each entry point is cut at its call of the token, which may call back. -/

import PrivateBtc.Contracts.HonestToken

set_option autoImplicit false
set_option relaxedAutoImplicit false

namespace PrivateBtc.Contracts.Htlc

open Library.Outcome Corelib HonestToken

structure Storage where
  sender : ContractAddress
  receiver : ContractAddress
  amount : U256
  hashlock : Felt
  timelock : UInt64
  token : ContractAddress
  withdrawn : Bool
  refunded : Bool
  deriving DecidableEq

inductive Event where
  | funded (sender receiver : ContractAddress) (amount : U256) (hashlock : Felt)
      (timelock : UInt64)
  | withdrawn (receiver : ContractAddress) (preimage : Felt)
  | refunded (sender : ContractAddress)
  deriving DecidableEq

structure FundArgs where
  receiver : ContractAddress
  hashlock : Felt
  timelock : UInt64
  token : ContractAddress
  amount : U256
  deriving DecidableEq

/-- What a funding fixes. -/
structure Terms extends FundArgs where
  sender : ContractAddress
  deriving DecidableEq

/-- The state writes of the entry points, in the order they take effect. -/
inductive Move where
  | fund (terms : Terms)
  | withdraw (preimage : Felt) (token recipient : ContractAddress) (amount : U256)
  | refund (caller : ContractAddress) (now : UInt64) (token recipient : ContractAddress)
      (amount : U256)
  deriving DecidableEq

def Move.paid : Move → Bool
  | .fund _ => false
  | .withdraw .. | .refund .. => true

/-- The chain as the contract sees it: the block's time, its storage and its history, and the
balances of one honest token. -/
structure World (T : Erc20) where
  now : UInt64
  htlc : Storage
  ledger : T.State
  events : List Event
  moves : List Move

/-- The addresses of this contract and of the honest token, and the hash of one felt. -/
structure Setting where
  self : ContractAddress
  token : ContractAddress
  poseidon : Felt → Felt

inductive Call where
  | fund (args : FundArgs)
  | withdraw (preimage : Felt)
  | refund

/-- The call of a token that an entry point makes. -/
structure Transfer where
  token : ContractAddress
  sender : ContractAddress
  recipient : ContractAddress
  amount : U256

/-- What an entry point still has to do when the token has answered. -/
inductive Pending where
  | fund (caller : ContractAddress) (args : FundArgs)
  | withdraw (receiver : ContractAddress) (preimage : Felt)
  | refund (sender : ContractAddress)
  deriving DecidableEq

section EntryPoints

variable {T : Erc20} (S : Setting) (w : World T) (caller : ContractAddress)

def fund (args : FundArgs) : Except String (World T × Transfer × Pending) := do
  assert (0 < args.amount) "Amount must be > 0"
  assert (w.now < args.timelock) "Timelock must be in future"
  pure (w, ⟨args.token, caller, S.self, args.amount⟩, .fund caller args)

def withdraw (preimage : Felt) : Except String (World T × Transfer × Pending) := do
  assert (!w.htlc.withdrawn) "Already withdrawn"
  assert (!w.htlc.refunded) "Already refunded"
  let hash := S.poseidon preimage
  assert (hash = w.htlc.hashlock) "Invalid preimage"
  let receiver := w.htlc.receiver
  let amount := w.htlc.amount
  let token := w.htlc.token
  pure ({ w with
    htlc := { w.htlc with withdrawn := true }
    moves := w.moves ++ [.withdraw preimage token receiver amount] },
    ⟨token, S.self, receiver, amount⟩, .withdraw receiver preimage)

def refund : Except String (World T × Transfer × Pending) := do
  assert (!w.htlc.withdrawn) "Already withdrawn"
  assert (!w.htlc.refunded) "Already refunded"
  assert (w.htlc.timelock ≤ w.now) "Timelock not expired"
  let sender := w.htlc.sender
  assert (caller = sender) "Not sender"
  let amount := w.htlc.amount
  let token := w.htlc.token
  pure ({ w with
    htlc := { w.htlc with refunded := true }
    moves := w.moves ++ [.refund caller w.now token sender amount] },
    ⟨token, S.self, sender, amount⟩, .refund sender)

/-- An entry point up to its call of the token. -/
def enter : Call → Except String (World T × Transfer × Pending)
  | .fund args => fund S w caller args
  | .withdraw preimage => withdraw S w preimage
  | .refund => refund S w caller

end EntryPoints

/-- The rest of an entry point, after its call of the token. -/
def resume {T : Erc20} (w : World T) : Pending → World T
  | .fund caller args =>
      { w with
        htlc := { sender := caller, receiver := args.receiver, amount := args.amount,
                  hashlock := args.hashlock, timelock := args.timelock, token := args.token,
                  withdrawn := false, refunded := false }
        events := w.events ++
          [.funded caller args.receiver args.amount args.hashlock args.timelock]
        moves := w.moves ++ [.fund { args with sender := caller }] }
  | .withdraw receiver preimage =>
      { w with events := w.events ++ [.withdrawn receiver preimage] }
  | .refund sender => { w with events := w.events ++ [.refunded sender] }

/-- `transfer_from` where the contract is not the sender, `transfer` where it is. -/
def Pending.asks (T : Erc20) (out : Transfer) : Pending → TokenCall T
  | .fund _ _ => .transferFrom out.sender out.recipient out.amount
  | .withdraw _ _ | .refund _ => .transfer out.recipient out.amount

/-- A call under way: of this contract, waiting for a token other than the honest one, or of
any other contract. It keeps the world that a panic brings back. -/
structure Frame (T : Erc20) where
  pending : Option Pending
  saved : World T

structure Config (T : Erc20) where
  world : World T
  stack : List (Frame T)

/-- What accounts and other contracts do, inside a call of theirs or outside of any. -/
inductive Label (T : Erc20) where
  | enter (caller : ContractAddress) (call : Call)
  | token (caller : ContractAddress) (call : TokenCall T)
  | foreign
  | returns
  | panics
  | tick (now : UInt64)

/-- A call of an entry point. The honest token answers at once; any other contract runs until
`returns` or `panics`. No contract is at the address zero, and this one is no token. -/
def called {T : Erc20} (S : Setting) (c : Config T) (caller : ContractAddress) (call : Call) :
    Config T :=
  match enter S c.world caller call with
  | .error _ => c
  | .ok (w, out, pending) =>
      if out.token = S.token then
        match perform T w.ledger S.self (pending.asks T out) with
        | .error _ => c
        | .ok ledger => { c with world := resume { w with ledger } pending }
      else if out.token = S.self ∨ out.token = 0 then c
      else ⟨w, ⟨some pending, c.world⟩ :: c.stack⟩

/-- One step. The contract calls nothing but tokens, so it is never the caller. -/
def step {T : Erc20} (S : Setting) (c : Config T) : Label T → Option (Config T)
  | .enter caller call => if caller = S.self then none else some (called S c caller call)
  | .token caller call =>
      if caller = S.self then none
      else match perform T c.world.ledger caller call with
        | .error _ => some c
        | .ok ledger => some { c with world := { c.world with ledger } }
  | .foreign => some { c with stack := ⟨none, c.world⟩ :: c.stack }
  | .returns => match c.stack with
      | [] => none
      | ⟨none, _⟩ :: stack => some ⟨c.world, stack⟩
      | ⟨some pending, _⟩ :: stack => some ⟨resume c.world pending, stack⟩
  | .panics => match c.stack with
      | [] => none
      | ⟨_, saved⟩ :: stack => some ⟨saved, stack⟩
  | .tick now =>
      if c.stack = [] ∧ c.world.now ≤ now then some { c with world := { c.world with now } }
      else none

/-- The contract as deployed: it has funded nothing and approved nobody. -/
structure Genesis (T : Erc20) (S : Setting) where
  now : UInt64
  ledger : T.State
  ungranted : ∀ spender, T.allowance ledger S.self spender = 0

def Genesis.config {T : Erc20} {S : Setting} (genesis : Genesis T S) : Config T where
  world :=
    { now := genesis.now
      htlc := ⟨0, 0, 0, 0, 0, 0, false, false⟩
      ledger := genesis.ledger
      events := []
      moves := [] }
  stack := []

end PrivateBtc.Contracts.Htlc
