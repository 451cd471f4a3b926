/- PrivateBtc/Contracts/WithdrawCircuit
   digest: The executable behind a withdrawal proof, and the arguments on which its run succeeds. -/

import PrivateBtc.Contracts.Corelib

set_option autoImplicit false
set_option relaxedAutoImplicit false

namespace PrivateBtc.Contracts.WithdrawCircuit

open Corelib Library.Outcome

variable (pedersen : Felt → Felt → Felt)

/-- `core::pedersen::HashState` -/
structure HashState where
  state : Felt

def PedersenTrait.new (base : Felt) : HashState := ⟨base⟩

def HashState.update (self : HashState) (value : Felt) : HashState := ⟨pedersen self.state value⟩

def HashState.finalize (self : HashState) : Felt := self.state

def main (secret commitmentHash _nullifierHash : Felt) : Felt :=
  let computedNullifier := ((PedersenTrait.new secret).update pedersen commitmentHash).finalize
  computedNullifier

/-- The next parameter of the executable's entry point. -/
def parameter (index : Nat) : List Felt → Except String (Felt × List Felt)
  | felt :: rest => .ok (felt, rest)
  | [] => .error s!"Failed to deserialize param #{index}"

/-- The entry point: `main` on its three parameters; the run fails where it panics. -/
def execute (arguments : List Felt) : Except String (List Felt) := do
  let (secret, arguments) ← parameter 0 arguments
  let (commitmentHash, arguments) ← parameter 1 arguments
  let (nullifierHash, arguments) ← parameter 2 arguments
  if arguments.isEmpty then pure [main pedersen secret commitmentHash nullifierHash]
  else throw "Input too long for params."

variable {pedersen}

theorem parameter_ok {index : Nat} {arguments rest : List Felt} {felt : Felt} :
    parameter index arguments = .ok (felt, rest) ↔ arguments = felt :: rest := by
  cases arguments with
  | nil => simp [parameter]
  | cons first others => simp [parameter]

/-- A run succeeds on three arguments, whatever they are. -/
theorem execute_ok {arguments output : List Felt} :
    execute pedersen arguments = .ok output ↔
      ∃ secret commitmentHash nullifierHash, arguments = [secret, commitmentHash, nullifierHash] ∧
        output = [pedersen secret commitmentHash] := by
  simp only [execute, bind_eq_ok, Prod.exists, parameter_ok]
  constructor
  · rintro ⟨secret, _, rfl, commitmentHash, _, rfl, nullifierHash, rest, rfl, done⟩
    cases rest with
    | nil =>
        cases done
        exact ⟨secret, commitmentHash, nullifierHash, rfl, rfl⟩
    | cons further others => cases done
  · rintro ⟨secret, commitmentHash, nullifierHash, rfl, rfl⟩
    exact ⟨secret, _, rfl, commitmentHash, _, rfl, nullifierHash, _, rfl, rfl⟩

end PrivateBtc.Contracts.WithdrawCircuit
