/- PrivateBtc/Contracts/Spending
   digest: Who can lower a balance, and how much a spender takes between two approvals. -/

import PrivateBtc.Contracts.TokenRuns

set_option autoImplicit false
set_option relaxedAutoImplicit false

namespace PrivateBtc.Contracts.Spending

open Library Library.Outcome Library.Transactional Corelib MockBtc TokenRuns

/-- The calls that may take tokens from the account. -/
def Takes (account : ContractAddress) : Call → Prop
  | .transfer caller _ _ => caller = account
  | .transferFrom _ sender _ _ => sender = account
  | _ => False

theorem kept_of_transfer {self self' : Token} {sender recipient account : ContractAddress}
    {amount : U256} (moved : InternalFunctions.transfer self sender recipient amount = .ok self')
    (other : sender ≠ account) : self.balances account ≤ self'.balances account := by
  have balance := (InternalFunctions.transfer_ok moved).2.2.2.1 account
  rw [share, if_neg fun same => other same.symm] at balance
  show (self.balances account).val ≤ (self'.balances account).val
  omega

theorem takes_of_lower {self self' : Token} {call : Call} {account : ContractAddress}
    (accepted : execute self call = .ok self')
    (lower : self'.balances account < self.balances account) : Takes account call := by
  cases call with
  | mint caller recipient amount =>
      have balance := (InternalFunctions.mint_ok accepted).2.2.1 account
      have fewer : (self'.balances account).val < (self.balances account).val := lower
      omega
  | transfer caller recipient amount =>
      by_contra other
      exact absurd (kept_of_transfer (execute_transfer_ok accepted) other) (not_le.mpr lower)
  | approve caller spender amount =>
      rw [(InternalFunctions.approve_ok (execute_approve_ok accepted)).2.2.1] at lower
      exact absurd lower (lt_irrefl _)
  | transferFrom caller sender recipient amount =>
      obtain ⟨spent, spends, moved⟩ := execute_transferFrom_ok accepted
      by_contra other
      have kept := kept_of_transfer moved other
      rw [(InternalFunctions.spendAllowance_ok spends).1] at kept
      exact absurd kept (not_le.mpr lower)

/-- What the call moves out of the account on the spender's behalf. -/
def movedBy (account spender : ContractAddress) : Call → Nat
  | .transferFrom caller sender _ amount =>
      if sender = account ∧ caller = spender then amount.val else 0
  | _ => 0

def spentBy (account spender : ContractAddress) (past : List (Token × Call)) : Nat :=
  (past.map fun entry => movedBy account spender entry.2).sum

/-- The allowance given last is what remains of it and what the spender took. -/
def Metered (account spender : ContractAddress) (approved : U256) (past : List (Token × Call))
    (self : Token) : Prop :=
  approved = Fin.last (2 ^ 256 - 1) ∨
    (self.allowances account spender).val + spentBy account spender past = approved.val

theorem spentBy_snoc (account spender : ContractAddress) (past : List (Token × Call))
    (self : Token) (call : Call) :
    spentBy account spender (past ++ [(self, call)]) =
      spentBy account spender past + movedBy account spender call := by
  simp [spentBy]

/-- A call other than the account's own approval spends from the allowance what it moves,
unless the allowance has no limit. -/
theorem allowance_step {self self' : Token} {call : Call} {account spender : ContractAddress}
    (accepted : execute self call = .ok self')
    (other : ∀ amount, call ≠ .approve account spender amount) :
    self.allowances account spender = Fin.last (2 ^ 256 - 1) ∨
      (self'.allowances account spender).val + movedBy account spender call =
        (self.allowances account spender).val := by
  cases call with
  | mint caller recipient amount =>
      rw [(InternalFunctions.mint_ok accepted).2.2.2]
      exact Or.inr rfl
  | transfer caller recipient amount =>
      rw [(InternalFunctions.transfer_ok (execute_transfer_ok accepted)).2.2.2.2.2]
      exact Or.inr rfl
  | approve caller allowed amount =>
      have written := (InternalFunctions.approve_ok (execute_approve_ok accepted)).2.2.2.2
      have different : ¬ (account = caller ∧ spender = allowed) := by
        rintro ⟨rfl, rfl⟩
        exact other amount rfl
      rw [written, if_neg different]
      exact Or.inr rfl
  | transferFrom caller sender recipient amount =>
      obtain ⟨spent, spends, moved⟩ := execute_transferFrom_ok accepted
      rw [(InternalFunctions.transfer_ok moved).2.2.2.2.2, movedBy]
      obtain ⟨-, -, ⟨unlimited, same⟩ | ⟨taken, others⟩⟩ :=
        InternalFunctions.spendAllowance_ok spends
      · split_ifs with own
        · obtain ⟨rfl, rfl⟩ := own
          exact Or.inl unlimited
        · rw [same]
          exact Or.inr rfl
      · split_ifs with own
        · obtain ⟨rfl, rfl⟩ := own
          exact Or.inr taken
        · rw [others account spender fun same => own ⟨same.1.symm, same.2.symm⟩]
          exact Or.inr rfl

theorem metered_step {account spender : ContractAddress} {approved : U256}
    {past : List (Token × Call)} {self self' : Token} {call : Call}
    (metered : Metered account spender approved past self)
    (other : ∀ amount, call ≠ .approve account spender amount)
    (accepted : execute self call = .ok self') :
    Metered account spender approved (past ++ [(self, call)]) self' := by
  rcases metered with unlimited | remains
  · exact Or.inl unlimited
  rcases allowance_step accepted other with unlimited | taken
  · -- only an unlimited approval leaves an unlimited allowance
    have bound := approved.isLt
    rw [unlimited, Fin.val_last] at remains
    exact Or.inl (Fin.ext (by rw [Fin.val_last]; omega))
  · refine Or.inr ?_
    rw [spentBy_snoc]
    omega

/-- Between two approvals of an account for a spender, the spender moves at most what the
first one allows. -/
theorem spent_within {account spender : ContractAddress} {approved : U256} {self given : Token}
    (accepted : execute self (.approve account spender approved) = .ok given)
    (between : List Call) (others : ∀ amount, Call.approve account spender amount ∉ between) :
    approved = Fin.last (2 ^ 256 - 1) ∨
      spentBy account spender (history execute given between) ≤ approved.val := by
  have start : Metered account spender approved [] given := by
    have written := (InternalFunctions.approve_ok (execute_approve_ok accepted)).2.2.2.2
    refine Or.inr ?_
    rw [written, if_pos ⟨rfl, rfl⟩]
    rfl
  have metered := run_history_invariant execute
    (fun call => ∀ amount, call ≠ .approve account spender amount)
    (Metered account spender approved)
    (fun _ _ _ _ before other made => metered_step before other made) [] given start between
    (fun call member amount same => others amount (same ▸ member))
  rcases metered with unlimited | remains
  · exact Or.inl unlimited
  · rw [List.nil_append] at remains
    exact Or.inr (by omega)

/-- In every run of calls an account's balance falls only by its own transfer or by a
`transfer_from` of a spender; the spender takes at most the last approval, unless that has no
limit; and a `transfer_from` that fails changes nothing. -/
theorem spending_authority (token : Token) (calls : List Call) (account : ContractAddress) :
    (∀ entry ∈ history execute token calls,
      (step execute entry.1 entry.2).balances account < entry.1.balances account →
        Takes account entry.2) ∧
    (∀ spender approved before between after given,
      calls = before ++ .approve account spender approved :: (between ++ after) →
      execute (run execute token before) (.approve account spender approved) = .ok given →
      (∀ amount, Call.approve account spender amount ∉ between) →
      approved = Fin.last (2 ^ 256 - 1) ∨
        spentBy account spender (history execute given between) ≤ approved.val) ∧
    ∀ self caller sender recipient amount message,
      execute self (.transferFrom caller sender recipient amount) = .error message →
      step execute self (.transferFrom caller sender recipient amount) = self := by
  refine ⟨?_, ?_, ?_⟩
  · intro entry entered lower
    obtain ⟨self', accepted⟩ := history_accepted execute entered
    rw [step, accepted] at lower
    exact takes_of_lower accepted lower
  · intro spender approved before between after given split accepted others
    exact spent_within accepted between others
  · intro self caller sender recipient amount message failed
    rw [step, failed]

/-- Account 14 gives spender 15 five units; the spender moves three, fails to move three more,
and moves the last two. -/
theorem spending_authority_metered :
    spentBy 14 15 (history execute
      (step execute VaultRuns.robbedGenesis.world.token (.approve 14 15 5))
      [.mint 13 14 9, .transferFrom 15 14 16 3, .transferFrom 15 14 16 3,
        .transferFrom 15 14 14 2]) = 5 ∧
    ((5 : U256) = Fin.last (2 ^ 256 - 1) ∨
      spentBy 14 15 (history execute
        (step execute VaultRuns.robbedGenesis.world.token (.approve 14 15 5))
        [.mint 13 14 9, .transferFrom 15 14 16 3, .transferFrom 15 14 16 3,
          .transferFrom 15 14 14 2]) ≤ (5 : U256).val) :=
  ⟨by decide, (spending_authority VaultRuns.robbedGenesis.world.token
    [.approve 14 15 5, .mint 13 14 9, .transferFrom 15 14 16 3, .transferFrom 15 14 16 3,
      .transferFrom 15 14 14 2] 14).2.1 15 5 [] _ [] _ (by rfl) (by rfl) (by simp)⟩

end PrivateBtc.Contracts.Spending
