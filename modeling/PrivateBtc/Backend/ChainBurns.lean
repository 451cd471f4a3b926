/- PrivateBtc/Backend/ChainBurns
   digest: What an included withdrawal shows of the chain, and that two of them burn apart. -/

import PrivateBtc.Backend.CalldataRounds
import PrivateBtc.Backend.ChainEvidence

set_option autoImplicit false
set_option relaxedAutoImplicit false

namespace PrivateBtc.Backend.ChainBurns

open Library Library.JsText Library.Outcome
open Calldata CalldataRounds ChainEvidence
open Contracts.Corelib (Felt)
open Contracts.Hashing (HashFunction)
open Contracts.Vault (Call Event WithdrawArgs World execute)
open Contracts.VaultRuns (execute_ok)
open Http Server
open WithdrawGate (WithdrawCall)

/-- The event of an accepted withdraw call. -/
def withdrawalEvent (args : WithdrawArgs) : Event :=
  .withdrawal args.nullifier args.recipient args.amount

section Worlds

variable {sha : HashFunction} {w w' : World}

/-- From the one world to the other the nullifier was used up. -/
structure Burns (w w' : World) (args : WithdrawArgs) : Prop where
  fresh : w.vault.nullifiers args.nullifier = false
  used : w'.vault.nullifiers args.nullifier = true
  event : withdrawalEvent args ∈ w'.vault.events

/-- No nullifier is given back, and no event. -/
structure Grows (w w' : World) : Prop where
  nullifiers : ∀ n, w.vault.nullifiers n = true → w'.vault.nullifiers n = true
  events : w.vault.events ⊆ w'.vault.events

theorem Grows.refl (w : World) : Grows w w := ⟨fun _ used => used, List.Subset.refl _⟩

theorem execute_grows {call : Call} (accepted : execute sha w call = .ok w') :
    Grows w w' ∧ ∀ caller args, call = .withdraw caller args → Burns w w' args := by
  have events := (execute_events accepted).1
  rcases execute_ok accepted with ⟨caller, args, rfl, made⟩ | ⟨caller, args, rfl, made⟩ |
    ⟨-, other, -, same, -⟩
  · obtain ⟨_, token, -, -, -, -, -, -, -, -, rfl⟩ := Contracts.Vault.deposit_ok made
    refine ⟨⟨fun _ used => used, events⟩, ?_⟩
    rintro _ _ ⟨⟩
  · obtain ⟨token, fresh, -, -, -, rfl⟩ := Contracts.Vault.withdraw_ok made
    refine ⟨⟨fun n used => ?_, events⟩, ?_⟩
    · simp only [Contracts.Vault.withdrawn, Function.update_apply]
      split_ifs
      · rfl
      · exact used
    · rintro _ _ ⟨⟩
      exact ⟨fresh, Function.update_self .., List.mem_append_right _ List.mem_cons_self⟩
  · refine ⟨⟨fun _ used => by rwa [same], events⟩, ?_⟩
    rintro caller args rfl
    cases other

theorem calls_grow {calls : List Call} (ran : calls.foldlM (execute sha) w = .ok w') :
    Grows w w' ∧ ∀ caller args, Call.withdraw caller args ∈ calls → Burns w w' args := by
  induction calls generalizing w with
  | nil =>
      cases ran
      exact ⟨Grows.refl _, fun _ _ none => by cases none⟩
  | cons call calls ih =>
      rw [List.foldlM_cons, bind_eq_ok] at ran
      obtain ⟨w₁, first, rest⟩ := ran
      obtain ⟨kept, made⟩ := execute_grows first
      obtain ⟨later, others⟩ := ih rest
      refine ⟨⟨fun n used => later.nullifiers n (kept.nullifiers n used),
        List.Subset.trans kept.events later.events⟩, fun caller args member => ?_⟩
      rcases List.mem_cons.mp member with here | there
      · have burns := made caller args here.symm
        exact ⟨burns.fresh, later.nullifiers _ burns.used, later.events burns.event⟩
      · have burns := others caller args there
        refine ⟨?_, burns.used, burns.event⟩
        cases before : w.vault.nullifiers args.nullifier with
        | false => rfl
        | true => exact absurd (kept.nullifiers _ before) (by simp [burns.fresh])

end Worlds

variable {env : Environment} {s s' : State} {label : Label}

/-- A transaction under this hash was included, has succeeded and holds this withdrawal. -/
def Burned (chain : Chain) (hash : Text) (args : WithdrawArgs) : Prop :=
  ∃ calls caller, chain.included hash = some ⟨some calls, true⟩ ∧
    Call.withdraw caller args ∈ calls

/-- The chain keeps what its withdrawals have used up, and holds what was submitted to it. -/
structure Consumes (chain : Chain) : Prop where
  told : ∀ hash sent held, chain.submitted hash = some sent → chain.included hash = some held →
    held.calls = sent
  legible : ∀ hash held, chain.included hash = some held → held.succeeded = true →
    held.calls.isSome
  used : ∀ hash args, Burned chain hash args →
    withdrawalEvent args ∈ chain.world.vault.events ∧
      chain.world.vault.nullifiers args.nullifier = true
  apart : ∀ hash hash' args args', Burned chain hash args → Burned chain hash' args' →
    args.nullifier = args'.nullifier → hash = hash'

theorem includeCalls_consumes {chain : Chain} {hash : Text} {held : Option (List Call)}
    (consumes : Consumes chain) (fresh : chain.included hash = none)
    (own : ∀ sent, chain.submitted hash = some sent → held = sent) :
    Consumes (includeCalls env chain hash held) := by
  have told : ∀ good other sent included, chain.submitted other = some sent →
      Function.update chain.included hash (some ⟨held, good⟩) other = some included →
        included.calls = sent := by
    intro good other sent included submitted there
    rw [Function.update_apply] at there
    split_ifs at there with here
    · cases there
      exact own sent (here ▸ submitted)
    · exact consumes.told other sent included submitted there
  rcases includeCalls_cases chain hash held with ⟨calls, w', rfl, ran, same⟩ | same
  · obtain ⟨grows, burns⟩ := calls_grow ran
    have cases_ : ∀ other args, Burned (includeCalls env chain hash (some calls)) other args →
        Burned chain other args ∧ other ≠ hash ∨ other = hash ∧ Burns chain.world w' args := by
      rintro other args ⟨calls', caller, there, member⟩
      rw [same] at there
      dsimp only at there
      rw [Function.update_apply] at there
      split_ifs at there with here
      · cases there
        exact Or.inr ⟨here, burns caller args member⟩
      · exact Or.inl ⟨⟨calls', caller, there, member⟩, here⟩
    refine ⟨?_, ?_, fun other args burned => ?_,
      fun other other' args args' burned burned' equal => ?_⟩
    · rw [same]
      exact told true
    · rw [same]
      intro other included there succeeded
      dsimp only at there
      rw [Function.update_apply] at there
      split_ifs at there
      · cases there
        rfl
      · exact consumes.legible other included there succeeded
    · rcases cases_ other args burned with ⟨old, -⟩ | ⟨-, new⟩
      · obtain ⟨event, used⟩ := consumes.used other args old
        rw [same]
        exact ⟨grows.events event, grows.nullifiers _ used⟩
      · rw [same]
        exact ⟨new.event, new.used⟩
    · rcases cases_ other args burned with ⟨old, -⟩ | ⟨rfl, new⟩ <;>
        rcases cases_ other' args' burned' with ⟨old', -⟩ | ⟨rfl, new'⟩
      · exact consumes.apart other other' args args' old old' equal
      · have used := (consumes.used other args old).2
        rw [equal, new'.fresh] at used
        cases used
      · have used := (consumes.used other' args' old').2
        rw [← equal, new.fresh] at used
        cases used
      · rfl
  · have old : ∀ other args, Burned (includeCalls env chain hash held) other args →
        Burned chain other args := by
      rintro other args ⟨calls, caller, there, member⟩
      rw [same] at there
      dsimp only at there
      rw [Function.update_apply] at there
      split_ifs at there
      · cases there
      · exact ⟨calls, caller, there, member⟩
    refine ⟨?_, ?_, fun other args burned => ?_, fun other other' args args' burned burned' =>
      consumes.apart other other' args args' (old _ _ burned) (old _ _ burned')⟩
    · rw [same]
      exact told false
    · rw [same]
      intro other included there succeeded
      dsimp only at there
      rw [Function.update_apply] at there
      split_ifs at there
      · cases there
        cases succeeded
      · exact consumes.legible other included there succeeded
    · rw [same]
      exact consumes.used other args (old other args burned)

theorem submit_consumes {id : Nat} {request : Request} {task : Task} {reply : Reply}
    {moment : Moment} (consumes : Consumes s.chain) (honest : Honest env s (.reply id reply moment))
    (waits : s.tasks id = some (request, task)) : Consumes (submit env s.chain task reply) := by
  rcases submit_cases honest waits with same | ⟨txHash, sent, -, -, told, -, own⟩
  · rw [same]
    exact consumes
  · rw [told]
    refine ⟨fun hash other held submitted there => ?_, consumes.legible, consumes.used,
      consumes.apart⟩
    dsimp only at submitted
    rw [Function.update_apply] at submitted
    split_ifs at submitted with here
    · cases submitted
      exact own held (here ▸ there)
    · exact consumes.told hash other held submitted there

theorem step_consumes (consumes : Consumes s.chain) (honest : Honest env s label)
    (stepped : step env s label = some s') : Consumes s'.chain := by
  cases step_stepped env stepped with
  | request idle => exact consumes
  | reply waits resumed => exact submit_consumes consumes honest waits
  | timeout waits expired => exact consumes
  | land => exact consumes
  | block fresh =>
      refine includeCalls_consumes consumes fresh fun sent submitted => ?_
      rw [submitted]
      rfl

/-- What is included stays included. -/
theorem step_included (stepped : step env s label = some s') {hash : Text} {held : Included}
    (there : s.chain.included hash = some held) : s'.chain.included hash = some held := by
  cases step_stepped env stepped with
  | request idle => exact there
  | reply waits resumed =>
      show (submit env s.chain _ _).included hash = some held
      unfold submit
      split
      · split <;> exact there
      · exact there
  | timeout waits expired => exact there
  | land => exact there
  | @block txHash calls fresh =>
      have apart : hash ≠ canonicalHash txHash := by
        rintro rfl
        rw [fresh] at there
        cases there
      show Function.update s.chain.included (canonicalHash txHash) _ hash = some held
      rw [Function.update_of_ne apart, there]

section Calls

/-- A withdrawal that the chain can read is for the nullifier and the amount of its call. -/
theorem withdraw_calls {felts : FeltReading} {call : WithdrawCall} {text : Text} {caller : Felt}
    {calls : List Call} (single : call.proof = [text])
    (read : (Invocation.withdraw call).calls felts caller = some calls) :
    ∃ args, calls = [.withdraw caller args] ∧
      felts.felt call.nullifierHash = some args.nullifier ∧ call.amount = args.amount.val := by
  simp only [Invocation.calls, Option.bind_eq_bind, Option.bind_eq_some_iff, Option.pure_def,
    Option.guard_eq_some', Option.some.injEq] at read
  obtain ⟨_, positive, _, written, args, decoded, rfl⟩ := read
  refine ⟨args, rfl, ?_⟩
  simp only [withdrawCalldata, single, List.length_singleton, List.cons_append, List.nil_append,
    limbs, List.mapM_cons, List.mapM_nil, Option.bind_eq_bind, Option.bind_eq_some_iff,
    Option.pure_def, Option.some.injEq] at written
  obtain ⟨nullifier, named, rest, ⟨count, counted, rest₁, ⟨proof, -, rest₂, ⟨recipient, -, rest₃,
    ⟨low, lower, rest₄, ⟨high, higher, rest₅, rfl, rfl⟩, rfl⟩, rfl⟩, rfl⟩, rfl⟩, rfl⟩ := written
  have one : count.val = 1 := felt_of_decimal counted
  simp only [readWithdraw, readFelt, readSpan, one, readMany, readBelow, Option.bind_eq_bind,
    Option.bind_some, Option.bind_eq_some_iff, Option.pure_def] at decoded
  obtain ⟨_, low_read, _, high_read, whole⟩ := decoded
  split_ifs at low_read with low_small
  cases low_read
  dsimp only at high_read
  split_ifs at high_read with high_small
  cases high_read
  cases whole
  refine ⟨named, ?_⟩
  have low_val := felt_of_hexText lower
  have high_val := felt_of_hexText higher
  have fits : low.val + 2 ^ 128 * high.val < 2 ^ 256 := by omega
  have whole : low.val + 2 ^ 128 * high.val = call.amount.toNat := by
    rw [low_val, high_val, Nat.mod_add_div]
  rw [show (Fin.ofNat (2 ^ 256) (low.val + 2 ^ 128 * high.val)).val =
    low.val + 2 ^ 128 * high.val from Nat.mod_eq_of_lt fits, whole, Int.toNat_of_nonneg positive]

end Calls

end PrivateBtc.Backend.ChainBurns
