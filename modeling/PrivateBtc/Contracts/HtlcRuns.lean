/- PrivateBtc/Contracts/HtlcRuns
   digest: Every run of the HTLC, re-entered or not, stays solvent and pays a funding at most once. -/

import Mathlib.Data.List.Chain
import PrivateBtc.Contracts.Htlc
import PrivateBtc.Library.GuardedRun

set_option autoImplicit false
set_option relaxedAutoImplicit false

namespace PrivateBtc.Contracts.HtlcRuns

open Library Library.Holdings Library.Outcome Corelib HonestToken Htlc

variable {T : Erc20} {S : Setting}

/-- The storage holds a funding that neither flag marks as paid. -/
def Unpaid (htlc : Storage) : Prop := htlc.withdrawn = false ∧ htlc.refunded = false

section Entries

variable {w w' : World T} {caller : ContractAddress} {out : Transfer} {pending : Pending}

theorem fund_ok {args : FundArgs} (accepted : fund S w caller args = .ok (w', out, pending)) :
    0 < args.amount ∧ w.now < args.timelock ∧ w' = w ∧
      out = ⟨args.token, caller, S.self, args.amount⟩ ∧ pending = .fund caller args := by
  simp only [fund, bind_eq_ok, assert_ok, pure_eq_ok, Except.ok.injEq, Prod.mk.injEq] at accepted
  obtain ⟨_, positive, _, future, rfl, rfl, rfl⟩ := accepted
  exact ⟨of_decide_eq_true positive, of_decide_eq_true future, rfl, rfl, rfl⟩

/-- What a withdrawal or a refund writes before it calls the token. -/
structure Pays (S : Setting) (w w' : World T) (out : Transfer) (pending : Pending) : Prop where
  unpaid : Unpaid w.htlc
  flagged : ¬ Unpaid w'.htlc
  ledger : w'.ledger = w.ledger
  token : out.token = w.htlc.token
  amount : out.amount = w.htlc.amount
  sender : out.sender = S.self
  moves : ∃ move, move.paid = true ∧ w'.moves = w.moves ++ [move]
  pending : ∀ caller args, pending ≠ .fund caller args

theorem withdraw_ok {preimage : Felt}
    (accepted : withdraw S w preimage = .ok (w', out, pending)) :
    Pays S w w' out pending ∧ S.poseidon preimage = w.htlc.hashlock ∧
      w'.moves = w.moves ++
        [.withdraw preimage w.htlc.token w.htlc.receiver w.htlc.amount] := by
  simp only [withdraw, bind_eq_ok, assert_ok, pure_eq_ok, Except.ok.injEq, Prod.mk.injEq,
    Bool.not_eq_true'] at accepted
  obtain ⟨_, first, _, second, _, hash, rfl, rfl, rfl⟩ := accepted
  refine ⟨⟨⟨first, second⟩, ?_, rfl, rfl, rfl, rfl, ⟨_, rfl, rfl⟩, ?_⟩,
    of_decide_eq_true hash, rfl⟩
  · rintro ⟨unset, -⟩
    cases unset
  · intro caller args same
    cases same

theorem refund_ok (accepted : refund S w caller = .ok (w', out, pending)) :
    Pays S w w' out pending ∧ caller = w.htlc.sender ∧ w.htlc.timelock ≤ w.now ∧
      w'.moves = w.moves ++
        [.refund caller w.now w.htlc.token w.htlc.sender w.htlc.amount] := by
  simp only [refund, bind_eq_ok, assert_ok, pure_eq_ok, Except.ok.injEq, Prod.mk.injEq,
    Bool.not_eq_true'] at accepted
  obtain ⟨_, first, _, second, _, expired, _, own, rfl, rfl, rfl⟩ := accepted
  refine ⟨⟨⟨first, second⟩, ?_, rfl, rfl, rfl, rfl, ⟨_, rfl, rfl⟩, ?_⟩,
    of_decide_eq_true own, of_decide_eq_true expired, rfl⟩
  · rintro ⟨-, unset⟩
    cases unset
  · intro caller args same
    cases same

end Entries

theorem enter_cases {w w' : World T} {caller : ContractAddress} {call : Call} {out : Transfer}
    {pending : Pending} (accepted : enter S w caller call = .ok (w', out, pending)) :
    Pays S w w' out pending ∨ ∃ args, call = .fund args ∧ 0 < args.amount ∧
      w.now < args.timelock ∧ w' = w ∧ out = ⟨args.token, caller, S.self, args.amount⟩ ∧
      pending = .fund caller args := by
  cases call with
  | fund args => exact Or.inr ⟨args, rfl, fund_ok accepted⟩
  | withdraw preimage => exact Or.inl (withdraw_ok accepted).1
  | refund => exact Or.inl (refund_ok accepted).1

theorem asks_paying {pending : Pending} (out : Transfer)
    (paying : ∀ caller args, pending ≠ .fund caller args) :
    pending.asks T out = .transfer out.recipient out.amount := by
  cases pending with
  | fund caller args => exact absurd rfl (paying caller args)
  | withdraw receiver preimage => rfl
  | refund sender => rfl

/-- The step is the one that writes a funding. -/
def completesFund (S : Setting) (c : Config T) : Label T → Bool
  | .enter caller (.fund args) =>
      decide (0 < args.amount) && decide (c.world.now < args.timelock) &&
        decide (args.token = S.token) &&
        (T.transferFrom c.world.ledger S.self caller S.self args.amount).isOk
  | .returns => match c.stack with
      | ⟨some (.fund _ _), _⟩ :: _ => true
      | _ => false
  | _ => false

/-- A property of the world that each part of a step keeps, where fundings are written only
in worlds that allow it. -/
structure Stable (S : Setting) (holds may : World T → Prop) : Prop where
  pays : ∀ {w w' caller call out pending}, holds w →
    enter S w caller call = .ok (w', out, pending) → Pays S w w' out pending → holds w'
  answered : ∀ {w recipient amount ledger}, holds w → ¬ Unpaid w.htlc →
    T.transfer w.ledger S.self recipient amount = .ok ledger → holds { w with ledger }
  resumed : ∀ {w pending}, holds w → (∀ caller args, pending ≠ .fund caller args) →
    holds (resume w pending)
  funded : ∀ {w ledger caller} {args : FundArgs}, holds w → may w → caller ≠ S.self →
    0 < args.amount → T.transferFrom w.ledger S.self caller S.self args.amount = .ok ledger →
    holds (resume { w with ledger } (.fund caller args))
  returned : ∀ {w caller} {args : FundArgs}, holds w → may w → 0 < args.amount →
    args.token ≠ S.token → holds (resume w (.fund caller args))
  token : ∀ {w caller call ledger}, holds w → caller ≠ S.self →
    perform T w.ledger caller call = .ok ledger → holds { w with ledger }
  tick : ∀ {w} now, holds w → holds { w with now }

/-- The property holds now and in every world that a panic can bring back; a funding in the
honest token never waits. -/
structure Everywhere (S : Setting) (holds : World T → Prop) (c : Config T) : Prop where
  world : holds c.world
  saved : ∀ frame ∈ c.stack, holds frame.saved
  waiting : ∀ frame ∈ c.stack, ∀ caller args, frame.pending = some (.fund caller args) →
    0 < args.amount ∧ args.token ≠ S.token

section Steps

variable {holds may : World T → Prop}

theorem everywhere_pushed {w : World T} {c : Config T} {pending : Option Pending}
    (everywhere : Everywhere S holds c) (next : holds w)
    (waits : ∀ caller args, pending = some (.fund caller args) →
      0 < args.amount ∧ args.token ≠ S.token) :
    Everywhere S holds ⟨w, ⟨pending, c.world⟩ :: c.stack⟩ := by
  refine ⟨next, ?_, ?_⟩
  · intro frame member
    rcases List.mem_cons.mp member with rfl | below
    · exact everywhere.world
    · exact everywhere.saved frame below
  · intro frame member caller args found
    rcases List.mem_cons.mp member with rfl | below
    · exact waits caller args found
    · exact everywhere.waiting frame below caller args found

theorem everywhere_popped {w w' : World T} {frame : Frame T} {stack : List (Frame T)}
    (everywhere : Everywhere S holds ⟨w, frame :: stack⟩) (next : holds w') :
    Everywhere S holds ⟨w', stack⟩ :=
  ⟨next, fun f below => everywhere.saved f (List.mem_cons_of_mem _ below),
    fun f below => everywhere.waiting f (List.mem_cons_of_mem _ below)⟩

theorem everywhere_called (stable : Stable S holds may) {c : Config T} {caller : ContractAddress}
    {call : Call} (everywhere : Everywhere S holds c) (apart : caller ≠ S.self)
    (free : completesFund S c (.enter caller call) = true → may c.world) :
    Everywhere S holds (called S c caller call) := by
  rw [called]
  cases entered : enter S c.world caller call with
  | error message => exact everywhere
  | ok entry =>
      obtain ⟨w', out, pending⟩ := entry
      dsimp only
      split_ifs with honest missing
      · cases answered : perform T w'.ledger S.self (pending.asks T out) with
        | error message => exact everywhere
        | ok ledger =>
            refine ⟨?_, everywhere.saved, everywhere.waiting⟩
            rcases enter_cases entered with pays | ⟨args, rfl, positive, future, rfl, rfl, rfl⟩
            · rw [asks_paying out pays.pending] at answered
              have flagged := stable.pays everywhere.world entered pays
              exact stable.resumed (stable.answered flagged pays.flagged answered) pays.pending
            · have moved : T.transferFrom c.world.ledger S.self caller S.self args.amount =
                  .ok ledger := answered
              have completes : completesFund S c (.enter caller (.fund args)) = true := by
                have same : args.token = S.token := honest
                simp [completesFund, positive, future, same, moved, Except.isOk, Except.toBool]
              exact stable.funded everywhere.world (free completes) apart positive moved
      · exact everywhere
      · rcases enter_cases entered with pays | ⟨args, rfl, positive, -, rfl, rfl, rfl⟩
        · refine everywhere_pushed everywhere (stable.pays everywhere.world entered pays) ?_
          intro funder args same
          exact absurd (Option.some.inj same) (pays.pending funder args)
        · refine everywhere_pushed everywhere everywhere.world ?_
          intro funder args' same
          cases same
          exact ⟨positive, honest⟩

theorem everywhere_step (stable : Stable S holds may) {c c' : Config T} {label : Label T}
    (everywhere : Everywhere S holds c)
    (free : completesFund S c label = true → may c.world)
    (stepped : step S c label = some c') : Everywhere S holds c' := by
  cases label with
  | enter caller call =>
      rw [step] at stepped
      split_ifs at stepped with own
      cases stepped
      exact everywhere_called stable everywhere own free
  | token caller call =>
      rw [step] at stepped
      split_ifs at stepped with own
      cases performed : perform T c.world.ledger caller call with
      | error message =>
          rw [performed] at stepped
          cases stepped
          exact everywhere
      | ok ledger =>
          rw [performed] at stepped
          cases stepped
          exact ⟨stable.token everywhere.world own performed, everywhere.saved,
            everywhere.waiting⟩
  | foreign =>
      cases stepped
      refine everywhere_pushed everywhere everywhere.world ?_
      intro caller args same
      cases same
  | returns =>
      obtain ⟨w, stack⟩ := c
      cases stack with
      | nil => cases stepped
      | cons frame stack =>
          obtain ⟨_ | pending, kept⟩ := frame
          · cases stepped
            exact everywhere_popped everywhere everywhere.world
          · cases stepped
            apply everywhere_popped everywhere
            cases pending with
            | fund caller args =>
                obtain ⟨positive, other⟩ :=
                  everywhere.waiting _ List.mem_cons_self caller args rfl
                exact stable.returned everywhere.world (free rfl) positive other
            | withdraw receiver preimage =>
                exact stable.resumed everywhere.world fun _ _ same => Pending.noConfusion same
            | refund sender =>
                exact stable.resumed everywhere.world fun _ _ same => Pending.noConfusion same
  | panics =>
      obtain ⟨w, stack⟩ := c
      cases stack with
      | nil => cases stepped
      | cons frame stack =>
          cases stepped
          exact everywhere_popped everywhere (everywhere.saved frame List.mem_cons_self)
  | tick now =>
      rw [step] at stepped
      split_ifs at stepped
      cases stepped
      exact ⟨stable.tick now everywhere.world, everywhere.saved, everywhere.waiting⟩

/-- A stable property of the deployed world holds at every moment of every run that writes
its fundings where it may. -/
theorem everywhere_run (stable : Stable S holds may) {start c : Config T}
    {allowed : Config T → Label T → Prop} (first : Everywhere S holds start)
    (free : ∀ c label, allowed c label → completesFund S c label = true → may c.world)
    (reached : GuardedRun.Reaches (step S) allowed start c) : Everywhere S holds c :=
  reached.invariant first fun _ _ _ before permitted stepped =>
    everywhere_step stable before (free _ _ permitted) stepped

end Steps

theorem everywhere_genesis {holds : World T → Prop} {genesis : Genesis T S}
    (first : holds genesis.config.world) : Everywhere S holds genesis.config := by
  refine ⟨first, ?_, ?_⟩
  · intro frame member
    cases member
  · intro frame member
    cases member

/-- What holds of the world at every moment, inside calls too. -/
structure Sound (S : Setting) (w : World T) : Prop where
  ungranted : ∀ spender, T.allowance w.ledger S.self spender = 0
  solvent : w.htlc.token = S.token → Unpaid w.htlc →
    w.htlc.amount.val ≤ T.balance w.ledger S.self
  single : w.moves.IsChain fun first second => ¬ (first.paid = true ∧ second.paid = true)
  unpaid : Unpaid w.htlc → ∀ move ∈ w.moves.getLast?, move.paid = false

theorem chain_snoc {A : Type} {R : A → A → Prop} {past : List A} {next : A}
    (chain : past.IsChain R) (follows : ∀ last ∈ past.getLast?, R last next) :
    (past ++ [next]).IsChain R := by
  rw [List.isChain_append]
  refine ⟨chain, List.isChain_singleton _, ?_⟩
  intro last found first here
  simp only [List.head?_cons, Option.mem_def, Option.some.injEq] at here
  rw [← here]
  exact follows last found

theorem sound_paying {w w' : World T} {out : Transfer} {pending : Pending} (sound : Sound S w)
    (pays : Pays S w w' out pending) : Sound S w' := by
  obtain ⟨move, paid, moves⟩ := pays.moves
  refine ⟨?_, fun _ unpaid => absurd unpaid pays.flagged, ?_,
    fun unpaid => absurd unpaid pays.flagged⟩
  · rw [pays.ledger]
    exact sound.ungranted
  · rw [moves]
    apply chain_snoc sound.single
    rintro last found ⟨earlier, -⟩
    rw [sound.unpaid pays.unpaid last found] at earlier
    cases earlier

/-- The token's answer changes only the ledger. -/
theorem sound_ledger {w : World T} {ledger : T.State} (sound : Sound S w)
    (ungranted : ∀ spender, T.allowance ledger S.self spender = 0)
    (kept : Unpaid w.htlc → T.balance w.ledger S.self ≤ T.balance ledger S.self) :
    Sound S { w with ledger } :=
  ⟨ungranted, fun token unpaid => (sound.solvent token unpaid).trans (kept unpaid),
    sound.single, sound.unpaid⟩

theorem sound_funded {w : World T} {caller : ContractAddress} {args : FundArgs}
    (ungranted : ∀ spender, T.allowance w.ledger S.self spender = 0)
    (single : w.moves.IsChain fun first second => ¬ (first.paid = true ∧ second.paid = true))
    (covered : args.token = S.token → args.amount.val ≤ T.balance w.ledger S.self) :
    Sound S (resume w (.fund caller args)) := by
  refine ⟨ungranted, fun token _ => covered token, ?_, ?_⟩
  · apply chain_snoc single
    rintro last found ⟨-, later⟩
    cases later
  · intro unpaid move found
    rw [resume, List.getLast?_concat, Option.mem_some_iff] at found
    rw [← found]
    rfl

theorem sound_stable : Stable S (T := T) (Sound S) fun _ => True where
  pays sound _ pays := sound_paying sound pays
  answered sound flagged moved := by
    have grants := T.transfer_grants moved S.self
    refine sound_ledger sound ?_ fun unpaid => absurd unpaid flagged
    intro spender
    exact Nat.le_zero.mp (sound.ungranted spender ▸ grants spender)
  resumed {w pending} sound paying := by
    cases pending with
    | fund caller args => exact absurd rfl (paying caller args)
    | withdraw receiver preimage =>
        exact ⟨sound.ungranted, sound.solvent, sound.single, sound.unpaid⟩
    | refund sender => exact ⟨sound.ungranted, sound.solvent, sound.single, sound.unpaid⟩
  funded {w ledger caller args} sound _ apart _ moved := by
    have grants := T.transferFrom_grants moved S.self
    have balance := T.transferFrom_moves moved S.self
    rw [only, only, if_neg (Ne.symm apart), if_pos rfl] at balance
    refine sound_funded ?_ sound.single fun _ => ?_
    · intro spender
      exact Nat.le_zero.mp (sound.ungranted spender ▸ grants spender)
    · show args.amount.val ≤ T.balance ledger S.self
      omega
  returned sound _ _ other :=
    sound_funded sound.ungranted sound.single fun same => absurd same other
  token sound apart performed := by
    obtain ⟨kept, ungranted⟩ := perform_keeps performed (Ne.symm apart) sound.ungranted
    exact sound_ledger sound ungranted fun _ => kept
  tick now sound := ⟨sound.ungranted, sound.solvent, sound.single, sound.unpaid⟩

theorem sound_genesis (genesis : Genesis T S) : Sound S genesis.config.world := by
  refine ⟨genesis.ungranted, fun _ _ => Nat.zero_le _, List.isChain_nil, ?_⟩
  intro unpaid move found
  cases found

theorem sound_run {genesis : Genesis T S} {c : Config T} {allowed : Config T → Label T → Prop}
    (reached : GuardedRun.Reaches (step S) allowed genesis.config c) : Sound S c.world :=
  (everywhere_run sound_stable (everywhere_genesis (sound_genesis genesis))
    (fun _ _ _ _ => trivial) reached).world

/-- The payouts that follow a funding, up to the next one. -/
def payoutsBeforeNextFund (later : List Move) : List Move := later.takeWhile Move.paid

theorem payouts_le_one {later : List Move}
    (single : later.IsChain fun first second => ¬ (first.paid = true ∧ second.paid = true)) :
    (payoutsBeforeNextFund later).length ≤ 1 := by
  rw [payoutsBeforeNextFund]
  rcases later with _ | ⟨first, _ | ⟨second, rest⟩⟩
  · exact Nat.zero_le _
  · exact (List.takeWhile_prefix _).length_le
  · rw [List.takeWhile_cons]
    split_ifs with paid
    · have apart := (List.isChain_cons_cons.mp single).1
      rw [List.takeWhile_cons_of_neg fun again => apart ⟨paid, again⟩]
      exact le_refl _
    · exact Nat.zero_le _

/-- At every moment of every run the contract's balance covers the funding it stores; after a
funding there is at most one payout before the next one; and a payout in the honest token is
never refused for lack of balance. -/
theorem htlc_solvent (genesis : Genesis T S) {c : Config T}
    (reached : GuardedRun.Reaches (step S) (fun _ _ => True) genesis.config c) :
    (c.world.htlc.token = S.token → Unpaid c.world.htlc →
      c.world.htlc.amount.val ≤ T.balance c.world.ledger S.self) ∧
    (∀ earlier terms later, c.world.moves = earlier ++ .fund terms :: later →
      (payoutsBeforeNextFund later).length ≤ 1) ∧
    ∀ caller call w out pending, enter S c.world caller call = .ok (w, out, pending) →
      (∀ args, call ≠ .fund args) → out.token = S.token →
      perform T w.ledger S.self (pending.asks T out) ≠ .error T.insufficient := by
  have sound := sound_run reached
  refine ⟨sound.solvent, ?_, ?_⟩
  · intro earlier terms later split
    have single := sound.single
    rw [split, List.isChain_append] at single
    exact payouts_le_one single.2.1.tail
  · intro caller call w out pending entered payout honest failed
    rcases enter_cases entered with pays | ⟨args, funds, -⟩
    · rw [asks_paying out pays.pending] at failed
      have short := T.transfer_insufficient failed
      have covered := sound.solvent (pays.token ▸ honest) pays.unpaid
      rw [pays.ledger, pays.amount] at short
      exact absurd covered (Nat.not_le.mpr short)
    · exact payout args funds

section Reentered

/-- The contract 31 and the honest token 30; the hash adds one. -/
def sampleSetting : Setting where
  self := 31
  token := 30
  poseidon := fun x => x + 1

def sampleGenesis : Genesis mockErc20 sampleSetting where
  now := 100
  ledger := VaultRuns.robbedGenesis.world.token
  ungranted := fun _ => rfl

/-- Account 13 funds in the honest token; account 40 funds in its own token, whose
`transfer_from` lets account 15 withdraw the first funding before it returns. -/
def reentered : List (Label mockErc20) :=
  [.token 13 (.other (.approve 31 500)), .enter 13 (.fund ⟨15, 8, 200, 30, 500⟩),
    .enter 40 (.fund ⟨41, 9, 300, 99, 7⟩), .enter 15 (.withdraw 7), .returns,
    .enter 41 (.withdraw 8), .panics]

theorem htlc_solvent_reentered :
    ∃ c, GuardedRun.Reaches (step sampleSetting) (fun _ _ => True) sampleGenesis.config c ∧
      c.world.moves = [.fund ⟨⟨15, 8, 200, 30, 500⟩, 13⟩, .withdraw 7 30 15 500,
        .fund ⟨⟨41, 9, 300, 99, 7⟩, 40⟩] ∧
      (payoutsBeforeNextFund [.withdraw 7 30 15 500, .fund ⟨⟨41, 9, 300, 99, 7⟩, 40⟩]).length ≤
        1 := by
  have ran : (GuardedRun.run (step sampleSetting) sampleGenesis.config reentered).map
      (fun c => c.world.moves) = some [.fund ⟨⟨15, 8, 200, 30, 500⟩, 13⟩, .withdraw 7 30 15 500,
        .fund ⟨⟨41, 9, 300, 99, 7⟩, 40⟩] := by decide +kernel
  obtain ⟨c, ran, moves⟩ := Option.map_eq_some_iff.mp ran
  have reached := GuardedRun.Reaches.start.of_run (fun _ _ _ => trivial) ran
  exact ⟨c, reached, moves, (htlc_solvent sampleGenesis reached).2.1 [] _ _ moves⟩

end Reentered

end PrivateBtc.Contracts.HtlcRuns
