/- PrivateBtc/Contracts/HtlcTerms
   digest: A funding keeps its terms until it is paid exactly when no other completes meanwhile. -/

import PrivateBtc.Contracts.HtlcRuns

set_option autoImplicit false
set_option relaxedAutoImplicit false

namespace PrivateBtc.Contracts.HtlcTerms

open Library Library.Outcome Corelib HonestToken Htlc HtlcRuns

variable {T : Erc20} {S : Setting}

def stored (htlc : Storage) : Terms where
  receiver := htlc.receiver
  hashlock := htlc.hashlock
  timelock := htlc.timelock
  token := htlc.token
  amount := htlc.amount
  sender := htlc.sender

/-- The payout is made on these terms: with a preimage, or to the sender after the timelock. -/
def Settles (S : Setting) (terms : Terms) : Move → Prop
  | .fund _ => False
  | .withdraw preimage token recipient amount =>
      S.poseidon preimage = terms.hashlock ∧ recipient = terms.receiver ∧ token = terms.token ∧
        amount = terms.amount
  | .refund caller now token recipient amount =>
      caller = terms.sender ∧ terms.timelock ≤ now ∧ recipient = terms.sender ∧
        token = terms.token ∧ amount = terms.amount

/-- Each funding still stands with its terms and its tokens, or its own payout came next. -/
def Fixed (S : Setting) (w : World T) : Prop :=
  ∀ earlier terms later, w.moves = earlier ++ .fund terms :: later →
    (later = [] ∧ stored w.htlc = terms ∧ Unpaid w.htlc ∧
      (terms.token = S.token → terms.amount.val ≤ T.balance w.ledger S.self)) ∨
    ∃ payout rest, later = payout :: rest ∧ Settles S terms payout

def locked (htlc : Storage) : Bool :=
  decide (0 < htlc.amount) && !htlc.withdrawn && !htlc.refunded

/-- No funding is written over an unpaid one. -/
def Free (S : Setting) (c : Config T) (label : Label T) : Prop :=
  completesFund S c label = true → locked c.world.htlc = false

/-- The history tells what the storage holds. -/
structure Told (S : Setting) (w : World T) : Prop where
  settled : w.moves.IsChain fun first second => ∀ terms, first = .fund terms →
    Settles S terms second
  stands : ∀ terms, w.moves.getLast? = some (.fund terms) →
    stored w.htlc = terms ∧ Unpaid w.htlc ∧ 0 < terms.amount
  paid : ∀ move, w.moves.getLast? = some move → move.paid = true → ¬ Unpaid w.htlc
  unfunded : w.moves = [] → w.htlc.amount = 0

theorem locked_iff {htlc : Storage} : locked htlc = true ↔ 0 < htlc.amount ∧ Unpaid htlc := by
  simp [locked, Unpaid, and_assoc]

/-- Where a funding is locked it is the last move. -/
theorem funded_of_locked {w : World T} (told : Told S w) (holds : locked w.htlc = true) :
    ∃ earlier terms, w.moves = earlier ++ [.fund terms] := by
  obtain ⟨positive, unpaid⟩ := locked_iff.mp holds
  rcases List.eq_nil_or_concat w.moves with none | ⟨earlier, last, split⟩
  · rw [told.unfunded none] at positive
    exact absurd positive (lt_irrefl _)
  · rw [List.concat_eq_append] at split
    have final : w.moves.getLast? = some last := by rw [split, List.getLast?_concat]
    cases last with
    | fund terms => exact ⟨earlier, terms, split⟩
    | withdraw preimage token recipient amount => exact absurd unpaid (told.paid _ final rfl)
    | refund caller now token recipient amount => exact absurd unpaid (told.paid _ final rfl)

theorem told_funded {w : World T} {caller : ContractAddress} {args : FundArgs} (told : Told S w)
    (free : locked w.htlc = false) (positive : 0 < args.amount) :
    Told S (resume w (.fund caller args)) := by
  refine ⟨?_, ?_, ?_, ?_⟩
  · apply chain_snoc told.settled
    intro last found terms same
    subst same
    obtain ⟨holds, unpaid, funded⟩ := told.stands terms found
    have amount : 0 < w.htlc.amount := by
      rw [← holds] at funded
      exact funded
    rw [locked_iff.mpr ⟨amount, unpaid⟩] at free
    cases free
  · intro terms found
    rw [resume, List.getLast?_concat, Option.some.injEq] at found
    cases found
    exact ⟨rfl, ⟨rfl, rfl⟩, positive⟩
  · intro move found paid
    rw [resume, List.getLast?_concat, Option.some.injEq] at found
    subst found
    cases paid
  · intro none
    exact absurd none (List.append_ne_nil_of_right_ne_nil _ (List.cons_ne_nil _ _))

/-- A payout settles the funding that stands. -/
theorem told_paying {w w' : World T} {caller : ContractAddress} {call : Call} {out : Transfer}
    {pending : Pending} (told : Told S w)
    (accepted : enter S w caller call = .ok (w', out, pending))
    (pays : Pays S w w' out pending) : Told S w' := by
  have written : ∃ move, w'.moves = w.moves ++ [move] ∧ move.paid = true ∧
      Settles S (stored w.htlc) move := by
    cases call with
    | fund args => exact absurd (fund_ok accepted).2.2.2.2 (pays.pending caller args)
    | withdraw preimage =>
        obtain ⟨-, hash, moves⟩ := withdraw_ok accepted
        exact ⟨_, moves, rfl, hash, rfl, rfl, rfl⟩
    | refund =>
        obtain ⟨-, own, expired, moves⟩ := refund_ok accepted
        exact ⟨_, moves, rfl, own, expired, rfl, rfl, rfl⟩
  obtain ⟨move, moves, paid, settles⟩ := written
  refine ⟨?_, ?_, fun _ _ _ => pays.flagged, ?_⟩
  · rw [moves]
    apply chain_snoc told.settled
    intro last found terms same
    subst same
    rw [← (told.stands terms found).1]
    exact settles
  · intro terms found
    rw [moves, List.getLast?_concat, Option.some.injEq] at found
    rw [found] at paid
    cases paid
  · intro none
    rw [moves] at none
    exact absurd none (List.append_ne_nil_of_right_ne_nil _ (List.cons_ne_nil _ _))

theorem told_stable : Stable S (T := T) (Told S) fun w => locked w.htlc = false where
  pays told accepted pays := told_paying told accepted pays
  answered told _ _ := ⟨told.settled, told.stands, told.paid, told.unfunded⟩
  resumed {w pending} told paying := by
    cases pending with
    | fund caller args => exact absurd rfl (paying caller args)
    | withdraw receiver preimage => exact ⟨told.settled, told.stands, told.paid, told.unfunded⟩
    | refund sender => exact ⟨told.settled, told.stands, told.paid, told.unfunded⟩
  funded told free _ positive _ :=
    told_funded ⟨told.settled, told.stands, told.paid, told.unfunded⟩ free positive
  returned told free positive _ := told_funded told free positive
  token told _ _ := ⟨told.settled, told.stands, told.paid, told.unfunded⟩
  tick _ told := ⟨told.settled, told.stands, told.paid, told.unfunded⟩

theorem told_genesis (genesis : Genesis T S) : Told S genesis.config.world := by
  refine ⟨List.isChain_nil, ?_, ?_, fun _ => rfl⟩
  · intro terms found
    cases found
  · intro move found
    cases found

theorem told_run {genesis : Genesis T S} {c : Config T}
    (reached : GuardedRun.Reaches (step S) (Free S) genesis.config c) : Told S c.world :=
  (everywhere_run told_stable (everywhere_genesis (told_genesis genesis))
    (fun _ _ free => free) reached).world

theorem fixed_of_told {w : World T} (told : Told S w) (sound : Sound S w) : Fixed S w := by
  intro earlier terms later split
  rcases later with _ | ⟨next, rest⟩
  · have final : w.moves.getLast? = some (.fund terms) := by rw [split, List.getLast?_concat]
    obtain ⟨holds, unpaid, -⟩ := told.stands terms final
    refine Or.inl ⟨rfl, holds, unpaid, ?_⟩
    intro honest
    rw [← holds] at honest ⊢
    exact sound.solvent honest unpaid
  · have chain := told.settled
    rw [split, List.isChain_append] at chain
    exact Or.inr ⟨next, rest, rfl, (List.isChain_cons_cons.mp chain.2.1).1 terms rfl⟩

theorem fund_accepts {w : World T} {caller : ContractAddress} {args : FundArgs}
    (positive : 0 < args.amount) (future : w.now < args.timelock) :
    fund S w caller args =
      .ok (w, ⟨args.token, caller, S.self, args.amount⟩, .fund caller args) := by
  simp only [fund, assert, positive, future, decide_true, if_true, ok_bind, pure_eq_ok]

theorem completes_moves {c c' : Config T} {label : Label T}
    (completes : completesFund S c label = true) (stepped : step S c label = some c') :
    ∃ terms, c'.world.moves = c.world.moves ++ [.fund terms] := by
  cases label with
  | enter caller call =>
      cases call with
      | fund args =>
          simp only [completesFund, Bool.and_eq_true, decide_eq_true_eq] at completes
          obtain ⟨⟨⟨positive, future⟩, honest⟩, accepts⟩ := completes
          rw [step] at stepped
          split_ifs at stepped
          cases stepped
          cases moved : T.transferFrom c.world.ledger S.self caller S.self args.amount with
          | error message =>
              rw [moved] at accepts
              cases accepts
          | ok ledger =>
              refine ⟨{ args with sender := caller }, ?_⟩
              simp only [called, enter, fund_accepts positive future, honest, if_true,
                Pending.asks, perform, moved, resume]
      | withdraw preimage => cases completes
      | refund => cases completes
  | returns =>
      obtain ⟨w, stack⟩ := c
      rcases stack with _ | ⟨⟨_ | pending, saved⟩, stack⟩
      · cases completes
      · cases completes
      · cases pending with
        | fund caller args =>
            cases stepped
            exact ⟨_, rfl⟩
        | withdraw receiver preimage => cases completes
        | refund sender => cases completes
  | token caller call => cases completes
  | foreign => cases completes
  | panics => cases completes
  | tick now => cases completes

/-- A funding written over an unpaid one leaves that one without its terms. -/
theorem not_fixed_of_overwritten {w w' : World T} {terms : Terms} (told : Told S w)
    (holds : locked w.htlc = true) (moves : w'.moves = w.moves ++ [.fund terms]) :
    ¬ Fixed S w' := by
  intro fixed
  obtain ⟨earlier, lost, split⟩ := funded_of_locked told holds
  rw [split, List.append_assoc, List.singleton_append] at moves
  rcases fixed earlier lost [.fund terms] moves with ⟨none, -⟩ | ⟨payout, rest, next, settles⟩
  · cases none
  · cases next
    exact settles

/-- In a run that never completes a funding over an unpaid one, every funding keeps its terms
and its tokens until its own payout; and the next step keeps them exactly when it does not
complete one either. -/
theorem terms_fixed_iff (genesis : Genesis T S) {c : Config T}
    (reached : GuardedRun.Reaches (step S) (Free S) genesis.config c) :
    Fixed S c.world ∧
      ∀ label c', step S c label = some c' → (Fixed S c'.world ↔ Free S c label) := by
  have told := told_run reached
  refine ⟨fixed_of_told told (sound_run reached), ?_⟩
  intro label c' stepped
  constructor
  · intro fixed completes
    by_contra holds
    obtain ⟨terms, moves⟩ := completes_moves completes stepped
    exact not_fixed_of_overwritten told (Bool.not_eq_false _ ▸ holds) moves fixed
  · intro free
    have next := reached.step free stepped
    exact fixed_of_told (told_run next) (sound_run next)

section Samples

/-- Account 13 funds in the honest token and account 15 withdraws; account 13 funds again and
takes the second funding back after its timelock. -/
def settledLabels : List (Label mockErc20) :=
  [.token 13 (.other (.approve 31 900)), .enter 13 (.fund ⟨15, 8, 200, 30, 500⟩),
    .enter 15 (.withdraw 7), .enter 13 (.fund ⟨15, 9, 200, 30, 400⟩), .tick 250,
    .enter 13 .refund]

theorem terms_fixed_settled :
    ∃ c, GuardedRun.Reaches (step sampleSetting) (Free sampleSetting) sampleGenesis.config c ∧
      c.world.moves.length = 4 ∧ Fixed sampleSetting c.world := by
  have ran : (GuardedRun.runIf (step sampleSetting)
      (fun c label => !(completesFund sampleSetting c label && locked c.world.htlc))
      sampleGenesis.config settledLabels).map (fun c => c.world.moves.length) = some 4 := by
    decide +kernel
  obtain ⟨c, ran, length⟩ := Option.map_eq_some_iff.mp ran
  have reached : GuardedRun.Reaches (step sampleSetting) (Free sampleSetting)
      sampleGenesis.config c := by
    refine GuardedRun.Reaches.start.of_runIf ?_ ran
    intro c label passed completes
    simpa [completes] using passed
  exact ⟨c, reached, length, (terms_fixed_iff sampleGenesis reached).1⟩

/-- Account 40 funds one unit of a token of its own while account 13's funding is unpaid: the
contract keeps the 500 and no longer says whom they belong to. -/
theorem terms_overwritten :
    ∃ c, GuardedRun.Reaches (step sampleSetting) (fun _ _ => True) sampleGenesis.config c ∧
      mockErc20.balance c.world.ledger sampleSetting.self = 500 ∧
      stored c.world.htlc = ⟨⟨41, 9, 300, 99, 1⟩, 40⟩ ∧ ¬ Fixed sampleSetting c.world := by
  have ran : (GuardedRun.run (step sampleSetting) sampleGenesis.config
      [.token 13 (.other (.approve 31 500)), .enter 13 (.fund ⟨15, 8, 200, 30, 500⟩),
        .enter 40 (.fund ⟨41, 9, 300, 99, 1⟩), .returns]).map
      (fun c => (c.world.moves, mockErc20.balance c.world.ledger sampleSetting.self,
        stored c.world.htlc)) =
      some ([.fund ⟨⟨15, 8, 200, 30, 500⟩, 13⟩, .fund ⟨⟨41, 9, 300, 99, 1⟩, 40⟩], 500,
        ⟨⟨41, 9, 300, 99, 1⟩, 40⟩) := by
    decide +kernel
  obtain ⟨c, ran, seen⟩ := Option.map_eq_some_iff.mp ran
  simp only [Prod.mk.injEq] at seen
  obtain ⟨moves, balance, terms⟩ := seen
  refine ⟨c, GuardedRun.Reaches.start.of_run (fun _ _ _ => trivial) ran, balance, terms, ?_⟩
  intro fixed
  rcases fixed [] _ _ moves with ⟨none, -⟩ | ⟨payout, rest, next, settles⟩
  · cases none
  · cases next
    exact settles

end Samples

end PrivateBtc.Contracts.HtlcTerms
