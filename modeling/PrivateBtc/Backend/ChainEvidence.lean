/- PrivateBtc/Backend/ChainEvidence
   digest: What a receipt of the node proves about the chain: the deposit it is for was verified. -/

import PrivateBtc.Backend.VaultWrites

set_option autoImplicit false
set_option relaxedAutoImplicit false

namespace PrivateBtc.Backend.ChainEvidence

open Library Library.JsText Library.Outcome
open Calldata (Invocation readDeposit_spv)
open Contracts.Hashing (HashFunction)
open Contracts.RawTransaction (parseOutput)
open Contracts.Vault (Call DepositArgs Event World execute)
open Contracts.VaultRuns (execute_ok)
open Database Deposits Http Server Starknet VaultWrites

/-- The event of an accepted deposit call. -/
def depositEvent (args : DepositArgs) : Event :=
  .deposit args.commitment args.amountSats args.blockHeight

section Events

variable {sha : HashFunction} {w w' : World}

/-- A call takes back no event, and a deposit leaves its own. -/
theorem execute_events {call : Call} (accepted : execute sha w call = .ok w') :
    w.vault.events ⊆ w'.vault.events ∧
      ∀ caller args, call = .deposit caller args → depositEvent args ∈ w'.vault.events := by
  rcases execute_ok accepted with ⟨caller, args, rfl, made⟩ | ⟨caller, args, rfl, made⟩ |
    ⟨other, -, -, same, -⟩
  · obtain ⟨_, token, -, -, -, -, -, -, -, -, rfl⟩ := Contracts.Vault.deposit_ok made
    refine ⟨List.subset_append_left _ _, ?_⟩
    rintro _ _ ⟨⟩
    exact List.mem_append_right _ List.mem_cons_self
  · obtain ⟨token, -, -, -, -, rfl⟩ := Contracts.Vault.withdraw_ok made
    refine ⟨List.subset_append_left _ _, ?_⟩
    rintro _ _ ⟨⟩
  · refine ⟨by rw [same]; exact List.Subset.refl _, ?_⟩
    rintro caller args rfl
    cases other

/-- A transaction leaves the events of all its deposits. -/
theorem calls_events {calls : List Call} (ran : calls.foldlM (execute sha) w = .ok w') :
    w.vault.events ⊆ w'.vault.events ∧
      ∀ caller args, Call.deposit caller args ∈ calls → depositEvent args ∈ w'.vault.events := by
  induction calls generalizing w with
  | nil =>
      cases ran
      exact ⟨List.Subset.refl _, fun _ _ none => by cases none⟩
  | cons call calls ih =>
      rw [List.foldlM_cons, bind_eq_ok] at ran
      obtain ⟨w₁, first, rest⟩ := ran
      obtain ⟨kept, made⟩ := execute_events first
      obtain ⟨later, others⟩ := ih rest
      refine ⟨List.Subset.trans kept later, fun caller args member => ?_⟩
      rcases List.mem_cons.mp member with here | there
      · exact later (made caller args here.symm)
      · exact others caller args there

/-- A commitment serves one deposit. -/
structure Single (w : World) : Prop where
  registered : ∀ felt sats height, Event.deposit felt sats height ∈ w.vault.events →
    w.vault.commitments felt = true
  unique : ∀ felt a b height height', Event.deposit felt a height ∈ w.vault.events →
    Event.deposit felt b height' ∈ w.vault.events → a = b

theorem execute_single {call : Call} (single : Single w)
    (accepted : execute sha w call = .ok w') : Single w' := by
  rcases execute_ok accepted with ⟨caller, args, rfl, made⟩ | ⟨caller, args, rfl, made⟩ |
    ⟨-, -, -, same, -⟩
  · obtain ⟨_, token, fresh, -, -, -, -, -, -, -, rfl⟩ := Contracts.Vault.deposit_ok made
    have apart : ∀ felt sats height, Event.deposit felt sats height ∈ w.vault.events →
        felt ≠ args.commitment := by
      rintro felt sats height there rfl
      rw [single.registered _ sats height there] at fresh
      cases fresh
    have cases_ : ∀ felt sats height,
        Event.deposit felt sats height ∈ w.vault.events ++
          [Event.deposit args.commitment args.amountSats args.blockHeight] →
        Event.deposit felt sats height ∈ w.vault.events ∨
          felt = args.commitment ∧ sats = args.amountSats := by
      intro felt sats height member
      rcases List.mem_append.mp member with old | new
      · exact Or.inl old
      · cases List.mem_singleton.mp new
        exact Or.inr ⟨rfl, rfl⟩
    constructor
    · intro felt sats height member
      rcases cases_ felt sats height member with old | ⟨rfl, -⟩
      · simp [Contracts.Vault.deposited, Function.update_of_ne (apart felt sats height old),
          single.registered felt sats height old]
      · simp [Contracts.Vault.deposited]
    · intro felt a b height height' first second
      rcases cases_ felt a height first with old | ⟨rfl, rfl⟩
      · rcases cases_ felt b height' second with old' | ⟨rfl, -⟩
        · exact single.unique felt a b height height' old old'
        · exact absurd rfl (apart _ a height old)
      · rcases cases_ _ b height' second with old' | ⟨-, rfl⟩
        · exact absurd rfl (apart _ b height' old')
        · rfl
  · obtain ⟨token, -, -, -, -, rfl⟩ := Contracts.Vault.withdraw_ok made
    have old : ∀ felt sats height,
        Event.deposit felt sats height ∈ w.vault.events ++
          [Event.withdrawal args.nullifier args.recipient args.amount] →
        Event.deposit felt sats height ∈ w.vault.events := by
      intro felt sats height member
      rcases List.mem_append.mp member with old | new
      · exact old
      · cases List.mem_singleton.mp new
    exact ⟨fun felt sats height member => single.registered felt sats height (old _ _ _ member),
      fun felt a b height height' first second =>
        single.unique felt a b height height' (old _ _ _ first) (old _ _ _ second)⟩
  · constructor
    · rw [same]
      exact single.registered
    · rw [same]
      exact single.unique

theorem calls_single {calls : List Call} (single : Single w)
    (ran : calls.foldlM (execute sha) w = .ok w') : Single w' := by
  induction calls generalizing w with
  | nil =>
      cases ran
      exact single
  | cons call calls ih =>
      rw [List.foldlM_cons, bind_eq_ok] at ran
      obtain ⟨w₁, first, rest⟩ := ran
      exact ih (execute_single single first) rest

end Events

variable (env : Environment)

/-- The chain keeps the evidence of what it has included, and no hash stands for two
transactions. -/
structure Evident (chain : Chain) : Prop where
  events : ∀ hash held, chain.included hash = some held → held.succeeded = true →
    ∃ calls, held.calls = some calls ∧ ∀ caller args, Call.deposit caller args ∈ calls →
      depositEvent args ∈ chain.world.vault.events
  told : ∀ hash sent held, chain.submitted hash = some sent → chain.included hash = some held →
    held.calls = sent
  single : Single chain.world

/-- The transaction whose receipt a deposit handler waits for, with what it submitted. -/
def awaits : Task → Option (Text × Invocation)
  | .deposit (.waiting txHash _ (.spv body)) => some (txHash, .spvDeposit body.toSpvDepositParams)
  | .deposit (.waiting txHash _ (.relay relaying)) =>
      some (txHash,
        .mintAndDeposit env.vaultContractAddress relaying.body.commitment relaying.amountInWei)
  | _ => none

/-- The node answers a submission with a hash of its own, and shows a success only of a transaction
that is included and has succeeded. -/
def Honest (s : State) : Label → Prop
  | .reply id (.rpc (.executed (.ok txHash))) _ =>
      ∀ request task sent, s.tasks id = some (request, task) → invocation env task = some sent →
        s.chain.submitted (canonicalHash txHash) = none ∧
          ∀ held, s.chain.included (canonicalHash txHash) = some held →
            held.calls = sent.calls env.felts env.relayer
  | .reply id (.rpc (.receipt (.ok receipt))) _ =>
      receipt.succeeded = true → ∀ request task txHash, s.tasks id = some (request, task) →
        asksReceipt task = some txHash →
          ∃ held, s.chain.included (canonicalHash txHash) = some held ∧ held.succeeded = true
  | _ => True

/-- The state of the chain and of the handlers that wait for it. -/
structure Traced (s : State) : Prop where
  evident : Evident s.chain
  sent : ∀ id request task txHash sent, s.tasks id = some (request, task) →
    awaits env task = some (txHash, sent) →
    s.chain.submitted (canonicalHash txHash) = some (sent.calls env.felts env.relayer)

variable {env} {s s' : State} {label : Label}

/-- The world of the chain after a transaction: it runs through, or nothing changes. -/
theorem includeCalls_cases (chain : Chain) (hash : Text) (held : Option (List Call)) :
    (∃ calls w', held = some calls ∧ calls.foldlM (execute env.sha) chain.world = .ok w' ∧
      includeCalls env chain hash held =
        { chain with
          world := w'
          included := Function.update chain.included hash (some ⟨held, true⟩) }) ∨
      includeCalls env chain hash held =
        { chain with included := Function.update chain.included hash (some ⟨held, false⟩) } := by
  cases held with
  | none => exact Or.inr rfl
  | some calls =>
      cases ran : calls.foldlM (execute env.sha) chain.world with
      | error message =>
          right
          simp [includeCalls, ran, Except.toOption]
      | ok w' =>
          refine Or.inl ⟨calls, w', rfl, ran, ?_⟩
          simp [includeCalls, ran, Except.toOption]

theorem includeCalls_events (chain : Chain) (hash : Text) (held : Option (List Call)) :
    chain.world.vault.events ⊆ (includeCalls env chain hash held).world.vault.events := by
  rcases includeCalls_cases chain hash held with ⟨calls, w', -, ran, same⟩ | same
  · rw [same]
    exact (calls_events ran).1
  · rw [same]
    exact List.Subset.refl _

theorem includeCalls_evident {chain : Chain} {hash : Text} {held : Option (List Call)}
    (evident : Evident chain) (own : ∀ sent, chain.submitted hash = some sent → held = sent) :
    Evident (includeCalls env chain hash held) := by
  have old : ∀ other included, chain.included other = some included → included.succeeded = true →
      ∃ calls, included.calls = some calls ∧ ∀ caller args, Call.deposit caller args ∈ calls →
        depositEvent args ∈ (includeCalls env chain hash held).world.vault.events := by
    intro other included there succeeded
    obtain ⟨calls, told, left⟩ := evident.events other included there succeeded
    exact ⟨calls, told, fun caller args member =>
      includeCalls_events chain hash held (left caller args member)⟩
  have told : ∀ good other sent included, chain.submitted other = some sent →
      Function.update chain.included hash (some ⟨held, good⟩) other = some included →
        included.calls = sent := by
    intro good other sent included submitted there
    rw [Function.update_apply] at there
    split_ifs at there with here
    · cases there
      exact own sent (here ▸ submitted)
    · exact evident.told other sent included submitted there
  rcases includeCalls_cases chain hash held with ⟨calls, w', rfl, ran, same⟩ | same
  · rw [same] at old ⊢
    refine ⟨?_, told true, calls_single evident.single ran⟩
    intro other included there succeeded
    dsimp only at there
    rw [Function.update_apply] at there
    split_ifs at there
    · cases there
      exact ⟨calls, rfl, (calls_events ran).2⟩
    · exact old other included there succeeded
  · rw [same] at old ⊢
    refine ⟨?_, told false, evident.single⟩
    intro other included there succeeded
    dsimp only at there
    rw [Function.update_apply] at there
    split_ifs at there
    · cases there
      cases succeeded
    · exact old other included there succeeded

/-- An honest answer submits under a hash of its own, or nothing. -/
theorem submit_cases {id : Nat} {request : Request} {task : Task} {reply : Reply}
    {moment : Moment} (honest : Honest env s (.reply id reply moment))
    (waits : s.tasks id = some (request, task)) :
    submit env s.chain task reply = s.chain ∨
      ∃ txHash sent, reply = .rpc (.executed (.ok txHash)) ∧ invocation env task = some sent ∧
        submit env s.chain task reply =
          { s.chain with
            submitted := Function.update s.chain.submitted (canonicalHash txHash)
              (some (sent.calls env.felts env.relayer)) } ∧
        s.chain.submitted (canonicalHash txHash) = none ∧
        ∀ held, s.chain.included (canonicalHash txHash) = some held →
          held.calls = sent.calls env.felts env.relayer := by
  unfold submit
  split
  · next txHash =>
    split
    · next sent asked =>
      obtain ⟨fresh, same⟩ := honest request task sent waits asked
      exact Or.inr ⟨txHash, sent, rfl, asked, rfl, fresh, same⟩
    · exact Or.inl rfl
  · exact Or.inl rfl

theorem submit_evident {id : Nat} {request : Request} {task : Task} {reply : Reply}
    {moment : Moment} (evident : Evident s.chain) (honest : Honest env s (.reply id reply moment))
    (waits : s.tasks id = some (request, task)) : Evident (submit env s.chain task reply) := by
  rcases submit_cases honest waits with same | ⟨txHash, sent, -, -, told, fresh, own⟩
  · rw [same]
    exact evident
  · rw [told]
    refine ⟨evident.events, fun hash other held submitted there => ?_, evident.single⟩
    dsimp only at submitted
    rw [Function.update_apply] at submitted
    split_ifs at submitted with here
    · cases submitted
      exact own held (here ▸ there)
    · exact evident.told hash other held submitted there

theorem resume_deposit {moment : Moment} {nextRequest : Nat} {db : Db} {task : Task}
    {reply : Reply} {turn : SystemTurn} {later : DepositTask}
    (resumed : resume env moment nextRequest db task reply = some turn)
    (next : turn.next = some (.deposit later)) :
    ∃ t rpc after, task = .deposit t ∧ reply = .rpc rpc ∧
      resumeDeposit env.toConfig moment db t rpc = some after ∧ after.next = some later := by
  cases resume_resumed env resumed with
  | @deposit t rpc after went =>
      obtain ⟨_, told, same⟩ := lift_next.mp next
      cases same
      exact ⟨t, rpc, after, rfl, rfl, went, told⟩
  | _ =>
      obtain ⟨_, _, told⟩ := Option.map_eq_some_iff.mp next
      cases told

/-- A request comes to wait for no receipt of a submission. -/
theorem begin_awaits {moment : Moment} {issued : List ProofVerifier.ProofToken} {db : Db}
    {request : Request} {later : Task}
    (next : (begin env moment issued db request).next = some later) : awaits env later = none := by
  cases later with
  | deposit t => cases begin_deposit env next <;> rfl
  | _ => rfl

theorem settle_traced {id : Nat} {request : Request} {turn : SystemTurn} (traced : Traced env s)
    (next : ∀ later txHash sent, turn.next = some later → awaits env later = some (txHash, sent) →
      s.chain.submitted (canonicalHash txHash) = some (sent.calls env.felts env.relayer)) :
    Traced env (settle s id request turn) := by
  refine ⟨traced.evident, ?_⟩
  intro other asked task txHash sent waits told
  rw [settle_tasks] at waits
  split_ifs at waits
  · obtain ⟨later, waits, same⟩ := Option.map_eq_some_iff.mp waits
    cases same
    exact next task txHash sent waits told
  · exact traced.sent other asked task txHash sent waits told

/-- A submission that is waited for keeps its hash to itself. -/
theorem submit_kept {id : Nat} {request : Request} {task : Task} {reply : Reply}
    {moment : Moment} (honest : Honest env s (.reply id reply moment))
    (waits : s.tasks id = some (request, task)) {hash : Text} {sent : Option (List Call)}
    (submitted : s.chain.submitted hash = some sent) :
    (submit env s.chain task reply).submitted hash = some sent := by
  rcases submit_cases honest waits with same | ⟨txHash, _, -, -, told, fresh, -⟩
  · rw [same]
    exact submitted
  · rw [told]
    dsimp only
    rw [Function.update_of_ne, submitted]
    rintro rfl
    rw [fresh] at submitted
    cases submitted

theorem hear_traced {id : Nat} {request : Request} {task : Task} {reply : Reply}
    {moment : Moment} (traced : Traced env s) (honest : Honest env s (.reply id reply moment))
    (waits : s.tasks id = some (request, task)) : Traced env (hear env s task reply) :=
  ⟨submit_evident traced.evident honest waits, fun other asked held txHash sent there told =>
    submit_kept honest waits (traced.sent other asked held txHash sent there told)⟩

theorem step_traced (traced : Traced env s) (honest : Honest env s label)
    (stepped : step env s label = some s') : Traced env s' := by
  cases step_stepped env stepped with
  | request idle =>
      refine settle_traced traced fun later txHash sent next told => ?_
      rw [begin_awaits next] at told
      cases told
  | @reply id request task reply moment turn waits resumed =>
      refine settle_traced (hear_traced traced honest waits) fun later txHash sent next told => ?_
      have deposits : ∃ t, later = .deposit t := by
        cases later with
        | deposit t => exact ⟨t, rfl⟩
        | _ => cases told
      obtain ⟨t, rfl⟩ := deposits
      obtain ⟨before, rpc, after, rfl, rfl, went, waits'⟩ := resume_deposit resumed next
      cases t with
      | waiting hash attempt confirmed =>
          cases resumeDeposit_awaiting _ _ went waits' with
          | again was =>
              subst was
              refine submit_kept honest waits (traced.sent id request _ txHash sent waits ?_)
              cases confirmed <;> exact told
          | spv was answer =>
              subst was answer
              cases told
              exact Function.update_self ..
          | relay was answer =>
              subst was answer
              cases told
              exact Function.update_self ..
      | _ => cases told
  | timeout waits expired =>
      refine settle_traced traced fun later txHash sent next told => ?_
      obtain ⟨t, rfl⟩ := expire_next expired next
      cases told
  | land => exact ⟨traced.evident, traced.sent⟩
  | @block txHash calls fresh =>
      refine ⟨includeCalls_evident traced.evident ?_, ?_⟩
      · intro sent submitted
        rw [submitted]
        rfl
      · intro id request task hash sent waits told
        rcases includeCalls_cases s.chain (canonicalHash txHash)
          ((s.chain.submitted (canonicalHash txHash)).getD calls) with ⟨_, w', -, -, same⟩ | same
        · rw [same]
          exact traced.sent id request task hash sent waits told
        · rw [same]
          exact traced.sent id request task hash sent waits told

theorem boot_traced (genesis : Contracts.Vault.Genesis) : Traced env (boot genesis) := by
  refine ⟨⟨?_, ?_, ?_⟩, ?_⟩
  · intro hash held there
    cases there
  · intro hash sent held submitted
    cases submitted
  · have deployed := genesis.deployed
    simp only [Contracts.Vault.deploy, bind_eq_ok, pure_eq_ok, Except.ok.injEq] at deployed
    obtain ⟨token, -, start⟩ := deployed
    have silent : (boot genesis).chain.world.vault.events = [] :=
      (congrArg (fun w : World => w.vault.events) start).symm
    constructor
    · intro felt sats height there
      rw [silent] at there
      cases there
    · intro felt a b height height' there
      rw [silent] at there
      cases there
  · intro id request task txHash sent waits
    cases waits

/-- The satoshis of the output that a deposit request names. -/
def outputSats (body : SpvDepositBody) : Nat :=
  match parseOutput body.rawTxBytes body.voutIndex with
  | .ok (amountSats, _) => amountSats
  | .error _ => 0

/-- The vault contract has verified an output of so many satoshis for the commitment. -/
def Verified (env : Environment) (chain : Chain) (commitment : Text) (sats : Nat) : Prop :=
  ∃ felt height, env.felts.felt commitment = some felt ∧
    Event.deposit felt sats height ∈ chain.world.vault.events

theorem Verified.unique {chain : Chain} {commitment : Text} {a b : Nat} (evident : Evident chain)
    (first : Verified env chain commitment a) (second : Verified env chain commitment b) : a = b := by
  obtain ⟨felt, height, read, there⟩ := first
  obtain ⟨felt', height', read', there'⟩ := second
  cases read.symm.trans read'
  exact evident.single.unique felt a b height height' there there'

section Receipts

variable {id attempt : Nat} {request : Request} {moment : Moment} {receipt : TransactionReceipt}
  {txHash : Text}

/-- A shown success is that of the transaction that the handler has submitted. -/
theorem shown_included {task : Task} {sent : Invocation} (traced : Traced env s)
    (honest : Honest env s (.reply id (.rpc (.receipt (.ok receipt))) moment))
    (waits : s.tasks id = some (request, task)) (awaited : awaits env task = some (txHash, sent))
    (asked : asksReceipt task = some txHash) (succeeded : receipt.succeeded = true) :
    ∃ calls, sent.calls env.felts env.relayer = some calls ∧
      ∀ caller args, Call.deposit caller args ∈ calls → depositEvent args ∈ s.chain.world.vault.events := by
  obtain ⟨held, there, good⟩ := honest succeeded request task txHash waits asked
  have own := traced.evident.told _ _ held (traced.sent id request task txHash sent waits awaited)
    there
  obtain ⟨calls, told, left⟩ := traced.evident.events _ held there good
  exact ⟨calls, own.symm.trans told, left⟩

/-- The receipt of spv-deposit proves that the output of its body was verified. -/
theorem spv_verified {body : SpvDepositBody} (traced : Traced env s)
    (honest : Honest env s (.reply id (.rpc (.receipt (.ok receipt))) moment))
    (waits : s.tasks id = some (request, .deposit (.waiting txHash attempt (.spv body))))
    (succeeded : receipt.succeeded = true) :
    Verified env s.chain body.commitment (outputSats body) := by
  obtain ⟨calls, read, left⟩ := shown_included traced honest waits rfl rfl succeeded
  obtain ⟨args, rfl, felt, rawTx, vout⟩ := readDeposit_spv read
  have amount : args.amountSats = outputSats body := by
    rw [DepositArgs.amountSats, rawTx, vout]
    rfl
  refine ⟨args.commitment, args.blockHeight, felt, ?_⟩
  rw [← amount]
  exact left env.relayer args List.mem_cons_self

/-- The calldata of the old multicall cannot be read, so no receipt shows its success. -/
theorem relay_unconfirmed {relaying : Relaying} (traced : Traced env s)
    (honest : Honest env s (.reply id (.rpc (.receipt (.ok receipt))) moment))
    (waits : s.tasks id = some (request, .deposit (.waiting txHash attempt (.relay relaying)))) :
    receipt.succeeded = false := by
  by_contra succeeded
  rw [Bool.not_eq_false] at succeeded
  obtain ⟨calls, read, -⟩ := shown_included traced honest waits rfl rfl succeeded
  simp only [Invocation.calls, List.mapM_cons, List.mapM_nil, Option.bind_eq_bind,
    Option.bind_eq_some_iff, Option.pure_def, Option.some.injEq] at read
  obtain ⟨-, -, -, -, -, -, -, ⟨felt, -, _, rfl, rfl⟩, args, decoded, -⟩ := read
  cases decoded

end Receipts

end PrivateBtc.Backend.ChainEvidence
