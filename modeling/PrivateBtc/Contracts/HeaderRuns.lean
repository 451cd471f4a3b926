/- PrivateBtc/Contracts/HeaderRuns
   digest: The header store over whole runs, and the roots that deposits were checked against. -/

import PrivateBtc.Contracts.VaultRuns

set_option autoImplicit false
set_option relaxedAutoImplicit false

namespace PrivateBtc.Contracts.HeaderRuns

open Library Library.Outcome Library.Transactional Corelib Vault VaultRuns
open HeaderStore (Headers getMerkleRoot storeHeader)
open Hashing (Digest HashFunction doubleSha256)
open MerkleProof (verifyMerkleProof)

abbrev Header := UInt64 × Digest

def storedBy : Call → Option Header
  | .storeHeader _ height merkleRoot => some (height, merkleRoot)
  | _ => none

/-- The headers that accepted calls have stored, oldest first. -/
def storedHeaders (past : Past) : List Header := past.filterMap fun entry => storedBy entry.2

/-- The newest root for a height. -/
def lastRoot (stored : List Header) (height : UInt64) : Option Digest :=
  (stored.reverse.find? fun header => header.1 == height).map Prod.snd

def announced (header : Header) : HeaderStore.Event := ⟨header.1, header.2.w0, header.2.w7⟩

/-- The storage of the header store, told by the headers stored so far. -/
structure Tells (relayer : ContractAddress) (stored : List Header) (headers : Headers) :
    Prop where
  relayer : headers.relayer = relayer
  known : ∀ height, headers.stored height = (lastRoot stored height).isSome
  roots : ∀ height root, lastRoot stored height = some root → headers.merkleRoots height = root
  bound : ∀ header ∈ stored, header.1 ≤ headers.latestHeight
  reached : headers.latestHeight = 0 ∨ ∃ header ∈ stored, header.1 = headers.latestHeight
  events : headers.events = stored.map announced

theorem storedHeaders_snoc (past : Past) (w : World) (call : Call) :
    storedHeaders (past ++ [(w, call)]) = storedHeaders past ++ (storedBy call).toList := by
  cases found : storedBy call <;> simp [storedHeaders, found]

theorem lastRoot_snoc (stored : List Header) (header : Header) (height : UInt64) :
    lastRoot (stored ++ [header]) height =
      if header.1 = height then some header.2 else lastRoot stored height := by
  unfold lastRoot
  rw [List.reverse_append, List.reverse_singleton, List.singleton_append, List.find?_cons]
  by_cases same : header.1 = height
  · simp [same]
  · rw [beq_eq_false_iff_ne.mpr same, if_neg same]

theorem storeHeader_ok {self headers : Headers} {caller : ContractAddress} {height : UInt64}
    {merkleRoot : Digest} (accepted : storeHeader self caller height merkleRoot = .ok headers) :
    caller = self.relayer ∧ headers = { self with
      merkleRoots := Function.update self.merkleRoots height merkleRoot
      stored := Function.update self.stored height true
      latestHeight := if height > self.latestHeight then height else self.latestHeight
      events := self.events ++ [announced (height, merkleRoot)] } := by
  simp only [storeHeader, bind_eq_ok, assert_ok, pure_eq_ok, Except.ok.injEq] at accepted
  obtain ⟨_, authorised, rfl⟩ := accepted
  exact ⟨of_decide_eq_true authorised, rfl⟩

theorem tells_store {relayer caller : ContractAddress} {stored : List Header}
    {self headers : Headers} {height : UInt64} {merkleRoot : Digest}
    (tells : Tells relayer stored self)
    (accepted : storeHeader self caller height merkleRoot = .ok headers) :
    caller = relayer ∧ Tells relayer (stored ++ [(height, merkleRoot)]) headers := by
  obtain ⟨authorised, rfl⟩ := storeHeader_ok accepted
  refine ⟨authorised.trans tells.relayer, tells.relayer, ?_, ?_, ?_, ?_, ?_⟩
  · intro other
    rw [lastRoot_snoc]
    dsimp only
    rw [Function.update_apply]
    by_cases same : height = other
    · simp [same]
    · rw [if_neg same, if_neg fun equal => same equal.symm]
      exact tells.known other
  · intro other root found
    rw [lastRoot_snoc] at found
    dsimp only at found ⊢
    rw [Function.update_apply]
    by_cases same : height = other
    · rw [if_pos same, Option.some.injEq] at found
      rw [if_pos same.symm, found]
    · rw [if_neg same] at found
      rw [if_neg fun equal => same equal.symm]
      exact tells.roots other root found
  · intro header member
    dsimp only
    rcases List.mem_append.mp member with old | new
    · have below := tells.bound header old
      split_ifs with higher
      · exact UInt64.le_of_lt (UInt64.lt_of_le_of_lt below higher)
      · exact below
    · rw [List.mem_singleton.mp new]
      split_ifs with higher
      · exact UInt64.le_refl height
      · exact UInt64.not_lt.mp higher
  · dsimp only
    split_ifs with higher
    · exact Or.inr ⟨(height, merkleRoot), List.mem_append_right _ List.mem_cons_self, rfl⟩
    · rcases tells.reached with fresh | ⟨header, member, top⟩
      · exact Or.inl fresh
      · exact Or.inr ⟨header, List.mem_append_left _ member, top⟩
  · rw [List.map_append, ← tells.events]
    rfl

/-- No other call of the three contracts reaches the header store. -/
theorem execute_headers {sha : HashFunction} {w w' : World} {call : Call}
    (other : storedBy call = none) (accepted : execute sha w call = .ok w') :
    w'.headers = w.headers := by
  cases call with
  | deposit caller args =>
      obtain ⟨_, token, -, -, -, -, -, -, -, -, rfl⟩ := deposit_ok accepted
      rfl
  | withdraw caller args =>
      obtain ⟨token, -, -, -, -, rfl⟩ := withdraw_ok accepted
      rfl
  | storeHeader caller height merkleRoot => cases other
  | transfer caller recipient amount =>
      simp only [execute, bind_eq_ok, pure_eq_ok, Except.ok.injEq] at accepted
      obtain ⟨token, -, rfl⟩ := accepted
      rfl
  | approve caller spender amount =>
      simp only [execute, bind_eq_ok, pure_eq_ok, Except.ok.injEq] at accepted
      obtain ⟨token, -, rfl⟩ := accepted
      rfl
  | transferFrom caller sender recipient amount =>
      simp only [execute, bind_eq_ok, pure_eq_ok, Except.ok.injEq] at accepted
      obtain ⟨token, -, rfl⟩ := accepted
      rfl
  | mint caller recipient amount =>
      simp only [execute, bind_eq_ok, pure_eq_ok, Except.ok.injEq] at accepted
      obtain ⟨token, -, rfl⟩ := accepted
      rfl

/-- A deposit was checked against the newest root that had been stored for its height. -/
def CheckedOn (sha : HashFunction) (earlier : Past) (args : DepositArgs) : Prop :=
  ∃ root, lastRoot (storedHeaders earlier) args.blockHeight = some root ∧
    verifyMerkleProof (doubleSha256 sha) (args.txid sha) args.merkleProof args.txPos root = true

/-- What every run keeps of the header store and of its readers. -/
structure Authentic (sha : HashFunction) (genesis : Genesis) (past : Past) (w : World) :
    Prop where
  tells : Tells genesis.relayer (storedHeaders past) w.headers
  callers : ∀ entry ∈ past, (storedBy entry.2).isSome = true → entry.2.caller = genesis.relayer
  checked : ∀ earlier before caller args later,
    past = earlier ++ (before, .deposit caller args) :: later → CheckedOn sha earlier args

theorem checkedOn_of_deposit {sha : HashFunction} {relayer : ContractAddress} {past : Past}
    {w w' : World} {args : DepositArgs} (tells : Tells relayer (storedHeaders past) w.headers)
    (accepted : deposit sha w args = .ok w') : CheckedOn sha past args := by
  obtain ⟨_, _, -, stored, -, included, -⟩ := deposit_ok accepted
  rw [tells.known] at stored
  obtain ⟨root, found⟩ := Option.isSome_iff_exists.mp stored
  rw [tells.roots _ root found] at included
  exact ⟨root, found, included⟩

/-- A splitting of a longer run is one of the run before it, or is at its last call. -/
theorem snoc_split {A : Type} {past earlier later : List A} {last entry : A}
    (same : past ++ [last] = earlier ++ entry :: later) :
    (∃ rest, past = earlier ++ entry :: rest) ∨ past = earlier ∧ last = entry := by
  rcases List.eq_nil_or_concat later with rfl | ⟨rest, end_, rfl⟩
  · obtain ⟨front, back⟩ := List.append_inj' same rfl
    exact Or.inr ⟨front, List.singleton_inj.mp back⟩
  · rw [List.concat_eq_append, ← List.cons_append, ← List.append_assoc] at same
    exact Or.inl ⟨rest, (List.append_inj' same rfl).1⟩

theorem authentic_step {sha : HashFunction} {genesis : Genesis} {past : Past} {w w' : World}
    {call : Call} (authentic : Authentic sha genesis past w)
    (accepted : execute sha w call = .ok w') :
    Authentic sha genesis (past ++ [(w, call)]) w' := by
  have store : Tells genesis.relayer (storedHeaders (past ++ [(w, call)])) w'.headers ∧
      ((storedBy call).isSome = true → call.caller = genesis.relayer) := by
    rw [storedHeaders_snoc]
    cases found : storedBy call with
    | none =>
        rw [execute_headers found accepted, Option.toList_none, List.append_nil]
        exact ⟨authentic.tells, fun stores => by cases stores⟩
    | some header =>
        cases call with
        | storeHeader caller height merkleRoot =>
            cases found
            simp only [execute, bind_eq_ok, pure_eq_ok, Except.ok.injEq] at accepted
            obtain ⟨headers, stored, rfl⟩ := accepted
            obtain ⟨authorised, tells⟩ := tells_store authentic.tells stored
            exact ⟨tells, fun _ => authorised⟩
        | _ => cases found
  refine ⟨store.1, ?_, ?_⟩
  · intro entry member stores
    rcases List.mem_append.mp member with old | new
    · exact authentic.callers entry old stores
    · rw [List.mem_singleton.mp new] at stores ⊢
      exact store.2 stores
  · intro earlier before caller args later same
    rcases snoc_split same with ⟨rest, split⟩ | ⟨rfl, last⟩
    · exact authentic.checked earlier before caller args rest split
    · cases last
      exact checkedOn_of_deposit authentic.tells accepted

theorem authentic_genesis (sha : HashFunction) (genesis : Genesis) :
    Authentic sha genesis [] genesis.world := by
  have deployed := genesis.deployed
  simp only [deploy, bind_eq_ok, pure_eq_ok, Except.ok.injEq] at deployed
  obtain ⟨token, -, start⟩ := deployed
  have fresh : genesis.world.headers = HeaderStore.constructor genesis.relayer :=
    (congrArg World.headers start).symm
  refine ⟨?_, ?_, ?_⟩
  · rw [fresh]
    refine ⟨rfl, fun _ => rfl, ?_, ?_, Or.inl rfl, rfl⟩
    · intro height root found
      cases found
    · intro header member
      cases member
  · intro entry member
    cases member
  · intro earlier before caller args later same
    simp at same

theorem authentic_run (sha : HashFunction) (genesis : Genesis) (calls : List Call) :
    Authentic sha genesis (history (execute sha) genesis.world calls)
      (run (execute sha) genesis.world calls) :=
  run_history_invariant (execute sha) (fun _ => True) (Authentic sha genesis)
    (fun _ _ _ _ authentic _ accepted => authentic_step authentic accepted) [] genesis.world
    (authentic_genesis sha genesis) calls fun _ _ => trivial

theorem getMerkleRoot_tells {relayer : ContractAddress} {stored : List Header} {headers : Headers}
    (tells : Tells relayer stored headers) (height : UInt64) :
    getMerkleRoot headers height =
      ((lastRoot stored height).elim (.error "Header not stored for height") .ok) := by
  have known := tells.known height
  cases found : lastRoot stored height with
  | none =>
      rw [found] at known
      simp [getMerkleRoot, known, assert]
  | some root =>
      rw [found] at known
      rw [HeaderStore.getMerkleRoot_of_stored known, tells.roots height root found]
      rfl

/-- After every run the header store answers with the newest root that the relayer stored, its
latest height is the greatest of the stored ones, and every deposit that was accepted was
checked against the newest root the relayer had stored by then. -/
theorem roots_authentic (sha : HashFunction) (genesis : Genesis) (calls : List Call) :
    let past := history (execute sha) genesis.world calls
    let headers := (run (execute sha) genesis.world calls).headers
    (∀ height, getMerkleRoot headers height =
      (lastRoot (storedHeaders past) height).elim (.error "Header not stored for height") .ok) ∧
    (∀ entry ∈ past, (storedBy entry.2).isSome = true → entry.2.caller = genesis.relayer) ∧
    ((∀ header ∈ storedHeaders past, header.1 ≤ headers.latestHeight) ∧
      (headers.latestHeight = 0 ∨
        ∃ header ∈ storedHeaders past, header.1 = headers.latestHeight)) ∧
    headers.events = (storedHeaders past).map announced ∧
    ∀ earlier before caller args later,
      past = earlier ++ (before, .deposit caller args) :: later → CheckedOn sha earlier args := by
  have authentic := authentic_run sha genesis calls
  exact ⟨getMerkleRoot_tells authentic.tells, authentic.callers,
    ⟨authentic.tells.bound, authentic.tells.reached⟩, authentic.tells.events, authentic.checked⟩

end PrivateBtc.Contracts.HeaderRuns
