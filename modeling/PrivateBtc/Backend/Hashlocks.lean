/- PrivateBtc/Backend/Hashlocks
   digest: A stored hashlock opens alike on both sides only where the two paddings collide. -/

import Mathlib.Algebra.Group.Fin.Basic
import PrivateBtc.Backend.HtlcService
import PrivateBtc.Contracts.HtlcRuns
import PrivateBtc.Library.Sponge

set_option autoImplicit false
set_option relaxedAutoImplicit false

namespace PrivateBtc.Backend.Hashlocks

open Library Library.JsText Library.Outcome Library.Sponge
open Contracts.Corelib Contracts.HonestToken CryptoService HtlcService
open Contracts.Htlc (World withdraw)
open Contracts.HtlcRuns (Unpaid)

instance (priority := 2000) felt_one : One Felt := ⟨1⟩

abbrev Hades := Equiv.Perm (Words Felt)

theorem remainder_lt (value : Int) :
    (value % starkFieldPrime).toNat < 2 ^ 251 + 17 * 2 ^ 192 + 1 := by
  have positive : (0 : Int) < starkFieldPrime := by decide
  have below := Int.emod_lt_of_pos value positive
  have bounded : (value % starkFieldPrime).toNat < starkFieldPrime :=
    (Int.toNat_lt_of_ne_zero (by decide)).mpr below
  exact bounded

/-- The permutation's field reduces what it is given. -/
def fieldElement (value : Int) : Felt := ⟨(value % starkFieldPrime).toNat, remainder_lt value⟩

theorem fieldElement_val (x : Felt) : fieldElement (x.val : Int) = x := by
  have small : (x.val : Int) < starkFieldPrime := Int.ofNat_lt.mpr x.isLt
  apply Fin.ext
  show ((x.val : Int) % starkFieldPrime).toNat = x.val
  rw [Int.emod_eq_of_lt (Int.natCast_nonneg _) small, Int.toNat_natCast]

variable (P : Hades)

def computePoseidonHash (a b : Text) : Except String Text := do
  let x ← toBigInt a
  let y ← toBigInt b
  pure (hexText (hashPair P 2 (fieldElement x) (fieldElement y)).val)

/-- An environment with the hash of starknet.js over the permutation. -/
def starknetJs (base : Environment) : Environment :=
  { base with computePoseidonHash := computePoseidonHash P }

/-- A contract with Cairo's hash over the permutation. -/
def deployed (self token : ContractAddress) : Contracts.Htlc.Setting where
  self := self
  token := token
  poseidon := fun preimage => hashSpan P [preimage]

/-- The field element that a text stands for. -/
def reads (text : Text) : Option Felt := (bigInt text).map fieldElement

/-- The preimage that a creation hands out. -/
def preimageText (draw : Draw) : Text := '0' :: 'x' :: Hex.encode draw.preimage

/-- While the row is pending, the numerals of this element claim it and no other texts do. -/
def ClaimedBy (env : Environment) (htlcId hashlock : Text) (secret : Felt) : Prop :=
  ∀ later row, byId later htlcId = some row → row.status = .pending → row.hashlock = hashlock →
    ∀ preimage, (∃ done, claim env later ⟨none, none⟩ htlcId preimage = .ok done) ↔
      isNumeral preimage = true ∧ reads preimage = some secret

/-- While a funding under the hashlock is unpaid, this element passes and no other does. -/
def WithdrawnBy (S : Contracts.Htlc.Setting) (hashlock : Text) (secret : Felt) : Prop :=
  ∀ (T : Erc20) (w : World T), Unpaid w.htlc → reads hashlock = some w.htlc.hashlock →
    ∀ preimage, (∃ paying, withdraw S w preimage = .ok paying) ↔ preimage = secret

/-- The element's two padded states collide, and its pair with no state of another element. -/
structure Agrees (secret : Felt) : Prop where
  same : Collides P (secret, 0, 2) (secret, 1, 0)
  pairs : ∀ other, ¬ Collides P (secret, 0, 2) (other, 0, 2)
  spans : ∀ other, other ≠ secret → ¬ Collides P (secret, 0, 2) (other, 1, 0)

variable {P}

theorem reads_hexText (x : Felt) : reads (hexText x.val) = some x := by
  rw [reads, bigInt_hexText, Option.map_some, fieldElement_val]

theorem isNumeral_hexText (n : Nat) : isNumeral (hexText n) = true := by
  have digits : (Nat.toDigits 16 n).isEmpty = false := by
    rw [List.isEmpty_eq_false_iff]
    exact Nat.toDigits_ne_nil
  have hex : (Nat.toDigits 16 n).all (fun c => (digitIn 16 c).isSome) = true :=
    List.all_eq_true.mpr (digitIn_hex n)
  show ((!(hexText n).isEmpty && _) || (!(Nat.toDigits 16 n).isEmpty &&
    (Nat.toDigits 16 n).all fun c => (digitIn 16 c).isSome)) = true
  rw [digits, hex]
  exact Bool.or_true _

/-- The hash of a text with zero is the hash of the element that it stands for. -/
theorem computePoseidonHash_ok {preimage computed : Text} :
    computePoseidonHash P preimage ['0'] = .ok computed ↔
      ∃ x, reads preimage = some x ∧ computed = hexText (hashPair P 2 x 0).val := by
  have zero : toBigInt ['0'] = .ok 0 := rfl
  have nothing : fieldElement 0 = 0 := rfl
  cases read : bigInt preimage with
  | none => simp [computePoseidonHash, toBigInt, reads, read, bind, Except.bind]
  | some n =>
      rw [computePoseidonHash, toBigInt, read, ok_bind, zero, ok_bind, nothing, reads, read]
      simp [pure, Except.pure, eq_comm]

theorem claims_iff {base : Environment}
    (lower : ∀ n, base.toLowerCase (hexText n) = hexText n) {htlcs : Htlcs} {htlcId : Text}
    {row : HtlcRow} {secret : Felt} (found : byId htlcs htlcId = some row)
    (pending : row.status = .pending)
    (stored : row.hashlock = hexText (hashPair P 2 secret 0).val) (preimage : Text) :
    (∃ done, claim (starknetJs P base) htlcs ⟨none, none⟩ htlcId preimage = .ok done) ↔
      isNumeral preimage = true ∧
        ∃ x, reads preimage = some x ∧ hashPair P 2 x 0 = hashPair P 2 secret 0 := by
  rw [claim_accepts found pending, stored]
  apply and_congr_right
  intro _
  constructor
  · rintro ⟨computed, hashed, same⟩
    obtain ⟨x, read, rfl⟩ := computePoseidonHash_ok.mp hashed
    refine ⟨x, read, Fin.ext (hexText_injective ?_)⟩
    calc hexText (hashPair P 2 x 0).val
        = base.toLowerCase (hexText (hashPair P 2 x 0).val) := (lower _).symm
      _ = base.toLowerCase (hexText (hashPair P 2 secret 0).val) := same
      _ = hexText (hashPair P 2 secret 0).val := lower _
  · rintro ⟨x, read, same⟩
    refine ⟨_, computePoseidonHash_ok.mpr ⟨x, read, rfl⟩, ?_⟩
    rw [same]

theorem withdraws_iff {T : Erc20} {self token : ContractAddress} {w : World T}
    (unpaid : Unpaid w.htlc) (preimage : Felt) :
    (∃ paying, withdraw (deployed P self token) w preimage = .ok paying) ↔
      hashSpan P [preimage] = w.htlc.hashlock := by
  constructor
  · rintro ⟨⟨w', out, waiting⟩, accepted⟩
    exact (Contracts.HtlcRuns.withdraw_ok accepted).2.1
  · intro hash
    obtain ⟨withdrawn, refunded⟩ := unpaid
    have passed : (deployed P self token).poseidon preimage = w.htlc.hashlock := hash
    simp only [withdraw, withdrawn, refunded, passed, decide_true]
    exact ⟨_, rfl⟩

/-- Off chain the preimage is the only one exactly when its pair collides with no other. -/
theorem claimedBy_iff {base : Environment}
    (lower : ∀ n, base.toLowerCase (hexText n) = hexText n) {htlcs : Htlcs} {htlcId : Text}
    {row : HtlcRow} {secret : Felt} (found : byId htlcs htlcId = some row)
    (pending : row.status = .pending)
    (stored : row.hashlock = hexText (hashPair P 2 secret 0).val) :
    ClaimedBy (starknetJs P base) htlcId row.hashlock secret ↔
      ∀ other, ¬ Collides P (secret, 0, 2) (other, 0, 2) := by
  constructor
  · intro claimed other collides
    have opened := (claims_iff lower found pending stored (hexText other.val)).mpr
      ⟨isNumeral_hexText _, other, reads_hexText other, hashPair_eq_hashPair.mpr (Or.inr collides)⟩
    obtain ⟨-, read⟩ := (claimed htlcs row found pending rfl _).mp opened
    rw [reads_hexText, Option.some.injEq] at read
    subst read
    exact collides.1 rfl
  · intro alone later row' found' pending' same preimage
    rw [claims_iff lower found' pending' (same.trans stored)]
    apply and_congr_right
    intro _
    constructor
    · rintro ⟨x, read, meet⟩
      rcases hashPair_eq_hashPair.mp meet with rfl | collides
      · exact read
      · exact absurd collides (alone x)
    · intro read
      exact ⟨secret, read, rfl⟩

/-- A deployed contract whose storage holds an unpaid funding under the hashlock. -/
def fundedWorld (hashlock : Felt) : World mockErc20 :=
  { Contracts.HtlcRuns.sampleGenesis.config.world with
    htlc := ⟨13, 15, 500, hashlock, 200, 30, false, false⟩ }

/-- On chain it is the only one exactly when its pair collides with its own span and no other. -/
theorem withdrawnBy_iff {self token : ContractAddress} {secret : Felt} :
    WithdrawnBy (deployed P self token) (hexText (hashPair P 2 secret 0).val) secret ↔
      Collides P (secret, 0, 2) (secret, 1, 0) ∧
        ∀ other, other ≠ secret → ¬ Collides P (secret, 0, 2) (other, 1, 0) := by
  have opens : ∀ {T : Erc20} {w : World T}, Unpaid w.htlc →
      w.htlc.hashlock = hashPair P 2 secret 0 → ∀ preimage,
      (∃ paying, withdraw (deployed P self token) w preimage = .ok paying) ↔
        Collides P (secret, 0, 2) (preimage, 1, 0) := by
    intro T w unpaid stored preimage
    rw [withdraws_iff unpaid, stored]
    exact hashPair_eq_hashSpan
  constructor
  · intro withdrawn
    have funded : Unpaid (fundedWorld (hashPair P 2 secret 0)).htlc := ⟨rfl, rfl⟩
    have only := withdrawn _ _ funded (reads_hexText _)
    constructor
    · exact (opens funded rfl secret).mp ((only secret).mpr rfl)
    · intro other apart collides
      exact apart ((only other).mp ((opens funded rfl other).mpr collides))
  · rintro ⟨own, others⟩ T w unpaid stored preimage
    rw [reads_hexText, Option.some.injEq] at stored
    rw [opens unpaid stored.symm]
    constructor
    · intro collides
      by_contra apart
      exact others preimage apart collides
    · rintro rfl
      exact own

/-- What a creation stores opens on both sides for its preimage and no other if and only if the
preimage's two padded states collide under the permutation and its pair collides with no more. -/
theorem hashlock_opened_iff (P : Hades) (base : Environment)
    (lower : ∀ n, base.toLowerCase (hexText n) = hexText n) (self token : ContractAddress)
    {htlcs htlcs' : Htlcs} {draw : Draw} {faults : Faults} {sender receiver amount : Text}
    {timelock : Int} (created : create (starknetJs P base) htlcs draw faults sender receiver amount
      timelock = .ok htlcs') :
    ∃ row secret, byId htlcs' draw.uuid = some row ∧ row.status = .pending ∧
      reads (preimageText draw) = some secret ∧
      ((ClaimedBy (starknetJs P base) draw.uuid row.hashlock secret ∧
        WithdrawnBy (deployed P self token) row.hashlock secret) ↔ Agrees P secret) := by
  obtain ⟨hashlock, row, hashed, rfl, rows⟩ := create_row created
  obtain ⟨secret, read, rfl⟩ := computePoseidonHash_ok.mp hashed
  have found := byId_of_mem (show _ ∈ htlcs'.rows from
    rows ▸ List.mem_append_right _ List.mem_cons_self)
  refine ⟨_, secret, found, rfl, read, ?_⟩
  rw [claimedBy_iff lower found rfl rfl, withdrawnBy_iff]
  constructor
  · rintro ⟨pairs, same, spans⟩
    exact ⟨same, pairs, spans⟩
  · intro agrees
    exact ⟨agrees.pairs, agrees.same, agrees.spans⟩

/-- The bytes of the number 7. -/
def sevenDraw : Draw := ⟨0, List.replicate 30 0 ++ [7], ['h']⟩

def createSeven (P : Hades) : Except String Htlcs :=
  create (starknetJs P plainEnvironment) Table.empty sevenDraw ⟨none, none⟩ ['a'] ['b'] ['1'] 5

theorem hashlock_opened_identity : ∃ htlcs row, createSeven (Equiv.refl _) = .ok htlcs ∧
    byId htlcs ['h'] = some row ∧
      ClaimedBy (starknetJs (Equiv.refl _) plainEnvironment) ['h'] row.hashlock 7 ∧
      WithdrawnBy (deployed (Equiv.refl _) 31 30) row.hashlock 7 := by
  have made : ∃ htlcs, createSeven (Equiv.refl _) = .ok htlcs := by
    cases created : createSeven (Equiv.refl _) with
    | ok htlcs => exact ⟨htlcs, rfl⟩
    | error message =>
        have accepted : (createSeven (Equiv.refl _)).isOk = true := by decide +kernel
        rw [created] at accepted
        cases accepted
  obtain ⟨htlcs, created⟩ := made
  obtain ⟨row, secret, found, -, read, opened⟩ :=
    hashlock_opened_iff (Equiv.refl _) plainEnvironment toLowerCase_hexText 31 30 created
  have seven : reads (preimageText sevenDraw) = some 7 := by decide +kernel
  rw [seven, Option.some.injEq] at read
  subst read
  have agrees : Agrees (Equiv.refl _) 7 := by
    refine ⟨⟨by decide, rfl⟩, ?_, ?_⟩
    · rintro other ⟨apart, first⟩
      exact apart (congrArg (fun x => (x, 0, 2)) first)
    · rintro other apart ⟨-, first⟩
      exact apart first.symm
  exact ⟨htlcs, row, created, found, opened.mpr agrees⟩

/-- A permutation that adds the second word to the first. -/
def shear : Hades where
  toFun s := (s.1 + s.2.1, s.2)
  invFun s := (s.1 - s.2.1, s.2)
  left_inv _ := Prod.ext (add_sub_cancel_right _ _) rfl
  right_inv _ := Prod.ext (sub_add_cancel _ _) rfl

theorem hashlock_sheared : ∃ htlcs, createSeven shear = .ok htlcs ∧
    (byId htlcs ['h']).map (fun row => row.hashlock) = some ['0', 'x', '7'] ∧
    reads (preimageText sevenDraw) = some 7 ∧
    ¬ (ClaimedBy (starknetJs shear plainEnvironment) ['h'] ['0', 'x', '7'] 7 ∧
      WithdrawnBy (deployed shear 31 30) ['0', 'x', '7'] 7) := by
  have stored : (createSeven shear).toOption.bind (fun htlcs =>
      (byId htlcs ['h']).map fun row => row.hashlock) = some ['0', 'x', '7'] := by decide +kernel
  obtain ⟨htlcs, made, hashlock⟩ := Option.bind_eq_some_iff.mp stored
  have created : createSeven shear = .ok htlcs := by
    cases run : createSeven shear with
    | ok table =>
        rw [run] at made
        cases made
        rfl
    | error message =>
        rw [run] at made
        cases made
  refine ⟨htlcs, created, hashlock, by decide +kernel, ?_⟩
  rintro ⟨-, withdrawn⟩
  have funded : Unpaid (fundedWorld 7).htlc := ⟨rfl, rfl⟩
  have passes := (withdraws_iff funded 7).mp
    ((withdrawn _ (fundedWorld 7) funded (by decide +kernel) 7).mpr rfl)
  revert passes
  decide +kernel

end PrivateBtc.Backend.Hashlocks
