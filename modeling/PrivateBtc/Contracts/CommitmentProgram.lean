/- PrivateBtc/Contracts/CommitmentProgram
   digest: The compiled commitment program attests on the Cairo machine what its source computes. -/

import PrivateBtc.Contracts.CompiledCircuit

set_option autoImplicit false
set_option relaxedAutoImplicit false

namespace PrivateBtc.Contracts.CommitmentProgram

open Corelib Library.CairoVm
open CompiledCircuit (Segment PedersenBuiltin felt_inj)
open scoped Fin.CommRing

section Source

variable (pedersen : Felt → Felt → Felt)

/-- `starkware.cairo.common.hash.hash2` -/
def hash2 (x y : Felt) : Felt := pedersen x y

/-- What `main` of `commitment.cairo` writes to the output, on the two private inputs. -/
def main (secret salt : Felt) : List Felt :=
  let commitment := hash2 pedersen secret salt
  [commitment]

end Source

/-- The data of `commitment_compiled.json`: `hash2` at word 0, `main` at word 6. -/
def data : List Nat :=
  [0x400380007ffb7ffc, 0x400380017ffb7ffd, 0x482680017ffb8000, 0x3, 0x480280027ffb8000,
    0x208b7fff7fff7ffe, 0x40780017fff7fff, 0x2, 0x480a7ffd7fff8000, 0x480a80007fff8000,
    0x480a80017fff8000, 0x1104800180018000,
    0x800000000000010fffffffffffffffffffffffffffffffffffffffffffffff6, 0x400280007ffc7fff,
    0x482680017ffc8000, 0x1, 0x48127ffd7fff8000, 0x208b7fff7fff7ffe]

/-- The jump from word 11 back to word 0. -/
def back11 : Nat := 0x800000000000010fffffffffffffffffffffffffffffffffffffffffffffff6

/-- The data as assembly, but for its last word. -/
def assembly : List (Nat × Instruction) :=
  [(0, .assertEq (fp (-4)) (.double (fp (-5)) 0) false),
    (1, .assertEq (fp (-3)) (.double (fp (-5)) 1) false),
    (2, push (.add (fp (-5)) (.immediate 3))), (4, push (.double (fp (-5)) 2)), (5, .ret),
    (6, .advance (imm 2)), (8, push (cell (fp (-3)))), (9, push (cell (fp 0))),
    (10, push (cell (fp 1))), (11, .call (imm back11) true),
    (13, .assertEq (ap (-1)) (.double (fp (-4)) 0) false),
    (14, push (.add (fp (-4)) (.immediate 1))), (16, push (cell (ap (-3))))]

def listing (k : Nat) : Option Instruction := if k = 17 then some .ret else assembly.lookup k

theorem assembly_decodes : ∀ entry ∈ assembly, ∃ word next, data[entry.1]? = some word ∧
    data[entry.1 + 1]? = some next ∧ decode word next = some entry.2 := by
  have checked : ∀ entry ∈ assembly, ((data[entry.1]?.bind fun word =>
      data[entry.1 + 1]?.bind fun next => decode word next) == some entry.2) = true := by
    decide +kernel
  intro entry member
  have decoded := checked entry member
  simp only [beq_iff_eq, Option.bind_eq_some_iff] at decoded
  obtain ⟨word, here, next, after, decoded⟩ := decoded
  exact ⟨word, next, here, after, decoded⟩

/-- The last word is a return, whatever follows the program in memory. -/
theorem ret_decodes (next : Nat) : decode 0x208b7fff7fff7ffe next = some .ret := rfl

section Blocks

variable {m : Felt → Felt} {value : Felt → Nat} {p f : Felt} {stop : Nat} {t : Registers Felt}
  (program : Program m value listing p stop) (beyond : 18 ≤ stop)
include program beyond

theorem main_iff :
    Halts m value (p + stop) t (place p f 6 0 0) ↔
      stack m f 2 = stack m f (-3) ∧ stack m f 3 = stack m f 0 ∧ stack m f 4 = stack m f 1 ∧
        stack m f 5 = f + (0 : Int) ∧ stack m f 6 = p + (13 : Nat) ∧
          Halts m value (p + stop) t (place p f (11 + back11) 7 7) := by
  rw [program.advance_iff (k := 6) rfl (by omega),
    program.assertEq_iff (k := 8) (n := 9) rfl (by omega) rfl,
    program.assertEq_iff (k := 9) (n := 10) rfl (by omega) rfl,
    program.assertEq_iff (k := 10) (n := 11) rfl (by omega) rfl,
    program.call_iff (k := 11) rfl (by omega)]
  simp only [stack_ap, stack_fp, Value.eval, Operand.eval, Bool.toNat_true,
    Nat.cast_ofNat, Nat.cast_one, Int.reduceAdd, Int.reduceNeg, Nat.reduceAdd, zero_add, add_zero]

omit program beyond in
/-- The jump goes round the field to `hash2`. -/
theorem place_hash2 (i j : Int) : place p f (11 + back11) i j = place p f 0 i j := by
  have round : ((11 + back11 : Nat) : Felt) = ((0 : Nat) : Felt) := by
    apply Fin.ext
    rw [Fin.val_natCast, Fin.val_natCast]
    norm_num [back11]
  rw [place, place, round]

theorem hash2_iff (back : stack m f 6 = p + (13 : Nat)) (frame : stack m f 5 = f + (0 : Int)) :
    Halts m value (p + stop) t (place p f 0 7 7) ↔
      stack m f 3 = m (stack m f 2 + (0 : Int)) ∧ stack m f 4 = m (stack m f 2 + (1 : Int)) ∧
        stack m f 7 = stack m f 2 + (3 : Nat) ∧ stack m f 8 = m (stack m f 2 + (2 : Int)) ∧
          Halts m value (p + stop) t (place p f 13 9 0) := by
  rw [program.assertEq_iff (k := 0) (n := 1) rfl (by omega) rfl,
    program.assertEq_iff (k := 1) (n := 2) rfl (by omega) rfl,
    program.assertEq_iff (k := 2) (n := 4) rfl (by omega) rfl,
    program.assertEq_iff (k := 4) (n := 5) rfl (by omega) rfl,
    program.ret_iff (k := 5) rfl (by omega) back frame]
  simp only [stack_ap, stack_fp, Value.eval, Operand.eval, Bool.toNat_true, Bool.toNat_false,
    Nat.cast_ofNat, Nat.cast_one, Nat.cast_zero, Int.reduceAdd, Int.reduceNeg, add_zero]

theorem exit_iff {j : Int} (back : stack m f (-1) = p + stop) (frame : stack m f (-2) = f + j) :
    Halts m value (p + stop) t (place p f 13 9 0) ↔
      stack m f 8 = m (stack m f (-4) + (0 : Int)) ∧ stack m f 9 = stack m f (-4) + (1 : Nat) ∧
        stack m f 10 = stack m f 7 ∧ t = place p f stop 11 j := by
  rw [program.assertEq_iff (k := 13) (n := 14) rfl (by omega) rfl,
    program.assertEq_iff (k := 14) (n := 16) rfl (by omega) rfl,
    program.assertEq_iff (k := 16) (n := 17) rfl (by omega) rfl,
    program.ret_iff (k := 17) (j := 0) rfl (by omega) back frame, halts_final rfl]
  simp only [stack_ap, stack_fp, Value.eval, Operand.eval, Bool.toNat_true, Bool.toNat_false,
    Nat.cast_one, Nat.cast_zero, Int.reduceAdd, Int.reduceNeg, add_zero, zero_add]

end Blocks

/-- What the prover has to fill in, one equation for each instruction of an accepting run. -/
structure Trace (m : Felt → Felt) (p f : Felt) : Prop where
  pushed : stack m f 2 = stack m f (-3) ∧ stack m f 3 = stack m f 0 ∧ stack m f 4 = stack m f 1
  called : stack m f 5 = f + (0 : Int) ∧ stack m f 6 = p + (13 : Nat)
  operands : stack m f 3 = m (stack m f 2 + (0 : Int)) ∧ stack m f 4 = m (stack m f 2 + (1 : Int))
  hashed : stack m f 7 = stack m f 2 + (3 : Nat) ∧ stack m f 8 = m (stack m f 2 + (2 : Int))
  output : stack m f 8 = m (stack m f (-4) + (0 : Int)) ∧
    stack m f 9 = stack m f (-4) + (1 : Nat) ∧ stack m f 10 = stack m f 7

/-- A run of `main` that is over, as its proof attests it: the runner has put the pointers of the
output and the builtin and the return address below `f`, and the hint the private inputs at `f`. -/
structure Executes (pedersen : Felt → Felt → Felt) (m : Felt → Felt) (p f final : Felt)
    (t : Registers Felt) (secret salt : Felt) (output : List Felt) : Prop where
  loaded : Loaded m Fin.val data p
  outside : ∀ k < 18, p + (k : Nat) ≠ final
  returns : m (f - 1) = final
  halts : Halts m Fin.val final t ⟨p + (6 : Nat), f, f⟩
  inputs : m f = secret ∧ m (f + 1) = salt
  output : Segment m (m (f - 4)) (m (t.ap - 2)) output
  builtin : ∃ uses, PedersenBuiltin pedersen m (m (f - 3)) (m (t.ap - 1)) uses

section Executions

variable {pedersen : Felt → Felt → Felt} {m : Felt → Felt} {p f : Felt} {stop : Nat} {j : Int}
  {t : Registers Felt}

theorem program_of_loaded (loaded : Loaded m Fin.val data p)
    (outside : ∀ k < 18, p + (k : Nat) ≠ p + (stop : Nat)) :
    Program m Fin.val listing p stop := by
  have inside : ∀ entry ∈ assembly, entry.1 < 17 := by decide
  have listed : ∀ k instruction, k ≠ 17 → listing k = some instruction →
      (k, instruction) ∈ assembly := by
    intro k instruction inner found
    rw [listing, if_neg inner] at found
    obtain ⟨before, after, split, -⟩ := List.lookup_eq_some_iff.mp found
    rw [split]
    exact List.mem_append_right _ List.mem_cons_self
  constructor
  · intro k instruction found
    by_cases last : k = 17
    · subst last
      cases found
      rw [loaded 17 _ rfl]
      exact ret_decodes _
    · obtain ⟨word, next, here, after, decoded⟩ := assembly_decodes _ (listed k _ last found)
      have second : p + (k : Nat) + 1 = p + ((k + 1 : Nat) : Felt) := by
        push_cast
        ring
      rw [loaded k word here, second, loaded (k + 1) next after, decoded]
  · intro k known _
    obtain ⟨instruction, found⟩ := Option.isSome_iff_exists.mp known
    apply outside k
    by_cases last : k = 17
    · omega
    · have small := inside _ (listed k instruction last found)
      dsimp only at small
      omega

theorem halts_iff_trace (program : Program m Fin.val listing p stop) (beyond : 18 ≤ stop)
    (back : stack m f (-1) = p + (stop : Nat)) (frame : stack m f (-2) = f + j) :
    Halts m Fin.val (p + (stop : Nat)) t (place p f 6 0 0) ↔
      Trace m p f ∧ t = place p f stop 11 j := by
  rw [main_iff program beyond]
  constructor
  · rintro ⟨pointer, secret, salt, base, outer, halts⟩
    rw [place_hash2, hash2_iff program beyond outer base, exit_iff program beyond back frame]
      at halts
    obtain ⟨left, right, used, hash, written, last, pushed, ends⟩ := halts
    exact ⟨⟨⟨pointer, secret, salt⟩, ⟨base, outer⟩, ⟨left, right⟩, ⟨used, hash⟩,
      ⟨written, last, pushed⟩⟩, ends⟩
  · rintro ⟨⟨⟨pointer, secret, salt⟩, ⟨base, outer⟩, ⟨left, right⟩, ⟨used, hash⟩,
      ⟨written, last, pushed⟩⟩, rfl⟩
    refine ⟨pointer, secret, salt, base, outer, ?_⟩
    rw [place_hash2, hash2_iff program beyond outer base, exit_iff program beyond back frame]
    exact ⟨left, right, used, hash, written, last, pushed, rfl⟩

/-- The cells that the runner reads are cells of the stack. -/
theorem stack_cells (m : Felt → Felt) (p f : Felt) (stop : Nat) (j : Int) :
    m f = stack m f 0 ∧ m (f + 1) = stack m f 1 ∧ m (f - 1) = stack m f (-1) ∧
      m (f - 2) = stack m f (-2) ∧ m (f - 3) = stack m f (-3) ∧ m (f - 4) = stack m f (-4) ∧
        m ((place p f stop 11 j).ap - 2) = stack m f 9 ∧
          m ((place p f stop 11 j).ap - 1) = stack m f 10 := by
  have below : ∀ n : Nat, f - (n : Felt) = f + ((-n : Int) : Felt) := by
    intro n
    push_cast
    ring
  have top : ∀ n : Nat, f + ((11 : Int) : Felt) - (n : Felt) = f + ((11 - n : Int) : Felt) := by
    intro n
    push_cast
    ring
  refine ⟨?_, ?_, ?_, ?_, ?_, ?_, ?_, ?_⟩
  · simp [stack]
  · simp [stack]
  · have one := below 1
    rw [Nat.cast_one] at one
    exact congrArg m one
  · exact congrArg m (below 2)
  · exact congrArg m (below 3)
  · exact congrArg m (below 4)
  · exact congrArg m (top 2)
  · have one := top 1
    rw [Nat.cast_one] at one
    exact congrArg m one

theorem halts_of_returns {final : Felt} (loaded : Loaded m Fin.val data p)
    (outside : ∀ k < 18, p + (k : Nat) ≠ final) (returns : m (f - 1) = final) :
    ∃ (stop : Nat) (j : Int), ∀ t, Halts m Fin.val final t ⟨p + (6 : Nat), f, f⟩ ↔
      Trace m p f ∧ t = place p f stop 11 j := by
  let stop := (final - p).val
  let j : Int := (m (f - 2) - f).val
  have there : p + (stop : Nat) = final := by
    rw [Fin.cast_val_eq_self]
    ring
  have beyond : 18 ≤ stop := by
    by_contra inner
    exact outside stop (by omega) there
  have frame : stack m f (-2) = f + j := by
    rw [← (stack_cells m p f stop j).2.2.2.1, Int.cast_natCast, Fin.cast_val_eq_self]
    ring
  have back : stack m f (-1) = p + (stop : Nat) := by
    rw [← (stack_cells m p f stop j).2.2.1, returns, there]
  have program : Program m Fin.val listing p stop :=
    program_of_loaded loaded (by rwa [there])
  have start : place p f 6 0 0 = ⟨p + (6 : Nat), f, f⟩ := by simp [place]
  refine ⟨stop, j, fun t => ?_⟩
  rw [← halts_iff_trace program beyond back frame, there, start]

theorem attests {final secret salt : Felt} {output : List Felt}
    (executes : Executes pedersen m p f final t secret salt output) :
    output = main pedersen secret salt := by
  obtain ⟨loaded, outside, returns, halts, ⟨secret_at, salt_at⟩, written, uses, builtin⟩ := executes
  obtain ⟨stop, j, iff_trace⟩ := halts_of_returns loaded outside returns
  obtain ⟨trace, rfl⟩ := (iff_trace t).mp halts
  obtain ⟨first, second, -, -, third, fourth, last, top⟩ := stack_cells m p f stop j
  rw [fourth, last] at written
  rw [third, top] at builtin
  obtain ⟨pointer, left, right⟩ := trace.pushed
  obtain ⟨left', right'⟩ := trace.operands
  obtain ⟨used, hash⟩ := trace.hashed
  obtain ⟨out, next, stays⟩ := trace.output
  have one : output.length = 1 := by
    refine felt_inj written.short (by norm_num) (add_left_cancel (a := stack m f (-4)) ?_)
    rw [← written.stop_eq, next]
  have once : uses = 1 := by
    have three : 3 * uses = 3 := by
      refine felt_inj builtin.short (by norm_num) (add_left_cancel (a := stack m f (-3)) ?_)
      rw [← builtin.stop_eq, stays, used, pointer]
    omega
  subst once
  obtain ⟨felt, rfl⟩ := List.length_eq_one_iff.mp one
  have felt_at := written.holds 0 felt rfl
  have applied := builtin.applies 0 one_pos
  simp only [Nat.cast_zero, Nat.cast_one, Nat.cast_ofNat, Int.cast_zero, Int.cast_one,
    Int.cast_ofNat, mul_zero, zero_add, add_zero, ← pointer]
    at felt_at applied left' right' hash out
  rw [main, hash2, ← felt_at, ← out, hash, applied, ← left', left, ← first, secret_at, ← right',
    right, ← second, salt_at]

/-- A memory in which the run succeeds: the program at 0, the stack at 1000, the builtin and the
output in segments of their own, and the return address behind them. -/
def accepting (pedersen : Felt → Felt → Felt) (secret salt : Felt) (address : Felt) : Felt :=
  let cell := address.val % 1000
  let commitment := pedersen secret salt
  match address.val / 1000 with
  | 0 => ((data.getD cell 0 : Nat) : Felt)
  | 1 => [4000, 3000, 1004, 5000, secret, salt, 3000, secret, salt, 1004, 13, 3003, commitment,
      4001, 3003].getD cell 0
  | 3 => [secret, salt, commitment].getD cell 0
  | 4 => [commitment].getD cell 0
  | _ => 0

theorem accepting_loaded (pedersen : Felt → Felt → Felt) (secret salt : Felt) :
    Loaded (accepting pedersen secret salt) Fin.val data 0 := by
  intro k word found
  have inside : k < 18 := (List.getElem?_eq_some_iff.mp found).1
  have small : ∀ word ∈ data, word < 2 ^ 251 + 17 * 2 ^ 192 + 1 := by decide +kernel
  have here : ((0 + (k : Felt) : Felt)).val = k := by
    rw [zero_add, Fin.val_cast_of_lt (by omega)]
  have first : k / 1000 = 0 := by omega
  have cell : k % 1000 = k := by omega
  simp only [accepting, here, first, cell, List.getD_eq_getElem?_getD, found, Option.getD_some]
  exact Fin.val_cast_of_lt (small word (List.mem_of_getElem? found))

theorem accepting_trace (pedersen : Felt → Felt → Felt) (secret salt : Felt) :
    Trace (accepting pedersen secret salt) 0 1004 := by
  let m := accepting pedersen secret salt
  have secret_at : stack m 1004 3 = secret ∧ m (3000 + (0 : Int)) = secret := ⟨rfl, rfl⟩
  have salt_at : stack m 1004 4 = salt ∧ m (3000 + (1 : Int)) = salt := ⟨rfl, rfl⟩
  have computed_at : stack m 1004 8 = pedersen secret salt ∧
      m (3000 + (2 : Int)) = pedersen secret salt ∧ m (4000 + (0 : Int)) = pedersen secret salt :=
    ⟨rfl, rfl, rfl⟩
  constructor
  case pushed => exact ⟨rfl, rfl, rfl⟩
  case called => exact ⟨rfl, rfl⟩
  case operands => exact ⟨secret_at.1.trans secret_at.2.symm, salt_at.1.trans salt_at.2.symm⟩
  case hashed => exact ⟨rfl, computed_at.1.trans computed_at.2.1.symm⟩
  case output => exact ⟨computed_at.1.trans computed_at.2.2.symm, rfl, rfl⟩

theorem accepting_executes (pedersen : Felt → Felt → Felt) (secret salt : Felt) :
    ∃ t, Executes pedersen (accepting pedersen secret salt) 0 1004 5000 t secret salt
      (main pedersen secret salt) := by
  have loaded := accepting_loaded pedersen secret salt
  have trace := accepting_trace pedersen secret salt
  have outside : ∀ k < 18, (0 : Felt) + (k : Nat) ≠ 5000 := by
    intro k inside same
    rw [zero_add] at same
    have equal : k = 5000 := felt_inj (b := 5000) (by omega) (by norm_num) same
    omega
  have returns : accepting pedersen secret salt (1004 - 1) = 5000 := rfl
  obtain ⟨stop, j, iff_trace⟩ := halts_of_returns loaded outside returns
  obtain ⟨first, second, -, -, third, fourth, last, top⟩ :=
    stack_cells (accepting pedersen secret salt) 0 1004 stop j
  set m := accepting pedersen secret salt
  have pointers : stack m 1004 (-4) = 4000 ∧ stack m 1004 (-3) = 3000 := ⟨rfl, rfl⟩
  refine ⟨place 0 1004 stop 11 j, loaded, outside, returns, (iff_trace _).mpr ⟨trace, rfl⟩,
    ⟨first.trans rfl, second.trans rfl⟩, ?_, ⟨1, ?_⟩⟩
  · rw [fourth, last]
    refine ⟨by norm_num [main], rfl, fun i felt found => ?_⟩
    rw [pointers.1]
    match i, found with
    | 0, found =>
        cases found
        rfl
  · rw [third, top]
    refine ⟨by norm_num, rfl, fun k once => ?_⟩
    obtain rfl : k = 0 := by omega
    have left : m (3000 + (3 * 0 : Nat)) = secret := rfl
    have right : m (3000 + (3 * 0 + 1 : Nat)) = salt := rfl
    have commitment : m (3000 + (3 * 0 + 2 : Nat)) = pedersen secret salt := rfl
    rw [pointers.2, left, right, commitment]

/-- What a proof of the compiled program attests of its private inputs is exactly what the source
computes of them. -/
theorem commitment_iff_source (pedersen : Felt → Felt → Felt) (secret salt : Felt)
    (output : List Felt) :
    (∃ m p f final t, Executes pedersen m p f final t secret salt output) ↔
      output = main pedersen secret salt := by
  constructor
  · rintro ⟨m, p, f, final, t, executes⟩
    exact attests executes
  · rintro rfl
    obtain ⟨t, executes⟩ := accepting_executes pedersen secret salt
    exact ⟨_, _, _, _, t, executes⟩

end Executions

end PrivateBtc.Contracts.CommitmentProgram
