/- PrivateBtc/Contracts/CompiledCircuit
   digest: The compiled withdrawal circuit attests on the Cairo machine what its source computes. -/

import Mathlib.Data.Fin.Basic
import Mathlib.Data.ZMod.Defs
import Mathlib.Tactic.LinearCombination
import Mathlib.Tactic.NormNum
import PrivateBtc.Contracts.WithdrawCircuit
import PrivateBtc.Library.CairoVm

set_option autoImplicit false
set_option relaxedAutoImplicit false

namespace PrivateBtc.Contracts.CompiledCircuit

open Corelib WithdrawCircuit Library.CairoVm

/-- The bytecode of `cairo2_proof.executable.json`; a run starts at word 0 and ends in the
loop at word 4. -/
def bytecode : List Nat :=
  [0x40780017fff7fff, 2, 0x1104800180018000, 4, 0x10780017fff7fff, 0, 0x480a7ffd7fff8000,
    0x480a7ffc7fff8002, 0x480a7ffc7fff8002, 0x40780017fff7fff, 2, 0x1104800180018000, 8,
    0x480680017fff8000, 0, 0x40127ffc7fff7fff, 0x48127ffe7fff8000, 0x48127ffa7fff8000,
    0x208b7fff7fff7ffe, 0x48297ffa80007ffb, 0x20680017fff7fff, 4, 0x10780017fff7fff, 70,
    0x482680017ffa8000, 1, 0x480a7ffb7fff8000, 0x48307ffe80007fff, 0x20680017fff7fff, 4,
    0x10780017fff7fff, 52, 0x482480017ffd8000, 1, 0x48127ffd7fff8000, 0x48307ffe80007fff,
    0x20680017fff7fff, 4, 0x10780017fff7fff, 34, 0x482480017ffd8000, 1, 0x48127ffd7fff8000,
    0x48307ffe80007fff, 0x20680017fff7fff, 4, 0x10780017fff7fff, 10, 0x1104800180018000, 54,
    0x480a7ff97fff8000, 0x480680017fff8000, 1, 0x48127ffc7fff8000, 0x48127ffc7fff8000,
    0x208b7fff7fff7ffe, 0x40780017fff7fff, 5, 0x480280007ffa8000, 0x480080007ff18000,
    0x400280007ff97ffe, 0x400280017ff97fff, 0x480280027ff98000, 0x400280007ffd7fff,
    0x482680017ff98000, 3, 0x480680017fff8000, 0, 0x480a7ffc7fff8000, 0x482680017ffd8000, 1,
    0x208b7fff7fff7ffe, 0x40780017fff7fff, 3, 0x1104800180018000, 33, 0x480a7ff97fff8000,
    0x480680017fff8000, 1, 0x48127ffc7fff8000, 0x48127ffc7fff8000, 0x208b7fff7fff7ffe,
    0x40780017fff7fff, 6, 0x1104800180018000, 28, 0x480a7ff97fff8000, 0x480680017fff8000, 1,
    0x48127ffc7fff8000, 0x48127ffc7fff8000, 0x208b7fff7fff7ffe, 0x40780017fff7fff, 9,
    0x1104800180018000, 23, 0x480a7ff97fff8000, 0x480680017fff8000, 1, 0x48127ffc7fff8000,
    0x48127ffc7fff8000, 0x208b7fff7fff7ffe, 0x480680017fff8000,
    0x496e70757420746f6f206c6f6e6720666f7220706172616d732e, 0x1104800180018000, 18,
    0x208b7fff7fff7ffe, 0x480680017fff8000,
    0x4661696c656420746f20646573657269616c697a6520706172616d202332, 0x1104800180018000, 13,
    0x208b7fff7fff7ffe, 0x480680017fff8000,
    0x4661696c656420746f20646573657269616c697a6520706172616d202331, 0x1104800180018000, 8,
    0x208b7fff7fff7ffe, 0x480680017fff8000,
    0x4661696c656420746f20646573657269616c697a6520706172616d202330, 0x1104800180018000, 3,
    0x208b7fff7fff7ffe, 0x40780017fff7fff, 1, 0x400180007fff7ffd, 0x48127fff7fff8000,
    0x482480017ffe8000, 1, 0x208b7fff7fff7ffe, 0x208b7fff7fff7ffe]

/-- The bytecode as assembly, up to its last word. -/
def assembly : List (Nat × Instruction) :=
  [(0, .advance (imm 2)), (2, .call (imm 4) true), (4, .jump (imm 0) true false),
    (6, push (cell (fp (-3)))), (7, .assertEq (ap 2) (cell (fp (-4))) true),
    (8, .assertEq (ap 2) (cell (fp (-4))) true), (9, .advance (imm 2)), (11, .call (imm 8) true),
    (13, push (imm 0)), (15, .assertEq (ap (-1)) (cell (ap (-4))) false),
    (16, push (cell (ap (-2)))), (17, push (cell (ap (-6)))), (18, .ret),
    (19, .assertEq (fp (-5)) (.add (ap 0) (.cell (fp (-6)))) true),
    (20, .jumpIf (ap (-1)) (.immediate 4) false), (22, .jump (imm 70) true false),
    (24, push (.add (fp (-6)) (.immediate 1))), (26, push (cell (fp (-5)))),
    (27, .assertEq (ap (-1)) (.add (ap 0) (.cell (ap (-2)))) true),
    (28, .jumpIf (ap (-1)) (.immediate 4) false), (30, .jump (imm 52) true false),
    (32, push (.add (ap (-3)) (.immediate 1))), (34, push (cell (ap (-3)))),
    (35, .assertEq (ap (-1)) (.add (ap 0) (.cell (ap (-2)))) true),
    (36, .jumpIf (ap (-1)) (.immediate 4) false), (38, .jump (imm 34) true false),
    (40, push (.add (ap (-3)) (.immediate 1))), (42, push (cell (ap (-3)))),
    (43, .assertEq (ap (-1)) (.add (ap 0) (.cell (ap (-2)))) true),
    (44, .jumpIf (ap (-1)) (.immediate 4) false), (46, .jump (imm 10) true false),
    (48, .call (imm 54) true), (50, push (cell (fp (-7)))), (51, push (imm 1)),
    (53, push (cell (ap (-4)))), (54, push (cell (ap (-4)))), (55, .ret), (56, .advance (imm 5)),
    (58, push (.double (fp (-6)) 0)), (59, push (.double (ap (-15)) 0)),
    (60, .assertEq (ap (-2)) (.double (fp (-7)) 0) false),
    (61, .assertEq (ap (-1)) (.double (fp (-7)) 1) false), (62, push (.double (fp (-7)) 2)),
    (63, .assertEq (ap (-1)) (.double (fp (-3)) 0) false),
    (64, push (.add (fp (-7)) (.immediate 3))), (66, push (imm 0)), (68, push (cell (fp (-4)))),
    (69, push (.add (fp (-3)) (.immediate 1))), (71, .ret), (72, .advance (imm 3)),
    (74, .call (imm 33) true), (76, push (cell (fp (-7)))), (77, push (imm 1)),
    (79, push (cell (ap (-4)))), (80, push (cell (ap (-4)))), (81, .ret), (82, .advance (imm 6)),
    (84, .call (imm 28) true), (86, push (cell (fp (-7)))), (87, push (imm 1)),
    (89, push (cell (ap (-4)))), (90, push (cell (ap (-4)))), (91, .ret), (92, .advance (imm 9)),
    (94, .call (imm 23) true), (96, push (cell (fp (-7)))), (97, push (imm 1)),
    (99, push (cell (ap (-4)))), (100, push (cell (ap (-4)))), (101, .ret),
    (102, push (imm 0x496e70757420746f6f206c6f6e6720666f7220706172616d732e)),
    (104, .call (imm 18) true), (106, .ret),
    (107, push (imm 0x4661696c656420746f20646573657269616c697a6520706172616d202332)),
    (109, .call (imm 13) true), (111, .ret),
    (112, push (imm 0x4661696c656420746f20646573657269616c697a6520706172616d202331)),
    (114, .call (imm 8) true), (116, .ret),
    (117, push (imm 0x4661696c656420746f20646573657269616c697a6520706172616d202330)),
    (119, .call (imm 3) true), (121, .ret), (122, .advance (imm 1)),
    (124, .assertEq (fp (-3)) (.double (ap (-1)) 0) false), (125, push (cell (ap (-1)))),
    (126, push (.add (ap (-2)) (.immediate 1))), (128, .ret)]

def listing (k : Nat) : Option Instruction := assembly.lookup k

theorem assembly_decodes : ∀ entry ∈ assembly, ∃ word next, bytecode[entry.1]? = some word ∧
    bytecode[entry.1 + 1]? = some next ∧ decode word next = some entry.2 := by
  have checked : ∀ entry ∈ assembly, ((bytecode[entry.1]?.bind fun word =>
      bytecode[entry.1 + 1]?.bind fun next => decode word next) == some entry.2) = true := by
    decide +kernel
  intro entry member
  have decoded := checked entry member
  simp only [beq_iff_eq, Option.bind_eq_some_iff] at decoded
  obtain ⟨word, here, next, after, decoded⟩ := decoded
  exact ⟨word, next, here, after, decoded⟩

/-- A place of the program that panics: it calls the code that builds the message, and returns with
the flag 1. -/
structure PanicSite (k n message by_ : Nat) : Prop where
  beyond : 4 < k
  call : listing k = some (.call (imm n) true)
  pointer : listing (k + 2) = some (push (cell (fp (-7))))
  failed : listing (k + 3) = some (push (imm 1))
  start : listing (k + 5) = some (push (cell (ap (-4))))
  stop : listing (k + 6) = some (push (cell (ap (-4))))
  ret : listing (k + 7) = some .ret
  message : listing (k + n) = some (push (imm message))
  alloc : listing (k + n + 2) = some (.call (imm by_) true)
  shared : k + n + 2 + by_ = 122
  back : listing (k + n + 4) = some .ret

section Blocks

universe u

variable {F : Type u} [CommRing F] [DecidableEq F] {m : F → F} {value : F → Nat} {p f : F}
  {t : Registers F} (program : Program m value listing p 4)
include program

theorem entry_iff :
    Halts m value (p + (4 : Nat)) t (place p f 0 0 0) ↔
      stack m f 2 = f + (0 : Int) ∧ stack m f 3 = p + (4 : Nat) ∧ stack m f 4 = stack m f 1 ∧
        stack m f 7 = stack m f 0 ∧ stack m f 8 = stack m f 0 ∧ stack m f 9 = f + (4 : Int) ∧
          stack m f 10 = p + (13 : Nat) ∧
            Halts m value (p + (4 : Nat)) t (place p f 19 11 11) := by
  rw [program.advance_iff (k := 0) rfl (by decide), program.call_iff (k := 2) rfl (by decide),
    program.assertEq_iff (k := 6) (n := 7) rfl (by decide) rfl,
    program.assertEq_iff (k := 7) (n := 8) rfl (by decide) rfl,
    program.assertEq_iff (k := 8) (n := 9) rfl (by decide) rfl,
    program.advance_iff (k := 9) rfl (by decide), program.call_iff (k := 11) rfl (by decide)]
  simp only [stack_ap, stack_fp, Value.eval, Operand.eval, Bool.toNat_true,
    Nat.cast_ofNat, Nat.cast_one, Int.reduceAdd, Int.reduceNeg, Nat.reduceAdd, add_zero]

/-- Each parameter asks whether the rest of the input is empty. -/
theorem first_iff :
    Halts m value (p + (4 : Nat)) t (place p f 19 11 11) ↔
      stack m f 6 = stack m f 11 + stack m f 5 ∧
        if stack m f 11 = 0 then Halts m value (p + (4 : Nat)) t (place p f 94 21 11)
        else Halts m value (p + (4 : Nat)) t (place p f 24 12 11) := by
  rw [program.assertEq_iff (k := 19) (n := 20) rfl (by decide) rfl,
    program.jumpIf_iff (k := 20) rfl (by decide), program.jump_iff (k := 22) rfl (by decide),
    program.advance_iff (k := 92) rfl (by decide)]
  simp only [stack_ap, stack_fp, Value.eval, Operand.eval, Bool.toNat_true,
    Nat.cast_ofNat, Nat.cast_one, Int.reduceAdd, Int.reduceNeg, Nat.reduceAdd, add_zero]

theorem second_iff :
    Halts m value (p + (4 : Nat)) t (place p f 24 12 11) ↔
      stack m f 12 = stack m f 5 + (1 : Nat) ∧ stack m f 13 = stack m f 6 ∧
        stack m f 13 = stack m f 14 + stack m f 12 ∧
          if stack m f 14 = 0 then Halts m value (p + (4 : Nat)) t (place p f 84 21 11)
          else Halts m value (p + (4 : Nat)) t (place p f 32 15 11) := by
  rw [program.assertEq_iff (k := 24) (n := 26) rfl (by decide) rfl,
    program.assertEq_iff (k := 26) (n := 27) rfl (by decide) rfl,
    program.assertEq_iff (k := 27) (n := 28) rfl (by decide) rfl,
    program.jumpIf_iff (k := 28) rfl (by decide), program.jump_iff (k := 30) rfl (by decide),
    program.advance_iff (k := 82) rfl (by decide)]
  simp only [stack_ap, stack_fp, Value.eval, Operand.eval, Bool.toNat_true,
    Nat.cast_ofNat, Nat.cast_one, Int.reduceAdd, Int.reduceNeg, Nat.reduceAdd, add_zero]

theorem third_iff :
    Halts m value (p + (4 : Nat)) t (place p f 32 15 11) ↔
      stack m f 15 = stack m f 12 + (1 : Nat) ∧ stack m f 16 = stack m f 13 ∧
        stack m f 16 = stack m f 17 + stack m f 15 ∧
          if stack m f 17 = 0 then Halts m value (p + (4 : Nat)) t (place p f 74 21 11)
          else Halts m value (p + (4 : Nat)) t (place p f 40 18 11) := by
  rw [program.assertEq_iff (k := 32) (n := 34) rfl (by decide) rfl,
    program.assertEq_iff (k := 34) (n := 35) rfl (by decide) rfl,
    program.assertEq_iff (k := 35) (n := 36) rfl (by decide) rfl,
    program.jumpIf_iff (k := 36) rfl (by decide), program.jump_iff (k := 38) rfl (by decide),
    program.advance_iff (k := 72) rfl (by decide)]
  simp only [stack_ap, Value.eval, Operand.eval, Bool.toNat_true,
    Nat.cast_ofNat, Nat.cast_one, Int.reduceAdd, Int.reduceNeg, Nat.reduceAdd, add_zero]

/-- After the last parameter nothing may be left. -/
theorem rest_iff :
    Halts m value (p + (4 : Nat)) t (place p f 40 18 11) ↔
      stack m f 18 = stack m f 15 + (1 : Nat) ∧ stack m f 19 = stack m f 16 ∧
        stack m f 19 = stack m f 20 + stack m f 18 ∧
          if stack m f 20 = 0 then Halts m value (p + (4 : Nat)) t (place p f 56 21 11)
          else Halts m value (p + (4 : Nat)) t (place p f 48 21 11) := by
  rw [program.assertEq_iff (k := 40) (n := 42) rfl (by decide) rfl,
    program.assertEq_iff (k := 42) (n := 43) rfl (by decide) rfl,
    program.assertEq_iff (k := 43) (n := 44) rfl (by decide) rfl,
    program.jumpIf_iff (k := 44) rfl (by decide), program.jump_iff (k := 46) rfl (by decide)]
  simp only [stack_ap, Value.eval, Operand.eval, Bool.toNat_true,
    Nat.cast_ofNat, Nat.cast_one, Int.reduceAdd, Int.reduceNeg, Nat.reduceAdd, add_zero]

/-- The body: one application of the builtin, and its result written to the output. -/
theorem body_iff (back : stack m f 10 = p + (13 : Nat)) (frame : stack m f 9 = f + (4 : Int)) :
    Halts m value (p + (4 : Nat)) t (place p f 56 21 11) ↔
      stack m f 26 = m (stack m f 5 + (0 : Int)) ∧ stack m f 27 = m (stack m f 12 + (0 : Int)) ∧
        stack m f 26 = m (stack m f 4 + (0 : Int)) ∧ stack m f 27 = m (stack m f 4 + (1 : Int)) ∧
          stack m f 28 = m (stack m f 4 + (2 : Int)) ∧ stack m f 28 = m (stack m f 8 + (0 : Int)) ∧
            stack m f 29 = stack m f 4 + (3 : Nat) ∧ stack m f 30 = (0 : Nat) ∧
              stack m f 31 = stack m f 7 ∧ stack m f 32 = stack m f 8 + (1 : Nat) ∧
                Halts m value (p + (4 : Nat)) t (place p f 13 33 4) := by
  rw [program.advance_iff (k := 56) rfl (by decide),
    program.assertEq_iff (k := 58) (n := 59) rfl (by decide) rfl,
    program.assertEq_iff (k := 59) (n := 60) rfl (by decide) rfl,
    program.assertEq_iff (k := 60) (n := 61) rfl (by decide) rfl,
    program.assertEq_iff (k := 61) (n := 62) rfl (by decide) rfl,
    program.assertEq_iff (k := 62) (n := 63) rfl (by decide) rfl,
    program.assertEq_iff (k := 63) (n := 64) rfl (by decide) rfl,
    program.assertEq_iff (k := 64) (n := 66) rfl (by decide) rfl,
    program.assertEq_iff (k := 66) (n := 68) rfl (by decide) rfl,
    program.assertEq_iff (k := 68) (n := 69) rfl (by decide) rfl,
    program.assertEq_iff (k := 69) (n := 71) rfl (by decide) rfl,
    program.ret_iff (k := 71) rfl (by decide) back frame]
  simp only [stack_ap, stack_fp, Value.eval, Operand.eval, Bool.toNat_true, Bool.toNat_false,
    Nat.cast_ofNat, Nat.cast_one, Nat.cast_zero, Int.reduceAdd, Int.reduceNeg, add_zero]

/-- The flag that comes back has to be 0. -/
theorem exit_iff (back : stack m f 3 = p + (4 : Nat)) (frame : stack m f 2 = f + (0 : Int)) :
    Halts m value (p + (4 : Nat)) t (place p f 13 33 4) ↔
      stack m f 33 = (0 : Nat) ∧ stack m f 33 = stack m f 30 ∧ stack m f 34 = stack m f 32 ∧
        stack m f 35 = stack m f 29 ∧ t = place p f 4 36 0 := by
  rw [program.assertEq_iff (k := 13) (n := 15) rfl (by decide) rfl,
    program.assertEq_iff (k := 15) (n := 16) rfl (by decide) rfl,
    program.assertEq_iff (k := 16) (n := 17) rfl (by decide) rfl,
    program.assertEq_iff (k := 17) (n := 18) rfl (by decide) rfl,
    program.ret_iff (k := 18) rfl (by decide) back frame, halts_final rfl]
  simp only [stack_ap, Value.eval, Operand.eval, Bool.toNat_true, Bool.toNat_false,
    Nat.cast_one, Nat.cast_zero, Int.reduceAdd, Int.reduceNeg, add_zero]

/-- Where the program panics, the flag 1 comes back. -/
theorem site_fails [Nontrivial F] {k n message by_ : Nat} (site : PanicSite k n message by_)
    (outer : stack m f 3 = p + (4 : Nat)) (base : stack m f 2 = f + (0 : Int))
    (back : stack m f 10 = p + (13 : Nat)) (frame : stack m f 9 = f + (4 : Int)) :
    ¬ Halts m value (p + (4 : Nat)) t (place p f k 21 11) := by
  intro halts
  have beyond := site.beyond
  rw [program.call_iff site.call (by omega)] at halts
  obtain ⟨frame₁, back₁, halts⟩ := halts
  rw [program.assertEq_iff (n := k + n + 2) site.message (by omega) rfl,
    program.call_iff site.alloc (by omega), site.shared] at halts
  obtain ⟨-, frame₂, back₂, halts⟩ := halts
  rw [program.advance_iff (k := 122) rfl (by decide),
    program.assertEq_iff (k := 124) (n := 125) rfl (by decide) rfl,
    program.assertEq_iff (k := 125) (n := 126) rfl (by decide) rfl,
    program.assertEq_iff (k := 126) (n := 128) rfl (by decide) rfl] at halts
  obtain ⟨-, -, -, halts⟩ := halts
  simp only [Bool.toNat_true, Bool.toNat_false, Nat.cast_one, Nat.cast_zero,
    Int.reduceAdd] at frame₁ back₁ frame₂ back₂ halts
  rw [program.ret_iff (k := 128) rfl (by decide) back₂ frame₂,
    program.ret_iff (k := k + n + 4) site.back (by omega) back₁ frame₁,
    program.assertEq_iff (n := k + 3) site.pointer (by omega) rfl,
    program.assertEq_iff (n := k + 5) site.failed (by omega) rfl,
    program.assertEq_iff (n := k + 6) site.start (by omega) rfl,
    program.assertEq_iff (n := k + 7) site.stop (by omega) rfl,
    program.ret_iff site.ret (by omega) back frame] at halts
  obtain ⟨-, flag, -, -, halts⟩ := halts
  simp only [stack_ap, Value.eval, Operand.eval, Bool.toNat_true, Nat.cast_one,
    Int.reduceAdd] at flag halts
  obtain ⟨zero, same, -⟩ := (exit_iff program outer base).mp halts
  rw [zero, flag] at same
  simp at same

/-- What the prover has to fill in, one equation for each instruction of an accepting run. -/
structure Trace (m : F → F) (p f : F) : Prop where
  caller : stack m f 2 = f + (0 : Int) ∧ stack m f 3 = p + (4 : Nat)
  builtins : stack m f 4 = stack m f 1 ∧ stack m f 7 = stack m f 0 ∧ stack m f 8 = stack m f 0
  called : stack m f 9 = f + (4 : Int) ∧ stack m f 10 = p + (13 : Nat)
  first : stack m f 6 = stack m f 11 + stack m f 5 ∧ stack m f 11 ≠ 0
  second : stack m f 12 = stack m f 5 + (1 : Nat) ∧ stack m f 13 = stack m f 6 ∧
    stack m f 13 = stack m f 14 + stack m f 12 ∧ stack m f 14 ≠ 0
  third : stack m f 15 = stack m f 12 + (1 : Nat) ∧ stack m f 16 = stack m f 13 ∧
    stack m f 16 = stack m f 17 + stack m f 15 ∧ stack m f 17 ≠ 0
  rest : stack m f 18 = stack m f 15 + (1 : Nat) ∧ stack m f 19 = stack m f 16 ∧
    stack m f 19 = stack m f 20 + stack m f 18 ∧ stack m f 20 = 0
  arguments : stack m f 26 = m (stack m f 5 + (0 : Int)) ∧
    stack m f 27 = m (stack m f 12 + (0 : Int))
  builtin : stack m f 26 = m (stack m f 4 + (0 : Int)) ∧
    stack m f 27 = m (stack m f 4 + (1 : Int)) ∧ stack m f 28 = m (stack m f 4 + (2 : Int))
  output : stack m f 28 = m (stack m f 8 + (0 : Int))
  results : stack m f 29 = stack m f 4 + (3 : Nat) ∧ stack m f 30 = (0 : Nat) ∧
    stack m f 31 = stack m f 7 ∧ stack m f 32 = stack m f 8 + (1 : Nat)
  exit : stack m f 33 = (0 : Nat) ∧ stack m f 33 = stack m f 30 ∧ stack m f 34 = stack m f 32 ∧
    stack m f 35 = stack m f 29

theorem panics [Nontrivial F] (outer : stack m f 3 = p + (4 : Nat))
    (base : stack m f 2 = f + (0 : Int)) (back : stack m f 10 = p + (13 : Nat))
    (frame : stack m f 9 = f + (4 : Int)) {k : Nat} (site : k ∈ [48, 74, 84, 94]) :
    ¬ Halts m value (p + (4 : Nat)) t (place p f k 21 11) := by
  have fails : ∀ {k n message by_ : Nat}, PanicSite k n message by_ →
      ¬ Halts m value (p + (4 : Nat)) t (place p f k 21 11) :=
    fun site => site_fails program site outer base back frame
  simp only [List.mem_cons, List.not_mem_nil, or_false] at site
  rcases site with rfl | rfl | rfl | rfl
  · exact fails (n := 54) ⟨by decide, rfl, rfl, rfl, rfl, rfl, rfl, rfl, rfl, rfl, rfl⟩
  · exact fails (n := 33) ⟨by decide, rfl, rfl, rfl, rfl, rfl, rfl, rfl, rfl, rfl, rfl⟩
  · exact fails (n := 28) ⟨by decide, rfl, rfl, rfl, rfl, rfl, rfl, rfl, rfl, rfl, rfl⟩
  · exact fails (n := 23) ⟨by decide, rfl, rfl, rfl, rfl, rfl, rfl, rfl, rfl, rfl, rfl⟩

/-- A run gets to the end exactly along such a trace. -/
theorem halts_iff_trace [Nontrivial F] :
    Halts m value (p + (4 : Nat)) t (place p f 0 0 0) ↔ Trace m p f ∧ t = place p f 4 36 0 := by
  constructor
  · intro halts
    obtain ⟨base, outer, pedersen, start, current, frame, back, halts⟩ :=
      (entry_iff program).mp halts
    have panics : ∀ {k : Nat}, k ∈ [48, 74, 84, 94] →
        ¬ Halts m value (p + (4 : Nat)) t (place p f k 21 11) :=
      fun site => panics program outer base back frame site
    obtain ⟨first, halts⟩ := (first_iff program).mp halts
    split_ifs at halts with some₁
    · exact absurd halts (panics (by decide))
    obtain ⟨next₂, end₂, second, halts⟩ := (second_iff program).mp halts
    split_ifs at halts with some₂
    · exact absurd halts (panics (by decide))
    obtain ⟨next₃, end₃, third, halts⟩ := (third_iff program).mp halts
    split_ifs at halts with some₃
    · exact absurd halts (panics (by decide))
    obtain ⟨next₄, end₄, rest, halts⟩ := (rest_iff program).mp halts
    split_ifs at halts with empty
    · obtain ⟨secret, commitment, left, right, hash, written, used, zero, from_, to_, halts⟩ :=
        (body_iff program back frame).mp halts
      obtain ⟨pushed, flag, stop, last, ends⟩ := (exit_iff program outer base).mp halts
      exact ⟨⟨⟨base, outer⟩, ⟨pedersen, start, current⟩, ⟨frame, back⟩, ⟨first, some₁⟩,
        ⟨next₂, end₂, second, some₂⟩, ⟨next₃, end₃, third, some₃⟩, ⟨next₄, end₄, rest, empty⟩,
        ⟨secret, commitment⟩, ⟨left, right, hash⟩, written, ⟨used, zero, from_, to_⟩,
        ⟨pushed, flag, stop, last⟩⟩, ends⟩
    · exact absurd halts (panics (by decide))
  · rintro ⟨trace, rfl⟩
    obtain ⟨base, outer⟩ := trace.caller
    obtain ⟨frame, back⟩ := trace.called
    rw [entry_iff program, first_iff program, if_neg trace.first.2, second_iff program,
      if_neg trace.second.2.2.2, third_iff program, if_neg trace.third.2.2.2, rest_iff program,
      if_pos trace.rest.2.2.2, body_iff program back frame, exit_iff program outer base]
    obtain ⟨pedersen, start, current⟩ := trace.builtins
    obtain ⟨next₂, end₂, second, -⟩ := trace.second
    obtain ⟨next₃, end₃, third, -⟩ := trace.third
    obtain ⟨next₄, end₄, rest, -⟩ := trace.rest
    obtain ⟨left, right, hash⟩ := trace.builtin
    obtain ⟨used, zero, from_, to_⟩ := trace.results
    obtain ⟨pushed, flag, stop, last⟩ := trace.exit
    exact ⟨base, outer, pedersen, start, current, frame, back, trace.first.1, next₂, end₂, second,
      next₃, end₃, third, next₄, end₄, rest, trace.arguments.1, trace.arguments.2, left, right,
      hash, trace.output, used, zero, from_, to_, pushed, flag, stop, last, rfl⟩

end Blocks

section Executions

open scoped Fin.CommRing

theorem felt_inj {a b : Nat} (a_small : a < 2 ^ 251 + 17 * 2 ^ 192 + 1)
    (b_small : b < 2 ^ 251 + 17 * 2 ^ 192 + 1) (same : (a : Felt) = b) : a = b := by
  have values := congrArg Fin.val same
  rwa [Fin.val_cast_of_lt a_small, Fin.val_cast_of_lt b_small] at values

/-- The felts stand in memory from the one pointer up to the other. -/
structure Segment (m : Felt → Felt) (start stop : Felt) (felts : List Felt) : Prop where
  short : felts.length < 2 ^ 251 + 17 * 2 ^ 192 + 1
  stop_eq : stop = start + (felts.length : Nat)
  holds : ∀ (i : Nat) (felt : Felt), felts[i]? = some felt → m (start + (i : Nat)) = felt

/-- Each instance of the builtin from the one pointer up to the other applies the hash. -/
structure PedersenBuiltin (pedersen : Felt → Felt → Felt) (m : Felt → Felt) (start stop : Felt)
    (uses : Nat) : Prop where
  short : 3 * uses < 2 ^ 251 + 17 * 2 ^ 192 + 1
  stop_eq : stop = start + (3 * uses : Nat)
  applies : ∀ k < uses, m (start + (3 * k + 2 : Nat)) =
    pedersen (m (start + (3 * k : Nat))) (m (start + (3 * k + 1 : Nat)))

/-- A run of the standalone entry point that is over, as its proof attests it: the hint at word 7
puts the bounds of the arguments at `f + 5`, and the pointers of the output and the builtin come in
at `f` and go out on top of the stack. -/
structure Executes (pedersen : Felt → Felt → Felt) (m : Felt → Felt) (p f : Felt)
    (t : Registers Felt) (arguments output : List Felt) : Prop where
  loaded : Loaded m Fin.val bytecode p
  halts : Halts m Fin.val (p + (4 : Nat)) t ⟨p, f, f⟩
  arguments : Segment m (stack m f 5) (stack m f 6) arguments
  output : Segment m (m f) (m (t.ap - 2)) output
  builtin : ∃ uses, PedersenBuiltin pedersen m (m (f + 1)) (m (t.ap - 1)) uses

theorem program_of_loaded {m : Felt → Felt} {p : Felt} (loaded : Loaded m Fin.val bytecode p) :
    Program m Fin.val listing p 4 := by
  have listed : ∀ k instruction, listing k = some instruction → (k, instruction) ∈ assembly := by
    intro k instruction found
    obtain ⟨before, after, split, -⟩ := List.lookup_eq_some_iff.mp found
    rw [split]
    exact List.mem_append_right _ List.mem_cons_self
  have inside : ∀ entry ∈ assembly, entry.1 < 130 := by decide
  constructor
  · intro k instruction found
    refine loaded.decodes (fun k instruction found => ?_) found
    exact assembly_decodes _ (listed k instruction found)
  · intro k known away there
    obtain ⟨instruction, found⟩ := Option.isSome_iff_exists.mp known
    have small : k < 130 := inside _ (listed k instruction found)
    exact away (felt_inj (by omega) (by norm_num) (add_left_cancel there))

theorem place_start {p f : Felt} : place p f 0 0 0 = ⟨p, f, f⟩ := by
  simp [place]

theorem halts_iff_place {m : Felt → Felt} {p f : Felt} {t : Registers Felt}
    (loaded : Loaded m Fin.val bytecode p) :
    Halts m Fin.val (p + (4 : Nat)) t ⟨p, f, f⟩ ↔ Trace m p f ∧ t = place p f 4 36 0 := by
  rw [← place_start, halts_iff_trace (program_of_loaded loaded)]

/-- The pointers that the runner reads are cells of the stack. -/
theorem stack_ends (m : Felt → Felt) (p f : Felt) :
    m f = stack m f 0 ∧ m (f + 1) = stack m f 1 ∧ m ((place p f 4 36 0).ap - 2) = stack m f 34 ∧
      m ((place p f 4 36 0).ap - 1) = stack m f 35 := by
  have top : ∀ n : Int, f + ((36 : Int) : Felt) - (n : Felt) = f + ((36 - n : Int) : Felt) := by
    intro n
    push_cast
    ring
  have two := top 2
  have one := top 1
  simp only [Int.cast_ofNat, Int.cast_one] at two one
  refine ⟨?_, ?_, ?_, ?_⟩
  · simp [stack]
  · simp [stack]
  · simp only [place, stack, Int.cast_ofNat, two]
    norm_num
  · simp only [place, stack, Int.cast_ofNat, one]
    norm_num

/-- Three arguments come in. -/
theorem Trace.arguments_length {m : Felt → Felt} {p f : Felt} (trace : Trace m p f)
    {arguments : List Felt} (given : Segment m (stack m f 5) (stack m f 6) arguments) :
    arguments.length = 3 := by
  obtain ⟨second, end₂, -, -⟩ := trace.second
  obtain ⟨third, end₃, -, -⟩ := trace.third
  obtain ⟨next, end₄, rest, empty⟩ := trace.rest
  rw [end₄, end₃, end₂, empty, next, third, second] at rest
  refine felt_inj given.short (by norm_num) (add_left_cancel (a := stack m f 5) ?_)
  rw [← given.stop_eq, rest]
  push_cast
  ring

/-- One felt goes out. -/
theorem Trace.output_length {m : Felt → Felt} {p f : Felt} (trace : Trace m p f)
    {output : List Felt} (written : Segment m (stack m f 0) (stack m f 34) output) :
    output.length = 1 := by
  obtain ⟨-, -, current⟩ := trace.builtins
  obtain ⟨-, -, -, stop⟩ := trace.results
  obtain ⟨-, -, last, -⟩ := trace.exit
  refine felt_inj written.short (by norm_num) (add_left_cancel (a := stack m f 0) ?_)
  rw [← written.stop_eq, last, stop, current]

/-- The builtin is used once. -/
theorem Trace.uses_eq {m : Felt → Felt} {p f : Felt} (trace : Trace m p f)
    {pedersen : Felt → Felt → Felt} {uses : Nat}
    (builtin : PedersenBuiltin pedersen m (stack m f 1) (stack m f 35) uses) : uses = 1 := by
  obtain ⟨pointer, -, -⟩ := trace.builtins
  obtain ⟨used, -, -, -⟩ := trace.results
  obtain ⟨-, -, -, last⟩ := trace.exit
  have three : 3 * uses = 3 := by
    refine felt_inj builtin.short (by norm_num) (add_left_cancel (a := stack m f 1) ?_)
    rw [← builtin.stop_eq, last, used, pointer]
  omega

theorem attests {pedersen : Felt → Felt → Felt} {m : Felt → Felt} {p f : Felt}
    {t : Registers Felt} {arguments output : List Felt}
    (executes : Executes pedersen m p f t arguments output) :
    WithdrawCircuit.execute pedersen arguments = .ok output := by
  obtain ⟨loaded, halts, given, written, uses, builtin⟩ := executes
  obtain ⟨trace, rfl⟩ := (halts_iff_place loaded).mp halts
  obtain ⟨first, second, third, fourth⟩ := stack_ends m p f
  rw [first, third] at written
  rw [second, fourth] at builtin
  obtain rfl := trace.uses_eq builtin
  obtain ⟨secret, commitmentHash, nullifierHash, rfl⟩ :=
    List.length_eq_three.mp (trace.arguments_length given)
  obtain ⟨felt, rfl⟩ := List.length_eq_one_iff.mp (trace.output_length written)
  obtain ⟨pointer, -, current⟩ := trace.builtins
  obtain ⟨left, right⟩ := trace.arguments
  obtain ⟨left', right', hash⟩ := trace.builtin
  have secret_at := given.holds 0 secret rfl
  have commitment_at := given.holds 1 commitmentHash rfl
  have felt_at := written.holds 0 felt rfl
  have applied := builtin.applies 0 one_pos
  have out := trace.output
  rw [trace.second.1] at right
  simp only [Nat.cast_zero, Nat.cast_one, Nat.cast_ofNat, Int.cast_zero, Int.cast_one,
    Int.cast_ofNat, mul_zero, zero_add, add_zero, pointer, current]
    at secret_at commitment_at felt_at applied left right left' right' hash out
  rw [execute_ok]
  refine ⟨secret, commitmentHash, nullifierHash, rfl, ?_⟩
  rw [← felt_at, ← out, hash, applied, ← left', left, secret_at, ← right', right, commitment_at]

/-- A memory in which the run succeeds: the program at 0, the stack at 1000, the arguments, the
builtin and the output in segments of their own. -/
def accepting (pedersen : Felt → Felt → Felt) (secret commitmentHash nullifierHash : Felt)
    (address : Felt) : Felt :=
  let cell := address.val % 1000
  let computed := pedersen secret commitmentHash
  match address.val / 1000 with
  | 0 => ((bytecode.getD cell 0 : Nat) : Felt)
  | 1 => [4000, 3000, 1000, 4, 3000, 2000, 2003, 4000, 4000, 1004, 13, 3, 2001, 2003, 2, 2002, 2003,
      1, 2003, 2003, 0, 0, 0, 0, 0, 0, secret, commitmentHash, computed, 3003, 0, 4000, 4001, 0,
      4001, 3003].getD cell 0
  | 2 => [secret, commitmentHash, nullifierHash].getD cell 0
  | 3 => [secret, commitmentHash, computed].getD cell 0
  | 4 => [computed].getD cell 0
  | _ => 0

theorem accepting_loaded (pedersen : Felt → Felt → Felt)
    (secret commitmentHash nullifierHash : Felt) :
    Loaded (accepting pedersen secret commitmentHash nullifierHash) Fin.val bytecode 0 := by
  intro k word found
  have inside : k < 130 := (List.getElem?_eq_some_iff.mp found).1
  have small : ∀ word ∈ bytecode, word < 2 ^ 251 + 17 * 2 ^ 192 + 1 := by decide +kernel
  have here : ((0 + (k : Felt) : Felt)).val = k := by
    rw [zero_add, Fin.val_cast_of_lt (by omega)]
  have first : k / 1000 = 0 := by omega
  have cell : k % 1000 = k := by omega
  simp only [accepting, here, first, cell, List.getD_eq_getElem?_getD, found, Option.getD_some]
  exact Fin.val_cast_of_lt (small word (List.mem_of_getElem? found))

theorem accepting_trace (pedersen : Felt → Felt → Felt)
    (secret commitmentHash nullifierHash : Felt) :
    Trace (accepting pedersen secret commitmentHash nullifierHash) 0 1000 := by
  let m := accepting pedersen secret commitmentHash nullifierHash
  have secret_at : stack m 1000 26 = secret ∧ m (2000 + (0 : Int)) = secret ∧
      m (3000 + (0 : Int)) = secret := ⟨rfl, rfl, rfl⟩
  have commitment_at : stack m 1000 27 = commitmentHash ∧ m (2001 + (0 : Int)) = commitmentHash ∧
      m (3000 + (1 : Int)) = commitmentHash := ⟨rfl, rfl, rfl⟩
  have computed_at : stack m 1000 28 = pedersen secret commitmentHash ∧
      m (3000 + (2 : Int)) = pedersen secret commitmentHash ∧
        m (4000 + (0 : Int)) = pedersen secret commitmentHash := ⟨rfl, rfl, rfl⟩
  have left : stack m 1000 11 = 3 ∧ stack m 1000 14 = 2 ∧ stack m 1000 17 = 1 := ⟨rfl, rfl, rfl⟩
  constructor
  case caller => exact ⟨rfl, rfl⟩
  case builtins => exact ⟨rfl, rfl, rfl⟩
  case called => exact ⟨rfl, rfl⟩
  case first => exact ⟨rfl, left.1 ▸ by decide⟩
  case second => exact ⟨rfl, rfl, rfl, left.2.1 ▸ by decide⟩
  case third => exact ⟨rfl, rfl, rfl, left.2.2 ▸ by decide⟩
  case rest => exact ⟨rfl, rfl, rfl, rfl⟩
  case arguments =>
    exact ⟨secret_at.1.trans secret_at.2.1.symm, commitment_at.1.trans commitment_at.2.1.symm⟩
  case builtin =>
    exact ⟨secret_at.1.trans secret_at.2.2.symm, commitment_at.1.trans commitment_at.2.2.symm,
      computed_at.1.trans computed_at.2.1.symm⟩
  case output => exact computed_at.1.trans computed_at.2.2.symm
  case results => exact ⟨rfl, rfl, rfl, rfl⟩
  case exit => exact ⟨rfl, rfl, rfl, rfl⟩

theorem accepting_executes (pedersen : Felt → Felt → Felt)
    (secret commitmentHash nullifierHash : Felt) :
    Executes pedersen (accepting pedersen secret commitmentHash nullifierHash) 0 1000
      (place 0 1000 4 36 0) [secret, commitmentHash, nullifierHash]
      [pedersen secret commitmentHash] := by
  have loaded := accepting_loaded pedersen secret commitmentHash nullifierHash
  have trace := accepting_trace pedersen secret commitmentHash nullifierHash
  obtain ⟨first, second, third, fourth⟩ :=
    stack_ends (accepting pedersen secret commitmentHash nullifierHash) 0 1000
  set m := accepting pedersen secret commitmentHash nullifierHash
  have current : stack m 1000 0 = 4000 := rfl
  have pointer : stack m 1000 1 = 3000 := rfl
  have start : stack m 1000 5 = 2000 := rfl
  refine ⟨loaded, (halts_iff_place loaded).mpr ⟨trace, rfl⟩, ?_, ?_, ⟨1, ?_⟩⟩
  · refine ⟨by norm_num, rfl, fun i felt found => ?_⟩
    rw [start]
    match i, found with
    | 0, found | 1, found | 2, found =>
        cases found
        rfl
  · rw [first, third]
    refine ⟨by norm_num, rfl, fun i felt found => ?_⟩
    rw [current]
    match i, found with
    | 0, found =>
        cases found
        rfl
  · rw [second, fourth]
    refine ⟨by norm_num, rfl, fun k once => ?_⟩
    obtain rfl : k = 0 := by omega
    have left : m (3000 + (3 * 0 : Nat)) = secret := rfl
    have right : m (3000 + (3 * 0 + 1 : Nat)) = commitmentHash := rfl
    have computed : m (3000 + (3 * 0 + 2 : Nat)) = pedersen secret commitmentHash := rfl
    rw [pointer, left, right, computed]

/-- What a proof of the executable attests is exactly what the circuit's source computes. -/
theorem compiled_iff_source (pedersen : Felt → Felt → Felt) (arguments output : List Felt) :
    (∃ m p f t, Executes pedersen m p f t arguments output) ↔
      execute pedersen arguments = .ok output := by
  constructor
  · rintro ⟨m, p, f, t, executes⟩
    exact attests executes
  · intro succeeds
    obtain ⟨secret, commitmentHash, nullifierHash, rfl, rfl⟩ := execute_ok.mp succeeds
    exact ⟨_, _, _, _, accepting_executes pedersen secret commitmentHash nullifierHash⟩

end Executions

end PrivateBtc.Contracts.CompiledCircuit
