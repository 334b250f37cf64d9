import Mathlib

/-!
Contract: the values the txscript engine of `txscript/engine.go` passes around.

Owns: byte strings, the opcode values the engine compares against, parsed opcodes,
the engine's error values, and the two ways a Go call can fail (a returned error or a
runtime panic).

Does not own: the opcode table of `opcode.go` (disabled, illegal and conditional
opcodes, the opcode functions), which is not part of these sources and enters the model
as parameters of `Runtime`.
-/

namespace MassCore.Script

/-- A Go `[]byte`. A nil slice and an empty slice are both `[]`. -/
abbrev Bytes := List UInt8

/-! ## Opcode values -/

/-- `OP_DATA_20`: a push of 20 bytes. Its value is also the pushed length. -/
def opData20 : UInt8 := 0x14

/-- `OP_DATA_22`: a push of 22 bytes. -/
def opData22 : UInt8 := 0x16

/-- `OP_PUSHDATA4`, the last data-push opcode. -/
def opPushData4 : UInt8 := 0x4e

/-- `OP_16`, the last small-integer push. Opcodes above it count towards `numOps`. -/
def op16 : UInt8 := 0x60

/-- `OP_DROP`. -/
def opDrop : UInt8 := 0x75

/-- `OP_CHECKSEQUENCEVERIFY`. -/
def opCheckSequenceVerify : UInt8 := 0xb2

/-- `OpCondTrue`, the `condStack` entry of an executing branch. -/
def opCondTrue : Int := 1

/-- An opcode of the table. Only its value is read by the engine; its name, length and
function are kept by `Runtime`. -/
structure Opcode where
  value : UInt8
deriving DecidableEq, Repr, Inhabited

/-- A `parsedOpcode`: an opcode and the data it pushes. -/
structure ParsedOpcode where
  opcode : Opcode
  data : Bytes
deriving DecidableEq, Repr, Inhabited

/-- `ScriptFlags`, a bit set. -/
abbrev ScriptFlags := UInt32

/-! ## Errors -/

/-- The error values the engine returns. `message` is an error built by `fmt.Errorf`,
with its text. -/
inductive ScriptError where
  | errStackOpDisabled
  | errStackReservedOpcode
  | errStackTooManyOperations
  | errStackElementTooBig
  | errStackOverflow
  | errStackMissingEndif
  | errStackUnderflow
  | errStackScriptUnfinished
  | errStackCleanStack
  | errStackEmptyStack
  | errStackScriptFailed
  | errStackInvalidIndex
  | errStackInvalidLowSSignature
  | errDiscourageUpgradableWitnessProgram
  | errWitnessLength
  | errWitnessProgramMismatch
  | errWitnessExtProgUnknown
  | errWitnessUnexpected
  | errScriptTooBig
  | message (text : String)
deriving DecidableEq, Repr

/-- How a Go call ends when it does not return normally: with a non-nil `error`, or with
a runtime panic (an index out of range). -/
inductive Failure where
  | error (err : ScriptError)
  | panic
deriving DecidableEq, Repr

/-! ## Go integer conversions -/

/-- Go's `int32(i)` of a non-negative `int`: the low 32 bits, read in two's complement. -/
def toInt32 (i : Nat) : Int :=
  if i % 2 ^ 32 < 2 ^ 31 then (i % 2 ^ 32 : Nat) else (i % 2 ^ 32 : Nat) - 2 ^ 32

theorem toInt32_of_lt {i : Nat} (small : i < 2 ^ 31) : toInt32 i = i := by
  have reduced : i % 2 ^ 32 = i := Nat.mod_eq_of_lt (by omega)
  rw [toInt32, reduced, if_pos small]

/-- Go's `int64` addition, which wraps around. -/
def int64Add (a b : Int) : Int :=
  (a + b + 2 ^ 63) % 2 ^ 64 - 2 ^ 63

/-- `binary.LittleEndian.PutUint64` into a fresh 8-byte buffer. -/
def putUint64 (value : Nat) : Bytes :=
  (List.range 8).map fun index => UInt8.ofNat (value / 256 ^ index)

/-- Go's `%04d` of a natural number. -/
def zeroPad4 (n : Nat) : String :=
  let digits := toString n
  String.mk (List.replicate (4 - digits.length) '0') ++ digits

/-! ## Little-endian bytes -/

theorem toNat_ofNat_byte (value : Nat) : (UInt8.ofNat value).toNat = value % 256 := by
  simp [UInt8.ofNat, UInt8.toNat, Fin.ofNat]

/-- The value of a little-endian byte string: byte `i` weighs `256^i`. -/
def leValue : Bytes → Nat
  | [] => 0
  | byte :: rest => byte.toNat + 256 * leValue rest

theorem leValue_append_singleton (byte : UInt8) :
    ∀ bytes : Bytes, leValue (bytes ++ [byte]) = leValue bytes + 256 ^ bytes.length * byte.toNat
  | [] => by simp [leValue]
  | first :: rest => by
      rw [List.cons_append, leValue, leValue, leValue_append_singleton byte rest, List.length_cons,
        pow_succ]
      ring

/-- The first `width` little-endian bytes of `value` read back as `value` modulo `256^width`. -/
theorem leValue_range_map (value : Nat) :
    ∀ width, leValue ((List.range width).map fun index => UInt8.ofNat (value / 256 ^ index)) =
      value % 256 ^ width
  | 0 => by simp [leValue, Nat.mod_one]
  | width + 1 => by
      rw [List.range_succ, List.map_append, List.map_singleton, leValue_append_singleton,
        leValue_range_map value width, List.length_map, List.length_range, toNat_ofNat_byte,
        Nat.mod_pow_succ, Nat.add_comm]

theorem leValue_putUint64 (value : Nat) : leValue (putUint64 value) = value % 2 ^ 64 := by
  rw [putUint64, leValue_range_map]
  norm_num

theorem leValue_inj : ∀ {first second : Bytes}, first.length = second.length →
    leValue first = leValue second → first = second
  | [], [], _, _ => rfl
  | a :: first, b :: second, sameLength, sameValue => by
      simp only [leValue] at sameValue
      have aSmall := a.toNat_lt
      have bSmall := b.toNat_lt
      have heads : a.toNat = b.toNat := by omega
      have tails : leValue first = leValue second := by omega
      rw [UInt8.toNat.inj heads, leValue_inj (Nat.succ.inj sameLength) tails]

/-! ## Go's `if err != nil { return err }` -/

theorem bind_eq_ok {ε α β : Type} {x : Except ε α} {f : α → Except ε β} {b : β} :
    x >>= f = .ok b ↔ ∃ a, x = .ok a ∧ f a = .ok b := by
  cases x <;> simp [bind, Except.bind]

theorem bind_eq_error {ε α β : Type} {x : Except ε α} {f : α → Except ε β} {e : ε} :
    x >>= f = .error e ↔ x = .error e ∨ ∃ a, x = .ok a ∧ f a = .error e := by
  cases x <;> simp [bind, Except.bind]

/-- A guard that returns an error passes exactly when its condition fails. -/
theorem ite_error_eq_ok {ε α : Type} {c : Prop} [Decidable c] {e : ε} {x : Except ε α} {a : α} :
    (if c then .error e else x) = .ok a ↔ ¬c ∧ x = .ok a := by
  split_ifs <;> simp [*]

theorem map_eq_ok {ε α β : Type} {x : Except ε α} {f : α → β} {b : β} :
    Except.map f x = .ok b ↔ ∃ a, x = .ok a ∧ f a = b := by
  cases x <;> simp [Except.map]

theorem mapError_eq_ok {ε ε' α : Type} {x : Except ε α} {f : ε → ε'} {a : α} :
    x.mapError f = .ok a ↔ x = .ok a := by
  cases x <;> simp [Except.mapError]

end MassCore.Script
