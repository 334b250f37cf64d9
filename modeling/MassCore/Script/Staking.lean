import MassCore.Script.Run

/-!
Contract: the lock script a staking program adds in front of the witness scripts.

A witness program with one extension opcode whose data has `WitnessV0FrozenPeriodDataSize`
bytes is a staking program. `verifyWitnessProgram` reads its frozen period with
`makeScriptNum`, returns an error for a negative period and for the one whose successor
overflows `int64`, and adds the script `<frozenPeriod + 1> OP_CHECKSEQUENCEVERIFY OP_DROP`, the
successor pushed as the eight bytes `binary.LittleEndian.PutUint64` writes.

Owns: when the staking branch of `extProgScripts` succeeds, and the value its lock script
commits to (`extProgScripts_staking`). `makeScriptNum` returns a `scriptNum`, an `int64`; the
model's parameter returns an integer, which the theorem takes below `2^63`.
-/

namespace MassCore.Script.Engine

variable {rt : Runtime} {vm : Engine}

/-- The guard `frozenPeriod < 0 || frozenPeriod+1 < 0` of an `int64` period rejects exactly the
negative periods and the largest one, whose successor overflows. -/
theorem frozenPeriod_guard {frozenPeriod : Int} (int64 : frozenPeriod < 2 ^ 63) :
    (frozenPeriod < 0 ∨ int64Add frozenPeriod 1 < 0) ↔
      ¬(0 ≤ frozenPeriod ∧ frozenPeriod < 2 ^ 63 - 1) := by
  unfold int64Add
  omega

theorem int64Add_one_of_lt {frozenPeriod : Int}
    (inRange : 0 ≤ frozenPeriod ∧ frozenPeriod < 2 ^ 63 - 1) :
    int64Add frozenPeriod 1 = frozenPeriod + 1 := by
  unfold int64Add
  omega

/-- The staking branch of `extProgScripts` succeeds exactly when the frozen period lies in
`[0, 2^63 - 1)` and the lock script parses; its one script pushes eight bytes that read back,
little-endian, as `frozenPeriod + 1`. -/
theorem extProgScripts_staking {ext : ParsedOpcode} {frozenPeriod : Int}
    {lock : List (List ParsedOpcode)} (staking : vm.witnessExtProg = [ext])
    (frozenSize : ext.data.length = rt.witnessV0FrozenPeriodDataSize)
    (decoded : rt.makeScriptNum ext.data vm.dstack.verifyMinimalData 9 = .ok frozenPeriod)
    (int64 : frozenPeriod < 2 ^ 63) :
    extProgScripts rt vm = .ok lock ↔
      0 ≤ frozenPeriod ∧ frozenPeriod < 2 ^ 63 - 1 ∧
      ∃ buf pops, buf.length = 8 ∧ (leValue buf : Int) = frozenPeriod + 1 ∧
        rt.parseScript (lockScript rt buf) = .ok pops ∧ lock = [pops] := by
  unfold extProgScripts
  rw [staking]
  simp only [frozenSize, if_true, decoded]
  by_cases inRange : 0 ≤ frozenPeriod ∧ frozenPeriod < 2 ^ 63 - 1
  · rw [if_neg ((frozenPeriod_guard int64).not.mpr (not_not.mpr inRange)),
      int64Add_one_of_lt inRange, map_eq_ok]
    have encoded : (leValue (putUint64 (frozenPeriod + 1).toNat) : Int) = frozenPeriod + 1 := by
      rw [leValue_putUint64, Nat.mod_eq_of_lt (by omega), Int.toNat_of_nonneg (by omega)]
    constructor
    · rintro ⟨pops, parsed, rfl⟩
      exact ⟨inRange.1, inRange.2, putUint64 (frozenPeriod + 1).toNat, pops, rfl, encoded, parsed,
        rfl⟩
    · rintro ⟨-, -, buf, pops, length, bufValue, parsed, rfl⟩
      have sameBuf : buf = putUint64 (frozenPeriod + 1).toNat :=
        leValue_inj (by rw [length]; rfl) (by omega)
      exact ⟨pops, sameBuf ▸ parsed, rfl⟩
  · rw [if_pos ((frozenPeriod_guard int64).mpr inRange)]
    simp only [reduceCtorEq, false_iff]
    rintro ⟨nonNegative, belowMax, -⟩
    exact inRange ⟨nonNegative, belowMax⟩

/-- An engine whose extension program is a staking push of nine zero bytes. -/
def stakingEngine : Engine :=
  { (default : Engine) with witnessExtProg := [⟨⟨0x09⟩, List.replicate 9 0⟩] }

theorem extProgScripts_staking_nineZeros :
    ∃ lock, extProgScripts pushRuntime stakingEngine = .ok lock ∧
      ∃ buf pops, buf.length = 8 ∧ (leValue buf : Int) = 0 + 1 ∧
        pushRuntime.parseScript (lockScript pushRuntime buf) = .ok pops ∧ lock = [pops] := by
  obtain ⟨lock, computed⟩ : ∃ lock, extProgScripts pushRuntime stakingEngine = .ok lock :=
    ⟨_, rfl⟩
  obtain ⟨-, -, committed⟩ := (extProgScripts_staking rfl rfl rfl (by norm_num)).mp computed
  exact ⟨lock, computed, committed⟩

end MassCore.Script.Engine
