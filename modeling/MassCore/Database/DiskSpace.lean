import Mathlib

/-!
Contract: `CheckDiskSpaceWin` of package `disk`, whether the volume holding `path` has room
for `additional` more bytes beyond the reserve `MinDiskSpace`.

`GetDiskFreeSpaceExW` writes the free bytes into the `int64` `lpFreeBytesAvailable`, which
keeps its initial 0 when the call fails; the check runs either way. The model takes the value
left there as an argument.

## Why the comparison is not the one it reads as

The code compares with `int64(additional+MinDiskSpace)`. The sum is a `uint64` and wraps
past `2^64`, and the conversion to `int64` reads a sum of `2^63` or more as negative. While
the sum stays below `2^63` the check is `additional + MinDiskSpace ≤ free`
(`checkDiskSpaceWin_iff`). Past it every request of `2^63` bytes passes, with no free byte
and when the system call failed (`checkDiskSpaceWin_passes_half_range`).

Does not own: the system call, the logging, and the value of `MinDiskSpace`, a parameter.
-/

namespace MassCore.Database

/-- Go's `int64(x)` of a `uint64`: the same 64 bits read in two's complement. -/
def toInt64 (x : UInt64) : Int :=
  if x.toNat < 2 ^ 63 then x.toNat else x.toNat - 2 ^ 64

/-- `CheckDiskSpaceWin(path, additional)`, with `freeBytes` the value the system call left in
`lpFreeBytesAvailable`. -/
def checkDiskSpaceWin (minDiskSpace : UInt64) (freeBytes : Int) (additional : UInt64) : Bool :=
  decide (freeBytes ≥ toInt64 (additional + minDiskSpace))

theorem toInt64_of_lt {x : UInt64} (small : x.toNat < 2 ^ 63) : toInt64 x = x.toNat := by
  rw [toInt64, if_pos small]

theorem toInt64_neg_of_le (x : UInt64) (large : 2 ^ 63 ≤ x.toNat) : toInt64 x < 0 := by
  have bounded : x.toNat < 2 ^ 64 := x.toNat_lt
  simp only [toInt64, if_neg (Nat.not_lt.mpr large)]
  omega

theorem toNat_add_of_lt (a b : UInt64) (noWrap : a.toNat + b.toNat < 2 ^ 64) :
    (a + b).toNat = a.toNat + b.toNat := by
  rw [UInt64.toNat_add]
  exact Nat.mod_eq_of_lt noWrap

/-- While `additional + MinDiskSpace` stays below `2^63`, the check passes exactly when the
free bytes cover it. -/
theorem checkDiskSpaceWin_iff {minDiskSpace additional : UInt64} {freeBytes : Int}
    (small : additional.toNat + minDiskSpace.toNat < 2 ^ 63) :
    checkDiskSpaceWin minDiskSpace freeBytes additional = true ↔
      ((additional.toNat + minDiskSpace.toNat : Nat) : Int) ≤ freeBytes := by
  have sum := toNat_add_of_lt additional minDiskSpace (by omega)
  rw [checkDiskSpaceWin, decide_eq_true_iff, toInt64_of_lt (sum ▸ small), sum]

theorem checkDiskSpaceWin_iff_small :
    (100 : UInt64).toNat + (10 : UInt64).toNat < 2 ^ 63 ∧
      (checkDiskSpaceWin 10 500 100 = true ↔
        (((100 : UInt64).toNat + (10 : UInt64).toNat : Nat) : Int) ≤ 500) :=
  have small : (100 : UInt64).toNat + (10 : UInt64).toNat < 2 ^ 63 := by decide
  ⟨small, checkDiskSpaceWin_iff small⟩

/-- With a reserve below `2^63`, a request of `2^63` bytes passes whatever the free space,
also when the system call failed and left 0. -/
theorem checkDiskSpaceWin_passes_half_range {minDiskSpace : UInt64} {freeBytes : Int}
    (reserve : minDiskSpace.toNat < 2 ^ 63) (nonNegative : 0 ≤ freeBytes) :
    checkDiskSpaceWin minDiskSpace freeBytes (2 ^ 63) = true := by
  have half : (2 ^ 63 : UInt64).toNat = 2 ^ 63 := rfl
  have sum := toNat_add_of_lt (2 ^ 63) minDiskSpace (by omega)
  have negative := toInt64_neg_of_le (2 ^ 63 + minDiskSpace) (by omega)
  simp only [checkDiskSpaceWin, decide_eq_true_iff]
  omega

theorem checkDiskSpaceWin_passes_half_range_noSpace :
    (0 : UInt64).toNat < 2 ^ 63 ∧ (0 : Int) ≤ 0 ∧ checkDiskSpaceWin 0 0 (2 ^ 63) = true :=
  have reserve : (0 : UInt64).toNat < 2 ^ 63 := by decide
  ⟨reserve, le_refl 0, checkDiskSpaceWin_passes_half_range reserve (le_refl 0)⟩

end MassCore.Database
