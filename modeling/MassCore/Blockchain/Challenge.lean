import Mathlib

/-!
Contract: the window of headers `calcNextChallenge` hands to `challenge.CalcNextChallenge`.

A `*BlockNode` is nil or a node with its `Height`, the header its `BlockHeader()` returns and
its `Parent`. Reading through a nil pointer panics; the model returns `none` there, so a
result `some` says the walk dereferenced only non-nil nodes.

The loop reads `size` headers, newest first, following `Parent` after each one, where `size`
is `MaxReferredBlocks` cut down to `Height + 1`. On a chain whose heights drop by one through
every parent down to the genesis block, `collectHeaders_of_wellFormed` shows by induction on
the count that the walk never meets nil before the genesis block, and that the `i`-th header
it reads is the one at height `Height - i`; the main theorem adds the `uint64` arithmetic of
`size`. Without the hypothesis the walk can panic: it meets nil exactly when one of the
first `size` nodes is nil (`collectHeaders_eq_none_iff`), as on a chain cut short above the
genesis block.

Does not own: `challenge.CalcNextChallenge` and `challenge.MaxReferredBlocks`, which are
parameters, and the fields of `BlockNode` that the loop does not read.
-/

namespace MassCore.Blockchain

/-- A `*BlockNode`: nil, or a node with its `Height`, its header and its `Parent`. -/
inductive BlockNode (Header : Type) where
  | nil
  | node (height : UInt64) (header : Header) (parent : BlockNode Header)
deriving DecidableEq, Repr

namespace BlockNode

variable {Header : Type}

/-- `refNode.Parent`, continued as nil past nil. -/
def parent : BlockNode Header → BlockNode Header
  | nil => nil
  | node _ _ parent => parent

/-- The node `count` parents up, nil once the chain runs out. -/
def ancestor : Nat → BlockNode Header → BlockNode Header
  | 0, refNode => refNode
  | count + 1, refNode => ancestor count refNode.parent

/-- `refNode.Height`, `none` on nil. -/
def height? : BlockNode Header → Option UInt64
  | nil => none
  | node height _ _ => some height

/-- `refNode.BlockHeader()`, `none` on nil. -/
def header? : BlockNode Header → Option Header
  | nil => none
  | node _ header _ => some header

/-- Every node of height `h > 0` has a non-nil parent of height `h - 1`. -/
def WellFormed : BlockNode Header → Prop
  | nil => True
  | node height _ parent => (0 < height → parent.height? = some (height - 1)) ∧ WellFormed parent

instance decidableWellFormed : ∀ refNode : BlockNode Header, Decidable (WellFormed refNode)
  | nil => isTrue trivial
  | node height _ parent =>
      have := decidableWellFormed parent
      inferInstanceAs (Decidable ((0 < height → _) ∧ WellFormed parent))

@[simp] theorem ancestor_zero (refNode : BlockNode Header) : ancestor 0 refNode = refNode := rfl

@[simp] theorem ancestor_succ_node (count : Nat) (height : UInt64) (header : Header)
    (parent : BlockNode Header) :
    ancestor (count + 1) (node height header parent) = ancestor count parent := rfl

theorem height?_eq_some {refNode : BlockNode Header} {height : UInt64}
    (read : refNode.height? = some height) :
    ∃ header parent, refNode = node height header parent := by
  cases refNode with
  | nil => cases read
  | node _ header parent => cases read; exact ⟨header, parent, rfl⟩

end BlockNode

open BlockNode

variable {Header : Type}

/-- The loop of `calcNextChallenge`, `count` rounds of `headers[i] = refNode.BlockHeader()`
and `refNode = refNode.Parent`; `none` when it calls `BlockHeader()` on nil. -/
def collectHeaders : Nat → BlockNode Header → Option (List Header)
  | 0, _ => some []
  | _ + 1, nil => none
  | count + 1, node _ header parent => (collectHeaders count parent).map (header :: ·)

/-- `calcNextChallenge(lastNode)`: what `challenge.CalcNextChallenge` returns on
`lastNode.BlockHeader()` and the headers of the loop; `none` on a nil dereference. -/
def calcNextChallenge {Result : Type} (maxReferredBlocks : UInt64)
    (calcNext : Header → List Header → Result) : BlockNode Header → Option Result
  | nil => none
  | lastNode@(node height header _) =>
      let size := if height + 1 < maxReferredBlocks then height + 1 else maxReferredBlocks
      (collectHeaders size.toNat lastNode).map (calcNext header)

/-- The loop calls `BlockHeader()` on nil exactly when one of the first `count` nodes of the
walk is nil. -/
theorem collectHeaders_eq_none_iff (count : Nat) (refNode : BlockNode Header) :
    collectHeaders count refNode = none ↔ ∃ i < count, ancestor i refNode = nil := by
  induction count generalizing refNode with
  | zero => simp [collectHeaders]
  | succ count inductionHypothesis =>
      cases refNode with
      | nil => exact ⟨fun _ => ⟨0, Nat.succ_pos count, rfl⟩, fun _ => rfl⟩
      | node height header parent =>
          simp only [collectHeaders, Option.map_eq_none', inductionHypothesis]
          constructor
          · rintro ⟨i, inside, isNil⟩
            exact ⟨i + 1, by omega, isNil⟩
          · rintro ⟨_ | i, inside, isNil⟩
            · cases isNil
            · exact ⟨i, by omega, isNil⟩

example : calcNextChallenge 3 Prod.mk (node 5 10 nil) = none := rfl

theorem uint64_pos_of_toNat_pos {height : UInt64} (positive : 0 < height.toNat) : 0 < height :=
  UInt64.lt_def.mpr (BitVec.lt_def.mpr positive)

theorem uint64_toNat_sub_one {height : UInt64} (positive : 0 < height.toNat) :
    (height - 1).toNat = height.toNat - 1 :=
  UInt64.toNat_sub_of_le _ _ (UInt64.le_def.mpr (BitVec.le_def.mpr positive))

/-- On a well-formed chain the loop reads `count ≤ Height + 1` headers without meeting nil,
the `i`-th from the ancestor at height `Height - i`. -/
theorem collectHeaders_of_wellFormed (count : Nat) :
    ∀ {height : UInt64} {header : Header} {parent : BlockNode Header},
      WellFormed (node height header parent) → count ≤ height.toNat + 1 →
      ∃ headers, collectHeaders count (node height header parent) = some headers ∧
        headers.length = count ∧
        ∀ i (inside : i < headers.length),
          (ancestor i (node height header parent)).height?.map UInt64.toNat =
              some (height.toNat - i) ∧
            (ancestor i (node height header parent)).header? = some headers[i] := by
  induction count with
  | zero => exact fun _ _ => ⟨[], rfl, rfl, fun _ inside => absurd inside (Nat.not_lt_zero _)⟩
  | succ count inductionHypothesis =>
      intro height header parent wellFormed inWindow
      cases count with
      | zero =>
          refine ⟨[header], rfl, rfl, fun i inside => ?_⟩
          obtain rfl : i = 0 := Nat.lt_one_iff.mp inside
          simp [height?, header?]
      | succ count =>
          have positive : 0 < height.toNat := by omega
          obtain ⟨parentHeader, grandparent, rfl⟩ :=
            height?_eq_some (wellFormed.1 (uint64_pos_of_toNat_pos positive))
          have parentHeight := uint64_toNat_sub_one positive
          obtain ⟨headers, collected, length, read⟩ :=
            inductionHypothesis wellFormed.2 (by omega)
          refine ⟨header :: headers, by rw [collectHeaders, collected]; rfl, by simp [length],
            fun i inside => ?_⟩
          cases i with
          | zero => simp [height?, header?]
          | succ i =>
              obtain ⟨heightRead, headerRead⟩ := read i (Nat.lt_of_succ_lt_succ inside)
              rw [ancestor_succ_node, heightRead, headerRead, parentHeight, Nat.sub_sub,
                Nat.add_comm 1 i]
              exact ⟨rfl, rfl⟩

/-- The window size: `(Height + 1 < MaxReferredBlocks ? Height + 1 : MaxReferredBlocks)`
is `min(MaxReferredBlocks, Height + 1)` while `Height + 1` does not wrap. -/
theorem windowSize_toNat (maxReferredBlocks : UInt64) {height : UInt64}
    (noWrap : height.toNat < 2 ^ 64 - 1) :
    (if height + 1 < maxReferredBlocks then height + 1 else maxReferredBlocks).toNat =
      min maxReferredBlocks.toNat (height.toNat + 1) := by
  have succToNat : (height + 1).toNat = height.toNat + 1 := by
    rw [UInt64.toNat_add]
    exact Nat.mod_eq_of_lt (by change height.toNat + 1 < 2 ^ 64; omega)
  have below : height + 1 < maxReferredBlocks ↔ height.toNat + 1 < maxReferredBlocks.toNat := by
    rw [UInt64.lt_def, BitVec.lt_def, ← succToNat]
    rfl
  split_ifs with shorter
  · rw [succToNat]; have := below.mp shorter; omega
  · have := below.not.mp shorter; omega

/-- `calcNextChallenge(n)` on a well-formed chain with `n.Height < 2^64 - 1` dereferences only
non-nil nodes and passes `CalcNextChallenge` the header of `n` and
`min(MaxReferredBlocks, n.Height + 1)` headers, the `i`-th from the ancestor at height
`n.Height - i`. -/
theorem calcNextChallenge_reads_window {Result : Type} (maxReferredBlocks : UInt64)
    (calcNext : Header → List Header → Result) {height : UInt64} {header : Header}
    {parent : BlockNode Header} (wellFormed : WellFormed (node height header parent))
    (noWrap : height.toNat < 2 ^ 64 - 1) :
    ∃ headers, calcNextChallenge maxReferredBlocks calcNext (node height header parent) =
        some (calcNext header headers) ∧
      headers.length = min maxReferredBlocks.toNat (height.toNat + 1) ∧
      ∀ i (inside : i < headers.length),
        (ancestor i (node height header parent)).height?.map UInt64.toNat =
            some (height.toNat - i) ∧
          (ancestor i (node height header parent)).header? = some headers[i] := by
  have size := windowSize_toNat maxReferredBlocks noWrap
  obtain ⟨headers, collected, length, read⟩ :=
    collectHeaders_of_wellFormed _ wellFormed (size ▸ min_le_right _ _)
  refine ⟨headers, ?_, length.trans size, read⟩
  simp only [calcNextChallenge]
  rw [collected]
  rfl

theorem calcNextChallenge_reads_window_threeBlocks :
    WellFormed (node 2 12 (node 1 11 (node 0 10 nil))) ∧ (2 : UInt64).toNat < 2 ^ 64 - 1 ∧
      ∃ headers, calcNextChallenge 2 Prod.mk (node 2 12 (node 1 11 (node 0 10 nil))) =
          some (12, headers) ∧ headers.length = 2 :=
  have wellFormed : WellFormed (node (2 : UInt64) 12 (node 1 11 (node 0 10 nil))) := by decide
  have noWrap : (2 : UInt64).toNat < 2 ^ 64 - 1 := by decide
  have ⟨headers, result, length, _⟩ :=
    calcNextChallenge_reads_window (2 : UInt64) Prod.mk wellFormed noWrap
  ⟨wellFormed, noWrap, headers, result, length⟩

end MassCore.Blockchain
