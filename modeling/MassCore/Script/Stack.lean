import MassCore.Script.Basic

/-!
Contract: the data and alt stacks of the engine, and `getStack` / `setStack` of
`txscript/engine.go`.

`stack.go` is not part of these sources. A stack is its list of items, bottom first, so
that `PushByteArray` appends, `DropN(n)` removes the last `n` items and
`PeekByteArray(i)` reads the `i`-th item from the top.

Owns: the round trip between `setStack` and `getStack`, and where it stops. `getStack`
asks for item `int32(i)`; past `2^31` items that index wraps negative, the peek fails,
and the slot keeps its nil.
-/

namespace MassCore.Script

/-- A `stack`: its items, bottom first, and its minimal-encoding flag. -/
structure Stack where
  stk : List Bytes
  verifyMinimalData : Bool
deriving DecidableEq, Repr, Inhabited

namespace Stack

/-- `Depth()`: the number of items. -/
def depth (s : Stack) : Nat := s.stk.length

/-- `PushByteArray(so)`: put `so` on top. -/
def pushByteArray (s : Stack) (so : Bytes) : Stack := { s with stk := s.stk ++ [so] }

/-- `PeekByteArray(idx)`: the item `idx` places below the top. -/
def peekByteArray (s : Stack) (idx : Int) : Except ScriptError Bytes :=
  if 0 ≤ idx ∧ idx < s.depth then .ok (s.stk.getD (s.depth - 1 - idx.toNat) [])
  else .error .errStackUnderflow

/-- `DropN(n)`: remove the top `n` items. The engine calls it with `n = Depth()` only and
discards its error. -/
def dropN (s : Stack) (n : Nat) : Stack := { s with stk := s.stk.take (s.depth - n) }

/-- `PopBool()`: pop the top item and read it as a boolean with `asBool`. -/
def popBool (asBool : Bytes → Bool) (s : Stack) : Except ScriptError (Bool × Stack) :=
  match s.stk.getLast? with
  | none => .error .errStackUnderflow
  | some so => .ok (asBool so, { s with stk := s.stk.dropLast })

@[simp] theorem depth_pushByteArray (s : Stack) (so : Bytes) :
    (s.pushByteArray so).depth = s.depth + 1 := by
  simp [depth, pushByteArray]

@[simp] theorem dropN_depth_stk (s : Stack) : (s.dropN s.depth).stk = [] := by
  simp [dropN]

@[simp] theorem depth_dropN_depth (s : Stack) : (s.dropN s.depth).depth = 0 := by
  simp [depth, dropN]

@[simp] theorem dropN_verifyMinimalData (s : Stack) (n : Nat) :
    (s.dropN n).verifyMinimalData = s.verifyMinimalData := rfl

end Stack

/-- The value Go assigns from `PeekByteArray(idx)`: the item, or nil when the peek fails. -/
def peekValue (stack : Stack) (idx : Int) : Bytes :=
  match stack.peekByteArray idx with
  | .ok so => so
  | .error _ => []

/-- `getStack`: the items of `stack`, bottom first, read back through `PeekByteArray`. -/
def getStack (stack : Stack) : List Bytes :=
  let depth := stack.depth
  (List.range depth).foldl
    (fun array i => array.set (depth - i - 1) (peekValue stack (toInt32 i)))
    (List.replicate depth [])

/-- `setStack`: empty `stack`, then push `data` in order, so its last item is the top. -/
def setStack (stack : Stack) (data : List Bytes) : Stack :=
  data.foldl Stack.pushByteArray (stack.dropN stack.depth)

/-! ## `setStack` -/

theorem foldl_pushByteArray (s : Stack) (data : List Bytes) :
    data.foldl Stack.pushByteArray s = { s with stk := s.stk ++ data } := by
  induction data generalizing s with
  | nil => simp
  | cons so rest inductionHypothesis =>
      simp [inductionHypothesis, Stack.pushByteArray]

@[simp] theorem setStack_stk (stack : Stack) (data : List Bytes) :
    (setStack stack data).stk = data := by
  simp [setStack, foldl_pushByteArray]

@[simp] theorem setStack_verifyMinimalData (stack : Stack) (data : List Bytes) :
    (setStack stack data).verifyMinimalData = stack.verifyMinimalData := by
  simp [setStack, foldl_pushByteArray]

/-! ## `getStack` -/

theorem length_foldl_set {α : Type} (g : Nat → Nat) (f : Nat → α) (indices : List Nat)
    (array : List α) :
    (indices.foldl (fun array i => array.set (g i) (f i)) array).length = array.length := by
  induction indices generalizing array with
  | nil => rfl
  | cons i rest inductionHypothesis => simp [inductionHypothesis]

/-- Writing `f i` into slot `n - i - 1` for each `i < k` fills the top `k` slots, read
from the end. -/
theorem foldl_set_reverse {α : Type} (n k : Nat) (f : Nat → α) (fill : α) (position : Nat)
    (inRange : position < n) (bound : k ≤ n) :
    ((List.range k).foldl (fun array i => array.set (n - i - 1) (f i))
        (List.replicate n fill))[position]? =
      some (if n - 1 - position < k then f (n - 1 - position) else fill) := by
  induction k with
  | zero => simp [inRange]
  | succ k inductionHypothesis =>
      rw [List.range_succ, List.foldl_append, List.foldl_cons, List.foldl_nil,
        List.getElem?_set, inductionHypothesis (by omega), length_foldl_set,
        List.length_replicate]
      by_cases here : n - k - 1 = position
      · simp [here, inRange, show n - 1 - position = k by omega]
      · simp only [here, if_false]
        by_cases below : n - 1 - position < k
        · simp [below, show n - 1 - position < k + 1 by omega]
        · simp [below, show ¬n - 1 - position < k + 1 by omega]

theorem length_getStack (stack : Stack) : (getStack stack).length = stack.depth := by
  simp [getStack, length_foldl_set]

/-- Slot `p` of `getStack` holds what `PeekByteArray(int32(depth - 1 - p))` returns. -/
theorem getElem?_getStack (stack : Stack) {position : Nat} (inRange : position < stack.depth) :
    (getStack stack)[position]? =
      some (peekValue stack (toInt32 (stack.depth - 1 - position))) := by
  rw [getStack, foldl_set_reverse _ _ _ _ _ inRange le_rfl, if_pos (by omega)]

/-- Below `2^31` items every peek succeeds, and reads the item of the same slot. -/
theorem peekValue_of_lt (stack : Stack) {position : Nat} (inRange : position < stack.depth)
    (small : stack.depth ≤ 2 ^ 31) :
    peekValue stack (toInt32 (stack.depth - 1 - position)) = stack.stk.getD position [] := by
  rw [toInt32_of_lt (by omega)]
  simp only [peekValue, Stack.peekByteArray, Int.toNat_ofNat]
  rw [if_pos (by omega), show stack.depth - 1 - (stack.depth - 1 - position) = position by omega]

theorem getStack_eq_stk (stack : Stack) (small : stack.depth ≤ 2 ^ 31) :
    getStack stack = stack.stk := by
  apply List.ext_getElem?
  intro position
  by_cases inRange : position < stack.depth
  · rw [getElem?_getStack stack inRange, peekValue_of_lt stack inRange small,
      List.getD_eq_getElem?_getD, List.getElem?_eq_getElem inRange]
    rfl
  · have outside : stack.stk.length ≤ position := by simpa [Stack.depth] using inRange
    rw [List.getElem?_eq_none (by rw [length_getStack]; omega), List.getElem?_eq_none outside]

theorem setStack_eq (stack : Stack) (data : List Bytes) :
    setStack stack data = { stack with stk := data } := by
  simp [setStack, foldl_pushByteArray, Stack.dropN]

/-- `setStack` and `getStack` are inverse while the stack holds at most `2^31` items:
`getStack` reads back what `setStack` wrote, and `setStack` of `getStack` changes
nothing. -/
theorem getStack_setStack_roundTrip :
    (∀ (stack : Stack) (data : List Bytes), data.length ≤ 2 ^ 31 →
      getStack (setStack stack data) = data) ∧
    (∀ stack : Stack, stack.depth ≤ 2 ^ 31 → setStack stack (getStack stack) = stack) := by
  constructor
  · intro stack data small
    rw [getStack_eq_stk _ (by simpa [Stack.depth] using small), setStack_stk]
  · intro stack small
    rw [getStack_eq_stk stack small, setStack_eq]

theorem getStack_setStack_two_items :
    getStack (setStack default [[1], [2, 3]]) = [[1], [2, 3]] :=
  getStack_setStack_roundTrip.1 default [[1], [2, 3]] (by decide)

/-- At `2^31 + 1` items the bottom slot is read through `int32(2^31)`, which is negative,
so the peek fails and the slot stays nil. -/
theorem getStack_bottom_of_wrap (stack : Stack) (deep : stack.depth = 2 ^ 31 + 1) :
    (getStack stack)[0]? = some [] := by
  rw [getElem?_getStack stack (by omega), deep]
  have wrapped : toInt32 (2 ^ 31 + 1 - 1 - 0) = -2 ^ 31 := by decide
  rw [wrapped]
  simp [peekValue, Stack.peekByteArray]

theorem getStack_setStack_wraps :
    getStack (setStack default ([1] :: List.replicate (2 ^ 31) [])) ≠
      [1] :: List.replicate (2 ^ 31) [] := by
  intro roundTrip
  have bottom := getStack_bottom_of_wrap (setStack default ([1] :: List.replicate (2 ^ 31) []))
    (by rw [Stack.depth, setStack_stk, List.length_cons, List.length_replicate])
  rw [roundTrip, List.getElem?_cons_zero] at bottom
  exact absurd (Option.some.inj bottom) (List.cons_ne_nil _ _)

end MassCore.Script
