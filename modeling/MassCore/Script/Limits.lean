import MassCore.Script.Run

/-!
Contract: the consensus limits that `executeOpcode` and `Step` enforce, over whole runs.

`executeOpcode` checks every opcode handed to it, in an executing branch or not, before
any opcode function runs: the opcode is neither disabled nor always illegal, an opcode above
`OP_16` raises `numOps`, which may not pass `MaxOpsPerScript`, and any other opcode pushes at
most `MaxScriptElementSize` bytes. A run hands every opcode of every script to
`executeOpcode` once, in order (`Run`), so a successful `Execute` has checked every opcode of
the final script list, the scripts `verifyWitnessProgram` appended included, whatever the
opcode functions do. The per-script bound on the operations rests on `numOps` counting at
least the opcodes above `OP_16` of the current script: it does when the opcode functions
never lower it, and it counts exactly those opcodes when they leave it alone. An opcode
function may raise it (btcd's `OP_CHECKMULTISIG` adds its key count).

`Step` bounds the two stacks together after every opcode, and the script boundary empties
the alt stack, so the bound holds after every successful `Step`.

Owns: `countOps`, the checks of an opcode along a run, the operation-count invariant
`OpsCounted` of runs from `NewEngine`, and runs whose opcode functions raise or reset
`numOps`.
-/

namespace MassCore.Script.Engine

variable {rt : Runtime} {vm vm' vm₀ : Engine} {pop : ParsedOpcode} {done : Bool}

/-! ## Limits of an opcode and of a script -/

/-- The opcodes of a script that count towards `numOps`: those above `OP_16`. -/
def countOps (script : List ParsedOpcode) : Nat :=
  script.countP fun pop => op16 < pop.opcode.value

@[simp] theorem countOps_nil : countOps [] = 0 := rfl

@[simp] theorem countOps_append (first second : List ParsedOpcode) :
    countOps (first ++ second) = countOps first + countOps second :=
  List.countP_append _ _ _

theorem countOps_singleton (pop : ParsedOpcode) :
    countOps [pop] = if op16 < pop.opcode.value then 1 else 0 := by
  simp [countOps, List.countP_cons]

/-- The checks `executeOpcode` makes of an opcode, in an executing branch or not. -/
def OpcodeWithinLimits (rt : Runtime) (pop : ParsedOpcode) : Prop :=
  rt.isDisabled pop = false ∧ rt.alwaysIllegal pop = false ∧
    (pop.opcode.value ≤ op16 → pop.data.length ≤ rt.maxScriptElementSize)

instance (rt : Runtime) (pop : ParsedOpcode) : Decidable (OpcodeWithinLimits rt pop) :=
  inferInstanceAs (Decidable (_ ∧ _ ∧ _))

/-- Opcode functions that never lower the operation count. -/
def NeverLowersNumOps (rt : Runtime) : Prop :=
  ∀ pop vm vm', rt.opfunc pop vm = .ok vm' → vm.numOps ≤ vm'.numOps

/-- Opcode functions that leave the operation count alone. -/
def KeepsNumOps (rt : Runtime) : Prop :=
  ∀ pop vm vm', rt.opfunc pop vm = .ok vm' → vm'.numOps = vm.numOps

theorem KeepsNumOps.neverLowers (keeps : KeepsNumOps rt) : NeverLowersNumOps rt :=
  fun pop vm vm' ran => (keeps pop vm vm' ran).ge

/-! ## One opcode -/

/-- What `countOpcode` checked of the opcode, and the count it keeps: one more for an
opcode above `OP_16`, within `MaxOpsPerScript`. -/
theorem countOpcode_limits (counted : countOpcode rt vm pop = .ok vm') :
    OpcodeWithinLimits rt pop ∧ vm'.numOps = vm.numOps + countOps [pop] ∧
      (countOps [pop] = 0 ∨ countOps [pop] = 1 ∧ vm.numOps + 1 ≤ rt.maxOpsPerScript) := by
  obtain ⟨enabled, legal, ⟨above, room, rfl⟩ | ⟨below, small, rfl⟩⟩ := countOpcode_eq_ok counted
  · have one : countOps [pop] = 1 := by simp [countOps_singleton, above]
    exact ⟨⟨enabled, legal, fun below => absurd above (UInt8.not_lt.mpr below)⟩, by simp [one],
      .inr ⟨one, room⟩⟩
  · have zero : countOps [pop] = 0 := by simp [countOps_singleton, UInt8.not_lt.mpr below]
    exact ⟨⟨enabled, legal, fun _ => small⟩, by simp [zero], .inl zero⟩

/-- The count `executeOpcode` leaves: the one `countOpcode` kept, or what the opcode
function made of it. -/
theorem executeOpcode_limits (executed : executeOpcode rt vm pop = .ok vm') :
    OpcodeWithinLimits rt pop ∧
      (countOps [pop] = 0 ∨ countOps [pop] = 1 ∧ vm.numOps + 1 ≤ rt.maxOpsPerScript) ∧
      ∃ counted : Engine, counted.numOps = vm.numOps + countOps [pop] ∧
        (vm' = counted ∨ rt.opfunc pop counted = .ok vm') := by
  obtain ⟨counted, countedOk, skippedOrRan⟩ := executeOpcode_cases executed
  obtain ⟨within, numOpsEq, room⟩ := countOpcode_limits countedOk
  exact ⟨within, room, counted, numOpsEq, skippedOrRan⟩

theorem executeOpcode_numOps_le (monotone : NeverLowersNumOps rt)
    (executed : executeOpcode rt vm pop = .ok vm') :
    vm.numOps + countOps [pop] ≤ vm'.numOps := by
  obtain ⟨-, -, counted, numOpsEq, rfl | ran⟩ := executeOpcode_limits executed
  · exact numOpsEq.ge
  · exact numOpsEq ▸ monotone _ _ _ ran

theorem executeOpcode_numOps_eq (keeps : KeepsNumOps rt)
    (executed : executeOpcode rt vm pop = .ok vm') :
    vm'.numOps = vm.numOps + countOps [pop] := by
  obtain ⟨-, -, counted, numOpsEq, rfl | ran⟩ := executeOpcode_limits executed
  · exact numOpsEq
  · exact (keeps _ _ _ ran).trans numOpsEq

/-! ## One `Step` -/

/-- After every successful `Step` the two stacks hold at most `maxStackSize` items: `Step`
checks it after the opcode, and the script boundary empties the alt stack and at most
empties the data stack. -/
theorem step_depth_le (stepped : step rt vm = .ok (done, vm')) :
    vm'.dstack.depth + vm'.astack.depth ≤ rt.maxStackSize := by
  obtain ⟨-, -, executed, -, bounded, ⟨-, -, rfl⟩ | ⟨-, ended⟩⟩ := step_cases stepped
  · exact bounded
  · obtain ⟨_, _, dstack, rfl | rfl, rfl⟩ := endScript_eq ended <;>
      simp only [resetScript, Stack.depth_dropN_depth] <;> omega

/-- Across a boundary `Step` the operation count starts again at offset 0. -/
theorem step_boundary_reset (stepped : step rt vm = .ok (done, vm'))
    (crossed : vm.scriptOff + 1 = vm.currentScript.length) :
    vm'.scriptOff = 0 ∧ vm'.numOps = 0 := by
  obtain ⟨-, -, executed, executedOk, -, ⟨stillIn, -, rfl⟩ | ⟨-, ended⟩⟩ := step_cases stepped
  · obtain ⟨scriptsEq, idxEq, offEq⟩ := executeOpcode_pc executedOk
    dsimp only at scriptsEq idxEq offEq
    simp only [currentScript, scriptsEq, idxEq, offEq] at stillIn crossed
    omega
  · obtain ⟨_, _, _, -, rfl⟩ := endScript_eq ended
    exact ⟨rfl, rfl⟩

/-- Inside a script, a `Step` leaves the engine the opcode left, one opcode further in the
same script. -/
theorem step_inside (stepped : step rt vm = .ok (done, vm'))
    (inside : vm.scriptOff + 1 < vm.currentScript.length) :
    executeOpcode rt { vm with scriptOff := vm.scriptOff + 1 } vm.currentOpcode = .ok vm' ∧
      vm'.currentScript = vm.currentScript ∧ vm'.scriptOff = vm.scriptOff + 1 := by
  obtain ⟨-, -, executed, executedOk, -, continues⟩ := step_cases stepped
  obtain ⟨scriptsEq, idxEq, offEq⟩ := executeOpcode_pc executedOk
  dsimp only at scriptsEq idxEq offEq
  have sameScript : executed.currentScript = vm.currentScript := by
    simp only [currentScript, scriptsEq, idxEq]
  rcases continues with ⟨-, -, rfl⟩ | ⟨atEnd, -⟩
  · exact ⟨executedOk, sameScript, offEq⟩
  · rw [sameScript, offEq] at atEnd
    omega

/-- Every opcode a `Step` that returns hands to `executeOpcode` passed its checks. -/
theorem step_opcodeWithinLimits (stepped : step rt vm = .ok (done, vm')) :
    OpcodeWithinLimits rt vm.currentOpcode := by
  obtain ⟨-, -, executed, executedOk, -⟩ := step_cases stepped
  exact (executeOpcode_limits executedOk).1

/-! ## Runs -/

/-- Every opcode a run handed to `executeOpcode` passed its checks, whatever the opcode
functions do. -/
theorem Steps.opcodesWithinLimits {executed : List ParsedOpcode} (run : Steps rt vm₀ executed vm) :
    ∀ pop ∈ executed, OpcodeWithinLimits rt pop := by
  induction run with
  | refl => simp
  | tail _ fetched stepped inductionHypothesis =>
      intro pop member
      rcases List.mem_append.mp member with earlier | last
      · exact inductionHypothesis pop earlier
      · rw [List.mem_singleton.mp last, (fetchOpcode_eq_ok.mp fetched).2]
        exact step_opcodeWithinLimits stepped

theorem take_succ_scriptIdx (inRange : vm.scriptIdx < vm.scripts.length) :
    vm.scripts.take (vm.scriptIdx + 1) = vm.scripts.take vm.scriptIdx ++ [vm.currentScript] := by
  rw [List.take_succ, List.getElem?_eq_getElem inRange, currentScript_eq_getElem inRange]
  rfl

/-- The operations counted at the program counter: every script before the current one has
at most `MaxOpsPerScript` opcodes above `OP_16`, and so has the current one up to the
offset, whose opcodes above `OP_16` `numOps` counts at least. -/
structure OpsCounted (rt : Runtime) (vm : Engine) : Prop where
  finished : ∀ script ∈ vm.scripts.take vm.scriptIdx, countOps script ≤ rt.maxOpsPerScript
  current : countOps (vm.currentScript.take vm.scriptOff) ≤ rt.maxOpsPerScript
  countOps_le_numOps : countOps (vm.currentScript.take vm.scriptOff) ≤ vm.numOps

theorem step_opsCounted (monotone : NeverLowersNumOps rt) (counted : OpsCounted rt vm)
    (stepped : step rt vm = .ok (done, vm')) : OpsCounted rt vm' := by
  obtain ⟨idxLt, offLt, executed, executedOk, -, -⟩ := step_cases stepped
  obtain ⟨-, room, -⟩ := executeOpcode_limits executedOk
  have numOpsLe := counted.countOps_le_numOps
  have extended : countOps (vm.currentScript.take (vm.scriptOff + 1)) ≤ rt.maxOpsPerScript := by
    have bounded := counted.current
    rw [take_succ_currentScript offLt, countOps_append]
    dsimp only at room
    rcases room with zero | ⟨one, room⟩ <;> omega
  obtain ⟨-, -, ⟨inside, -⟩ | ⟨crossed, -, idxNext, -, appended, scriptsEq, -⟩⟩ :=
    step_advance stepped
  · obtain ⟨executedOk', sameScript, offEq⟩ := step_inside stepped inside
    have raised := executeOpcode_numOps_le monotone executedOk'
    obtain ⟨scriptsEq, idxEq, -⟩ := executeOpcode_pc executedOk'
    refine ⟨scriptsEq ▸ idxEq ▸ counted.finished, sameScript ▸ offEq ▸ extended, ?_⟩
    rw [sameScript, offEq, take_succ_currentScript offLt, countOps_append]
    dsimp only at raised
    omega
  · obtain ⟨offZero, numOpsZero⟩ := step_boundary_reset stepped crossed
    refine ⟨?_, by simp [offZero], by simp [offZero, numOpsZero]⟩
    intro script member
    rw [idxNext, scriptsEq] at member
    have whole : vm.currentScript.take (vm.scriptOff + 1) = vm.currentScript := by
      rw [crossed, List.take_length]
    rcases take_nextScriptIdx appended idxLt with taken | taken <;>
      simp only [taken, take_succ_scriptIdx idxLt, List.mem_append, List.mem_singleton] at member
    · rcases member with old | rfl
      · exact counted.finished script old
      · exact whole ▸ extended
    · rcases member with (old | rfl) | rfl
      · exact counted.finished script old
      · exact whole ▸ extended
      · simp

theorem step_numOps_eq (keeps : KeepsNumOps rt)
    (counts : vm.numOps = countOps (vm.currentScript.take vm.scriptOff))
    (stepped : step rt vm = .ok (done, vm')) :
    vm'.numOps = countOps (vm'.currentScript.take vm'.scriptOff) := by
  obtain ⟨-, offLt, ⟨inside, -⟩ | ⟨crossed, -⟩⟩ := step_advance stepped
  · obtain ⟨executedOk, sameScript, offEq⟩ := step_inside stepped inside
    rw [executeOpcode_numOps_eq keeps executedOk, sameScript, offEq, take_succ_currentScript offLt,
      countOps_append, ← counts]
  · obtain ⟨offZero, numOpsZero⟩ := step_boundary_reset stepped crossed
    rw [offZero, numOpsZero, List.take_zero]
    rfl

theorem Steps.opsCounted (monotone : NeverLowersNumOps rt) (initial : OpsCounted rt vm₀)
    {executed : List ParsedOpcode} (run : Steps rt vm₀ executed vm) : OpsCounted rt vm := by
  induction run with
  | refl => exact initial
  | tail _ _ stepped inductionHypothesis =>
      exact step_opsCounted monotone inductionHypothesis stepped

theorem Steps.numOps_eq (keeps : KeepsNumOps rt)
    (initial : vm₀.numOps = countOps (vm₀.currentScript.take vm₀.scriptOff))
    {executed : List ParsedOpcode} (run : Steps rt vm₀ executed vm) :
    vm.numOps = countOps (vm.currentScript.take vm.scriptOff) := by
  induction run with
  | refl => exact initial
  | tail _ _ stepped inductionHypothesis => exact step_numOps_eq keeps inductionHypothesis stepped

/-- Past the last script, the count covers every script. -/
theorem OpsCounted.scripts (counted : OpsCounted rt vm)
    (finished : vm.scripts.length ≤ vm.scriptIdx) :
    ∀ script ∈ vm.scripts, countOps script ≤ rt.maxOpsPerScript := by
  simpa [List.take_of_length_le finished] using counted.finished

theorem newEngine_opsCounted {pkScript : Bytes} {tx : MsgTx} {txIdx : Int}
    {flags : ScriptFlags} {inputAmount : Int}
    (created : newEngine rt pkScript tx txIdx flags inputAmount = .ok vm₀) :
    OpsCounted rt vm₀ ∧ vm₀.numOps = countOps (vm₀.currentScript.take vm₀.scriptOff) := by
  obtain ⟨-, -, -, script, version, program, extProg, -, rfl⟩ := newEngine_eq_ok created
  exact ⟨⟨by simp, by simp, by simp⟩, by simp⟩

/-- A successful `Execute` from `NewEngine` handed every opcode of the final scripts to
`executeOpcode`: those of the run, then the one of the last `Step`. -/
theorem execute_handed_every_opcode {pkScript : Bytes} {tx : MsgTx} {txIdx : Int}
    {flags : ScriptFlags} {inputAmount : Int}
    (created : newEngine rt pkScript tx txIdx flags inputAmount = .ok vm₀) {fuel : Nat}
    {vmEnd : Engine} (succeeded : execute rt fuel vm₀ = some (.ok vmEnd)) :
    ∃ executed vm vmDone, Steps rt vm₀ executed vm ∧ step rt vm = .ok (true, vmDone) ∧
      vmEnd.scripts.flatten = executed ++ [vm.currentOpcode] := by
  obtain ⟨executed, vm, vmDone, run, last, checked⟩ := execute_eq_some_ok succeeded
  refine ⟨executed, vm, vmDone, run, last, ?_⟩
  rw [(checkErrorCondition_eq_ok checked).2, ← step_done_executedPrefix last,
    step_executedPrefix last, run.executed_eq, newEngine_executedPrefix created, List.nil_append]

/-- The consensus limits over runs from `NewEngine`. After every successful `Step` the two
stacks hold at most `maxStackSize` items, and a successful `Execute` has checked every opcode
of the final script list (not disabled or always illegal, no push above
`MaxScriptElementSize`, in executing branches or not), whatever the opcode functions do. When
they never lower `numOps`, every final script has at most `MaxOpsPerScript` opcodes above
`OP_16`, and `numOps` is at least the number of those stepped in the current script; when
they leave `numOps` alone it is that number, hence at most `MaxOpsPerScript`. -/
theorem execute_within_limits {pkScript : Bytes} {tx : MsgTx} {txIdx : Int}
    {flags : ScriptFlags} {inputAmount : Int}
    (created : newEngine rt pkScript tx txIdx flags inputAmount = .ok vm₀) :
    (∀ vm vm' done, step rt vm = .ok (done, vm') →
      vm'.dstack.depth + vm'.astack.depth ≤ rt.maxStackSize) ∧
    (∀ fuel vmEnd, execute rt fuel vm₀ = some (.ok vmEnd) →
      ∀ script ∈ vmEnd.scripts, ∀ pop ∈ script, OpcodeWithinLimits rt pop) ∧
    (NeverLowersNumOps rt →
      (∀ fuel vmEnd, execute rt fuel vm₀ = some (.ok vmEnd) →
        ∀ script ∈ vmEnd.scripts, countOps script ≤ rt.maxOpsPerScript) ∧
      ∀ executed vm vm' done, Steps rt vm₀ executed vm → step rt vm = .ok (done, vm') →
        countOps (vm'.currentScript.take vm'.scriptOff) ≤ vm'.numOps) ∧
    (KeepsNumOps rt → ∀ executed vm vm' done, Steps rt vm₀ executed vm →
      step rt vm = .ok (done, vm') →
        vm'.numOps = countOps (vm'.currentScript.take vm'.scriptOff) ∧
        vm'.numOps ≤ rt.maxOpsPerScript) := by
  obtain ⟨initial, initialCount⟩ := newEngine_opsCounted created
  refine ⟨fun _ _ _ => step_depth_le, ?_, fun monotone => ⟨?_, ?_⟩, ?_⟩
  · intro fuel vmEnd succeeded script member pop inScript
    obtain ⟨executed, vm, vmDone, run, last, everyOpcode⟩ :=
      execute_handed_every_opcode created succeeded
    have handed : pop ∈ executed ++ [vm.currentOpcode] :=
      everyOpcode ▸ List.mem_flatten.mpr ⟨script, member, inScript⟩
    rcases List.mem_append.mp handed with earlier | last'
    · exact run.opcodesWithinLimits pop earlier
    · exact List.mem_singleton.mp last' ▸ step_opcodeWithinLimits last
  · intro fuel vmEnd succeeded
    obtain ⟨_, vm, vmDone, run, last, checked⟩ := execute_eq_some_ok succeeded
    obtain ⟨finished, scriptsEq⟩ := checkErrorCondition_eq_ok checked
    rw [scriptsEq]
    exact (step_opsCounted monotone (run.opsCounted monotone initial) last).scripts finished
  · intro executed vm vm' done run stepped
    exact (step_opsCounted monotone (run.opsCounted monotone initial) stepped).3
  · intro keeps executed vm vm' done run stepped
    have counted :=
      step_opsCounted keeps.neverLowers (run.opsCounted keeps.neverLowers initial) stepped
    have counts := step_numOps_eq keeps (run.numOps_eq keeps initialCount) stepped
    exact ⟨counts, counts ▸ counted.current⟩

theorem pushRuntime_keepsNumOps : KeepsNumOps pushRuntime := by
  intro pop vm vm' ran
  cases ran
  rfl

/-- One counted opcode `0x61` that pushes itself: `Execute` succeeds, its opcode passed the
checks, and `numOps` counts it. -/
theorem execute_within_limits_push :
    KeepsNumOps pushRuntime ∧
      ∃ vm₀ vmEnd, newEngine pushRuntime [0x61] ⟨[⟨[]⟩]⟩ 0 0 0 = .ok vm₀ ∧
        execute pushRuntime 1 vm₀ = some (.ok vmEnd) ∧
        (∀ script ∈ vmEnd.scripts, ∀ pop ∈ script, OpcodeWithinLimits pushRuntime pop) ∧
        ∀ executed vm vm' done, Steps pushRuntime vm₀ executed vm →
          step pushRuntime vm = .ok (done, vm') →
            vm'.numOps = countOps (vm'.currentScript.take vm'.scriptOff) ∧ vm'.numOps ≤ 201 := by
  obtain ⟨vm₀, created⟩ : ∃ vm₀, newEngine pushRuntime [0x61] ⟨[⟨[]⟩]⟩ 0 0 0 = .ok vm₀ :=
    ⟨_, rfl⟩
  obtain ⟨vmEnd, succeeded⟩ : ∃ vmEnd, execute pushRuntime 1 vm₀ = some (.ok vmEnd) := by
    cases created
    exact ⟨_, rfl⟩
  obtain ⟨-, checked, -, counted⟩ := execute_within_limits created
  exact ⟨pushRuntime_keepsNumOps, vm₀, vmEnd, created, succeeded, checked 1 vmEnd succeeded,
    counted pushRuntime_keepsNumOps⟩

/-! ## Opcode functions that change `numOps` -/

/-- Every opcode function adds one to the operation count. -/
def raiseRuntime : Runtime :=
  byteRuntime (fun _ vm => .ok { vm with numOps := vm.numOps + 1 })
    (by intro _ _ _ ran; cases ran; simp)

/-- Every opcode function puts the operation count back to zero and leaves one true item on
the data stack. -/
def resetRuntime : Runtime :=
  byteRuntime (fun _ vm => .ok { vm with numOps := 0, dstack := ⟨[[1]], false⟩ })
    (by intro _ _ _ ran; cases ran; simp)

/-- The engine `NewEngine` builds from `n` opcodes `0x61` and an input without a witness. -/
def nopEngine (n : Nat) : Engine where
  scripts := [List.replicate n ⟨⟨0x61⟩, []⟩]
  scriptIdx := 0
  scriptOff := 0
  lastCodeSep := 0
  dstack := ⟨[], false⟩
  astack := ⟨[], false⟩
  tx := ⟨[⟨[]⟩]⟩
  txIdx := 0
  condStack := []
  numOps := 0
  flags := 0
  witnessVersion := 0
  witnessProgram := none
  witnessExtProg := []
  inputAmount := 0

theorem op16_lt_nop : op16 < 0x61 := by decide

theorem not_nop_le_opPushData4 : ¬ (0x61 : UInt8) ≤ opPushData4 := by decide

theorem resetRuntime_step_inside {n k : Nat} (dstack : Stack) (inside : k + 1 < n) :
    step resetRuntime { nopEngine n with scriptOff := k, dstack } =
      .ok (false, { nopEngine n with scriptOff := k + 1, dstack := ⟨[[1]], false⟩ }) := by
  have inScript : ¬ n ≤ k := by omega
  have notLast : ¬ n ≤ k + 1 := by omega
  simp [step, fetchOpcode, stepFetched, Except.map, validPC, executeOpcode, countOpcode,
    dispatchOpcode, currentOpcode, currentScript, isBranchExecuting, nopEngine, resetRuntime,
    byteRuntime, bind, Except.bind, inScript, notLast, op16_lt_nop, not_nop_le_opPushData4,
    Stack.depth, Nat.lt_of_succ_lt inside]

theorem resetRuntime_step_last {n : Nat} (dstack : Stack) (nonEmpty : 0 < n) :
    step resetRuntime { nopEngine n with scriptOff := n - 1, dstack } =
      .ok (true, { nopEngine n with scriptIdx := 1, dstack := ⟨[[1]], false⟩ }) := by
  have inScript : ¬ n ≤ n - 1 := by omega
  simp [step, fetchOpcode, stepFetched, Except.map, validPC, executeOpcode, countOpcode,
    dispatchOpcode, currentOpcode, currentScript, isBranchExecuting, nopEngine, resetRuntime,
    byteRuntime, bind, Except.bind, inScript, op16_lt_nop, not_nop_le_opPushData4, endScript,
    resetScript, skipEmptyScript, Stack.dropN, Stack.depth, Nat.sub_one_lt_of_lt nonEmpty,
    Nat.sub_add_cancel nonEmpty]

theorem countOps_nops (n : Nat) : countOps (List.replicate n ⟨⟨0x61⟩, []⟩) = n := by
  simp [countOps, List.countP_replicate, op16_lt_nop]

theorem newEngine_nopEngine {n : Nat} (nonEmpty : 0 < n) (small : n ≤ 10000) :
    newEngine resetRuntime (List.replicate n 0x61) ⟨[⟨[]⟩]⟩ 0 0 0 = .ok (nopEngine n) := by
  obtain ⟨m, rfl⟩ := Nat.exists_eq_add_of_lt nonEmpty
  have notBig : ¬ 10000 < m + 1 := by omega
  simp [newEngine, resetRuntime, byteRuntime, nopEngine, bind, Except.bind, Except.map,
    List.replicate_succ, notBig]
  exact ⟨rfl, rfl, rfl, rfl, rfl⟩

/-- With `resetRuntime`, a script of opcodes `0x61` runs to the end, however long. -/
theorem resetRuntime_execute {n : Nat} (j : Nat) (dstack : Stack) (inScript : j < n) :
    execute resetRuntime (j + 1) { nopEngine n with scriptOff := n - (j + 1), dstack } =
      some (.ok { nopEngine n with scriptIdx := 1 }) := by
  induction j generalizing dstack with
  | zero =>
      show execute resetRuntime 1 { nopEngine n with scriptOff := n - 1, dstack } = _
      rw [execute, resetRuntime_step_last dstack inScript]
      rfl
  | succ j inductionHypothesis =>
      rw [execute, resetRuntime_step_inside dstack (by omega)]
      dsimp only
      rw [show n - (j + 1 + 1) + 1 = n - (j + 1) by omega]
      exact inductionHypothesis _ (by omega)

/-- Opcode functions that change `numOps` break both counts: one that raises it leaves
`numOps` at 2 after one counted opcode, and one that resets it lets a script of 202 counted
opcodes, one more than `MaxOpsPerScript`, through `Execute`. -/
theorem numOps_changed_by_opfunc :
    (∃ vm₀ vm₁, newEngine raiseRuntime [0x61, 0x61] ⟨[⟨[]⟩]⟩ 0 0 0 = .ok vm₀ ∧
      step raiseRuntime vm₀ = .ok (false, vm₁) ∧
      vm₁.numOps ≠ countOps (vm₁.currentScript.take vm₁.scriptOff)) ∧
    (∃ vm₀ vmEnd, newEngine resetRuntime (List.replicate 202 0x61) ⟨[⟨[]⟩]⟩ 0 0 0 = .ok vm₀ ∧
      execute resetRuntime 202 vm₀ = some (.ok vmEnd) ∧
      ∃ script ∈ vmEnd.scripts, resetRuntime.maxOpsPerScript < countOps script) := by
  refine ⟨⟨_, _, rfl, rfl, by decide⟩, nopEngine 202, _,
    newEngine_nopEngine (by norm_num) (by norm_num),
    resetRuntime_execute 201 ⟨[], false⟩ (by norm_num), _, List.mem_singleton_self _, ?_⟩
  rw [countOps_nops]
  decide

end MassCore.Script.Engine
