import MassCore.Script.Termination

/-!
Contract: what a successful `Execute` of a witness program has verified.

`NewEngine` reads the witness program from the public key script, and `Step` leaves script 0
of a witness program only through its witness branch: the data stack is emptied, the
input's witness is checked against the program by `verifyWitnessProgram`, and the lock
script and the two witness scripts are appended. A run that ends has left script 0, so a
successful `Execute` has checked the witness and then executed every opcode of the appended
scripts, in order, from an empty data stack.

The branch reads the input through `vm.tx` and `vm.txIdx` when it runs, so the result holds
for opcode functions that leave both alone as well as the witness fields. One that moves
`txIdx` makes `Execute` check the witness of another input.

Owns: the witness branch as seen from a run (`step_leaves_witnessProgram`), the split of a
run at the `Step` that leaves script 0, and the witness-commitment result.
-/

namespace MassCore.Script.Engine

variable {rt : Runtime} {vm vm' vm₀ : Engine} {pop : ParsedOpcode} {done : Bool}
  {executed : List ParsedOpcode}

/-- Opcode functions that leave the input being verified and the witness fields alone. -/
def KeepsWitnessInput (rt : Runtime) : Prop :=
  ∀ pop vm vm', rt.opfunc pop vm = .ok vm' → vm'.witnessInput = vm.witnessInput

theorem executeOpcode_witnessInput (keeps : KeepsWitnessInput rt)
    (opcodeRan : executeOpcode rt vm pop = .ok vm') : vm'.witnessInput = vm.witnessInput := by
  obtain ⟨counted, countedOk, rfl | ran⟩ := executeOpcode_cases opcodeRan
  · exact countOpcode_witnessInput countedOk
  · exact (keeps _ _ _ ran).trans (countOpcode_witnessInput countedOk)

theorem step_keepsWitnessInput (keeps : KeepsWitnessInput rt)
    (stepped : step rt vm = .ok (done, vm')) : vm'.witnessInput = vm.witnessInput := by
  obtain ⟨opcodeEngine, opcodeRan, sameInput⟩ := step_witnessInput stepped
  exact sameInput.trans (executeOpcode_witnessInput keeps opcodeRan :)

theorem Steps.witnessInput_eq (keeps : KeepsWitnessInput rt) (run : Steps rt vm₀ executed vm) :
    vm.witnessInput = vm₀.witnessInput := by
  induction run with
  | refl => rfl
  | tail _ _ stepped inductionHypothesis =>
      exact (step_keepsWitnessInput keeps stepped).trans inductionHypothesis

theorem inputWitness_eq_of_witnessInput (sameInput : vm'.witnessInput = vm.witnessInput) :
    vm'.inputWitness = vm.inputWitness := by
  obtain ⟨sameTx, sameIdx, -⟩ := witnessInput_eq_iff.mp sameInput
  simp only [inputWitness, sameTx, sameIdx]

/-! ## The witness branch -/

/-- The `Step` that leaves script 0 of a witness program runs the witness branch: the
input's witness is two non-empty scripts within `maxScriptSize`, the version is 0 and the
program is the hash of the second script; the lock script of the extension program, as the
flags and `verifyMinimalData` of the engine the branch ran on give it, and the two parsed
witness scripts are appended, the data stack is empty, and the run goes on. -/
theorem step_leaves_witnessProgram (keeps : KeepsWitnessInput rt)
    (stepped : step rt vm = .ok (done, vm')) (first : vm.scriptIdx = 0)
    (hasProgram : vm.witnessProgram.isSome) (left : vm'.scriptIdx ≠ 0) :
    done = false ∧ vm'.dstack.depth = 0 ∧
    ∃ script0 script1 lock pops0 pops1,
      vm.inputWitness = some [script0, script1] ∧ script0 ≠ [] ∧ script1 ≠ [] ∧
      script0.length ≤ rt.maxScriptSize ∧ script1.length ≤ rt.maxScriptSize ∧
      vm.witnessVersion = 0 ∧ vm.witnessProgram = some (rt.sha256 script1) ∧
      extProgScripts rt vm' = .ok lock ∧
      rt.parseScript script0 = .ok pops0 ∧ rt.parseScript script1 = .ok pops1 ∧
      vm'.scripts = vm.scripts ++ lock ++ [pops0, pops1] := by
  obtain ⟨idxLt, -, opcodeEngine, opcodeRan, -, ⟨-, -, rfl⟩ | ⟨-, ended⟩⟩ := step_cases stepped
  · exact absurd ((executeOpcode_pc opcodeRan).2.1.trans first) left
  obtain ⟨scriptsEq, idxEq, -⟩ := executeOpcode_pc opcodeRan
  have sameInput : opcodeEngine.witnessInput = vm.witnessInput :=
    (executeOpcode_witnessInput keeps opcodeRan :)
  obtain ⟨-, -, sameVersion, sameProgram, -⟩ := witnessInput_eq_iff.mp sameInput
  obtain ⟨-, ⟨-, -, entered, enteredOk, skipped⟩ | ⟨notWitness, -⟩⟩ := endScript_cases ended
  swap
  · exact absurd ⟨idxEq.trans first, sameProgram ▸ hasProgram⟩ notWitness
  obtain ⟨-, witness, found, verified⟩ := enterWitness_eq_ok enteredOk
  obtain ⟨version, script0, script1, lock, pops0, pops1, rfl, nonEmpty0, nonEmpty1, program,
    small0, small1, lockOk, parsed0, parsed1, rfl⟩ := verifyWitnessProgram_eq_ok verified
  rw [skipEmptyScript_eq] at skipped
  have leftEq := (Prod.mk.inj skipped).2
  have appended : vm'.scripts = vm.scripts ++ lock ++ [pops0, pops1] := by
    rw [← leftEq]
    exact congrArg (· ++ lock ++ [pops0, pops1]) scriptsEq
  have emptied : vm'.dstack.depth = 0 := by
    rw [← leftEq]
    exact Stack.depth_dropN_depth _
  have lockLeft : extProgScripts rt vm' = .ok lock := by
    rw [← leftEq]
    exact (extProgScripts_congr rfl rfl rfl).trans lockOk
  obtain ⟨-, -, ⟨-, -, -, idxSame, -⟩ | ⟨-, -, idxNext, doneEq, -⟩⟩ := step_advance stepped
  · exact absurd (idxSame.trans first) left
  have longer : vm.scriptIdx + 2 < vm'.scripts.length := by
    rw [appended]
    simp only [List.length_append, List.length_cons, List.length_nil]
    omega
  have bounded := nextScriptIdx_le vm'.scripts vm.scriptIdx
  refine ⟨by rw [doneEq, idxNext]; exact decide_eq_false (by omega), emptied,
    script0, script1, lock, pops0, pops1, ?_, nonEmpty0, nonEmpty1, small0, small1,
    sameVersion ▸ version, sameProgram ▸ program, lockLeft, parsed0, parsed1, appended⟩
  exact (inputWitness_eq_of_witnessInput sameInput).symm.trans found

/-- The `Step` that leaves script 0 has executed script 0 and nothing else. -/
theorem step_leaves_first_executedPrefix (stepped : step rt vm = .ok (done, vm'))
    (first : vm.scriptIdx = 0) (left : vm'.scriptIdx ≠ 0) :
    vm'.executedPrefix = (vm.scripts.take 1).flatten := by
  obtain ⟨idxLt, -, ⟨-, -, -, idxSame, -⟩ | ⟨-, offZero, idxNext, -, appended, scriptsEq, -⟩⟩ :=
    step_advance stepped
  · exact absurd (idxSame.trans first) left
  rw [executedPrefix, offZero, List.take_zero, List.append_nil, idxNext, scriptsEq,
    flatten_take_nextScriptIdx idxLt, first]

/-! ## Runs through the witness branch -/

/-- A run from script 0 that ends past it left script 0 at one `Step`. -/
theorem Steps.leaves_first (run : Steps rt vm₀ executed vm) (start : vm₀.scriptIdx = 0)
    (left : vm.scriptIdx ≠ 0) :
    ∃ before vmA vmB after, Steps rt vm₀ before vmA ∧ vmA.scriptIdx = 0 ∧
      step rt vmA = .ok (false, vmB) ∧ vmB.scriptIdx ≠ 0 ∧ Steps rt vmB after vm ∧
      executed = before ++ vmA.currentOpcode :: after := by
  induction run with
  | refl => exact absurd start left
  | @tail executed vm₁ vm₂ pop run fetched stepped inductionHypothesis =>
      by_cases stillFirst : vm₁.scriptIdx = 0
      · exact ⟨executed, vm₁, vm₂, [], run, stillFirst, stepped, left, .refl,
          by simp [(fetchOpcode_eq_ok.mp fetched).2]⟩
      · obtain ⟨before, vmA, vmB, after, toA, first, crossing, crossed, fromB, rfl⟩ :=
          inductionHypothesis stillFirst
        exact ⟨before, vmA, vmB, after ++ [pop], toA, first, crossing, crossed,
          fromB.tail fetched stepped, by simp⟩

/-- While a run stays in script 0, no script is appended. -/
theorem Steps.scripts_eq_of_first (run : Steps rt vm₀ executed vm) (first : vm.scriptIdx = 0) :
    vm.scripts = vm₀.scripts := by
  induction run with
  | refl => rfl
  | tail _ _ stepped inductionHypothesis =>
      have later := step_scriptIdx_le stepped
      rw [step_scripts_eq stepped (.inl (by omega)), inductionHypothesis (by omega)]

/-- Once past script 0, no script is appended. -/
theorem Steps.scripts_eq_of_past (run : Steps rt vm₀ executed vm) (past : vm₀.scriptIdx ≠ 0) :
    vm.scripts = vm₀.scripts ∧ vm₀.scriptIdx ≤ vm.scriptIdx := by
  induction run with
  | refl => exact ⟨rfl, le_rfl⟩
  | tail _ _ stepped inductionHypothesis =>
      obtain ⟨sameScripts, later⟩ := inductionHypothesis
      exact ⟨(step_scripts_eq stepped (.inr (.inl (by omega)))).trans sameScripts,
        later.trans (step_scriptIdx_le stepped)⟩

/-- The witness commitment. When opcode functions leave the input and the witness fields
alone, a successful `Execute` of an engine with a witness program has checked that the
input's witness is two non-empty scripts within `maxScriptSize`, that the version is 0 and
that the program is the hash of the second script; and the run is script 0, then, from an
empty data stack, every opcode of the lock script of the extension program (as the flags and
`verifyMinimalData` in force after the witness branch give it) and of the two witness
scripts, in that order, up to the last `Step` and `CheckErrorCondition`. -/
theorem execute_verifies_witness (keeps : KeepsWitnessInput rt) {pkScript : Bytes}
    {tx : MsgTx} {txIdx : Int} {flags : ScriptFlags} {inputAmount : Int}
    (created : newEngine rt pkScript tx txIdx flags inputAmount = .ok vm₀)
    (hasProgram : vm₀.witnessProgram.isSome) {fuel : Nat} {vmEnd : Engine}
    (succeeded : execute rt fuel vm₀ = some (.ok vmEnd)) :
    ∃ script0 script1 lock pops0 pops1,
      (tx.txIn[txIdx.toNat]?).map TxIn.witness = some [script0, script1] ∧
      script0 ≠ [] ∧ script1 ≠ [] ∧
      script0.length ≤ rt.maxScriptSize ∧ script1.length ≤ rt.maxScriptSize ∧
      vm₀.witnessVersion = 0 ∧ vm₀.witnessProgram = some (rt.sha256 script1) ∧
      rt.parseScript script0 = .ok pops0 ∧ rt.parseScript script1 = .ok pops1 ∧
      ∃ vmW after vm vmDone, Steps rt vm₀ vm₀.currentScript vmW ∧ vmW.dstack.depth = 0 ∧
        vmW.witnessInput = vm₀.witnessInput ∧ extProgScripts rt vmW = .ok lock ∧
        vmW.scripts = vm₀.scripts ++ lock ++ [pops0, pops1] ∧ Steps rt vmW after vm ∧
        fetchOpcode vm = .ok vm.currentOpcode ∧ step rt vm = .ok (true, vmDone) ∧
        checkErrorCondition rt vmDone true = .ok vmEnd ∧
        after ++ [vm.currentOpcode] = (lock ++ [pops0, pops1]).flatten := by
  obtain ⟨indexOk, -, -, script, version, program, extProg, -, rfl⟩ := newEngine_eq_ok created
  obtain ⟨ops, vm, vmDone, run, last, checked⟩ := execute_eq_some_ok succeeded
  -- the last `Step` reports `done`, so it is not the one that leaves script 0
  have pastFirst : vm.scriptIdx ≠ 0 := by
    intro first
    have programKept := (witnessInput_eq_iff.mp (run.witnessInput_eq keeps)).2.2.2.1
    obtain ⟨-, -, ⟨-, notDone, -⟩ | ⟨-, -, idxNext, -⟩⟩ := step_advance last
    · cases notDone
    · have moved := lt_nextScriptIdx vmDone.scripts vm.scriptIdx
      have leaves := step_leaves_witnessProgram keeps last first (programKept ▸ hasProgram)
        (by omega)
      exact absurd leaves.1 (by simp)
  obtain ⟨before, vmA, vmW, after, toA, first, crossing, crossed, fromW, -⟩ :=
    run.leaves_first rfl pastFirst
  have inputA := toA.witnessInput_eq keeps
  obtain ⟨-, -, versionA, programA, -⟩ := witnessInput_eq_iff.mp inputA
  obtain ⟨-, emptied, script0, script1, lock, pops0, pops1, found, nonEmpty0, nonEmpty1, small0,
    small1, version0, program1, lockOk, parsed0, parsed1, appendedW⟩ :=
    step_leaves_witnessProgram keeps crossing first (programA ▸ hasProgram) crossed
  have toW := toA.tail (fetchOpcode_of_step crossing) crossing
  have scriptsA := toA.scripts_eq_of_first first
  have scriptsW : vmW.scripts = [script] ++ lock ++ [pops0, pops1] := by rw [appendedW, scriptsA]
  -- script 0 is what the run executed up to the witness branch
  have scriptZero : before ++ [vmA.currentOpcode] = script := by
    have prefixW := toW.executed_eq
    rw [step_leaves_first_executedPrefix crossing first crossed, scriptsA] at prefixW
    simpa [executedPrefix] using prefixW.symm
  -- the rest of the run executed the appended scripts
  have restExecuted : script ++ (after ++ [vm.currentOpcode]) =
      script ++ (lock ++ [pops0, pops1]).flatten := by
    have prefixDone := step_done_executedPrefix last
    rw [step_executedPrefix last, fromW.executed_eq,
      step_leaves_first_executedPrefix crossing first crossed, scriptsA,
      step_scripts_eq last (.inr (.inl pastFirst)), (fromW.scripts_eq_of_past crossed).1,
      scriptsW] at prefixDone
    simpa using prefixDone
  refine ⟨script0, script1, lock, pops0, pops1, ?_, nonEmpty0, nonEmpty1, small0, small1,
    versionA ▸ version0, programA ▸ program1, parsed0, parsed1, vmW, after, vm, vmDone,
    scriptZero ▸ toW, emptied, toW.witnessInput_eq keeps, lockOk, scriptsW, fromW,
    fetchOpcode_of_step last, last, checked, List.append_cancel_left restExecuted⟩
  rw [inputWitness_eq_of_witnessInput inputA] at found
  simpa [inputWitness, indexOk] using found

/-- An opcode function that drops the top item for `OP_DROP` and pushes the opcode's value
for every other opcode. -/
def pushDrop (pop : ParsedOpcode) (vm : Engine) : Engine :=
  { vm with
    dstack := if pop.opcode.value = opDrop then vm.dstack.dropN 1
      else vm.dstack.pushByteArray [pop.opcode.value] }

def pushDropRuntime : Runtime :=
  byteRuntime (fun pop vm => .ok (pushDrop pop vm)) (by intro _ _ _ ran; cases ran; simp [pushDrop])

theorem pushDropRuntime_keepsWitnessInput : KeepsWitnessInput pushDropRuntime := by
  intro pop vm vm' ran
  cases ran
  rfl

theorem execute_verifies_witness_pushDrop :
    ∃ vm₀ vmEnd, newEngine pushDropRuntime [0x00, 0x51] ⟨[⟨[[0x75], [0x51]]⟩]⟩ 0 0 0 = .ok vm₀ ∧
      vm₀.witnessProgram.isSome ∧ execute pushDropRuntime 4 vm₀ = some (.ok vmEnd) ∧
      ∃ script0 script1, vm₀.witnessProgram = some (pushDropRuntime.sha256 script1) ∧
        ((⟨[⟨[[0x75], [0x51]]⟩]⟩ : MsgTx).txIn[0]?).map TxIn.witness = some [script0, script1] := by
  obtain ⟨vm₀, created⟩ : ∃ vm₀,
      newEngine pushDropRuntime [0x00, 0x51] ⟨[⟨[[0x75], [0x51]]⟩]⟩ 0 0 0 = .ok vm₀ := ⟨_, rfl⟩
  have hasProgram : vm₀.witnessProgram.isSome := by cases created; rfl
  obtain ⟨vmEnd, succeeded⟩ : ∃ vmEnd, execute pushDropRuntime 4 vm₀ = some (.ok vmEnd) := by
    cases created
    exact ⟨_, rfl⟩
  obtain ⟨script0, script1, -, -, -, found, -, -, -, -, -, program, -⟩ :=
    execute_verifies_witness pushDropRuntime_keepsWitnessInput created hasProgram succeeded
  exact ⟨vm₀, vmEnd, created, hasProgram, succeeded, script0, script1, program, found⟩

/-- Every opcode function moves `txIdx` to input 1, and otherwise acts as `pushDrop`. -/
def moveInputRuntime : Runtime :=
  byteRuntime (fun pop vm => .ok { pushDrop pop vm with txIdx := 1 })
    (by intro _ _ _ ran; cases ran; simp [pushDrop])

/-- Opcode functions that leave the scripts, the program counter, `tx` and the witness
fields alone but move `txIdx` break the witness commitment: `Execute` succeeds on input 0,
whose witness is empty, by checking the witness of input 1. -/
theorem execute_checks_moved_input :
    (∀ pop vm vm', moveInputRuntime.opfunc pop vm = .ok vm' →
      vm'.scripts = vm.scripts ∧ vm'.scriptIdx = vm.scriptIdx ∧ vm'.scriptOff = vm.scriptOff ∧
      vm'.tx = vm.tx ∧ vm'.witnessVersion = vm.witnessVersion ∧
      vm'.witnessProgram = vm.witnessProgram ∧ vm'.witnessExtProg = vm.witnessExtProg) ∧
    ∃ vm₀ vmEnd,
      newEngine moveInputRuntime [0x00, 0x51] ⟨[⟨[]⟩, ⟨[[0x75], [0x51]]⟩]⟩ 0 0 0 = .ok vm₀ ∧
      vm₀.witnessProgram.isSome ∧ execute moveInputRuntime 4 vm₀ = some (.ok vmEnd) ∧
      vm₀.inputWitness = some [] := by
  refine ⟨?_, _, _, rfl, rfl, rfl, rfl⟩
  intro pop vm vm' ran
  cases ran
  exact ⟨rfl, rfl, rfl, rfl, rfl, rfl, rfl⟩

end MassCore.Script.Engine
