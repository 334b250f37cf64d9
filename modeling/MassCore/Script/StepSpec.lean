import MassCore.Script.Engine

/-!
Contract: what one successful call of each engine method does, stated once so that the
run invariants cite these lemmas and never unfold the methods.

Owns: the inversion lemmas of `validPC`, `countOpcode`, `dispatchOpcode`,
`executeOpcode`, `skipEmptyScript`, `endScript`, `enterWitness`, `verifyWitnessProgram`,
`Step` and `NewEngine`; the fact that an opcode function cannot move the program counter,
so that neither can `executeOpcode`; and `step_advance`, the one description of how a
successful `Step` moves through the scripts, which the run invariants start from.
-/

namespace MassCore.Script.Engine

variable {rt : Runtime} {vm vm' : Engine} {pop : ParsedOpcode} {done : Bool}

/-! ## Reading the program counter -/

theorem validPC_eq_ok :
    vm.validPC = .ok () ↔
      vm.scriptIdx < vm.scripts.length ∧ vm.scriptOff < vm.currentScript.length := by
  unfold validPC
  split_ifs with pastScripts pastScript
  · simp only [reduceCtorEq, false_iff, not_and, not_lt]
    omega
  · simp only [reduceCtorEq, false_iff, not_and, not_lt]
    omega
  · simp only [true_iff]
    omega

/-- `Step` fetches the opcode at the program counter once `validPC` has passed. -/
theorem fetchOpcode_eq_ok :
    fetchOpcode vm = .ok pop ↔ vm.validPC = .ok () ∧ pop = vm.currentOpcode := by
  unfold fetchOpcode
  rcases vm.validPC with _ | ⟨⟩ <;> simp [Except.map, eq_comm]

theorem currentScript_eq_getElem (inRange : vm.scriptIdx < vm.scripts.length) :
    vm.currentScript = vm.scripts[vm.scriptIdx] := by
  simp [currentScript, List.getD_eq_getElem?_getD, List.getElem?_eq_getElem inRange]

/-! ## `executeOpcode` -/

/-- Everything the checks of `executeOpcode` let through, and the count they keep. -/
theorem countOpcode_eq_ok (counted : countOpcode rt vm pop = .ok vm') :
    rt.isDisabled pop = false ∧ rt.alwaysIllegal pop = false ∧
    ((op16 < pop.opcode.value ∧ vm.numOps + 1 ≤ rt.maxOpsPerScript ∧
        vm' = { vm with numOps := vm.numOps + 1 }) ∨
      (pop.opcode.value ≤ op16 ∧ pop.data.length ≤ rt.maxScriptElementSize ∧ vm' = vm)) := by
  simp only [countOpcode, ite_error_eq_ok, Bool.not_eq_true] at counted
  obtain ⟨enabled, legal, counted⟩ := counted
  refine ⟨enabled, legal, ?_⟩
  split_ifs at counted with counts tooMany tooBig
  · exact .inl ⟨counts, by omega, (Except.ok.inj counted).symm⟩
  · exact .inr ⟨UInt8.not_lt.mp counts, by omega, (Except.ok.inj counted).symm⟩

/-- The opcode function runs, or the opcode is skipped in a branch that is not executing. -/
theorem dispatchOpcode_cases (dispatched : dispatchOpcode rt vm pop = .ok vm') :
    vm' = vm ∨ rt.opfunc pop vm = .ok vm' := by
  unfold dispatchOpcode at dispatched
  split_ifs at dispatched
  · exact .inl (Except.ok.inj dispatched).symm
  · obtain ⟨_, -, ran⟩ := bind_eq_ok.mp dispatched
    exact .inr ran
  · exact .inr dispatched

theorem executeOpcode_eq_ok :
    executeOpcode rt vm pop = .ok vm' ↔
      ∃ counted, countOpcode rt vm pop = .ok counted ∧ dispatchOpcode rt counted pop = .ok vm' :=
  bind_eq_ok

/-- An executed opcode leaves the scripts and the program counter where they were. -/
theorem executeOpcode_pc (executed : executeOpcode rt vm pop = .ok vm') :
    vm'.scripts = vm.scripts ∧ vm'.scriptIdx = vm.scriptIdx ∧ vm'.scriptOff = vm.scriptOff := by
  obtain ⟨counted, countedOk, dispatched⟩ := executeOpcode_eq_ok.mp executed
  have countedPc : counted.scripts = vm.scripts ∧ counted.scriptIdx = vm.scriptIdx ∧
      counted.scriptOff = vm.scriptOff := by
    obtain ⟨-, -, ⟨-, -, rfl⟩ | ⟨-, -, rfl⟩⟩ := countOpcode_eq_ok countedOk <;> simp
  rcases dispatchOpcode_cases dispatched with rfl | ran
  · exact countedPc
  · obtain ⟨scripts, idx, off⟩ := rt.opfunc_pc _ _ _ ran
    exact ⟨scripts.trans countedPc.1, idx.trans countedPc.2.1, off.trans countedPc.2.2⟩

/-! ## After the last opcode of a script -/

/-- The script index `skipEmptyScript` moves to: one further past a zero-length script. -/
def skipIdx (vm : Engine) : Nat :=
  if vm.scriptIdx < vm.scripts.length ∧ vm.scriptOff ≥ vm.currentScript.length then
    vm.scriptIdx + 1
  else vm.scriptIdx

theorem skipEmptyScript_eq (vm : Engine) :
    skipEmptyScript vm =
      (decide (vm.scripts.length ≤ skipIdx vm),
        { vm with scriptIdx := skipIdx vm, lastCodeSep := 0 }) := by
  unfold skipEmptyScript skipIdx
  dsimp only
  split_ifs <;> rfl

/-- `appendWitnessScripts` over the two scripts of a witness. -/
theorem appendWitnessScripts_pair {script0 script1 : Bytes}
    (appended : appendWitnessScripts rt vm [script0, script1] = .ok vm') :
    ∃ pops0 pops1, script0.length ≤ rt.maxScriptSize ∧ rt.parseScript script0 = .ok pops0 ∧
      script1.length ≤ rt.maxScriptSize ∧ rt.parseScript script1 = .ok pops1 ∧
      vm' = { vm with scripts := vm.scripts ++ [pops0, pops1] } := by
  simp only [appendWitnessScripts] at appended
  split_ifs at appended with big0 big1 <;> split at appended <;> try cases appended
  split at appended
  · cases appended
  · rename_i pops0 parsed0 _ pops1 parsed1
    cases appended
    exact ⟨pops0, pops1, Nat.le_of_not_lt big0, parsed0, Nat.le_of_not_lt big1, parsed1, by simp⟩

/-- What a successful `verifyWitnessProgram` checked, and the scripts it appended: the
lock script of the extension program, then the two witness scripts. -/
theorem verifyWitnessProgram_eq_ok {witness : List Bytes}
    (verified : verifyWitnessProgram rt vm witness = .ok vm') :
    vm.witnessVersion = 0 ∧
    ∃ script0 script1 lock pops0 pops1,
      witness = [script0, script1] ∧ script0 ≠ [] ∧ script1 ≠ [] ∧
      vm.witnessProgram = some (rt.sha256 script1) ∧
      script0.length ≤ rt.maxScriptSize ∧ script1.length ≤ rt.maxScriptSize ∧
      extProgScripts rt vm = .ok lock ∧
      rt.parseScript script0 = .ok pops0 ∧ rt.parseScript script1 = .ok pops1 ∧
      vm' = { vm with scripts := vm.scripts ++ lock ++ [pops0, pops1] } := by
  rw [verifyWitnessProgram, ite_error_eq_ok, ite_error_eq_ok, ite_error_eq_ok,
    ite_error_eq_ok] at verified
  obtain ⟨inactive, twoScripts, emptyScript, mismatch, verified⟩ := verified
  obtain ⟨script0, script1, rfl⟩ := List.length_eq_two.mp (not_not.mp twoScripts)
  obtain ⟨lock, lockOk, appended⟩ := bind_eq_ok.mp verified
  obtain ⟨appendedVm, appendedOk, checked⟩ := bind_eq_ok.mp appended
  obtain ⟨pops0, pops1, small0, parsed0, small1, parsed1, rfl⟩ :=
    appendWitnessScripts_pair appendedOk
  simp only [isWitnessVersionActive, Bool.not_eq_true', Bool.and_eq_false_iff, not_or,
    Bool.not_eq_false, beq_iff_eq, Nat.cast_zero] at inactive
  obtain ⟨hasProgram, version⟩ := inactive
  obtain ⟨program, hasProgram⟩ := Option.isSome_iff_exists.mp hasProgram
  simp only [List.getD_cons_zero, List.getD_cons_succ, List.length_eq_zero, not_or, ne_eq,
    not_not, hasProgram, Option.getD_some] at emptyScript mismatch
  split_ifs at checked
  refine ⟨version, script0, script1, lock, pops0, pops1, rfl, emptyScript.1, emptyScript.2,
    by rw [hasProgram, mismatch], small0, small1, lockOk, parsed0, parsed1, ?_⟩
  rw [← Except.ok.inj checked]

/-- What a successful `enterWitness` checked and did: the data stack held two or three
items and was emptied, the script index moved past the first script, and the input's
witness verified. -/
theorem enterWitness_eq_ok (entered : enterWitness rt vm = .ok vm') :
    (vm.dstack.depth = 2 ∨ vm.dstack.depth = 3) ∧
    ∃ witness, vm.inputWitness = some witness ∧
      verifyWitnessProgram rt
        { vm with scriptIdx := vm.scriptIdx + 1, dstack := vm.dstack.dropN vm.dstack.depth }
        witness = .ok vm' := by
  unfold enterWitness at entered
  dsimp only at entered
  split_ifs at entered with wrongDepth
  refine ⟨by omega, ?_⟩
  split at entered
  · cases entered
  · rename_i witness found
    exact ⟨witness, found, mapError_eq_ok.mp entered⟩

/-- After the last opcode of a script no conditional is open, and either the witness
branch runs (script 0 of a witness program) or the script index moves on. -/
theorem endScript_cases (ended : endScript rt vm = .ok (done, vm')) :
    vm.condStack = [] ∧
    ((vm.scriptIdx = 0 ∧ vm.witnessProgram.isSome ∧
      ∃ entered, enterWitness rt vm.resetScript = .ok entered ∧
        skipEmptyScript entered = (done, vm')) ∨
     (¬(vm.scriptIdx = 0 ∧ vm.witnessProgram.isSome) ∧
      skipEmptyScript { vm.resetScript with scriptIdx := vm.scriptIdx + 1 } = (done, vm'))) := by
  unfold endScript at ended
  split_ifs at ended with openConditional witnessBranch
  · obtain ⟨entered, enteredOk, skipped⟩ := map_eq_ok.mp ended
    exact ⟨List.length_eq_zero.mp (by simpa using openConditional),
      .inl ⟨witnessBranch.1, witnessBranch.2, entered, enteredOk, skipped⟩⟩
  · exact ⟨List.length_eq_zero.mp (by simpa using openConditional),
      .inr ⟨witnessBranch, Except.ok.inj ended⟩⟩

/-! ## `Step` -/

/-- Everything a successful `Step` does, up to the opcode function: the program counter
was valid, the opcode there was executed with the counter already moved on, the stacks
stayed within `maxStackSize`, and either the script goes on or `endScript` ran. -/
theorem step_cases (stepped : step rt vm = .ok (done, vm')) :
    vm.scriptIdx < vm.scripts.length ∧ vm.scriptOff < vm.currentScript.length ∧
    ∃ executed, executeOpcode rt { vm with scriptOff := vm.scriptOff + 1 } vm.currentOpcode =
        .ok executed ∧
      executed.dstack.depth + executed.astack.depth ≤ rt.maxStackSize ∧
      ((executed.scriptOff < executed.currentScript.length ∧ done = false ∧ vm' = executed) ∨
       (executed.currentScript.length ≤ executed.scriptOff ∧
        endScript rt executed = .ok (done, vm'))) := by
  unfold step at stepped
  split at stepped
  · cases stepped
  · rename_i fetched
    obtain ⟨valid, rfl⟩ := fetchOpcode_eq_ok.mp fetched
    obtain ⟨idxLt, offLt⟩ := validPC_eq_ok.mp valid
    refine ⟨idxLt, offLt, ?_⟩
    unfold stepFetched at stepped
    split at stepped
    · cases stepped
    · rename_i executed executedOk
      refine ⟨executed, executedOk, ?_⟩
      split_ifs at stepped with overflow boundary
      · exact ⟨by omega, .inr ⟨boundary, stepped⟩⟩
      · cases stepped
        exact ⟨by omega, .inl ⟨by omega, rfl, rfl⟩⟩

/-- `Step` hands the fetched opcode on. -/
theorem step_eq_stepFetched (fetched : fetchOpcode vm = .ok pop) :
    step rt vm = stepFetched rt vm pop := by
  rw [step, fetched]

/-- A `Step` that returns fetched the opcode at the program counter. -/
theorem fetchOpcode_of_step (stepped : step rt vm = .ok (done, vm')) :
    fetchOpcode vm = .ok vm.currentOpcode := by
  obtain ⟨idxLt, offLt, -⟩ := step_cases stepped
  exact fetchOpcode_eq_ok.mpr ⟨validPC_eq_ok.mpr ⟨idxLt, offLt⟩, rfl⟩

/-! ## Where a successful `Step` leaves the program counter -/

theorem lockScript_ne_nil (buf : Bytes) : lockScript rt buf ≠ [] := by
  simp [lockScript]

/-- Every script an extension program adds is a parsed lock script. -/
theorem extProgScripts_parsed {lock : List (List ParsedOpcode)}
    (lockOk : extProgScripts rt vm = .ok lock) :
    ∀ script ∈ lock, ∃ buf, rt.parseScript (lockScript rt buf) = .ok script := by
  unfold extProgScripts at lockOk
  split at lockOk
  · cases lockOk
    simp
  · split_ifs at lockOk
    · split at lockOk
      · cases lockOk
      · split_ifs at lockOk
        obtain ⟨pops, parsed, rfl⟩ := map_eq_ok.mp lockOk
        simpa using ⟨_, parsed⟩
    · obtain ⟨pops, parsed, rfl⟩ := map_eq_ok.mp lockOk
      simpa using ⟨_, parsed⟩
    · cases lockOk
      simp
  · cases lockOk

/-- `extProgScripts` reads the extension program, `verifyMinimalData` and the flags only. -/
theorem extProgScripts_congr (sameExt : vm'.witnessExtProg = vm.witnessExtProg)
    (sameMinimal : vm'.dstack.verifyMinimalData = vm.dstack.verifyMinimalData)
    (sameFlags : vm'.flags = vm.flags) : extProgScripts rt vm' = extProgScripts rt vm := by
  simp only [extProgScripts, hasFlag, sameExt, sameMinimal, sameFlags]

/-- The script index after the last opcode of script `idx`: the next script, or the one
after it when the next is empty. -/
def nextScriptIdx (scripts : List (List ParsedOpcode)) (idx : Nat) : Nat :=
  if idx + 1 < scripts.length ∧ scripts.getD (idx + 1) [] = [] then idx + 2 else idx + 1

theorem lt_nextScriptIdx (scripts : List (List ParsedOpcode)) (idx : Nat) :
    idx < nextScriptIdx scripts idx := by
  unfold nextScriptIdx
  split_ifs <;> omega

theorem nextScriptIdx_le (scripts : List (List ParsedOpcode)) (idx : Nat) :
    nextScriptIdx scripts idx ≤ idx + 2 := by
  unfold nextScriptIdx
  split_ifs <;> omega

theorem skipIdx_of_start (start : vm.scriptOff = 0) {idx : Nat} (next : vm.scriptIdx = idx + 1) :
    skipIdx vm = nextScriptIdx vm.scripts idx := by
  simp [skipIdx, nextScriptIdx, currentScript, start, next]

theorem step_advance (stepped : step rt vm = .ok (done, vm')) :
    vm.scriptIdx < vm.scripts.length ∧ vm.scriptOff < vm.currentScript.length ∧
    ((vm.scriptOff + 1 < vm.currentScript.length ∧ done = false ∧ vm'.scripts = vm.scripts ∧
        vm'.scriptIdx = vm.scriptIdx ∧ vm'.scriptOff = vm.scriptOff + 1) ∨
     (vm.scriptOff + 1 = vm.currentScript.length ∧ vm'.scriptOff = 0 ∧
      vm'.scriptIdx = nextScriptIdx vm'.scripts vm.scriptIdx ∧
      done = decide (vm'.scripts.length ≤ vm'.scriptIdx) ∧
      ∃ appended, vm'.scripts = vm.scripts ++ appended ∧
        (appended ≠ [] → vm.scriptIdx = 0 ∧ vm'.witnessProgram.isSome) ∧
        ∀ script ∈ appended, ∃ bytes, bytes ≠ [] ∧ rt.parseScript bytes = .ok script)) := by
  obtain ⟨idxLt, offLt, executed, executedOk, -, continues⟩ := step_cases stepped
  obtain ⟨scriptsEq, idxEq, offEq⟩ := executeOpcode_pc executedOk
  dsimp only at scriptsEq idxEq offEq
  have sameScript : executed.currentScript = vm.currentScript := by
    simp [currentScript, scriptsEq, idxEq]
  refine ⟨idxLt, offLt, ?_⟩
  rcases continues with ⟨stillIn, rfl, rfl⟩ | ⟨atEnd, ended⟩
  · exact .inl ⟨by simpa [sameScript, offEq] using stillIn, rfl, scriptsEq, idxEq, offEq⟩
  · right
    rw [sameScript, offEq] at atEnd
    obtain ⟨-, ⟨idxZero, hasProgram, entered, enteredOk, skipped⟩ | ⟨-, skipped⟩⟩ :=
      endScript_cases ended
    · obtain ⟨-, witness, -, verified⟩ := enterWitness_eq_ok enteredOk
      obtain ⟨-, script0, script1, lock, pops0, pops1, rfl, nonEmpty0, nonEmpty1, -, -, -, lockOk,
        parsed0, parsed1, rfl⟩ := verifyWitnessProgram_eq_ok verified
      rw [skipEmptyScript_eq] at skipped
      obtain ⟨rfl, rfl⟩ := Prod.mk.inj skipped
      refine ⟨by omega, rfl, skipIdx_of_start rfl (by simp [resetScript, idxEq]), rfl,
        lock ++ [pops0, pops1], by simp [resetScript, scriptsEq],
        fun _ => ⟨idxEq ▸ idxZero, hasProgram⟩, ?_⟩
      intro script member
      simp only [List.mem_append, List.mem_cons, List.mem_singleton, List.not_mem_nil,
        or_false] at member
      rcases member with fromLock | rfl | rfl
      · obtain ⟨buf, parsed⟩ := extProgScripts_parsed lockOk script fromLock
        exact ⟨_, lockScript_ne_nil buf, parsed⟩
      · exact ⟨script0, nonEmpty0, parsed0⟩
      · exact ⟨script1, nonEmpty1, parsed1⟩
    · rw [skipEmptyScript_eq] at skipped
      obtain ⟨rfl, rfl⟩ := Prod.mk.inj skipped
      refine ⟨by omega, rfl, skipIdx_of_start rfl (by simp [idxEq]), rfl, [],
        by simp [resetScript, scriptsEq], fun empty => absurd rfl empty, by simp⟩

/-- Everything `endScript` changes: the alt stack and the operation count are reset, the
counter moves to offset 0 of a later script, `lastCodeSep` is reset, scripts may be
appended, and the data stack is emptied when the witness branch runs. -/
theorem endScript_eq (ended : endScript rt vm = .ok (done, vm')) :
    ∃ scripts idx dstack, (dstack = vm.dstack ∨ dstack = vm.dstack.dropN vm.dstack.depth) ∧
      vm' = { vm.resetScript with scripts, scriptIdx := idx, lastCodeSep := 0, dstack } := by
  obtain ⟨-, ⟨-, -, entered, enteredOk, skipped⟩ | ⟨-, skipped⟩⟩ := endScript_cases ended
  · obtain ⟨-, witness, -, verified⟩ := enterWitness_eq_ok enteredOk
    obtain ⟨-, _, _, _, _, _, -, -, -, -, -, -, -, -, -, rfl⟩ := verifyWitnessProgram_eq_ok verified
    rw [skipEmptyScript_eq] at skipped
    obtain ⟨-, rfl⟩ := Prod.mk.inj skipped
    exact ⟨_, _, _, .inr rfl, rfl⟩
  · rw [skipEmptyScript_eq] at skipped
    obtain ⟨-, rfl⟩ := Prod.mk.inj skipped
    exact ⟨_, _, _, .inl rfl, rfl⟩

/-! ## What `Step` leaves to the opcode function -/

/-- The input being verified and the witness program read from the public key script. -/
def witnessInput (vm : Engine) : MsgTx × Int × Int × Option Bytes × List ParsedOpcode :=
  (vm.tx, vm.txIdx, vm.witnessVersion, vm.witnessProgram, vm.witnessExtProg)

theorem witnessInput_eq_iff :
    vm'.witnessInput = vm.witnessInput ↔
      vm'.tx = vm.tx ∧ vm'.txIdx = vm.txIdx ∧ vm'.witnessVersion = vm.witnessVersion ∧
        vm'.witnessProgram = vm.witnessProgram ∧ vm'.witnessExtProg = vm.witnessExtProg := by
  simp [witnessInput]

theorem endScript_witnessInput (ended : endScript rt vm = .ok (done, vm')) :
    vm'.witnessInput = vm.witnessInput := by
  obtain ⟨_, _, _, -, rfl⟩ := endScript_eq ended
  rfl

/-- Outside the opcode function, `Step` changes neither the input nor the witness program. -/
theorem step_witnessInput (stepped : step rt vm = .ok (done, vm')) :
    ∃ executed, executeOpcode rt { vm with scriptOff := vm.scriptOff + 1 } vm.currentOpcode =
      .ok executed ∧ vm'.witnessInput = executed.witnessInput := by
  obtain ⟨-, -, executed, executedOk, -, ⟨-, -, rfl⟩ | ⟨-, ended⟩⟩ := step_cases stepped
  · exact ⟨vm', executedOk, rfl⟩
  · exact ⟨executed, executedOk, endScript_witnessInput ended⟩

/-- The opcode function ran on the counted engine, or the opcode was skipped. -/
theorem executeOpcode_cases (executed : executeOpcode rt vm pop = .ok vm') :
    ∃ counted, countOpcode rt vm pop = .ok counted ∧
      (vm' = counted ∨ rt.opfunc pop counted = .ok vm') := by
  obtain ⟨counted, countedOk, dispatched⟩ := executeOpcode_eq_ok.mp executed
  exact ⟨counted, countedOk, dispatchOpcode_cases dispatched⟩

theorem countOpcode_witnessInput (counted : countOpcode rt vm pop = .ok vm') :
    vm'.witnessInput = vm.witnessInput := by
  obtain ⟨-, -, ⟨-, -, rfl⟩ | ⟨-, -, rfl⟩⟩ := countOpcode_eq_ok counted <;> rfl

/-- The script index never goes back. -/
theorem step_scriptIdx_le (stepped : step rt vm = .ok (done, vm')) :
    vm.scriptIdx ≤ vm'.scriptIdx := by
  obtain ⟨-, -, ⟨-, -, -, idxEq, -⟩ | ⟨-, -, idxNext, -⟩⟩ := step_advance stepped
  · exact idxEq.ge
  · exact idxNext ▸ (lt_nextScriptIdx _ _).le

end MassCore.Script.Engine

namespace MassCore.Script

open Engine

variable {rt : Runtime} {vm : Engine}

/-- What a successful `NewEngine` checked and built: one parsed script, the program counter
at its start, empty stacks, and the witness program read from the script. -/
theorem newEngine_eq_ok {pkScript : Bytes} {tx : MsgTx} {txIdx : Int} {flags : ScriptFlags}
    {inputAmount : Int} (created : newEngine rt pkScript tx txIdx flags inputAmount = .ok vm) :
    0 ≤ txIdx ∧ txIdx < tx.txIn.length ∧ pkScript ≠ [] ∧
    ∃ script version program extProg, rt.parseScript pkScript = .ok script ∧
      vm = { (default : Engine) with
               flags, inputAmount, scripts := [script], tx, txIdx, witnessVersion := version,
               witnessProgram := program, witnessExtProg := extProg } := by
  rw [newEngine, ite_error_eq_ok, ite_error_eq_ok, ite_error_eq_ok] at created
  obtain ⟨badIndex, emptyScript, -, created⟩ := created
  obtain ⟨script, parsed, withProgram⟩ := bind_eq_ok.mp created
  dsimp only at withProgram
  obtain ⟨programVm, programOk, rfl⟩ := map_eq_ok.mp withProgram
  refine ⟨by omega, by omega, fun empty => emptyScript (List.length_eq_zero.mpr empty), script,
    ?_⟩
  split_ifs at programOk
  · obtain ⟨⟨version, program, extProg⟩, -, finished⟩ := bind_eq_ok.mp programOk
    split_ifs at finished
    cases finished
    exact ⟨version, program, extProg, parsed, rfl⟩
  · cases programOk
    exact ⟨0, none, [], parsed, rfl⟩

end MassCore.Script
