import MassCore.Script.Witness

/-!
Contract: `Execute` computes a script-by-script interpreter.

`Step` is a flat program-counter machine: one opcode per call, `validPC` on every call, a
`done` flag, and after the last opcode of a script the boundary code of `endScript` with
`skipEmptyScript`. `interpret` states what the loop is for, as two nested loops: every
opcode of a script in order (`runScript`), then the script boundary (`closeScript`), for the
rest of the current script and then for every script after it, and `CheckErrorCondition(true)`
at the end. The scripts after the current one are read only once it has closed, since closing
the first script of a witness program appends the witness scripts.

Owns: the refinement of `interpret` by `Execute` from every state a run from `NewEngine`
reaches, given enough fuel (`execute_eq_interpret`), and the fuel that suffices once the
first script is past: one `Step` per opcode left (`execute_eq_interpret_of_past`).

## Why the scripts must be non-empty

`skipEmptyScript` skips one empty script and `validPC` rejects a second in a row, while the
interpreter runs an empty script as no opcode at all. The two agree when every script is
non-empty, which holds along every run from `NewEngine` when `parseScript` maps non-empty
bytes to non-empty opcode lists (`ParsesNonEmpty`): the witness scripts and the lock script
are non-empty bytes.
-/

namespace MassCore.Script.Engine

section Interpreter

variable (rt : Runtime)

/-- One opcode as `Step` runs it: executed with the counter already moved on, then the two
stacks checked against `maxStackSize`. -/
def runOpcode (vm : Engine) (pop : ParsedOpcode) : Except ScriptError Engine :=
  executeOpcode rt { vm with scriptOff := vm.scriptOff + 1 } pop >>= fun vm =>
    if vm.dstack.depth + vm.astack.depth > rt.maxStackSize then .error .errStackOverflow
    else .ok vm

/-- The opcodes of a script, in order. -/
def runScript (vm : Engine) : List ParsedOpcode → Except ScriptError Engine
  | [] => .ok vm
  | pop :: rest => runOpcode rt vm pop >>= fun vm => runScript vm rest

/-- The boundary after a script: `endScript` without the skip of an empty script. -/
def closeScript (vm : Engine) : Except Failure Engine :=
  if vm.condStack.length ≠ 0 then .error (.error .errStackMissingEndif)
  else if vm.scriptIdx = 0 ∧ vm.witnessProgram.isSome then
    (enterWitness rt vm.resetScript).map fun vm => { vm with lastCodeSep := 0 }
  else .ok { vm.resetScript with scriptIdx := vm.scriptIdx + 1, lastCodeSep := 0 }

/-- Every script of the list, run and closed in turn. -/
def runScripts (vm : Engine) : List (List ParsedOpcode) → Except Failure Engine
  | [] => .ok vm
  | script :: rest =>
      (runScript rt vm script).mapError .error >>= closeScript rt >>= fun vm => runScripts vm rest

/-- `CheckErrorCondition(true)` as `Execute` returns it. -/
def finish (vm : Engine) : Except Failure Engine :=
  (checkErrorCondition rt vm true).mapError .error

/-- What `Execute()` computes: the rest of the current script, then every script after it,
read once the current one has closed, then `CheckErrorCondition(true)`. -/
def interpret (vm : Engine) : Except Failure Engine :=
  runScripts rt vm [vm.currentScript.drop vm.scriptOff] >>= fun vm =>
    runScripts rt vm (vm.scripts.drop vm.scriptIdx) >>= finish rt

/-- What `Execute` does with the result of one `Step` and the fuel left. -/
def resume (fuel : Nat) : Except Failure (Bool × Engine) → Option (Except Failure Engine)
  | .error failure => some (.error failure)
  | .ok (false, vm) => execute rt fuel vm
  | .ok (true, vm) => some (finish rt vm)

/-- What `Step` does after the opcode: go on in the script, or end it. -/
def advance (vm : Engine) : Except Failure (Bool × Engine) :=
  if vm.scriptOff ≥ vm.currentScript.length then endScript rt vm else .ok (false, vm)

end Interpreter

variable {rt : Runtime} {vm vm' : Engine} {pop : ParsedOpcode}

/-! ## One `Step` -/

theorem execute_succ (fuel : Nat) (vm : Engine) :
    execute rt (fuel + 1) vm = resume rt fuel (step rt vm) := by
  rw [execute]
  rcases step rt vm with _ | ⟨_ | _, _⟩ <;> rfl

/-- At a valid program counter `Step` is `runOpcode` followed by `advance`. -/
theorem step_eq_runOpcode (valid : vm.validPC = .ok ()) :
    step rt vm = (runOpcode rt vm vm.currentOpcode).mapError .error >>= advance rt := by
  rw [step_eq_stepFetched (fetchOpcode_eq_ok.mpr ⟨valid, rfl⟩)]
  unfold stepFetched runOpcode
  rcases executeOpcode rt { vm with scriptOff := vm.scriptOff + 1 } vm.currentOpcode with
    _ | executed
  · rfl
  · by_cases overflow : executed.dstack.depth + executed.astack.depth > rt.maxStackSize <;>
      simp [overflow, advance, bind, Except.bind, Except.mapError]

theorem runOpcode_pc (ran : runOpcode rt vm pop = .ok vm') :
    vm'.scripts = vm.scripts ∧ vm'.scriptIdx = vm.scriptIdx ∧ vm'.scriptOff = vm.scriptOff + 1 := by
  obtain ⟨executed, executedOk, checked⟩ := bind_eq_ok.mp ran
  obtain ⟨-, ⟨⟩⟩ := ite_error_eq_ok.mp checked
  exact executeOpcode_pc executedOk

theorem runScript_pc :
    ∀ {script : List ParsedOpcode} {vm vm' : Engine}, runScript rt vm script = .ok vm' →
      vm'.scripts = vm.scripts ∧ vm'.scriptIdx = vm.scriptIdx ∧
        vm'.scriptOff = vm.scriptOff + script.length
  | [], _, _, ran => by cases ran; exact ⟨rfl, rfl, rfl⟩
  | pop :: rest, vm, vm', ran => by
      obtain ⟨vm₁, ranFirst, ranRest⟩ := bind_eq_ok.mp ran
      obtain ⟨scripts₁, idx₁, off₁⟩ := runOpcode_pc ranFirst
      obtain ⟨scripts, idx, off⟩ := runScript_pc ranRest
      exact ⟨scripts.trans scripts₁, idx.trans idx₁, by simp only [off, off₁, List.length_cons]; omega⟩

/-! ## One script -/

theorem currentScript_eq_of_pc (sameScripts : vm'.scripts = vm.scripts)
    (sameIdx : vm'.scriptIdx = vm.scriptIdx) : vm'.currentScript = vm.currentScript := by
  simp only [currentScript, sameScripts, sameIdx]

/-- `Execute` runs the rest of a script, one `Step` per opcode, and then `endScript`. -/
theorem execute_runScript (fuel : Nat) :
    ∀ (rest : List ParsedOpcode) (vm : Engine), vm.scriptIdx < vm.scripts.length →
      vm.currentScript.drop vm.scriptOff = rest → rest ≠ [] →
      execute rt (fuel + rest.length) vm =
        resume rt fuel ((runScript rt vm rest).mapError .error >>= endScript rt)
  | [], _, _, _, nonEmpty => absurd rfl nonEmpty
  | pop :: rest, vm, idxLt, remaining, _ => by
      have offLt : vm.scriptOff < vm.currentScript.length := by
        have := congrArg List.length remaining
        simp only [List.length_drop, List.length_cons] at this
        omega
      have current : vm.currentOpcode = pop := by
        have := congrArg (·[0]?) remaining
        simp only [List.getElem?_drop, Nat.add_zero, List.getElem?_cons_zero] at this
        simp [currentOpcode, List.getD_eq_getElem?_getD, this]
      rw [List.length_cons, ← Nat.add_assoc, execute_succ,
        step_eq_runOpcode (validPC_eq_ok.mpr ⟨idxLt, offLt⟩), current]
      cases ran : runOpcode rt vm pop with
      | error err => simp [ran, runScript, resume, bind, Except.bind, Except.mapError]
      | ok vm₁ =>
          obtain ⟨scriptsEq, idxEq, offEq⟩ := runOpcode_pc ran
          have sameScript := currentScript_eq_of_pc scriptsEq idxEq
          have remaining₁ : vm₁.currentScript.drop vm₁.scriptOff = rest := by
            rw [sameScript, offEq, ← List.drop_drop, remaining, List.drop_one, List.tail_cons]
          simp only [runScript, ran, bind, Except.bind, Except.mapError]
          cases rest with
          | nil =>
              have atEnd : vm₁.scriptOff ≥ vm₁.currentScript.length := by
                have := congrArg List.length remaining₁
                simp only [List.length_drop, List.length_nil] at this
                omega
              simp [advance, atEnd, runScript, Except.mapError]
          | cons next rest =>
              have inside : ¬vm₁.scriptOff ≥ vm₁.currentScript.length := by
                have := congrArg List.length remaining₁
                simp only [List.length_drop, List.length_cons] at this
                omega
              simp only [advance, inside, if_false, List.length_cons]
              exact execute_runScript fuel (next :: rest) vm₁ (idxEq ▸ scriptsEq ▸ idxLt)
                remaining₁ (List.cons_ne_nil _ _)

/-! ## The script boundary -/

theorem skipEmptyScript_lastCodeSep (vm : Engine) (sep : Nat) :
    skipEmptyScript { vm with lastCodeSep := sep } = skipEmptyScript vm := by
  rw [skipEmptyScript_eq, skipEmptyScript_eq]
  rfl

/-- `endScript` is `closeScript` followed by `skipEmptyScript`. -/
theorem endScript_eq_closeScript (vm : Engine) :
    endScript rt vm = (closeScript rt vm).map skipEmptyScript := by
  unfold endScript closeScript
  split_ifs
  · rfl
  · cases enterWitness rt vm.resetScript with
    | error => rfl
    | ok entered => exact congrArg Except.ok (skipEmptyScript_lastCodeSep entered 0).symm
  · exact congrArg Except.ok (skipEmptyScript_lastCodeSep _ 0).symm

/-- At the start of a non-empty script, `skipEmptyScript` skips nothing. -/
theorem skipEmptyScript_of_start (start : vm.scriptOff = 0) (reset : vm.lastCodeSep = 0)
    (nonEmpty : ∀ script ∈ vm.scripts.drop vm.scriptIdx, script ≠ []) :
    skipEmptyScript vm = (decide (vm.scripts.length ≤ vm.scriptIdx), vm) := by
  have noSkip : skipIdx vm = vm.scriptIdx := by
    unfold skipIdx
    rw [if_neg]
    rintro ⟨idxLt, empty⟩
    rw [start, ge_iff_le, Nat.le_zero, List.length_eq_zero, currentScript_eq_getElem idxLt] at empty
    exact nonEmpty _ (by rw [List.drop_eq_getElem_cons idxLt]; exact List.mem_cons_self _ _) empty
  rw [skipEmptyScript_eq, noSkip, ← reset]

/-- What a successful `closeScript` did: no conditional was open, the counter moved to offset
0 of the next script, and scripts were appended only after script 0, each parsed from
non-empty bytes. -/
theorem closeScript_eq_ok (closed : closeScript rt vm = .ok vm') :
    vm'.scriptOff = 0 ∧ vm'.lastCodeSep = 0 ∧ vm'.scriptIdx = vm.scriptIdx + 1 ∧
    ∃ appended, vm'.scripts = vm.scripts ++ appended ∧ (appended ≠ [] → vm.scriptIdx = 0) ∧
      ∀ script ∈ appended, ∃ bytes, bytes ≠ [] ∧ rt.parseScript bytes = .ok script := by
  unfold closeScript at closed
  split_ifs at closed with openConditional witnessBranch
  · obtain ⟨entered, enteredOk, rfl⟩ := map_eq_ok.mp closed
    obtain ⟨-, witness, -, verified⟩ := enterWitness_eq_ok enteredOk
    obtain ⟨-, script0, script1, lock, pops0, pops1, rfl, nonEmpty0, nonEmpty1, -, -, -, lockOk,
      parsed0, parsed1, rfl⟩ := verifyWitnessProgram_eq_ok verified
    refine ⟨rfl, rfl, rfl, lock ++ [pops0, pops1], by simp [resetScript],
      fun _ => witnessBranch.1, fun script member => ?_⟩
    simp only [List.mem_append, List.mem_cons, List.mem_singleton, List.not_mem_nil,
      or_false] at member
    rcases member with fromLock | rfl | rfl
    · obtain ⟨buf, parsed⟩ := extProgScripts_parsed lockOk script fromLock
      exact ⟨_, lockScript_ne_nil buf, parsed⟩
    · exact ⟨script0, nonEmpty0, parsed0⟩
    · exact ⟨script1, nonEmpty1, parsed1⟩
  · cases closed
    exact ⟨rfl, rfl, rfl, [], by simp [resetScript], fun empty => absurd rfl empty, by simp⟩

/-- Past script 0, running and closing a script moves on to the next one and appends no
script. -/
theorem runScript_closeScript_past (past : vm.scriptIdx ≠ 0) {script : List ParsedOpcode}
    {vm₁ vm₂ : Engine} (ran : runScript rt vm script = .ok vm₁)
    (closed : closeScript rt vm₁ = .ok vm₂) :
    vm₂.scripts.drop vm₂.scriptIdx = vm.scripts.drop (vm.scriptIdx + 1) := by
  obtain ⟨scriptsEq₁, idxEq₁, -⟩ := runScript_pc ran
  obtain ⟨-, -, idxEq₂, appended, scriptsEq₂, fromFirst, -⟩ := closeScript_eq_ok closed
  have noneAppended : appended = [] := by
    by_contra appendedSome
    exact past (idxEq₁ ▸ fromFirst appendedSome)
  rw [scriptsEq₂, noneAppended, List.append_nil, scriptsEq₁, idxEq₂, idxEq₁]

theorem runScripts_singleton {script : List ParsedOpcode} :
    runScripts rt vm [script] = .ok vm' ↔
      ∃ vm₁, runScript rt vm script = .ok vm₁ ∧ closeScript rt vm₁ = .ok vm' := by
  simp [runScripts, bind_eq_ok, mapError_eq_ok]

/-! ## The scripts after the first -/

/-- Past script 0, `Execute` runs every script left, one `Step` per opcode, and then
`CheckErrorCondition(true)`. -/
theorem resume_runScripts (fuel : Nat) :
    ∀ (scripts : List (List ParsedOpcode)) (vm : Engine), vm.scriptIdx ≠ 0 → vm.scriptOff = 0 →
      vm.lastCodeSep = 0 → vm.scripts.drop vm.scriptIdx = scripts →
      (∀ script ∈ scripts, script ≠ []) →
      resume rt (fuel + (scripts.map List.length).sum)
          (.ok (decide (vm.scripts.length ≤ vm.scriptIdx), vm)) =
        some (runScripts rt vm scripts >>= finish rt)
  | [], vm, _, _, _, remaining, _ => by
      have finished : vm.scripts.length ≤ vm.scriptIdx := List.drop_eq_nil_iff.mp remaining
      simp [resume, finished, runScripts, bind, Except.bind]
  | script :: scripts, vm, past, start, reset, remaining, nonEmpty => by
      have idxLt : vm.scriptIdx < vm.scripts.length := by
        by_contra finished
        rw [List.drop_eq_nil_of_le (Nat.le_of_not_lt finished)] at remaining
        cases remaining
      rw [List.drop_eq_getElem_cons idxLt] at remaining
      obtain ⟨first, rest⟩ := List.cons.inj remaining
      have current : vm.currentScript.drop vm.scriptOff = script := by
        rw [start, List.drop_zero, currentScript_eq_getElem idxLt, first]
      rw [decide_eq_false (Nat.not_le_of_lt idxLt), List.map_cons, List.sum_cons,
        Nat.add_comm script.length, ← Nat.add_assoc]
      show execute rt _ vm = _
      rw [execute_runScript _ script vm idxLt current (nonEmpty script (List.mem_cons_self _ _))]
      cases ran : runScript rt vm script with
      | error err => simp [resume, runScripts, ran, bind, Except.bind, Except.mapError]
      | ok vm₁ =>
          cases closed : closeScript rt vm₁ with
          | error failure =>
              simp [resume, runScripts, ran, closed, endScript_eq_closeScript, bind, Except.bind,
                Except.mapError, Except.map]
          | ok vm₂ =>
              obtain ⟨start₂, reset₂, idxEq₂, -⟩ := closeScript_eq_ok closed
              have remaining₂ := (runScript_closeScript_past past ran closed).trans rest
              have nonEmpty₂ : ∀ script ∈ scripts, script ≠ [] :=
                fun script member => nonEmpty script (List.mem_cons_of_mem _ member)
              have skipped := skipEmptyScript_of_start start₂ reset₂ (remaining₂ ▸ nonEmpty₂)
              simp only [ran, closed, endScript_eq_closeScript, runScripts, bind, Except.bind,
                Except.mapError, Except.map, skipped]
              exact resume_runScripts fuel scripts vm₂ (by omega) start₂ reset₂ remaining₂ nonEmpty₂

/-! ## From a state in range -/

/-- `Execute` runs the rest of the current script, one `Step` per opcode, and closes it. -/
theorem execute_closesFirst (inRange : PcInRange vm) (fuel : Nat) :
    execute rt (fuel + (vm.currentScript.drop vm.scriptOff).length) vm =
      resume rt fuel
        ((runScripts rt vm [vm.currentScript.drop vm.scriptOff]).map skipEmptyScript) := by
  have nonEmpty : vm.currentScript.drop vm.scriptOff ≠ [] := by
    rw [ne_eq, List.drop_eq_nil_iff, not_le]
    exact inRange.scriptOff_lt
  rw [execute_runScript fuel _ vm inRange.scriptIdx_lt rfl nonEmpty]
  congr 1
  cases ran : runScript rt vm (vm.currentScript.drop vm.scriptOff) with
  | error => simp [runScripts, ran, bind, Except.bind, Except.mapError, Except.map]
  | ok vm₁ =>
      simp only [runScripts, ran, bind, Except.bind, Except.mapError, endScript_eq_closeScript]
      cases closeScript rt vm₁ <;> rfl

theorem execute_eq_interpret_of_failed (inRange : PcInRange vm) {failure : Failure}
    (failed : runScripts rt vm [vm.currentScript.drop vm.scriptOff] = .error failure)
    (fuel : Nat) :
    execute rt (fuel + (vm.currentScript.drop vm.scriptOff).length) vm =
      some (interpret rt vm) := by
  rw [execute_closesFirst inRange, failed]
  simp [interpret, failed, resume, bind, Except.bind, Except.map]

theorem execute_eq_interpret_of_closed (inRange : PcInRange vm) {vm₂ : Engine}
    (closed : runScripts rt vm [vm.currentScript.drop vm.scriptOff] = .ok vm₂)
    (nonEmpty : ∀ script ∈ vm₂.scripts.drop vm₂.scriptIdx, script ≠ []) (fuel : Nat) :
    execute rt (fuel + ((vm₂.scripts.drop vm₂.scriptIdx).map List.length).sum +
        (vm.currentScript.drop vm.scriptOff).length) vm = some (interpret rt vm) := by
  obtain ⟨vm₁, -, closed₁⟩ := runScripts_singleton.mp closed
  obtain ⟨start, reset, idxEq, -⟩ := closeScript_eq_ok closed₁
  rw [execute_closesFirst inRange, closed]
  simp only [Except.map, skipEmptyScript_of_start start reset nonEmpty]
  rw [resume_runScripts fuel _ vm₂ (by omega) start reset rfl nonEmpty]
  simp only [interpret, closed, bind, Except.bind]

/-- From a state whose program counter is in range, `Execute` with enough fuel returns what
`interpret` returns. -/
theorem execute_eq_interpret_of_pcInRange (nonEmptyParse : ParsesNonEmpty rt)
    (inRange : PcInRange vm) :
    ∃ bound, ∀ fuel, bound ≤ fuel → execute rt fuel vm = some (interpret rt vm) := by
  cases closed : runScripts rt vm [vm.currentScript.drop vm.scriptOff] with
  | error failure =>
      refine ⟨(vm.currentScript.drop vm.scriptOff).length, fun fuel enough => ?_⟩
      obtain ⟨extra, rfl⟩ := Nat.exists_eq_add_of_le' enough
      exact execute_eq_interpret_of_failed inRange closed extra
  | ok vm₂ =>
      obtain ⟨vm₁, ran, closed₁⟩ := runScripts_singleton.mp closed
      obtain ⟨-, -, -, appended, scriptsEq, -, parsedAppended⟩ := closeScript_eq_ok closed₁
      have allNonEmpty : ∀ script ∈ vm₂.scripts, script ≠ [] := by
        rw [scriptsEq, (runScript_pc ran).1]
        exact step_scripts_ne_nil nonEmptyParse inRange.scripts_ne_nil parsedAppended
      refine ⟨((vm₂.scripts.drop vm₂.scriptIdx).map List.length).sum +
        (vm.currentScript.drop vm.scriptOff).length, fun fuel enough => ?_⟩
      obtain ⟨extra, rfl⟩ := Nat.exists_eq_add_of_le' enough
      rw [← Nat.add_assoc]
      exact execute_eq_interpret_of_closed inRange closed
        (fun script member => allNonEmpty script (List.mem_of_mem_drop member)) extra

/-- Past script 0, one `Step` per opcode left is enough fuel for `Execute` to return what
`interpret` returns. -/
theorem execute_eq_interpret_of_past (inRange : PcInRange vm) (past : vm.scriptIdx ≠ 0)
    {fuel : Nat} (enough : vm.opcodesLeft ≤ fuel) : execute rt fuel vm = some (interpret rt vm) := by
  have opcodesLeftEq : vm.opcodesLeft = (vm.currentScript.drop vm.scriptOff).length +
      ((vm.scripts.drop (vm.scriptIdx + 1)).map List.length).sum := by
    have offLt := inRange.scriptOff_lt
    rw [opcodesLeft, sum_drop_eq inRange.scriptIdx_lt, List.length_drop]
    simp only [currentScript] at offLt ⊢
    omega
  cases closed : runScripts rt vm [vm.currentScript.drop vm.scriptOff] with
  | error failure =>
      obtain ⟨extra, rfl⟩ := Nat.exists_eq_add_of_le'
        (le_trans (by omega : (vm.currentScript.drop vm.scriptOff).length ≤ vm.opcodesLeft) enough)
      exact execute_eq_interpret_of_failed inRange closed extra
  | ok vm₂ =>
      obtain ⟨vm₁, ran, closed₁⟩ := runScripts_singleton.mp closed
      have remaining := runScript_closeScript_past past ran closed₁
      obtain ⟨extra, rfl⟩ := Nat.exists_eq_add_of_le' enough
      rw [opcodesLeftEq, Nat.add_comm (List.length _), ← remaining, ← Nat.add_assoc]
      exact execute_eq_interpret_of_closed inRange closed (fun script member =>
        inRange.scripts_ne_nil script (List.mem_of_mem_drop (remaining ▸ member))) extra

/-! ## Runs from `NewEngine` -/

theorem newEngine_pcInRange (nonEmptyParse : ParsesNonEmpty rt) {pkScript : Bytes} {tx : MsgTx}
    {txIdx : Int} {flags : ScriptFlags} {inputAmount : Int} {vm₀ : Engine}
    (created : newEngine rt pkScript tx txIdx flags inputAmount = .ok vm₀) : PcInRange vm₀ := by
  obtain ⟨-, -, pkNonEmpty, script, version, program, extProg, parsed, rfl⟩ :=
    newEngine_eq_ok created
  have nonEmpty := nonEmptyParse _ _ pkNonEmpty parsed
  exact ⟨by simpa using nonEmpty, by simp, by simpa [currentScript, List.length_pos] using nonEmpty⟩

theorem Steps.pcInRange (nonEmptyParse : ParsesNonEmpty rt) {vm₀ : Engine}
    (initial : PcInRange vm₀) {executed : List ParsedOpcode} (run : Steps rt vm₀ executed vm) :
    PcInRange vm := by
  induction run with
  | refl => exact initial
  | tail _ _ stepped inductionHypothesis =>
      exact step_pcInRange nonEmptyParse inductionHypothesis stepped

/-- After a `Step` that lands on offset 0 no conditional is open, the alt stack is empty and no
operation is counted: the `Step` closed a script. -/
theorem step_script_start {done : Bool} (stepped : step rt vm = .ok (done, vm'))
    (start : vm'.scriptOff = 0) :
    vm'.condStack = [] ∧ vm'.astack.depth = 0 ∧ vm'.numOps = 0 := by
  obtain ⟨-, -, executed, executedOk, -, ⟨-, -, rfl⟩ | ⟨-, ended⟩⟩ := step_cases stepped
  · have moved := (executeOpcode_pc executedOk).2.2
    dsimp only at moved
    omega
  · obtain ⟨closed, -⟩ := endScript_cases ended
    obtain ⟨_, _, _, -, rfl⟩ := endScript_eq ended
    exact ⟨closed, Stack.depth_dropN_depth _, rfl⟩

/-- Every script of a run from `NewEngine` starts with no open conditional, an empty alt stack
and no operation counted: conditionals do not span scripts, and neither the alt stack nor the
operation count carries over to the next script. -/
theorem steps_script_start {pkScript : Bytes} {tx : MsgTx} {txIdx : Int} {flags : ScriptFlags}
    {inputAmount : Int} {vm₀ : Engine}
    (created : newEngine rt pkScript tx txIdx flags inputAmount = .ok vm₀)
    {executed : List ParsedOpcode} (run : Steps rt vm₀ executed vm) (start : vm.scriptOff = 0) :
    vm.condStack = [] ∧ vm.astack.depth = 0 ∧ vm.numOps = 0 := by
  cases run with
  | refl =>
      obtain ⟨-, -, -, _, _, _, _, -, rfl⟩ := newEngine_eq_ok created
      exact ⟨rfl, rfl, rfl⟩
  | tail _ _ stepped => exact step_script_start stepped start

theorem steps_script_start_witnessScript :
    ∃ vm₀ executed vm,
      newEngine pushDropRuntime [0x00, 0x51] ⟨[⟨[[0x75], [0x51]]⟩]⟩ 0 0 0 = .ok vm₀ ∧
      Steps pushDropRuntime vm₀ executed vm ∧ vm.scriptOff = 0 ∧ vm.scriptIdx = 1 ∧
      vm.condStack = [] ∧ vm.astack.depth = 0 ∧ vm.numOps = 0 := by
  obtain ⟨vm₀, created⟩ : ∃ vm₀,
      newEngine pushDropRuntime [0x00, 0x51] ⟨[⟨[[0x75], [0x51]]⟩]⟩ 0 0 0 = .ok vm₀ := ⟨_, rfl⟩
  obtain ⟨executed, vm, run, start, second⟩ : ∃ executed vm, Steps pushDropRuntime vm₀ executed vm ∧
      vm.scriptOff = 0 ∧ vm.scriptIdx = 1 := by
    cases created
    exact ⟨_, _, .tail (.tail .refl rfl rfl) rfl rfl, rfl, rfl⟩
  exact ⟨vm₀, executed, vm, created, run, start, second, steps_script_start created run start⟩

/-- From every state a run from `NewEngine` reaches, `Execute` with enough fuel returns what
the script-by-script interpreter returns. -/
theorem execute_eq_interpret (nonEmptyParse : ParsesNonEmpty rt) {pkScript : Bytes} {tx : MsgTx}
    {txIdx : Int} {flags : ScriptFlags} {inputAmount : Int} {vm₀ : Engine}
    (created : newEngine rt pkScript tx txIdx flags inputAmount = .ok vm₀)
    {executed : List ParsedOpcode} (run : Steps rt vm₀ executed vm) :
    ∃ bound, ∀ fuel, bound ≤ fuel → execute rt fuel vm = some (interpret rt vm) :=
  execute_eq_interpret_of_pcInRange nonEmptyParse
    (run.pcInRange nonEmptyParse (newEngine_pcInRange nonEmptyParse created))

theorem execute_eq_interpret_pushDrop :
    ∃ vm₀, newEngine pushDropRuntime [0x00, 0x51] ⟨[⟨[[0x75], [0x51]]⟩]⟩ 0 0 0 = .ok vm₀ ∧
      ∃ bound, ∀ fuel, bound ≤ fuel →
        execute pushDropRuntime fuel vm₀ = some (interpret pushDropRuntime vm₀) := by
  obtain ⟨vm₀, created⟩ : ∃ vm₀,
      newEngine pushDropRuntime [0x00, 0x51] ⟨[⟨[[0x75], [0x51]]⟩]⟩ 0 0 0 = .ok vm₀ := ⟨_, rfl⟩
  exact ⟨vm₀, created, execute_eq_interpret byteRuntime_parsesNonEmpty created .refl⟩

/-- Two one-opcode scripts, at the start of the second. -/
def secondScript : Engine :=
  { (default : Engine) with scripts := [[⟨⟨0x51⟩, []⟩], [⟨⟨0x52⟩, []⟩]], scriptIdx := 1 }

theorem execute_eq_interpret_of_past_secondScript :
    PcInRange secondScript ∧ secondScript.scriptIdx ≠ 0 ∧ secondScript.opcodesLeft ≤ 1 ∧
      execute pushRuntime 1 secondScript = some (interpret pushRuntime secondScript) :=
  have inRange : PcInRange secondScript := ⟨by decide, by decide, by decide⟩
  ⟨inRange, by decide, by decide,
    execute_eq_interpret_of_past inRange (by decide) (by decide)⟩

end MassCore.Script.Engine
