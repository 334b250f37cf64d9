import MassCore.Script.StepSpec

/-!
Contract: runs of `Step`, as `Execute` drives them, and the program-counter invariant.

A run is the sequence of `Step` calls of `Execute`'s loop that returned `(false, nil)`;
it records the opcode each call fetched at its program counter and handed to
`executeOpcode`. The executed opcodes are
always the scripts before the current one and the current one up to the counter
(`Steps.executed_eq`), across the boundary where `verifyWitnessProgram` appends scripts
and the one where a zero-length script is skipped.

Owns: `Steps`, the decomposition of a successful `Execute` into a run, a final `Step` and
`CheckErrorCondition`, and the program-counter invariant of runs from `NewEngine`.
-/

namespace MassCore.Script.Engine

variable {rt : Runtime} {vm vm' vm₀ : Engine} {done : Bool}

/-! ## Runs -/

/-- `Steps rt vm₀ executed vm`: calls of `Step` from `vm₀`, each returning `(false, nil)`,
end in `vm`. `executed` lists, in order, the opcode `pop` each call fetched
(`fetchOpcode`), which `Step` hands to `executeOpcode` (`stepFetched`). -/
inductive Steps (rt : Runtime) (vm₀ : Engine) : List ParsedOpcode → Engine → Prop
  | refl : Steps rt vm₀ [] vm₀
  | tail {executed : List ParsedOpcode} {vm vm' : Engine} {pop : ParsedOpcode} :
      Steps rt vm₀ executed vm → fetchOpcode vm = .ok pop → step rt vm = .ok (false, vm') →
      Steps rt vm₀ (executed ++ [pop]) vm'

theorem Steps.head {executed : List ParsedOpcode} {vm₁ : Engine}
    (first : step rt vm₀ = .ok (false, vm₁)) (rest : Steps rt vm₁ executed vm) :
    Steps rt vm₀ (vm₀.currentOpcode :: executed) vm := by
  induction rest with
  | refl => exact .tail .refl (fetchOpcode_of_step first) first
  | tail _ fetched stepped inductionHypothesis => exact .tail inductionHypothesis fetched stepped

theorem Steps.trans {first second : List ParsedOpcode} {vm₁ : Engine}
    (before : Steps rt vm₀ first vm₁) (after : Steps rt vm₁ second vm) :
    Steps rt vm₀ (first ++ second) vm := by
  induction after with
  | refl => simpa using before
  | tail _ fetched stepped inductionHypothesis =>
      simpa [List.append_assoc] using inductionHypothesis.tail fetched stepped

/-- A successful `Execute` is a run, a last `Step` that reports `done`, and a successful
`CheckErrorCondition(true)`. -/
theorem execute_eq_some_ok {fuel : Nat} {vmEnd : Engine}
    (executed : execute rt fuel vm₀ = some (.ok vmEnd)) :
    ∃ ops vm vmDone, Steps rt vm₀ ops vm ∧ step rt vm = .ok (true, vmDone) ∧
      checkErrorCondition rt vmDone true = .ok vmEnd := by
  induction fuel generalizing vm₀ with
  | zero => cases executed
  | succ fuel inductionHypothesis =>
      unfold execute at executed
      split at executed
      · cases executed
      · rename_i vm₁ stepped
        obtain ⟨ops, vm, vmDone, run, last, checked⟩ := inductionHypothesis executed
        exact ⟨_, vm, vmDone, .head stepped run, last, checked⟩
      · rename_i vmDone stepped
        exact ⟨[], vm₀, vmDone, .refl, stepped,
          mapError_eq_ok.mp (Option.some.inj executed)⟩

/-- A successful `CheckErrorCondition` pops the data stack only, after the last script. -/
theorem checkErrorCondition_eq_ok {finalScript : Bool} {vmEnd : Engine}
    (checked : checkErrorCondition rt vm finalScript = .ok vmEnd) :
    vm.scripts.length ≤ vm.scriptIdx ∧ vmEnd.scripts = vm.scripts := by
  unfold checkErrorCondition at checked
  split_ifs at checked with unfinished
  split at checked
  · cases checked
  · split_ifs at checked
    cases checked
    exact ⟨Nat.le_of_not_lt unfinished, rfl⟩

/-! ## The executed opcodes -/

/-- The opcodes before the program counter: every script before the current one, then
the current one up to the offset. -/
def executedPrefix (vm : Engine) : List ParsedOpcode :=
  (vm.scripts.take vm.scriptIdx).flatten ++ vm.currentScript.take vm.scriptOff

theorem flatten_take_succ {α : Type} (lists : List (List α)) (n : Nat) :
    (lists.take (n + 1)).flatten = (lists.take n).flatten ++ lists.getD n [] := by
  rw [List.take_succ, List.flatten_append, List.getD_eq_getElem?_getD]
  cases lists[n]? <;> simp

theorem take_succ_currentScript (inScript : vm.scriptOff < vm.currentScript.length) :
    vm.currentScript.take (vm.scriptOff + 1) =
      vm.currentScript.take vm.scriptOff ++ [vm.currentOpcode] := by
  rw [List.take_succ, List.getElem?_eq_getElem inScript, currentOpcode,
    List.getD_eq_getElem?_getD, List.getElem?_eq_getElem inScript]
  rfl

/-- The scripts up to the one a boundary `Step` moves to: the scripts up to the one it
finished, then the empty script it skipped, if any. Appended scripts come after both. -/
theorem take_nextScriptIdx {scripts : List (List ParsedOpcode)}
    (appended : List (List ParsedOpcode)) {idx : Nat} (inRange : idx < scripts.length) :
    (scripts ++ appended).take (nextScriptIdx (scripts ++ appended) idx) = scripts.take (idx + 1) ∨
    (scripts ++ appended).take (nextScriptIdx (scripts ++ appended) idx) =
      scripts.take (idx + 1) ++ [[]] := by
  have kept : (scripts ++ appended).take (idx + 1) = scripts.take (idx + 1) :=
    List.take_append_of_le_length (by omega)
  unfold nextScriptIdx
  split_ifs with skipped
  · obtain ⟨following, empty⟩ := skipped
    rw [List.getD_eq_getElem?_getD, List.getElem?_eq_getElem following, Option.getD_some] at empty
    rw [List.take_succ, kept, List.getElem?_eq_getElem following, empty]
    exact .inr rfl
  · exact .inl kept

theorem flatten_take_nextScriptIdx {scripts appended : List (List ParsedOpcode)} {idx : Nat}
    (inRange : idx < scripts.length) :
    ((scripts ++ appended).take (nextScriptIdx (scripts ++ appended) idx)).flatten =
      (scripts.take (idx + 1)).flatten := by
  rcases take_nextScriptIdx appended inRange with taken | taken <;> simp [taken]

/-- One `Step` executes the opcode at the program counter and nothing else. -/
theorem step_executedPrefix (stepped : step rt vm = .ok (done, vm')) :
    vm'.executedPrefix = vm.executedPrefix ++ [vm.currentOpcode] := by
  obtain ⟨idxLt, offLt, continues | ⟨atEnd, offZero, idxNext, -, appended, scriptsEq, -⟩⟩ :=
    step_advance stepped
  · obtain ⟨-, -, scriptsEq, idxEq, offEq⟩ := continues
    have sameScript : vm'.currentScript = vm.currentScript := by
      simp [currentScript, scriptsEq, idxEq]
    rw [executedPrefix, executedPrefix, sameScript, scriptsEq, idxEq, offEq,
      take_succ_currentScript offLt, List.append_assoc]
  · have wholeScript : vm.currentScript.take vm.scriptOff ++ [vm.currentOpcode] =
        vm.currentScript := by
      rw [← take_succ_currentScript offLt, atEnd, List.take_length]
    rw [executedPrefix, executedPrefix, offZero, List.take_zero, List.append_nil, idxNext,
      scriptsEq, flatten_take_nextScriptIdx idxLt, flatten_take_succ, List.append_assoc,
      wholeScript]
    rfl

/-- Along a run, the executed opcodes are what the program counter has passed. -/
theorem Steps.executed_eq {executed : List ParsedOpcode} (run : Steps rt vm₀ executed vm) :
    vm.executedPrefix = vm₀.executedPrefix ++ executed := by
  induction run with
  | refl => simp
  | tail _ fetched stepped inductionHypothesis =>
      rw [step_executedPrefix stepped, inductionHypothesis, List.append_assoc,
        (fetchOpcode_eq_ok.mp fetched).2]

/-- A new engine has executed nothing. -/
theorem newEngine_executedPrefix {pkScript : Bytes} {tx : MsgTx} {txIdx : Int}
    {flags : ScriptFlags} {inputAmount : Int}
    (created : newEngine rt pkScript tx txIdx flags inputAmount = .ok vm₀) :
    vm₀.executedPrefix = [] := by
  obtain ⟨-, -, -, script, version, program, extProg, -, rfl⟩ := newEngine_eq_ok created
  simp [executedPrefix]

/-- A `Step` that reports `done` leaves every opcode of every script executed. -/
theorem step_done_executedPrefix (stepped : step rt vm = .ok (true, vm')) :
    vm'.executedPrefix = vm'.scripts.flatten := by
  obtain ⟨-, -, ⟨-, notDone, -⟩ | ⟨-, offZero, -, doneEq, -⟩⟩ := step_advance stepped
  · cases notDone
  · have finished : vm'.scripts.length ≤ vm'.scriptIdx := by simpa using doneEq.symm
    rw [executedPrefix, offZero, List.take_zero, List.append_nil,
      List.take_of_length_le finished]

/-! ## A runtime to compute with -/

/-- A runtime in which every byte is an opcode without data, nothing is disabled, illegal
or conditional, SHA-256 is replaced by the identity, and a script starting with `0x00` is a
version-0 witness program whose remaining bytes are the program. The opcode functions are
the parameter; the limits are btcd's. -/
def byteRuntime (opfunc : ParsedOpcode → Engine → Except ScriptError Engine)
    (opfunc_pc : ∀ pop vm vm', opfunc pop vm = .ok vm' →
      vm'.scripts = vm.scripts ∧ vm'.scriptIdx = vm.scriptIdx ∧ vm'.scriptOff = vm.scriptOff) :
    Runtime where
  parseScript bytes := .ok (bytes.map fun value => ⟨⟨value⟩, []⟩)
  isDisabled _ := false
  alwaysIllegal _ := false
  isConditional _ := false
  checkMinimalDataPush _ := .ok ()
  opfunc := opfunc
  asBool so := so.any (· != 0)
  sha256 := id
  makeScriptNum _ _ _ := .ok 0
  addData buf := buf
  isMASSWitnessProgram _ := false
  isWitnessProgram script := script.head?.map (·.opcode.value) == some 0
  extractWitnessProgramInfo script := .ok (0, some ((script.drop 1).map (·.opcode.value)), [])
  maxScriptSize := 10000
  maxScriptElementSize := 520
  maxOpsPerScript := 201
  maxStackSize := 1000
  witnessV0FrozenPeriodDataSize := 9
  massip0002BindingLockedPeriod := 0
  scriptMASSip2 := 0
  opfunc_pc := opfunc_pc

/-- Every opcode pushes its value. -/
def pushRuntime : Runtime :=
  byteRuntime (fun pop vm => .ok { vm with dstack := vm.dstack.pushByteArray [pop.opcode.value] })
    (by intro pop vm vm' pushed; cases pushed; simp)

/-! ## The program-counter invariant -/

/-- Every script is non-empty, and the program counter points at an opcode. -/
structure PcInRange (vm : Engine) : Prop where
  scripts_ne_nil : ∀ script ∈ vm.scripts, script ≠ []
  scriptIdx_lt : vm.scriptIdx < vm.scripts.length
  scriptOff_lt : vm.scriptOff < vm.currentScript.length

/-- `parseScript` maps every non-empty script it accepts to a non-empty opcode list. -/
def ParsesNonEmpty (rt : Runtime) : Prop :=
  ∀ bytes script, bytes ≠ [] → rt.parseScript bytes = .ok script → script ≠ []

theorem byteRuntime_parsesNonEmpty {opfunc} {opfunc_pc} :
    ParsesNonEmpty (byteRuntime opfunc opfunc_pc) := by
  intro bytes script nonEmpty parsed
  cases parsed
  simpa using nonEmpty

theorem nextScriptIdx_of_ne_nil {scripts : List (List ParsedOpcode)} {idx : Nat}
    (nonEmpty : ∀ script ∈ scripts, script ≠ []) :
    nextScriptIdx scripts idx = idx + 1 := by
  unfold nextScriptIdx
  rw [if_neg]
  rintro ⟨inRange, empty⟩
  rw [List.getD_eq_getElem?_getD, List.getElem?_eq_getElem inRange] at empty
  exact nonEmpty _ (List.getElem_mem inRange) empty

/-- The scripts a boundary `Step` leaves are non-empty when `parseScript` keeps non-empty
scripts non-empty: the appended ones are parsed from non-empty bytes. -/
theorem step_scripts_ne_nil (nonEmptyParse : ParsesNonEmpty rt)
    (nonEmpty : ∀ script ∈ vm.scripts, script ≠ []) {appended : List (List ParsedOpcode)}
    (parsedAppended :
      ∀ script ∈ appended, ∃ bytes, bytes ≠ [] ∧ rt.parseScript bytes = .ok script) :
    ∀ script ∈ vm.scripts ++ appended, script ≠ [] := by
  intro script member
  rcases List.mem_append.mp member with old | new
  · exact nonEmpty script old
  · obtain ⟨bytes, bytesNe, parsed⟩ := parsedAppended script new
    exact nonEmptyParse bytes script bytesNe parsed

theorem step_pcInRange (nonEmptyParse : ParsesNonEmpty rt) (inRange : PcInRange vm)
    (stepped : step rt vm = .ok (false, vm')) : PcInRange vm' := by
  obtain ⟨idxLt, -, continues | ⟨-, offZero, -, doneEq, appended, scriptsEq, -, parsedAppended⟩⟩ :=
    step_advance stepped
  · obtain ⟨stillIn, -, scriptsEq, idxEq, offEq⟩ := continues
    refine ⟨scriptsEq ▸ inRange.scripts_ne_nil, scriptsEq ▸ idxEq ▸ idxLt, ?_⟩
    simpa [currentScript, scriptsEq, idxEq, offEq] using stillIn
  · have nonEmpty : ∀ script ∈ vm'.scripts, script ≠ [] := scriptsEq ▸
      step_scripts_ne_nil nonEmptyParse inRange.scripts_ne_nil parsedAppended
    have idxLt' : vm'.scriptIdx < vm'.scripts.length := by simpa using doneEq
    refine ⟨nonEmpty, idxLt', ?_⟩
    rw [offZero, currentScript_eq_getElem idxLt']
    exact List.length_pos.mpr (nonEmpty _ (List.getElem_mem idxLt'))

/-- From a state in range, `Step` reports `done` only after the last opcode of the last
script, and appends nothing then. -/
theorem step_done_at_end (nonEmptyParse : ParsesNonEmpty rt) (inRange : PcInRange vm)
    (stepped : step rt vm = .ok (true, vm')) :
    vm.scriptIdx + 1 = vm.scripts.length ∧ vm.scriptOff + 1 = vm.currentScript.length ∧
      vm'.scripts = vm.scripts := by
  obtain ⟨idxLt, -, ⟨-, notDone, -⟩ | ⟨atEnd, -, idxNext, doneEq, appended, scriptsEq, -,
    parsedAppended⟩⟩ := step_advance stepped
  · cases notDone
  · have nonEmpty := step_scripts_ne_nil nonEmptyParse inRange.scripts_ne_nil parsedAppended
    rw [← scriptsEq] at nonEmpty
    rw [nextScriptIdx_of_ne_nil nonEmpty] at idxNext
    have finished : vm'.scripts.length ≤ vm'.scriptIdx := by simpa using doneEq.symm
    rw [scriptsEq, idxNext, List.length_append] at finished
    have noneAppended : appended = [] := List.length_eq_zero.mp (by omega)
    exact ⟨by omega, atEnd, by rw [scriptsEq, noneAppended, List.append_nil]⟩

/-- The program counter of every state a run from `NewEngine` reaches: every script is
non-empty, the counter points at an opcode (so `validPC` passes and the next `Step` fetches
that opcode), the opcodes handed to `executeOpcode` so far are exactly, in order, the scripts
before the current one and the current one up to the counter, and a `Step` reports `done`
only right after executing the last opcode of the last script. -/
theorem steps_pc_invariant (nonEmptyParse : ParsesNonEmpty rt) {pkScript : Bytes} {tx : MsgTx}
    {txIdx : Int} {flags : ScriptFlags} {inputAmount : Int}
    (created : newEngine rt pkScript tx txIdx flags inputAmount = .ok vm₀)
    {executed : List ParsedOpcode} (run : Steps rt vm₀ executed vm) :
    (∀ script ∈ vm.scripts, script ≠ []) ∧
    vm.scriptIdx < vm.scripts.length ∧ vm.scriptOff < vm.currentScript.length ∧
    vm.validPC = .ok () ∧ fetchOpcode vm = .ok vm.currentOpcode ∧
    executed = (vm.scripts.take vm.scriptIdx).flatten ++ vm.currentScript.take vm.scriptOff ∧
    ∀ vmDone, step rt vm = .ok (true, vmDone) →
      vm.scriptIdx + 1 = vm.scripts.length ∧ vm.scriptOff + 1 = vm.currentScript.length ∧
      executed ++ [vm.currentOpcode] = vmDone.scripts.flatten := by
  obtain ⟨-, -, pkNonEmpty, script, version, program, extProg, parsed, initialEq⟩ :=
    newEngine_eq_ok created
  have nonEmpty := nonEmptyParse _ _ pkNonEmpty parsed
  have initial : PcInRange vm₀ := by
    subst initialEq
    exact ⟨by simpa using nonEmpty, by simp,
      by simpa [currentScript, List.length_pos] using nonEmpty⟩
  have inRange : PcInRange vm := by
    induction run with
    | refl => exact initial
    | tail _ _ stepped inductionHypothesis =>
        exact step_pcInRange nonEmptyParse inductionHypothesis stepped
  have valid : vm.validPC = .ok () := validPC_eq_ok.mpr ⟨inRange.2, inRange.3⟩
  have executedEq : executed = vm.executedPrefix := by
    rw [run.executed_eq, newEngine_executedPrefix created, List.nil_append]
  refine ⟨inRange.1, inRange.2, inRange.3, valid, fetchOpcode_eq_ok.mpr ⟨valid, rfl⟩,
    executedEq, fun vmDone stepped => ?_⟩
  obtain ⟨lastScript, lastOpcode, -⟩ := step_done_at_end nonEmptyParse inRange stepped
  refine ⟨lastScript, lastOpcode, ?_⟩
  rw [executedEq, ← step_executedPrefix stepped, step_done_executedPrefix stepped]

/-- A run of `pushRuntime` through the witness branch: script 0 `0x00 0x51` is a witness
program for the program `0x51`, whose witness appends the scripts `0x75` and `0x51`. After
three `Step` calls the run is at the start of the last script, having executed script 0 and
script 1, and the fourth `Step` reports `done`. -/
theorem steps_pc_invariant_acrossWitness :
    ∃ vm₀ vm vmDone, newEngine pushRuntime [0x00, 0x51] ⟨[⟨[[0x75], [0x51]]⟩]⟩ 0 0 0 = .ok vm₀ ∧
      Steps pushRuntime vm₀ [⟨⟨0x00⟩, []⟩, ⟨⟨0x51⟩, []⟩, ⟨⟨0x75⟩, []⟩] vm ∧ vm.scriptIdx = 2 ∧
      fetchOpcode vm = .ok vm.currentOpcode ∧
      [⟨⟨0x00⟩, []⟩, ⟨⟨0x51⟩, []⟩, ⟨⟨0x75⟩, []⟩] =
        (vm.scripts.take vm.scriptIdx).flatten ++ vm.currentScript.take vm.scriptOff ∧
      step pushRuntime vm = .ok (true, vmDone) ∧ vm.scriptIdx + 1 = vm.scripts.length ∧
      [⟨⟨0x00⟩, []⟩, ⟨⟨0x51⟩, []⟩, ⟨⟨0x75⟩, []⟩] ++ [vm.currentOpcode] =
        vmDone.scripts.flatten := by
  obtain ⟨vm₀, created⟩ : ∃ vm₀,
      newEngine pushRuntime [0x00, 0x51] ⟨[⟨[[0x75], [0x51]]⟩]⟩ 0 0 0 = .ok vm₀ := ⟨_, rfl⟩
  obtain ⟨executed, vm, vmDone, run, traced, lastScript, finished⟩ : ∃ executed vm vmDone,
      Steps pushRuntime vm₀ executed vm ∧ executed = [⟨⟨0x00⟩, []⟩, ⟨⟨0x51⟩, []⟩, ⟨⟨0x75⟩, []⟩] ∧
      vm.scriptIdx = 2 ∧ step pushRuntime vm = .ok (true, vmDone) := by
    cases created
    exact ⟨_, _, _, .tail (.tail (.tail .refl rfl rfl) rfl rfl) rfl rfl, rfl, rfl, rfl⟩
  subst traced
  obtain ⟨-, -, -, -, fetched, executedEq, atDone⟩ :=
    steps_pc_invariant byteRuntime_parsesNonEmpty created run
  obtain ⟨lastIdx, -, executedAll⟩ := atDone vmDone finished
  exact ⟨vm₀, vm, vmDone, created, run, lastScript, fetched, executedEq, finished, lastIdx,
    executedAll⟩

end MassCore.Script.Engine
