import MassCore.Script.Run

/-!
Contract: `Execute`'s loop ends.

`verifyWitnessProgram` appends scripts in the middle of a run, so the number of opcodes
left can grow. It does so only at the end of script 0, and the script index never comes
back to 0; a lexicographic measure whose first component is `1` while the index is `0`
therefore drops at every `Step` that returns `(false, nil)`, whatever the opcode functions
do. The measure with `1` only while the index is `0` and a witness program is set drops as
well when the opcode functions leave the witness program alone, and may grow otherwise.
-/

namespace MassCore.Script.Engine

variable {rt : Runtime} {vm vm' : Engine} {done : Bool}

/-- The opcodes from the program counter to the end of the last script. -/
def opcodesLeft (vm : Engine) : Nat :=
  ((vm.scripts.drop vm.scriptIdx).map List.length).sum - vm.scriptOff

/-- The measure that drops at every `Step` returning `(false, nil)`. -/
def stepMeasure (vm : Engine) : Nat × Nat :=
  (if vm.scriptIdx = 0 then 1 else 0, vm.opcodesLeft)

/-- The measure with the witness program in its first component. -/
def executeMeasure (vm : Engine) : Nat × Nat :=
  (if vm.scriptIdx = 0 ∧ vm.witnessProgram.isSome then 1 else 0, vm.opcodesLeft)

theorem sum_drop_eq {scripts : List (List ParsedOpcode)} {idx : Nat}
    (inRange : idx < scripts.length) :
    ((scripts.drop idx).map List.length).sum =
      (scripts.getD idx []).length + ((scripts.drop (idx + 1)).map List.length).sum := by
  rw [List.drop_eq_getElem_cons inRange, List.getD_eq_getElem?_getD,
    List.getElem?_eq_getElem inRange, List.map_cons, List.sum_cons]
  rfl

theorem sum_drop_le_of_le (scripts : List (List ParsedOpcode)) {idx idx' : Nat}
    (later : idx ≤ idx') :
    ((scripts.drop idx').map List.length).sum ≤ ((scripts.drop idx).map List.length).sum := by
  obtain ⟨gap, rfl⟩ := Nat.exists_eq_add_of_le later
  rw [← List.drop_drop]
  exact List.Sublist.sum_le_sum ((List.drop_sublist _ _).map _) (fun _ _ => Nat.zero_le _)

/-- Scripts are appended only at the end of script 0, and only with a witness program. -/
theorem step_scripts_eq (stepped : step rt vm = .ok (done, vm'))
    (noWitness : vm'.scriptIdx = vm.scriptIdx ∨ vm.scriptIdx ≠ 0 ∨ vm'.witnessProgram = none) :
    vm'.scripts = vm.scripts := by
  obtain ⟨-, -, ⟨-, -, scriptsEq, -⟩ | ⟨-, -, idxNext, -, appended, scriptsEq, fromFirst, -⟩⟩ :=
    step_advance stepped
  · exact scriptsEq
  · rw [scriptsEq, List.append_right_eq_self]
    by_contra nonEmpty
    obtain ⟨first, hasProgram⟩ := fromFirst nonEmpty
    have later := lt_nextScriptIdx vm'.scripts vm.scriptIdx
    rcases noWitness with same | notFirst | none
    · omega
    · exact notFirst first
    · simp [none] at hasProgram

/-- When no script is appended, the opcodes left drop. -/
theorem opcodesLeft_lt (stepped : step rt vm = .ok (false, vm'))
    (kept : vm'.scripts = vm.scripts) :
    vm'.opcodesLeft < vm.opcodesLeft := by
  obtain ⟨idxLt, offLt, continues | ⟨atEnd, offZero, idxNext, -⟩⟩ := step_advance stepped
  · obtain ⟨-, -, -, idxEq, offEq⟩ := continues
    have whole := sum_drop_eq idxLt
    rw [opcodesLeft, opcodesLeft, kept, idxEq, offEq]
    unfold currentScript at offLt
    omega
  · have whole := sum_drop_eq idxLt
    have rest := sum_drop_le_of_le vm.scripts
      (show vm.scriptIdx + 1 ≤ vm'.scriptIdx from idxNext ▸ lt_nextScriptIdx _ _)
    rw [opcodesLeft, opcodesLeft, kept, offZero]
    unfold currentScript at atEnd
    omega

/-- Every `Step` returning `(false, nil)` lowers `stepMeasure`. -/
theorem stepMeasure_lt (stepped : step rt vm = .ok (false, vm')) :
    Prod.Lex (· < ·) (· < ·) (stepMeasure vm') (stepMeasure vm) := by
  have later := step_scriptIdx_le stepped
  by_cases crossed : vm.scriptIdx = 0 ∧ vm'.scriptIdx ≠ 0
  · exact .left _ _ (by simp [stepMeasure, crossed.1, crossed.2])
  · have sameFirst : (vm'.scriptIdx = 0) ↔ (vm.scriptIdx = 0) := by omega
    have kept := step_scripts_eq stepped (by omega)
    simp only [stepMeasure, sameFirst]
    exact .right _ (opcodesLeft_lt stepped kept)

/-- Opcode functions that leave the witness program alone. -/
def KeepsWitnessProgram (rt : Runtime) : Prop :=
  ∀ pop vm vm', rt.opfunc pop vm = .ok vm' → vm'.witnessProgram = vm.witnessProgram

theorem step_witnessProgram (keeps : KeepsWitnessProgram rt)
    (stepped : step rt vm = .ok (false, vm')) :
    vm'.witnessProgram = vm.witnessProgram := by
  obtain ⟨executed, executedOk, sameInput⟩ := step_witnessInput stepped
  obtain ⟨counted, countedOk, skippedOrRan⟩ := executeOpcode_cases executedOk
  have countedInput := countOpcode_witnessInput countedOk
  have fromExecuted : vm'.witnessProgram = executed.witnessProgram :=
    congrArg (fun input => input.2.2.2.1) sameInput
  have fromCounted : counted.witnessProgram = vm.witnessProgram :=
    congrArg (fun input => input.2.2.2.1) countedInput
  rcases skippedOrRan with rfl | ran
  · exact fromExecuted.trans fromCounted
  · exact fromExecuted.trans ((keeps _ _ _ ran).trans fromCounted)

/-- With opcode functions that leave the witness program alone, every `Step` returning
`(false, nil)` lowers `executeMeasure`. -/
theorem executeMeasure_lt (keeps : KeepsWitnessProgram rt)
    (stepped : step rt vm = .ok (false, vm')) :
    Prod.Lex (· < ·) (· < ·) (executeMeasure vm') (executeMeasure vm) := by
  have later := step_scriptIdx_le stepped
  have sameProgram := step_witnessProgram keeps stepped
  by_cases crossed : vm.scriptIdx = 0 ∧ vm.witnessProgram.isSome ∧ vm'.scriptIdx ≠ 0
  · exact .left _ _ (by simp [executeMeasure, crossed.1, crossed.2.1, crossed.2.2])
  · have sameFirst : (vm'.scriptIdx = 0 ∧ vm'.witnessProgram.isSome) ↔
        (vm.scriptIdx = 0 ∧ vm.witnessProgram.isSome) := by
      rw [sameProgram]
      refine and_congr_left fun hasProgram => ?_
      simp only [hasProgram, true_and] at crossed
      omega
    have kept := step_scripts_eq stepped (by
      cases program : vm.witnessProgram with
      | none => exact .inr (.inr (sameProgram.trans program))
      | some _ =>
          simp only [program, Option.isSome_some, true_and] at crossed
          by_cases first : vm.scriptIdx = 0
          · exact .inl (by omega)
          · exact .inr (.inl first))
    simp only [executeMeasure, sameFirst]
    exact .right _ (opcodesLeft_lt stepped kept)

/-- `Execute`'s loop ends from every engine: some amount of fuel makes `execute` return. -/
theorem execute_isSome (vm : Engine) : ∃ fuel, (execute rt fuel vm).isSome := by
  induction vm using (InvImage.wf stepMeasure
      (WellFounded.prod_lex wellFounded_lt wellFounded_lt)).induction with
  | h vm inductionHypothesis =>
      cases stepped : step rt vm with
      | error failure => exact ⟨1, by simp [execute, stepped]⟩
      | ok result =>
          obtain ⟨done, vm'⟩ := result
          cases done with
          | true => exact ⟨1, by simp [execute, stepped]⟩
          | false =>
              obtain ⟨fuel, returned⟩ := inductionHypothesis vm' (stepMeasure_lt stepped)
              exact ⟨fuel + 1, by simpa [execute, stepped] using returned⟩

/-- `Execute` ends after finitely many `Step` calls. Every `Step` that returns
`(false, nil)` lowers `(1 if scriptIdx = 0 else 0, opcodes left)`, and, when the opcode
functions leave the witness program alone, also
`(1 if scriptIdx = 0 and a witness program is set else 0, opcodes left)`. -/
theorem execute_terminates :
    (∀ vm : Engine, ∃ fuel, (execute rt fuel vm).isSome) ∧
    (∀ vm vm' : Engine, step rt vm = .ok (false, vm') →
      Prod.Lex (· < ·) (· < ·) (stepMeasure vm') (stepMeasure vm)) ∧
    (KeepsWitnessProgram rt → ∀ vm vm' : Engine, step rt vm = .ok (false, vm') →
      Prod.Lex (· < ·) (· < ·) (executeMeasure vm') (executeMeasure vm)) :=
  ⟨execute_isSome, fun _ _ => stepMeasure_lt, fun keeps _ _ => executeMeasure_lt keeps⟩

theorem pushRuntime_keepsWitnessProgram : KeepsWitnessProgram pushRuntime := by
  intro pop vm vm' ran
  cases ran
  rfl

theorem execute_terminates_push :
    KeepsWitnessProgram pushRuntime ∧
      ∀ vm vm' : Engine, step pushRuntime vm = .ok (false, vm') →
        Prod.Lex (· < ·) (· < ·) (executeMeasure vm') (executeMeasure vm) :=
  ⟨pushRuntime_keepsWitnessProgram, execute_terminates.2.2 pushRuntime_keepsWitnessProgram⟩

/-- Opcode functions that set a witness program. -/
def programRuntime : Runtime :=
  byteRuntime (fun _ vm => .ok { vm with witnessProgram := some [] })
    (by intro _ _ _ ran; cases ran; simp)

/-- An opcode function that sets a witness program in the middle of script 0 raises
`executeMeasure`, from `(0, 2)` to `(1, 1)`. -/
theorem executeMeasure_grows :
    ∃ vm₀ vm₁, newEngine programRuntime [0x61, 0x61] ⟨[⟨[]⟩]⟩ 0 0 0 = .ok vm₀ ∧
      step programRuntime vm₀ = .ok (false, vm₁) ∧
      ¬ Prod.Lex (· < ·) (· < ·) (executeMeasure vm₁) (executeMeasure vm₀) := by
  refine ⟨_, _, rfl, rfl, ?_⟩
  decide

end MassCore.Script.Engine
