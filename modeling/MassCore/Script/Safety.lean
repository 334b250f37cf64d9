import MassCore.Script.Witness

/-!
Contract: the read `tx.TxIn[txIdx]` of the witness branch of `Step` stays in range along
every run from `NewEngine`.

That read (`enterWitness`) is the one index of `Step`'s own code that can go past the end
of a slice: it does when `txIdx` is out of range. `NewEngine` checks the index, and `Step`
never writes `tx` or `txIdx`, so from a new engine the read stays in range along every run
as long as the opcode functions leave both alone. One that moves `txIdx` past the inputs
makes `Execute` panic.

Owns: where `Step` can panic (`step_eq_panic`), the input read along a run, and that
`Execute` never ends in that panic.

Does not own: panics inside opcode functions, such as the read past the end of a signature
in `checkSignatureEncoding`. The opcode functions are a parameter of the model that returns
an engine or a script error.
-/

namespace MassCore.Script.Engine

variable {rt : Runtime} {vm vm' vm₀ : Engine} {pop : ParsedOpcode} {done : Bool}

/-- Opcode functions that leave the transaction and the input index alone. -/
def KeepsInput (rt : Runtime) : Prop :=
  ∀ pop vm vm', rt.opfunc pop vm = .ok vm' → vm'.tx = vm.tx ∧ vm'.txIdx = vm.txIdx

theorem KeepsWitnessInput.keepsInput (keeps : KeepsWitnessInput rt) : KeepsInput rt := by
  intro pop vm vm' ran
  obtain ⟨sameTx, sameIdx, -⟩ := witnessInput_eq_iff.mp (keeps pop vm vm' ran)
  exact ⟨sameTx, sameIdx⟩

theorem inputWitness_eq_of (sameTx : vm'.tx = vm.tx) (sameIdx : vm'.txIdx = vm.txIdx) :
    vm'.inputWitness = vm.inputWitness := by
  simp only [inputWitness, sameTx, sameIdx]

theorem executeOpcode_inputWitness (keeps : KeepsInput rt)
    (opcodeRan : executeOpcode rt vm pop = .ok vm') : vm'.inputWitness = vm.inputWitness := by
  obtain ⟨counted, countedOk, rfl | ran⟩ := executeOpcode_cases opcodeRan
  · exact inputWitness_eq_of_witnessInput (countOpcode_witnessInput countedOk)
  · obtain ⟨sameTx, sameIdx⟩ := keeps _ _ _ ran
    exact (inputWitness_eq_of sameTx sameIdx).trans
      (inputWitness_eq_of_witnessInput (countOpcode_witnessInput countedOk))

/-- The input `Step` reads stays the one it was. -/
theorem step_inputWitness (keeps : KeepsInput rt) (stepped : step rt vm = .ok (done, vm')) :
    vm'.inputWitness = vm.inputWitness := by
  obtain ⟨executed, executedOk, sameInput⟩ := step_witnessInput stepped
  exact (inputWitness_eq_of_witnessInput sameInput).trans
    (executeOpcode_inputWitness keeps executedOk :)

/-! ## Where `Step` panics -/

/-- A returned error is never a panic. -/
theorem mapError_error_ne_panic {α : Type} (x : Except ScriptError α) :
    x.mapError Failure.error ≠ .error .panic := by
  cases x <;> simp [Except.mapError]

theorem enterWitness_eq_panic (panicked : enterWitness rt vm = .error .panic) :
    vm.inputWitness = none := by
  unfold enterWitness at panicked
  dsimp only at panicked
  split_ifs at panicked
  · cases panicked
  · split at panicked
    · assumption
    · exact absurd panicked (mapError_error_ne_panic _)

theorem endScript_eq_panic (panicked : endScript rt vm = .error .panic) :
    vm.inputWitness = none := by
  unfold endScript at panicked
  split_ifs at panicked
  · cases panicked
  · cases entered : enterWitness rt vm.resetScript with
    | error failure =>
        rw [entered] at panicked
        cases panicked
        exact (enterWitness_eq_panic entered :)
    | ok _ => rw [entered] at panicked; cases panicked

/-- `Step` panics only in the witness branch, on an input index past the inputs. -/
theorem step_eq_panic (panicked : step rt vm = .error .panic) :
    ∃ executed, executeOpcode rt { vm with scriptOff := vm.scriptOff + 1 } vm.currentOpcode =
      .ok executed ∧ executed.inputWitness = none := by
  unfold step at panicked
  split at panicked
  · cases panicked
  · rename_i fetched
    rw [(fetchOpcode_eq_ok.mp fetched).2] at panicked
    unfold stepFetched at panicked
    split at panicked
    · cases panicked
    · rename_i executed executedOk
      split_ifs at panicked
      · cases panicked
      · exact ⟨executed, executedOk, endScript_eq_panic panicked⟩

theorem step_ne_panic (keeps : KeepsInput rt) (found : vm.inputWitness.isSome) :
    step rt vm ≠ .error .panic := by
  intro panicked
  obtain ⟨executed, executedOk, missing⟩ := step_eq_panic panicked
  rw [executeOpcode_inputWitness keeps executedOk] at missing
  exact Option.isSome_iff_ne_none.mp found missing

/-! ## A whole run -/

theorem Steps.inputWitness_eq (keeps : KeepsInput rt) {executed : List ParsedOpcode}
    (run : Steps rt vm₀ executed vm) : vm.inputWitness = vm₀.inputWitness := by
  induction run with
  | refl => rfl
  | tail _ _ stepped inductionHypothesis =>
      exact (step_inputWitness keeps stepped).trans inductionHypothesis

/-- From an engine whose input exists, `Execute` never panics, with any amount of fuel. -/
theorem execute_ne_panic (keeps : KeepsInput rt) :
    ∀ (fuel : Nat) (vm : Engine), vm.inputWitness.isSome →
      execute rt fuel vm ≠ some (.error .panic)
  | 0, _, _ => nofun
  | fuel + 1, vm, found => by
      cases stepped : step rt vm with
      | error failure =>
          simp only [execute, stepped, ne_eq, Option.some.injEq, Except.error.injEq]
          rintro rfl
          exact step_ne_panic keeps found stepped
      | ok result =>
          obtain ⟨done, vm'⟩ := result
          cases done with
          | false =>
              simp only [execute, stepped]
              exact execute_ne_panic keeps fuel vm' (step_inputWitness keeps stepped ▸ found)
          | true =>
              simp only [execute, stepped, ne_eq, Option.some.injEq]
              exact mapError_error_ne_panic _

theorem newEngine_inputWitness_isSome {pkScript : Bytes} {tx : MsgTx} {txIdx : Int}
    {flags : ScriptFlags} {inputAmount : Int}
    (created : newEngine rt pkScript tx txIdx flags inputAmount = .ok vm₀) :
    vm₀.inputWitness.isSome := by
  obtain ⟨nonNegative, inRange, -, -, -, -, -, -, rfl⟩ := newEngine_eq_ok created
  simp [inputWitness, nonNegative, List.getElem?_eq_getElem (show txIdx.toNat < tx.txIn.length
    by omega)]

/-- For opcode functions that leave `tx` and `txIdx` alone, the input `tx.TxIn[txIdx]` that
the witness branch of `Step` reads is in range in every state a run from `NewEngine`
reaches, so no `Step` of the run panics on it; and `Execute`, with any amount of fuel, never
ends in that panic. -/
theorem execute_reads_input_in_range (keeps : KeepsInput rt) {pkScript : Bytes} {tx : MsgTx}
    {txIdx : Int} {flags : ScriptFlags} {inputAmount : Int}
    (created : newEngine rt pkScript tx txIdx flags inputAmount = .ok vm₀) :
    (∀ executed vm, Steps rt vm₀ executed vm →
      vm.inputWitness.isSome ∧ step rt vm ≠ .error .panic) ∧
    ∀ fuel, execute rt fuel vm₀ ≠ some (.error .panic) := by
  have found := newEngine_inputWitness_isSome created
  refine ⟨fun executed vm run => ?_, fun fuel => execute_ne_panic keeps fuel vm₀ found⟩
  have foundNow : vm.inputWitness.isSome := (run.inputWitness_eq keeps).symm ▸ found
  exact ⟨foundNow, step_ne_panic keeps foundNow⟩

theorem execute_reads_input_in_range_pushDrop :
    KeepsInput pushDropRuntime ∧
      ∃ vm₀, newEngine pushDropRuntime [0x00, 0x51] ⟨[⟨[[0x75], [0x51]]⟩]⟩ 0 0 0 = .ok vm₀ ∧
        vm₀.inputWitness.isSome ∧
        ∀ fuel, execute pushDropRuntime fuel vm₀ ≠ some (.error .panic) := by
  obtain ⟨vm₀, created⟩ : ∃ vm₀,
      newEngine pushDropRuntime [0x00, 0x51] ⟨[⟨[[0x75], [0x51]]⟩]⟩ 0 0 0 = .ok vm₀ := ⟨_, rfl⟩
  have keeps := KeepsWitnessInput.keepsInput pushDropRuntime_keepsWitnessInput
  obtain ⟨inRun, neverPanics⟩ := execute_reads_input_in_range keeps created
  exact ⟨keeps, vm₀, created, (inRun [] vm₀ .refl).1, neverPanics⟩

/-- An opcode function that moves `txIdx` past the inputs makes `Execute` panic in the witness
branch. -/
theorem execute_panics_on_moved_input :
    ∃ vm₀, newEngine moveInputRuntime [0x00, 0x51] ⟨[⟨[[0x75], [0x51]]⟩]⟩ 0 0 0 = .ok vm₀ ∧
      execute moveInputRuntime 4 vm₀ = some (.error .panic) :=
  ⟨_, rfl, rfl⟩

end MassCore.Script.Engine
