import MassCore.Script.Stack

/-!
Contract: the script engine of `txscript/engine.go` as state passing. `Engine` is the
`Engine` struct; every method that changes it returns the new engine.

Owns: `NewEngine`, `validPC`, `executeOpcode`, `Step` (with the script-boundary code it
runs after the last opcode of a script, split into `endScript`, `enterWitness` and
`skipEmptyScript`), `verifyWitnessProgram`, `CheckErrorCondition` and `Execute`.

Does not own: the opcode table, `parseScript`, `makeScriptNum`, the hash, the script
builder's data push and the witness-program recognisers, none of which is part of these
sources; they are the fields of `Runtime`. Logging and disassembly have no effect on a
result and are left out.

Errors: a returned error is `Except.error`. `Step`'s documentation makes the engine
undefined after an error, so an error carries no engine, and `Step` drops the `done` flag it
returns beside an error, which `Execute` ignores as well.
-/

namespace MassCore.Script

/-- A transaction input. The engine reads only its witness. -/
structure TxIn where
  witness : List Bytes
deriving DecidableEq, Repr, Inhabited

/-- A `wire.MsgTx`. The engine reads only its inputs. -/
structure MsgTx where
  txIn : List TxIn
deriving DecidableEq, Repr, Inhabited

/-- The `Engine` struct. `sigCache` and `hashCache` are read by opcode functions only and
are left out. A nil `witnessProgram` is `none`. -/
structure Engine where
  scripts : List (List ParsedOpcode)
  scriptIdx : Nat
  scriptOff : Nat
  lastCodeSep : Nat
  dstack : Stack
  astack : Stack
  tx : MsgTx
  txIdx : Int
  condStack : List Int
  numOps : Nat
  flags : ScriptFlags
  witnessVersion : Int
  witnessProgram : Option Bytes
  witnessExtProg : List ParsedOpcode
  inputAmount : Int
deriving DecidableEq, Repr, Inhabited

/-- What the engine calls outside `engine.go`: the opcode table and opcode functions,
`parseScript`, `asBool`, SHA-256, `makeScriptNum`, the data push of the script builder,
the witness-program recognisers, and the constants. An opcode function may change any
part of the engine except the scripts and the program counter (`opfunc_pc`). -/
structure Runtime where
  parseScript : Bytes → Except ScriptError (List ParsedOpcode)
  isDisabled : ParsedOpcode → Bool
  alwaysIllegal : ParsedOpcode → Bool
  isConditional : ParsedOpcode → Bool
  checkMinimalDataPush : ParsedOpcode → Except ScriptError Unit
  opfunc : ParsedOpcode → Engine → Except ScriptError Engine
  asBool : Bytes → Bool
  sha256 : Bytes → Bytes
  makeScriptNum : Bytes → Bool → Nat → Except ScriptError Int
  addData : Bytes → Bytes
  isMASSWitnessProgram : List ParsedOpcode → Bool
  isWitnessProgram : List ParsedOpcode → Bool
  extractWitnessProgramInfo :
    List ParsedOpcode → Except ScriptError (Int × Option Bytes × List ParsedOpcode)
  maxScriptSize : Nat
  maxScriptElementSize : Nat
  maxOpsPerScript : Nat
  maxStackSize : Nat
  witnessV0FrozenPeriodDataSize : Nat
  massip0002BindingLockedPeriod : Nat
  scriptMASSip2 : ScriptFlags
  opfunc_pc : ∀ pop vm vm', opfunc pop vm = .ok vm' →
    vm'.scripts = vm.scripts ∧ vm'.scriptIdx = vm.scriptIdx ∧ vm'.scriptOff = vm.scriptOff

namespace Engine

/-! ## The zero engine `NewEngine` starts from -/

@[simp] theorem default_scriptIdx : (default : Engine).scriptIdx = 0 := rfl
@[simp] theorem default_scriptOff : (default : Engine).scriptOff = 0 := rfl
@[simp] theorem default_numOps : (default : Engine).numOps = 0 := rfl
@[simp] theorem default_condStack : (default : Engine).condStack = [] := rfl
@[simp] theorem default_dstack : (default : Engine).dstack = default := rfl
@[simp] theorem default_astack : (default : Engine).astack = default := rfl

/-! ## Reading the engine -/

/-- `hasFlag(flag)`. -/
def hasFlag (vm : Engine) (flag : ScriptFlags) : Bool := vm.flags &&& flag == flag

/-- `isBranchExecuting()`: no open conditional, or the innermost one is true. -/
def isBranchExecuting (vm : Engine) : Bool :=
  match vm.condStack.getLast? with
  | none => true
  | some top => top == opCondTrue

/-- `isWitnessVersionActive(version)`. Go's `uint(vm.witnessVersion)` is a bijection on
64-bit integers, so the comparison is one of integers. -/
def isWitnessVersionActive (vm : Engine) (version : Nat) : Bool :=
  vm.witnessProgram.isSome && vm.witnessVersion == version

/-- `vm.scripts[vm.scriptIdx]`, empty past the last script. -/
def currentScript (vm : Engine) : List ParsedOpcode := vm.scripts.getD vm.scriptIdx []

/-- `vm.scripts[vm.scriptIdx][vm.scriptOff]`, read by `Step` once `validPC` has passed. -/
def currentOpcode (vm : Engine) : ParsedOpcode := vm.currentScript.getD vm.scriptOff default

/-- `tx.TxIn[txIdx].Witness`, or `none` where Go panics on the index. -/
def inputWitness (vm : Engine) : Option (List Bytes) :=
  if 0 ≤ vm.txIdx then (vm.tx.txIn[vm.txIdx.toNat]?).map TxIn.witness else none

/-- `validPC()`: the program counter points into a script. -/
def validPC (vm : Engine) : Except ScriptError Unit :=
  if vm.scriptIdx ≥ vm.scripts.length then
    .error (.message ("past input scripts " ++ toString vm.scriptIdx ++ ":" ++
      toString vm.scriptOff ++ " " ++ toString vm.scripts.length ++ ":xxxx"))
  else if vm.scriptOff ≥ vm.currentScript.length then
    .error (.message ("past input scripts " ++ toString vm.scriptIdx ++ ":" ++
      toString vm.scriptOff ++ " " ++ toString vm.scriptIdx ++ ":" ++
      zeroPad4 vm.currentScript.length))
  else .ok ()

section Methods

variable (rt : Runtime)

/-! ## `executeOpcode` -/

/-- Lines 70-89 of `executeOpcode`: the checks made on every opcode, in an executing
branch or not, and the operation count. -/
def countOpcode (vm : Engine) (pop : ParsedOpcode) : Except ScriptError Engine :=
  if rt.isDisabled pop then .error .errStackOpDisabled
  else if rt.alwaysIllegal pop then .error .errStackReservedOpcode
  else if pop.opcode.value > op16 then
    if vm.numOps + 1 > rt.maxOpsPerScript then .error .errStackTooManyOperations
    else .ok { vm with numOps := vm.numOps + 1 }
  else if pop.data.length > rt.maxScriptElementSize then .error .errStackElementTooBig
  else .ok vm

/-- Lines 93-107 of `executeOpcode`: the opcode function runs in an executing branch, and
for a conditional. An executed data push is checked for minimal encoding first when
`verifyMinimalData` is set (`pop.opcode.value >= 0` holds of every byte). -/
def dispatchOpcode (vm : Engine) (pop : ParsedOpcode) : Except ScriptError Engine :=
  if !vm.isBranchExecuting && !rt.isConditional pop then .ok vm
  else if vm.dstack.verifyMinimalData && vm.isBranchExecuting &&
      pop.opcode.value ≤ opPushData4 then
    rt.checkMinimalDataPush pop >>= fun _ => rt.opfunc pop vm
  else rt.opfunc pop vm

/-- `executeOpcode(pop)`. -/
def executeOpcode (vm : Engine) (pop : ParsedOpcode) : Except ScriptError Engine :=
  countOpcode rt vm pop >>= fun vm => dispatchOpcode rt vm pop

/-! ## `verifyWitnessProgram` -/

/-- The script `NewScriptBuilder().AddData(buf).AddOp(OP_CHECKSEQUENCEVERIFY).AddOp(OP_DROP)`
builds: `AddOp` appends its opcode, and `Script()` reports no error for an 8-byte push and
two opcodes. -/
def lockScript (buf : Bytes) : Bytes := rt.addData buf ++ [opCheckSequenceVerify, opDrop]

/-- Lines 539-590 of `verifyWitnessProgram`: the lock script a staking program, or under
`ScriptMASSip2` a binding program, adds in front of the witness scripts. -/
def extProgScripts (vm : Engine) : Except ScriptError (List (List ParsedOpcode)) :=
  match vm.witnessExtProg with
  | [] => .ok []
  | [ext] =>
      if ext.data.length = rt.witnessV0FrozenPeriodDataSize then
        match rt.makeScriptNum ext.data vm.dstack.verifyMinimalData 9 with
        | .error err => .error err
        | .ok frozenPeriod =>
            if frozenPeriod < 0 ∨ int64Add frozenPeriod 1 < 0 then
              .error (.message ("invalid frozen period: " ++ toString frozenPeriod))
            else
              (rt.parseScript (lockScript rt (putUint64 (int64Add frozenPeriod 1).toNat))).map
                fun pops => [pops]
      else if ext.data.length = opData20.toNat ∨ ext.data.length = opData22.toNat then
        if vm.hasFlag rt.scriptMASSip2 then
          (rt.parseScript (lockScript rt (putUint64 rt.massip0002BindingLockedPeriod))).map
            fun pops => [pops]
        else .ok []
      else .error .errWitnessExtProgUnknown
  | _ => .error .errWitnessExtProgUnknown

/-- Lines 592-608 of `verifyWitnessProgram`: each witness script, in order, is size checked,
parsed and appended to the scripts. -/
def appendWitnessScripts (vm : Engine) : List Bytes → Except ScriptError Engine
  | [] => .ok vm
  | script :: rest =>
      if script.length > rt.maxScriptSize then .error .errScriptTooBig
      else match rt.parseScript script with
        | .error err => .error err
        | .ok pops => appendWitnessScripts { vm with scripts := vm.scripts ++ [pops] } rest

/-- `verifyWitnessProgram(witness)`. -/
def verifyWitnessProgram (vm : Engine) (witness : List Bytes) : Except ScriptError Engine :=
  if !vm.isWitnessVersionActive 0 then .error .errDiscourageUpgradableWitnessProgram
  else if witness.length ≠ 2 then .error .errWitnessLength
  else if (witness.getD 0 []).length = 0 ∨ (witness.getD 1 []).length = 0 then
    .error .errWitnessLength
  else if rt.sha256 (witness.getD 1 []) ≠ vm.witnessProgram.getD [] then
    .error .errWitnessProgramMismatch
  else
    extProgScripts rt vm >>= fun lock =>
    appendWitnessScripts rt { vm with scripts := vm.scripts ++ lock } witness >>= fun vm =>
    if (getStack vm.dstack).any fun element => element.length > rt.maxScriptElementSize then
      .error .errStackElementTooBig
    else .ok vm

/-! ## `Step` -/

/-- Lines 280-287 of `Step`: skip one zero-length script, reset `lastCodeSep`, and report
`done` when no script is left. -/
def skipEmptyScript (vm : Engine) : Bool × Engine :=
  let vm := if vm.scriptIdx < vm.scripts.length ∧ vm.scriptOff ≥ vm.currentScript.length
    then { vm with scriptIdx := vm.scriptIdx + 1 } else vm
  let vm := { vm with lastCodeSep := 0 }
  (decide (vm.scriptIdx ≥ vm.scripts.length), vm)

/-- Lines 249-258 of `Step`: after the first script of a witness program the data stack
must hold two or three items; it is emptied and the input's witness is verified. -/
def enterWitness (vm : Engine) : Except Failure Engine :=
  let vm := { vm with scriptIdx := vm.scriptIdx + 1 }
  if vm.dstack.depth ≠ 2 ∧ vm.dstack.depth ≠ 3 then .error (.error .errStackUnderflow)
  else
    let vm := { vm with dstack := vm.dstack.dropN vm.dstack.depth }
    match vm.inputWitness with
    | none => .error .panic
    | some witness => (verifyWitnessProgram rt vm witness).mapError .error

/-- Lines 244-247 of `Step`: the alt stack does not persist, the operation count is per
script, and the next script starts at offset 0. -/
def resetScript (vm : Engine) : Engine :=
  { vm with astack := vm.astack.dropN vm.astack.depth, numOps := 0, scriptOff := 0 }

/-- Lines 239-287 of `Step`, run after the last opcode of a script. -/
def endScript (vm : Engine) : Except Failure (Bool × Engine) :=
  if vm.condStack.length ≠ 0 then .error (.error .errStackMissingEndif)
  else if vm.scriptIdx = 0 ∧ vm.witnessProgram.isSome then
    (enterWitness rt vm.resetScript).map skipEmptyScript
  else .ok (skipEmptyScript { vm.resetScript with scriptIdx := vm.scriptIdx + 1 })

/-- Lines 220-290 of `Step`: the counter moves on, the fetched opcode `pop` is executed, the
two stacks are bounded, and after the last opcode of a script the boundary code runs. -/
def stepFetched (vm : Engine) (pop : ParsedOpcode) : Except Failure (Bool × Engine) :=
  match executeOpcode rt { vm with scriptOff := vm.scriptOff + 1 } pop with
  | .error err => .error (.error err)
  | .ok vm =>
      if vm.dstack.depth + vm.astack.depth > rt.maxStackSize then
        .error (.error .errStackOverflow)
      else if vm.scriptOff ≥ vm.currentScript.length then endScript rt vm
      else .ok (false, vm)

/-- Lines 215-219 of `Step`: `validPC()`, then the opcode
`vm.scripts[vm.scriptIdx][vm.scriptOff]` at the program counter. -/
def fetchOpcode (vm : Engine) : Except ScriptError ParsedOpcode :=
  vm.validPC.map fun () => vm.currentOpcode

/-- `Step()`: fetch the opcode at the program counter, execute it and move the counter on,
to the next script after the last opcode of a script. The `Bool` is `done`. -/
def step (vm : Engine) : Except Failure (Bool × Engine) :=
  match fetchOpcode vm with
  | .error err => .error (.error err)
  | .ok pop => stepFetched rt vm pop

/-! ## `CheckErrorCondition` and `Execute` -/

/-- `CheckErrorCondition(finalScript)`: every script has run and the data stack ends in a
true item, the only item when `finalScript`. Returns the engine with that item popped. -/
def checkErrorCondition (vm : Engine) (finalScript : Bool) : Except ScriptError Engine :=
  if vm.scriptIdx < vm.scripts.length then .error .errStackScriptUnfinished
  else if finalScript && vm.dstack.depth != 1 then .error .errStackCleanStack
  else if vm.dstack.depth < 1 then .error .errStackEmptyStack
  else match vm.dstack.popBool rt.asBool with
    | .error err => .error err
    | .ok (value, dstack) =>
        if !value then .error .errStackScriptFailed else .ok { vm with dstack }

/-- `Execute()` for at most `fuel` calls of `Step`; `none` when the fuel runs out. The
engine returned is the one `CheckErrorCondition(true)` leaves. -/
def execute : Nat → Engine → Option (Except Failure Engine)
  | 0, _ => none
  | fuel + 1, vm =>
      match step rt vm with
      | .error failure => some (.error failure)
      | .ok (false, vm) => execute fuel vm
      | .ok (true, vm) => some ((checkErrorCondition rt vm true).mapError .error)

end Methods

end Engine

/-- `NewEngine(pkScript, tx, txIdx, flags, sigCache, hashCache, inputAmount)`: check the
input index, parse the public key script, and read its witness program. -/
def newEngine (rt : Runtime) (pkScript : Bytes) (tx : MsgTx) (txIdx : Int)
    (flags : ScriptFlags) (inputAmount : Int) : Except ScriptError Engine :=
  if txIdx < 0 ∨ txIdx ≥ tx.txIn.length then .error .errStackInvalidIndex
  else if pkScript.length = 0 then .error .errWitnessUnexpected
  else if pkScript.length > rt.maxScriptSize then .error .errScriptTooBig
  else rt.parseScript pkScript >>= fun script =>
    let vm : Engine := { (default : Engine) with flags, inputAmount, scripts := [script] }
    let withProgram : Except ScriptError Engine :=
      if rt.isMASSWitnessProgram script || rt.isWitnessProgram script then
        rt.extractWitnessProgramInfo script >>= fun (version, program, extProg) =>
          if program.isNone ∧ (tx.txIn.getD txIdx.toNat default).witness.length ≠ 0 then
            .error .errWitnessUnexpected
          else .ok { vm with
            witnessVersion := version, witnessProgram := program, witnessExtProg := extProg }
      else .ok vm
    withProgram.map fun vm => { vm with tx, txIdx }

end MassCore.Script
