import MassCore.Script.Basic
import MassCore.Script.Stack
import MassCore.Script.Engine
import MassCore.Script.StepSpec
import MassCore.Script.Run
import MassCore.Script.Termination
import MassCore.Script.Limits
import MassCore.Script.Witness
import MassCore.Script.Signature
import MassCore.Script.Safety
import MassCore.Script.Interpreter
import MassCore.Script.Staking
import MassCore.Blockchain.Challenge
import MassCore.Config.Registry
import MassCore.Database.DiskSpace
import MassCore.Database.Punishment
