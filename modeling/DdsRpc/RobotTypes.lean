import DdsRpc.Connext
import Mathlib.Data.Rat.Defs
set_option autoImplicit false

/-! The types of robot.idl. A generated union has a discriminator and every one of its
members; what selects a member is the code that reads it. -/

namespace DdsRpc
open Connext

inductive Speed where
  | finite (q : ℚ)
  | posInf
  | negInf
  | nan
  deriving DecidableEq

/-- The enumerators are names of values; a request can hold any value. -/
structure Command where
  value : Int32
  deriving DecidableEq

@[match_pattern] def Command.start : Command := ⟨0⟩
@[match_pattern] def Command.stop : Command := ⟨1⟩

/-- `msg` may be a null pointer. -/
structure Status where
  msg : Option String
  deriving DecidableEq

structure TooFast where
  dummy : UInt8
  deriving DecidableEq

structure RobotControlCommandIn where
  com : Command
  deriving DecidableEq

structure RobotControlSetSpeedIn where
  speed : Speed
  deriving DecidableEq

structure RobotControlGetSpeedIn where
  dummy : UInt8
  deriving DecidableEq

structure RobotControlGetStatusIn where
  dummy : UInt8
  deriving DecidableEq

def commandHash : Int32 := 1
def setSpeedHash : Int32 := 2
def getSpeedHash : Int32 := 3
def getStatusHash : Int32 := 4
def tooFastExHash : Int32 := 0xAFED

structure RobotControlCall where
  d : Int32
  unknownOp : UInt8
  command : RobotControlCommandIn
  setSpeed : RobotControlSetSpeedIn
  getSpeed : RobotControlGetSpeedIn
  getStatus : RobotControlGetStatusIn
  deriving DecidableEq

structure RobotControlCommandOut where
  dummy : UInt8
  deriving DecidableEq

structure RobotControlSetSpeedOut where
  return_ : Speed
  deriving DecidableEq

structure RobotControlGetSpeedOut where
  return_ : Speed
  deriving DecidableEq

structure RobotControlGetStatusOut where
  status : Status
  deriving DecidableEq

structure RobotControlCommandResult where
  d : Int32
  unknownEx : UInt8
  result : RobotControlCommandOut
  deriving DecidableEq

structure RobotControlSetSpeedResult where
  d : Int32
  unknownEx : UInt8
  result : RobotControlSetSpeedOut
  toofastEx : TooFast
  deriving DecidableEq

structure RobotControlGetSpeedResult where
  d : Int32
  unknownEx : UInt8
  result : RobotControlGetSpeedOut
  deriving DecidableEq

structure RobotControlGetStatusResult where
  d : Int32
  unknownEx : UInt8
  result : RobotControlGetStatusOut
  deriving DecidableEq

structure RobotControlReturn where
  d : Int32
  unknownOp : UInt8
  command : RobotControlCommandResult
  setSpeed : RobotControlSetSpeedResult
  getSpeed : RobotControlGetSpeedResult
  getStatus : RobotControlGetStatusResult
  deriving DecidableEq

abbrev RobotControlRequest := Request RobotControlCall
abbrev RobotControlReply := Reply RobotControlReturn

def remoteExOk : Int32 := RemoteExceptionCode.ok.value

/-- The wire carries a discriminator and the member it selects. The receiver deserializes
into a datum of its own, whose other members keep what `create_data` gave them. -/
def RobotControlCall.deserialize (created sent : RobotControlCall) : RobotControlCall :=
  if sent.d = commandHash then { created with d := sent.d, command := sent.command }
  else if sent.d = setSpeedHash then { created with d := sent.d, setSpeed := sent.setSpeed }
  else if sent.d = getSpeedHash then { created with d := sent.d, getSpeed := sent.getSpeed }
  else if sent.d = getStatusHash then { created with d := sent.d, getStatus := sent.getStatus }
  else { created with d := sent.d, unknownOp := sent.unknownOp }

def RobotControlCommandResult.deserialize (created sent : RobotControlCommandResult) :
    RobotControlCommandResult :=
  if sent.d = remoteExOk then { created with d := sent.d, result := sent.result }
  else { created with d := sent.d, unknownEx := sent.unknownEx }

def RobotControlSetSpeedResult.deserialize (created sent : RobotControlSetSpeedResult) :
    RobotControlSetSpeedResult :=
  if sent.d = remoteExOk then { created with d := sent.d, result := sent.result }
  else if sent.d = tooFastExHash then { created with d := sent.d, toofastEx := sent.toofastEx }
  else { created with d := sent.d, unknownEx := sent.unknownEx }

def RobotControlGetSpeedResult.deserialize (created sent : RobotControlGetSpeedResult) :
    RobotControlGetSpeedResult :=
  if sent.d = remoteExOk then { created with d := sent.d, result := sent.result }
  else { created with d := sent.d, unknownEx := sent.unknownEx }

def RobotControlGetStatusResult.deserialize (created sent : RobotControlGetStatusResult) :
    RobotControlGetStatusResult :=
  if sent.d = remoteExOk then { created with d := sent.d, result := sent.result }
  else { created with d := sent.d, unknownEx := sent.unknownEx }

def RobotControlReturn.deserialize (created sent : RobotControlReturn) : RobotControlReturn :=
  if sent.d = commandHash then
    { created with d := sent.d, command := created.command.deserialize sent.command }
  else if sent.d = setSpeedHash then
    { created with d := sent.d, setSpeed := created.setSpeed.deserialize sent.setSpeed }
  else if sent.d = getSpeedHash then
    { created with d := sent.d, getSpeed := created.getSpeed.deserialize sent.getSpeed }
  else if sent.d = getStatusHash then
    { created with d := sent.d, getStatus := created.getStatus.deserialize sent.getStatus }
  else { created with d := sent.d, unknownOp := sent.unknownOp }

/-- The generated code as far as the program sees it: what `create_data` makes, and the
info of a `Sample` that nothing has been received into. -/
structure TypeSupport where
  createRequest : RobotControlRequest
  createReply : RobotControlReply
  createInfo : SampleInfo

namespace TypeSupport

/-- Every member zero, every string empty. -/
def zero : TypeSupport where
  createRequest :=
    { header := .initial
      data :=
        { d := 0, unknownOp := 0, command := ⟨.start⟩, setSpeed := ⟨.finite 0⟩, getSpeed := ⟨0⟩,
          getStatus := ⟨0⟩ } }
  createReply :=
    { header := ⟨RequestHeader.initial.requestId,.ok⟩
      data :=
        { d := 0, unknownOp := 0, command := ⟨0,0,⟨0⟩⟩, setSpeed := ⟨0,0,⟨.finite 0⟩,⟨0⟩⟩,
          getSpeed := ⟨0,0,⟨.finite 0⟩⟩, getStatus := ⟨0,0,⟨⟨some ""⟩⟩⟩ } }
  createInfo := ⟨false,⟨⟨.zero 16⟩,⟨0,0⟩⟩,⟨⟨.zero 16⟩,⟨0,0⟩⟩,0⟩

def requestSample (ts : TypeSupport) : Sample RobotControlRequest :=
  ⟨ts.createRequest,ts.createInfo⟩

def replySample (ts : TypeSupport) : Sample RobotControlReply := ⟨ts.createReply,ts.createInfo⟩

def receivedRequest (ts : TypeSupport) (sent : RobotControlRequest) : RobotControlRequest :=
  { header := sent.header, data := ts.createRequest.data.deserialize sent.data }

def receivedReply (ts : TypeSupport) (sent : RobotControlReply) : RobotControlReply :=
  { header := sent.header, data := ts.createReply.data.deserialize sent.data }

end TypeSupport

inductive Call where
  | command (com : Command)
  | setSpeed (speed : Speed)
  | getSpeed
  | getStatus
  deriving DecidableEq

@[reducible] def Call.Result : Call → Type
  | .command _ => Unit
  | .setSpeed _ | .getSpeed => Speed
  | .getStatus => Status

def RobotControlCall.selected (c : RobotControlCall) : Option Call :=
  if c.d = commandHash then some (.command c.command.com)
  else if c.d = setSpeedHash then some (.setSpeed c.setSpeed.speed)
  else if c.d = getSpeedHash then some .getSpeed
  else if c.d = getStatusHash then some .getStatus
  else none

def operationHashes : List Int32 := [commandHash,setSpeedHash,getSpeedHash,getStatusHash]

theorem RobotControlCall.selected_eq_none {c : RobotControlCall} :
    c.selected = none ↔ c.d ∉ operationHashes := by
  unfold selected operationHashes
  split_ifs <;> simp_all

inductive RobotControlCall.Selects (c : RobotControlCall) : Option Call → Prop where
  | command : c.d = commandHash → Selects c (some (.command c.command.com))
  | setSpeed : c.d = setSpeedHash → Selects c (some (.setSpeed c.setSpeed.speed))
  | getSpeed : c.d = getSpeedHash → Selects c (some .getSpeed)
  | getStatus : c.d = getStatusHash → Selects c (some .getStatus)
  | none : c.d ≠ commandHash → c.d ≠ setSpeedHash → c.d ≠ getSpeedHash →
      c.d ≠ getStatusHash → Selects c none

theorem RobotControlCall.selects (c : RobotControlCall) : c.Selects c.selected := by
  unfold selected
  split_ifs with h₁ h₂ h₃ h₄
  · exact .command h₁
  · exact .setSpeed h₂
  · exact .getSpeed h₃
  · exact .getStatus h₄
  · exact .none h₁ h₂ h₃ h₄

@[simp] theorem RobotControlCall.selected_deserialize (created sent : RobotControlCall) :
    (created.deserialize sent).selected = sent.selected := by
  have h := sent.selects
  generalize sent.selected = op at h
  cases h with
  | command h | setSpeed h | getSpeed h | getStatus h =>
    simp [deserialize,selected,h,commandHash,setSpeedHash,getSpeedHash,getStatusHash]
  | none h₁ h₂ h₃ h₄ => simp [deserialize,selected,h₁,h₂,h₃,h₄]

def RobotControlReturn.resultD (r : RobotControlReturn) : Option Int32 :=
  if r.d = commandHash then some r.command.d
  else if r.d = setSpeedHash then some r.setSpeed.d
  else if r.d = getSpeedHash then some r.getSpeed.d
  else if r.d = getStatusHash then some r.getStatus.d
  else none

end DdsRpc
