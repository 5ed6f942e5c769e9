import DdsRpc.ReplierImpl
import DdsRpc.RobotTypes
import DdsRpc.Library.Machine
set_option autoImplicit false

namespace DdsRpc
open Connext

inductive Exn where
  | tooFast (e : TooFast)
  | runtimeError (what : String)
  | other
  deriving DecidableEq

/-- A method works on the state of its object and ends with a result or an exception. -/
abbrev Method (σ α : Type) := σ → Except Exn α × σ

/-- `robot::RobotControl`, which anybody may implement. `getStatus` is given the status
that its argument refers to and leaves another one there. -/
structure RobotControl (σ : Type) where
  command : Command → Method σ Unit
  setSpeed : Speed → Method σ Speed
  getSpeed : Method σ Speed
  getStatus : Status → Method σ Status

variable {σ : Type}

def isCommand (request_sample : Sample RobotControlRequest) : Bool :=
  request_sample.data.data.d = commandHash

def isGetSpeed (request_sample : Sample RobotControlRequest) : Bool :=
  request_sample.data.data.d = getSpeedHash

def isSetSpeed (request_sample : Sample RobotControlRequest) : Bool :=
  request_sample.data.data.d = setSpeedHash

def isGetStatus (request_sample : Sample RobotControlRequest) : Bool :=
  request_sample.data.data.d = getStatusHash

def doCommand (ts : TypeSupport) (R : RobotControl σ)
    (request_sample : Sample RobotControlRequest) : Method σ RobotControlReply := fun s =>
  let reply := ts.createReply
  match R.command request_sample.data.data.command.com s with
  | (.ok (),s) =>
    (.ok { reply with
      data.d := commandHash
      data.command.d := remoteExOk
      data.command.result.dummy := 0 },s)
  | (.error e,s) => (.error e,s)

/-- Only here is an exception caught, and only `TooFast`. -/
def doSetSpeed (ts : TypeSupport) (R : RobotControl σ)
    (request_sample : Sample RobotControlRequest) : Method σ RobotControlReply := fun s =>
  let reply := ts.createReply
  match R.setSpeed request_sample.data.data.setSpeed.speed s with
  | (.ok speed,s) =>
    (.ok { reply with
      data.d := setSpeedHash
      data.setSpeed.d := remoteExOk
      data.setSpeed.result.return_ := speed },s)
  | (.error (.tooFast toofast),s) =>
    (.ok { reply with
      data.d := setSpeedHash
      data.setSpeed.d := tooFastExHash
      data.setSpeed.toofastEx := toofast },s)
  | (.error e,s) => (.error e,s)

def doGetSpeed (ts : TypeSupport) (R : RobotControl σ)
    (_request_sample : Sample RobotControlRequest) : Method σ RobotControlReply := fun s =>
  let reply := ts.createReply
  match R.getSpeed s with
  | (.ok speed,s) =>
    (.ok { reply with
      data.d := getSpeedHash
      data.getSpeed.d := remoteExOk
      data.getSpeed.result.return_ := speed },s)
  | (.error e,s) => (.error e,s)

def doGetStatus (ts : TypeSupport) (R : RobotControl σ)
    (_request_sample : Sample RobotControlRequest) : Method σ RobotControlReply := fun s =>
  let reply := { ts.createReply with
    data.d := getStatusHash
    data.getStatus.d := remoteExOk }
  match R.getStatus reply.data.getStatus.result.status s with
  | (.ok status,s) => (.ok { reply with data.getStatus.result.status := status },s)
  | (.error e,s) => (.error e,s)

def dispatchRequest (ts : TypeSupport) (R : RobotControl σ)
    (request_sample : Sample RobotControlRequest) : Method σ RobotControlReply := fun s =>
  if isCommand request_sample then doCommand ts R request_sample s
  else if isGetSpeed request_sample then doGetSpeed ts R request_sample s
  else if isSetSpeed request_sample then doSetSpeed ts R request_sample s
  else if isGetStatus request_sample then doGetStatus ts R request_sample s
  else
    (.ok { ts.createReply with
      header.remoteEx := .unknownOperation
      data.d := 0 },s)

structure Dispatcher (σ : Type) where
  replier : ReplierImpl RobotControlCall RobotControlReturn
  service : σ

namespace Dispatcher

def init (s : σ) : Dispatcher σ := ⟨.init,s⟩

/-- An exception leaves `dispatch` before the reply is sent. -/
def dispatch (ts : TypeSupport) (R : RobotControl σ) (d : Dispatcher σ) :
    Except Exn Unit × Dispatcher σ :=
  let (replier,ret,request_sample) := d.replier.receiveRequest ts.requestSample
  if ret then
    match dispatchRequest ts R request_sample d.service with
    | (.ok reply,service) =>
      (.ok (),
        { replier := replier.sendReply reply (toRpcSampleIdentity request_sample.info.identity)
          service })
    | (.error e,service) => (.error e,{ replier,service })
  else (.ok (),{ d with replier })

end Dispatcher

/-- A call of the interface on the object itself. The object of an `out` parameter is
a new one. -/
def RobotControl.call (R : RobotControl σ) (created : Status) : (op : Call) → Method σ op.Result
  | .command com => R.command com
  | .setSpeed speed => R.setSpeed speed
  | .getSpeed => R.getSpeed
  | .getStatus => R.getStatus created

/-- The service that also writes down how it is called. -/
def RobotControl.logged (R : RobotControl σ) : RobotControl (σ × List Call) where
  command com s := ((R.command com s.1).1,((R.command com s.1).2,s.2 ++ [.command com]))
  setSpeed speed s := ((R.setSpeed speed s.1).1,((R.setSpeed speed s.1).2,s.2 ++ [.setSpeed speed]))
  getSpeed s := ((R.getSpeed s.1).1,((R.getSpeed s.1).2,s.2 ++ [.getSpeed]))
  getStatus st s := ((R.getStatus st s.1).1,((R.getStatus st s.1).2,s.2 ++ [.getStatus]))

abbrev TypeSupport.createStatus (ts : TypeSupport) : Status :=
  ts.createReply.data.getStatus.result.status

def replyOf (ts : TypeSupport) : (op : Call) → Except Exn op.Result → Except Exn RobotControlReply
  | .command _,.ok _ =>
    .ok { ts.createReply with
      data.d := commandHash
      data.command.d := remoteExOk
      data.command.result.dummy := 0 }
  | .setSpeed _,.ok speed =>
    .ok { ts.createReply with
      data.d := setSpeedHash
      data.setSpeed.d := remoteExOk
      data.setSpeed.result.return_ := speed }
  | .setSpeed _,.error (.tooFast toofast) =>
    .ok { ts.createReply with
      data.d := setSpeedHash
      data.setSpeed.d := tooFastExHash
      data.setSpeed.toofastEx := toofast }
  | .getSpeed,.ok speed =>
    .ok { ts.createReply with
      data.d := getSpeedHash
      data.getSpeed.d := remoteExOk
      data.getSpeed.result.return_ := speed }
  | .getStatus,.ok status =>
    .ok { ts.createReply with
      data.d := getStatusHash
      data.getStatus.d := remoteExOk
      data.getStatus.result.status := status }
  | _,.error e => .error e

variable {ts : TypeSupport} {R : RobotControl σ} {r : Sample RobotControlRequest}

theorem doCommand_eq (s : σ) : doCommand ts R r s =
    (replyOf ts (.command r.data.data.command.com)
      (R.call ts.createStatus (.command r.data.data.command.com) s).1,
    (R.call ts.createStatus (.command r.data.data.command.com) s).2) := by
  simp only [doCommand,RobotControl.call]
  rcases R.command r.data.data.command.com s with ⟨_ | _,s'⟩ <;> rfl

theorem doSetSpeed_eq (s : σ) : doSetSpeed ts R r s =
    (replyOf ts (.setSpeed r.data.data.setSpeed.speed)
      (R.call ts.createStatus (.setSpeed r.data.data.setSpeed.speed) s).1,
    (R.call ts.createStatus (.setSpeed r.data.data.setSpeed.speed) s).2) := by
  simp only [doSetSpeed,RobotControl.call]
  rcases R.setSpeed r.data.data.setSpeed.speed s with ⟨(_ | _ | _) | _,s'⟩ <;> rfl

theorem doGetSpeed_eq (s : σ) : doGetSpeed ts R r s =
    (replyOf ts .getSpeed (R.call ts.createStatus .getSpeed s).1,
    (R.call ts.createStatus .getSpeed s).2) := by
  simp only [doGetSpeed,RobotControl.call]
  rcases R.getSpeed s with ⟨_ | _,s'⟩ <;> rfl

theorem doGetStatus_eq (s : σ) : doGetStatus ts R r s =
    (replyOf ts .getStatus (R.call ts.createStatus .getStatus s).1,
    (R.call ts.createStatus .getStatus s).2) := by
  simp only [doGetStatus,RobotControl.call]
  rcases R.getStatus ts.createStatus s with ⟨_ | _,s'⟩ <;> rfl

/-- The dispatcher makes the one call that the request selects. -/
theorem dispatchRequest_selected {op : Call} (h : r.data.data.selected = some op) (s : σ) :
    dispatchRequest ts R r s =
      (replyOf ts op (R.call ts.createStatus op s).1,(R.call ts.createStatus op s).2) := by
  have hs := r.data.data.selects
  rw [h] at hs
  cases hs with
  | command hd =>
    rw [← doCommand_eq]
    simp [dispatchRequest,isCommand,hd]
  | setSpeed hd =>
    rw [← doSetSpeed_eq]
    simp [dispatchRequest,isCommand,isGetSpeed,isSetSpeed,hd,commandHash,getSpeedHash,setSpeedHash]
  | getSpeed hd =>
    rw [← doGetSpeed_eq (r := r)]
    simp [dispatchRequest,isCommand,isGetSpeed,hd,commandHash,getSpeedHash]
  | getStatus hd =>
    rw [← doGetStatus_eq (r := r)]
    simp [dispatchRequest,isCommand,isGetSpeed,isSetSpeed,isGetStatus,hd,commandHash,getSpeedHash,
      setSpeedHash,getStatusHash]

theorem dispatchRequest_unknown (h : r.data.data.selected = none) (s : σ) :
    dispatchRequest ts R r s =
      (.ok { ts.createReply with
        header.remoteEx := .unknownOperation
        data.d := 0 },s) := by
  have hs := r.data.data.selects
  rw [h] at hs
  cases hs with
  | none h₁ h₂ h₃ h₄ =>
    simp [dispatchRequest,isCommand,isGetSpeed,isSetSpeed,isGetStatus,h₁,h₂,h₃,h₄]

theorem logged_call (R : RobotControl σ) (created : Status) (op : Call) (s : σ) (l : List Call) :
    R.logged.call created op (s,l) =
      ((R.call created op s).1,((R.call created op s).2,l ++ [op])) := by
  cases op <;> rfl

/-- The exceptions that leave an operation although it does not declare them: all of
them, except `TooFast` from `setSpeed`. -/
def undeclared : (op : Call) → Except Exn op.Result → Bool
  | .setSpeed _,.error (.tooFast _) => false
  | _,.error _ => true
  | _,.ok _ => false

theorem replyOf_isOk (ts : TypeSupport) (op : Call) (out : Except Exn op.Result) :
    (replyOf ts op out).isOk = !undeclared op out := by
  cases op with
  | setSpeed v => rcases out with (_ | _ | _) | _ <;> rfl
  | command | getSpeed | getStatus => cases out <;> rfl

end DdsRpc
