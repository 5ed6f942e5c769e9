import DdsRpc.Dispatcher
set_option autoImplicit false

namespace DdsRpc
open Connext

namespace ClientImpl

def command (ts : TypeSupport) (command : Command) : RobotControlRequest :=
  { ts.createRequest with
    data.d := commandHash
    data.command.com := command }

def setSpeed (ts : TypeSupport) (speed : Speed) : RobotControlRequest :=
  { ts.createRequest with
    data.d := setSpeedHash
    data.setSpeed.speed := speed }

def getSpeed (ts : TypeSupport) : RobotControlRequest :=
  { ts.createRequest with
    data.d := getSpeedHash
    data.getSpeed.dummy := 0 }

def getStatus (ts : TypeSupport) : RobotControlRequest :=
  { ts.createRequest with
    data.d := getStatusHash
    data.getStatus.dummy := 0 }

/-- The argument is not used: the member written is `getSpeed.dummy`. -/
def commandAsync (ts : TypeSupport) (_command : Command) : RobotControlRequest :=
  { ts.createRequest with
    data.d := commandHash
    data.getSpeed.dummy := 0 }

def setSpeedAsync (ts : TypeSupport) (speed : Speed) : RobotControlRequest :=
  { ts.createRequest with
    data.d := setSpeedHash
    data.setSpeed.speed := speed }

def getSpeedAsync (ts : TypeSupport) : RobotControlRequest :=
  { ts.createRequest with
    data.d := getSpeedHash
    data.getSpeed.dummy := 0 }

def getStatusAsync (ts : TypeSupport) : RobotControlRequest :=
  { ts.createRequest with
    data.d := getStatusHash
    data.getSpeed.dummy := 0 }

def request (ts : TypeSupport) : Call → RobotControlRequest
  | .command com => command ts com
  | .setSpeed speed => setSpeed ts speed
  | .getSpeed => getSpeed ts
  | .getStatus => getStatus ts

def requestAsync (ts : TypeSupport) : Call → RobotControlRequest
  | .command com => commandAsync ts com
  | .setSpeed speed => setSpeedAsync ts speed
  | .getSpeed => getSpeedAsync ts
  | .getStatus => getStatusAsync ts

/-- `command` returns whatever came. -/
def commandResult (_reply_sample : Sample RobotControlReply) : Except Exn Unit := .ok ()

def setSpeedResult (reply_sample : Sample RobotControlReply) : Except Exn Speed :=
  let data := reply_sample.data.data
  if data.d = setSpeedHash then
    if data.setSpeed.d = remoteExOk then .ok data.setSpeed.result.return_
    else if data.setSpeed.d = tooFastExHash then .error (.tooFast data.setSpeed.toofastEx)
    else .error (.runtimeError "Received unknown exception from setSpeed.")
  else .error (.runtimeError "Received unknown response for setSpeed.\n")

def getSpeedResult (reply_sample : Sample RobotControlReply) : Except Exn Speed :=
  let data := reply_sample.data.data
  if data.d = getSpeedHash then
    if data.getSpeed.d = remoteExOk then .ok data.getSpeed.result.return_
    else .error (.runtimeError "Received unknown exception from getSpeed.")
  else .error (.runtimeError "Received unknown response for getSpeed.\n")

/-- The discriminator it looks at is that of `getSpeed`. -/
def getStatusResult (reply_sample : Sample RobotControlReply) : Except Exn Status :=
  let data := reply_sample.data.data
  if data.d = getStatusHash then
    if data.getSpeed.d = remoteExOk then .ok data.getStatus.result.status
    else .error (.runtimeError "Received unknown exception from getStatus.")
  else .error (.runtimeError "Received unknown response for getStatus.\n")

def result : (op : Call) → Sample RobotControlReply → Except Exn op.Result
  | .command _ => commandResult
  | .setSpeed _ => setSpeedResult
  | .getSpeed => getSpeedResult
  | .getStatus => getStatusResult

@[simp] theorem request_selected (ts : TypeSupport) (op : Call) :
    (request ts op).data.selected = some op := by
  cases op <;> rfl

theorem requestAsync_selected (ts : TypeSupport) (op : Call) :
    (requestAsync ts op).data.selected =
      some (match op with
        | .command _ => .command ts.createRequest.data.command.com
        | op => op) := by
  cases op <;> rfl

variable {σ : Type}

def serve (ts : TypeSupport) (R : RobotControl σ) (info : SampleInfo) (header : RequestHeader)
    (req : RobotControlRequest) (s : σ) : σ × List Call :=
  (dispatchRequest ts R.logged ⟨ts.receivedRequest { req with header },info⟩ (s,[])).2

theorem serve_selected {ts : TypeSupport} {req : RobotControlRequest} {op : Call}
    (h : req.data.selected = some op) (R : RobotControl σ) (info : SampleInfo)
    (header : RequestHeader) (s : σ) :
    serve ts R info header req s = ((R.call ts.createStatus op s).2,[op]) := by
  have hsel : (ts.receivedRequest { req with header }).data.selected = some op := by
    simp [TypeSupport.receivedRequest,h]
  rw [serve,dispatchRequest_selected hsel,logged_call]
  rfl

/-- Both clients ask for one operation with one argument, and the service is called
once with it. -/
structure AsksTheSame (ts : TypeSupport) (op : Call) : Prop where
  selected : (request ts op).data.selected = (requestAsync ts op).data.selected
  invoked : ∀ (σ : Type) (R : RobotControl σ) info header header' s,
    (serve ts R info header (request ts op) s).2 = [op] ∧
    serve ts R info header' (requestAsync ts op) s = serve ts R info header (request ts op) s

/-- The asynchronous client asks for the same, unless it is to send a command other than
the one that `create_data` has put there. -/
theorem asksTheSame_iff (ts : TypeSupport) (op : Call) :
    AsksTheSame ts op ↔ ∀ com, op = .command com → com = ts.createRequest.data.command.com := by
  constructor
  · rintro h com rfl
    have hsel := h.selected
    rw [request_selected,requestAsync_selected] at hsel
    simpa using hsel
  · intro h
    have hasync : (requestAsync ts op).data.selected = some op := by
      rw [requestAsync_selected]
      cases op with
      | command com => rw [h com rfl]
      | setSpeed | getSpeed | getStatus => rfl
    refine ⟨by rw [request_selected,hasync],fun σ R info header header' s => ?_⟩
    rw [serve_selected (request_selected ts op),serve_selected hasync]
    exact ⟨rfl,rfl⟩

theorem asksTheSame_fails : ¬ AsksTheSame .zero (.command .stop) :=
  fun h => absurd h.selected (by decide)

end ClientImpl
end DdsRpc
