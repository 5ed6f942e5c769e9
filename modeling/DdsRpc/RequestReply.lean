import DdsRpc.RemoteCalls
import DdsRpc.RobotServers
set_option autoImplicit false

/-! Requesters at work as in robot_reqrep.cxx: one request at a time, and calls of
`receive_reply` until one of them returns true. At the other end is `server_rr`. -/

namespace DdsRpc
open Connext

abbrev Read (_ : RobotControlCall) : Type := RobotControlReturn

/-- `request` and `replySample` are used again for every request, and `pending` is what
the client waits for. `requests` and `replies` are on their way; `issued` and `returned`
record what has been sent and what has been read. -/
structure RrSystem (ι : Type) where
  requester : ι → Session RobotControlCall RobotControlReply
  request : ι → RobotControlRequest
  replySample : ι → Sample RobotControlReply
  pending : ι → Option RobotControlCall
  requests : ι → List (WriteSample RobotControlRequest)
  server : RobotServer
  replies : DDS.GUID → List (WriteReply RobotControlReply)
  issued : ι → List RobotControlCall
  returned : ι → List (Sigma Read)

namespace RrSystem
variable {ι : Type}

def init (ts : TypeSupport) (guid : ι → DDS.GUID) (robot : Robot) : RrSystem ι where
  requester i := .init (guid i)
  request _ := ts.createRequest
  replySample _ := ts.replySample
  pending _ := none
  requests _ := []
  server := ⟨.init,robot⟩
  replies _ := []
  issued _ := []
  returned _ := []

inductive Event (ι : Type) where
  | send (i : ι) (data : RobotControlCall) (sent : Bool)
  | deliverRequest (i : ι)
  | loseRequest (i : ι)
  | turn
  | deliverReply (i : ι) (identity : DDS.SampleIdentity)
  | loseReply (i : ι)
  | receive (i : ι)
  deriving DecidableEq

variable [DecidableEq ι]

def send (w : RrSystem ι) (i : ι) (data : RobotControlCall) (sent : Bool) : RrSystem ι :=
  let c := w.requester i
  let req := { w.request i with data }
  let c' := c.sendRequest req sent
  { w with
    requester := Function.update w.requester i c'
    request := Function.update w.request i (c.impl.stamp req)
    pending := if sent then Function.update w.pending i (some data) else w.pending
    requests := Function.update w.requests i
      (w.requests i ++ c'.impl.super.written.drop c.impl.super.written.length)
    issued := if sent then Function.update w.issued i (w.issued i ++ [data]) else w.issued }

def requestSample (ts : TypeSupport) (w : RrSystem ι) (req : WriteSample RobotControlRequest) :
    Sample RobotControlRequest :=
  ⟨ts.receivedRequest req.data,
    ⟨true,req.identity,RequesterImpl.nullIdentity,
      w.server.replier.super.written.length+w.server.replier.super.reader.length+1⟩⟩

def loseRequest (w : RrSystem ι) (i : ι) (rest : List (WriteSample RobotControlRequest)) :
    RrSystem ι :=
  { w with requests := Function.update w.requests i rest }

def deliverRequest (ts : TypeSupport) (w : RrSystem ι) (i : ι)
    (req : WriteSample RobotControlRequest) (rest : List (WriteSample RobotControlRequest)) :
    RrSystem ι :=
  { w.loseRequest i rest with
    server := { w.server with replier := w.server.replier.arrive (w.requestSample ts req) } }

def turn (ts : TypeSupport) (status : String) (w : RrSystem ι) : RrSystem ι :=
  let server := w.server.turn ts status
  { w with
    server
    replies := System.route w.replies
      (server.replier.super.written.drop w.server.replier.super.written.length) }

def loseReply (w : RrSystem ι) (g : DDS.GUID) (rest : List (WriteReply RobotControlReply)) :
    RrSystem ι :=
  { w with replies := Function.update w.replies g rest }

def deliverReply (ts : TypeSupport) (w : RrSystem ι) (i : ι) (identity : DDS.SampleIdentity)
    (reply : WriteReply RobotControlReply) (rest : List (WriteReply RobotControlReply)) :
    RrSystem ι :=
  let g := (w.requester i).impl.super.writerGuid
  let a : Arrival RobotControlReply :=
    ⟨ts.receivedReply reply.data,true,identity,reply.relatedIdentity⟩
  { w.loseReply g rest with
    requester := Function.update w.requester i ((w.requester i).arrive a) }

/-- One round of the loop around `receive_reply`, at the end of its wait. -/
def receive (T : TakeReply RobotControlReply) (w : RrSystem ι) (i : ι) : Option (RrSystem ι) := do
  let data ← w.pending i
  let (c,ret,replySample) ← (w.requester i).receiveReply T (w.replySample i)
    (w.request i).header.requestId [] []
  let w := { w with
    requester := Function.update w.requester i c
    replySample := Function.update w.replySample i replySample }
  if ret then
    some { w with
      pending := Function.update w.pending i none
      returned := Function.update w.returned i (w.returned i ++ [⟨data,replySample.data.data⟩]) }
  else some w

def machine (T : TakeReply RobotControlReply) (ts : TypeSupport) (status : String) :
    Machine (RrSystem ι) (Event ι) where
  step w
    | .send i data sent => if (w.pending i).isNone then some (w.send i data sent) else none
    | .deliverRequest i =>
      match w.requests i with
      | [] => none
      | req :: rest => some (w.deliverRequest ts i req rest)
    | .loseRequest i =>
      match w.requests i with
      | [] => none
      | _ :: rest => some (w.loseRequest i rest)
    | .turn => some (w.turn ts status)
    | .deliverReply i identity =>
      match w.replies (w.requester i).impl.super.writerGuid with
      | [] => none
      | reply :: rest => some (w.deliverReply ts i identity reply rest)
    | .loseReply i =>
      match w.replies (w.requester i).impl.super.writerGuid with
      | [] => none
      | _ :: rest => some (w.loseReply (w.requester i).impl.super.writerGuid rest)
    | .receive i => w.receive T i

end RrSystem
end DdsRpc
