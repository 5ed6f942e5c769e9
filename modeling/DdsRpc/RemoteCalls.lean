import DdsRpc.Session
import DdsRpc.Serving
import DdsRpc.ClientImpl
import DdsRpc.Library.SharedObject
set_option autoImplicit false

/-! Clients that make synchronous calls on one dispatcher over a transport that loses
nothing and keeps the order of each sender. -/

namespace DdsRpc
open Connext

variable {ι σ : Type}

abbrev Outcome (op : Call) : Type := Except Exn op.Result

/-- `requests` and `replies` are on their way, by the requester that sends or expects
them. `issued` and `returned` record the calls of a client and their outcomes. -/
structure System (ι σ : Type) where
  client : ι → Session RobotControlCall RobotControlReply
  pending : ι → Option (Call × SampleIdentity)
  requests : ι → List (WriteSample RobotControlRequest)
  server : Serving (σ × List Call)
  replies : DDS.GUID → List (WriteReply RobotControlReply)
  issued : ι → List Call
  returned : ι → List (Sigma Outcome)

namespace System

def init (guid : ι → DDS.GUID) (s : σ) : System ι σ where
  client i := .init (guid i)
  pending _ := none
  requests _ := []
  server := .init (s,[])
  replies _ := []
  issued _ := []
  returned _ := []

inductive Event (ι : Type) where
  | call (i : ι) (op : Call)
  | deliverRequest (i : ι)
  | dispatch
  | deliverReply (i : ι) (identity : DDS.SampleIdentity)
  | ret (i : ι)
  deriving DecidableEq

variable [DecidableEq ι]

/-- A method of `ClientImpl` up to the end of `send_request`. -/
def call (ts : TypeSupport) (w : System ι σ) (i : ι) (op : Call) : System ι σ :=
  let c := w.client i
  let req := ClientImpl.request ts op
  let c' := c.sendRequest req true
  { w with
    client := Function.update w.client i c'
    pending := Function.update w.pending i (some (op,(c.impl.stamp req).header.requestId))
    requests := Function.update w.requests i
      (w.requests i ++ c'.impl.super.written.drop c.impl.super.written.length)
    issued := Function.update w.issued i (w.issued i ++ [op]) }

def requestSample (ts : TypeSupport) (w : System ι σ) (req : WriteSample RobotControlRequest) :
    Sample RobotControlRequest :=
  ⟨ts.receivedRequest req.data,
    ⟨true,req.identity,RequesterImpl.nullIdentity,
      w.server.taken.length+w.server.reader.length+1⟩⟩

/-- The replies written are routed by the writer of the request they are related to. -/
def route (replies : DDS.GUID → List (WriteReply RobotControlReply)) :
    List (WriteReply RobotControlReply) → DDS.GUID → List (WriteReply RobotControlReply)
  | [] => replies
  | reply :: rest =>
    let g := reply.relatedIdentity.writerGuid
    route (Function.update replies g (replies g ++ [reply])) rest

def dispatch (ts : TypeSupport) (R : RobotControl σ) (w : System ι σ) : System ι σ :=
  let server := w.server.dispatch ts R.logged
  { w with
    server
    replies := route w.replies (server.written.drop w.server.written.length) }

def deliverReply (ts : TypeSupport) (w : System ι σ) (i : ι) (identity : DDS.SampleIdentity) :
    Option (System ι σ) :=
  let g := (w.client i).impl.super.writerGuid
  match w.replies g with
  | [] => none
  | reply :: rest =>
    let a : Arrival RobotControlReply :=
      ⟨ts.receivedReply reply.data,true,identity,reply.relatedIdentity⟩
    some { w with
      client := Function.update w.client i ((w.client i).arrive a)
      replies := Function.update w.replies g rest }

/-- The rest of the method: the wait of `receive_reply` ends with a reply, and what the
method makes of its sample is the outcome, whatever `receive_reply` returned. -/
def ret (T : TakeReply RobotControlReply) (ts : TypeSupport) (w : System ι σ) (i : ι) :
    Option (System ι σ) := do
  let (op,id) ← w.pending i
  if (w.client i).reader.isEmpty then none
  else
    let (c,_,reply_sample) ← (w.client i).receiveReply T ts.replySample id [] []
    some { w with
      client := Function.update w.client i c
      pending := Function.update w.pending i none
      returned := Function.update w.returned i
        (w.returned i ++ [⟨op,ClientImpl.result op reply_sample⟩]) }

def machine (T : TakeReply RobotControlReply) (ts : TypeSupport) (R : RobotControl σ) :
    Machine (System ι σ) (Event ι) where
  step w
    | .call i op => if (w.pending i).isNone then some (w.call ts i op) else none
    | .deliverRequest i =>
      match w.requests i with
      | [] => none
      | req :: rest =>
        some { w with
          requests := Function.update w.requests i rest
          server := w.server.arrive (w.requestSample ts req) }
    | .dispatch => some (w.dispatch ts R)
    | .deliverReply i identity => w.deliverReply ts i identity
    | .ret i => w.ret T ts i

end System
end DdsRpc
