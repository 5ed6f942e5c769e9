import DdsRpc.Execute
import DdsRpc.ClientReplies
import DdsRpc.RemoteCalls
set_option autoImplicit false

/-! Clients that make asynchronous calls, any number of them at a time, on one dispatcher.
Messages may be lost, and replies may overtake one another or come more than once. -/

namespace DdsRpc
open Connext

variable {ι σ : Type}

/-- `calls` are those whose send has not thrown: the `n`-th has the `n`-th promise. The
first `delivered` requests of a client have reached the dispatcher or are lost. -/
structure AsyncSystem (ι σ : Type) where
  client : ι → Session RobotControlCall RobotControlReply
  calls : ι → List Call
  delivered : ι → Nat
  server : Serving (σ × List Call)

namespace AsyncSystem

def init (guid : ι → DDS.GUID) (s : σ) : AsyncSystem ι σ where
  client i := .init (guid i)
  calls _ := []
  delivered _ := 0
  server := .init (s,[])

/-- A reply that the server has written stays on its way: it can arrive late, again or
not at all. -/
inductive Event (ι : Type) where
  | call (i : ι) (op : Call) (sent : Bool)
  | deliverRequest (i : ι)
  | loseRequest (i : ι)
  | dispatch
  | deliverReply (i : ι) (n : Nat) (identity : DDS.SampleIdentity)
  | thread (i : ι) (k : Nat) (s : Session.ThreadStep)
  deriving DecidableEq

variable [DecidableEq ι]

/-- `<op>_async`; the continuation that it gives to `then` is that of `op`. -/
def call (ts : TypeSupport) (w : AsyncSystem ι σ) (i : ι) (op : Call) (sent : Bool) :
    AsyncSystem ι σ :=
  { w with
    client := Function.update w.client i
      ((w.client i).sendRequestAsync (ClientImpl.requestAsync ts op) sent)
    calls := if sent then Function.update w.calls i (w.calls i ++ [op]) else w.calls }

def nextRequest (w : AsyncSystem ι σ) (i : ι) : Option (WriteSample RobotControlRequest) :=
  (w.client i).impl.super.written[w.delivered i]?

def requestSample (ts : TypeSupport) (w : AsyncSystem ι σ)
    (req : WriteSample RobotControlRequest) : Sample RobotControlRequest :=
  ⟨ts.receivedRequest req.data,
    ⟨true,req.identity,RequesterImpl.nullIdentity,
      w.server.taken.length+w.server.reader.length+1⟩⟩

def loseRequest (w : AsyncSystem ι σ) (i : ι) : AsyncSystem ι σ :=
  { w with delivered := Function.update w.delivered i (w.delivered i+1) }

def deliverRequest (ts : TypeSupport) (w : AsyncSystem ι σ) (i : ι)
    (req : WriteSample RobotControlRequest) : AsyncSystem ι σ :=
  { w.loseRequest i with server := w.server.arrive (w.requestSample ts req) }

def replySample (ts : TypeSupport) (reply : WriteReply RobotControlReply)
    (identity : DDS.SampleIdentity) : Arrival RobotControlReply :=
  ⟨ts.receivedReply reply.data,true,identity,reply.relatedIdentity⟩

def withClient (w : AsyncSystem ι σ) (i : ι) (c : Session RobotControlCall RobotControlReply) :
    AsyncSystem ι σ :=
  { w with client := Function.update w.client i c }

def machine (T : TakeReply RobotControlReply) (ts : TypeSupport) (R : RobotControl σ) :
    Machine (AsyncSystem ι σ) (Event ι) where
  step w
    | .call i op sent => some (w.call ts i op sent)
    | .deliverRequest i => (w.nextRequest i).map (w.deliverRequest ts i)
    | .loseRequest i => (w.nextRequest i).map (fun _ => w.loseRequest i)
    | .dispatch => some { w with server := w.server.dispatch ts R.logged }
    | .deliverReply i n identity => do
      let reply ← w.server.written[n]?
      if reply.relatedIdentity.writerGuid = (w.client i).impl.super.writerGuid then
        some (w.withClient i ((w.client i).arrive (replySample ts reply identity)))
      else none
    | .thread i k s => ((w.client i).threadStep T k s).map (w.withClient i)

end AsyncSystem
end DdsRpc
