import DdsRpc.Params
set_option autoImplicit false

namespace DdsRpc
namespace Params

/-- Where an application keeps its parameter objects. An object is known by its number. -/
structure Store (DW DR S : Type) where
  step : S → Op DW DR → Option S
  get : S → Nat → Getter → Option (Value DW DR)
  kind : S → Nat → Option Kind
  size : S → Nat

namespace Store
variable {DW DR S : Type}

def run (P : Store DW DR S) (s : S) (es : List (Op DW DR)) : Option S := Machine.run ⟨P.step⟩ s es

def domainParticipant (P : Store DW DR S) (s : S) (x : Nat) : Option (Option Nat) :=
  match P.get s x .domainParticipant with
  | some (.entity part) => some part
  | _ => none

def serviceName (P : Store DW DR S) (s : S) (x : Nat) : Option String :=
  match P.get s x .serviceName with
  | some (.name service_name) => some service_name
  | _ => none

/-- A new object with the participant and the service name of `x`. It is the copy of a
temporary one that the chain of setters has worked on. -/
def toParams (P : Store DW DR S) (k : Kind) (s : S) (x : Nat) : Option (Nat × S) := do
  let part ← P.domainParticipant s x
  let service_name ← P.serviceName s x
  let temp := P.size s
  let s ← P.run s [.construct k,.set temp (.domainParticipant part),
    .set temp (.serviceName service_name),.copy temp,.destroy temp]
  some (temp+1,s)

def toReplierParams (P : Store DW DR S) : S → Nat → Option (Nat × S) := P.toParams .replier

def toRequesterParams (P : Store DW DR S) : S → Nat → Option (Nat × S) := P.toParams .requester

end Store

def World.store {DW DR : Type} [Inhabited DW] [Inhabited DR] (A : MemoryAllocator DW DR) :
    Store DW DR (World DW DR) where
  step := World.step A
  get := World.get
  kind w x := (w.object x).map Object.kind
  size w := w.objects.length

end Params

structure DefaultDomainParticipant where
  domainid : Int
  participant : Option Nat

inductive Role where
  | requester
  | replier
  deriving DecidableEq

/-- A Connext requester or replier. `given` is the participant in the parameters it was
made from. -/
structure Endpoint where
  role : Role
  given : Option Nat
  participant : Option Nat
  serviceName : String
  deriving DecidableEq

/-- `participants` holds the domain of every participant that the factory has made. -/
structure Application (S : Type) where
  params : S
  default : DefaultDomainParticipant
  participants : List Int
  endpoints : List Endpoint

/-- What Connext makes of a construction: whether `create_participant`, should it be called,
returns a participant, and whether the constructor of the endpoint returns. -/
structure Connected where
  created : Bool
  accepted : Bool

namespace Application
open Params

inductive Event (DW DR : Type) where
  | params (e : Op DW DR)
  | setDomainid (domainid : Int)
  | get (created : Bool)
  | createParticipant (domainid : Int)
  | requester (x : Nat) (c : Connected)
  | replier (x : Nat) (c : Connected)
  | client (x : Nat) (c : Connected)
  | defaultClient (c : Connected)
  | service (x : Nat) (c : Connected)
  | server (created : Bool)

variable {DW DR S : Type}

def init (s : S) : Application S := ⟨s,⟨0,none⟩,[],[]⟩

def setDomainid (w : Application S) (domainid : Int) : Application S :=
  { w with default.domainid := domainid }

def createParticipant (w : Application S) (domainid : Int) : Application S :=
  { w with participants := w.participants ++ [domainid] }

/-- `DefaultDomainParticipant::get`, whose result is the participant it leaves behind. -/
def get (w : Application S) (created : Bool) : Application S :=
  match w.default.participant with
  | some _ => w
  | none =>
    if created then
      { w.createParticipant w.default.domainid with
        default.participant := some w.participants.length }
    else w

/-- `to_connext_requester_params`, and `to_connext_replier_params`, which does the same. -/
def toConnextParams (P : Store DW DR S) (w : Application S) (role : Role) (params : Nat)
    (created : Bool) : Option (Endpoint × Application S) := do
  let part ← P.domainParticipant w.params params
  let service_name ← P.serviceName w.params params
  match part with
  | some p => some (⟨role,part,some p,service_name⟩,w)
  | none =>
    let w := w.get created
    some (⟨role,part,w.default.participant,service_name⟩,w)

def construct (P : Store DW DR S) (w : Application S) (role : Role) (params : Nat)
    (c : Connected) : Option (Application S) := do
  let (endpoint,w) ← w.toConnextParams P role params c.created
  some (if c.accepted then { w with endpoints := w.endpoints ++ [endpoint] } else w)

def clientImpl (P : Store DW DR S) (w : Application S) (params_ : Nat) (c : Connected) :
    Option (Application S) := do
  let (temp,s) ← P.toRequesterParams w.params params_
  let w ← construct P { w with params := s } .requester temp c
  let s ← P.run w.params (.destroy temp :: if c.accepted then [] else [.destroy params_])
  some { w with params := s }

def dispatcher (P : Store DW DR S) (w : Application S) (service_params : Nat) (c : Connected) :
    Option (Application S) := do
  let (temp,s) ← P.toReplierParams w.params service_params
  let w ← construct P { w with params := s } .replier temp c
  let s ← P.run w.params [.destroy temp]
  some { w with params := s }

def ofKind (P : Store DW DR S) (w : Application S) (x : Nat) (k : Kind)
    (next : Option (Application S)) : Option (Application S) :=
  if P.kind w.params x = some k then next else none

def step (P : Store DW DR S) (w : Application S) : Event DW DR → Option (Application S)
  | .params e => do
    let s ← P.step w.params e
    some { w with params := s }
  | .setDomainid domainid => some (w.setDomainid domainid)
  | .get created => some (w.get created)
  | .createParticipant domainid => some (w.createParticipant domainid)
  | .requester x c => w.ofKind P x .requester (w.construct P .requester x c)
  | .replier x c => w.ofKind P x .replier (w.construct P .replier x c)
  | .client client_params c => w.ofKind P client_params .client do
    let params_ := P.size w.params
    let s ← P.run w.params [.copy client_params]
    clientImpl P { w with params := s } params_ c
  | .defaultClient c => do
    let temp := P.size w.params
    let s ← P.run w.params [.construct .client,.set temp (.serviceName "RobotControl"),
      .copy temp,.destroy temp]
    clientImpl P { w with params := s } (temp+1) c
  | .service service_params c =>
    w.ofKind P service_params .service (w.dispatcher P service_params c)
  | .server created => some (w.get created)

def machine (P : Store DW DR S) : Machine (Application S) (Event DW DR) := ⟨step P⟩

def domain (w : Application S) (endpoint : Endpoint) : Option Int :=
  endpoint.participant.bind (fun p => w.participants[p]?)

end Application
end DdsRpc
