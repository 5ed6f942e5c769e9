import DdsRpc.Library.Machine
import DdsRpc.Library.Heap
set_option autoImplicit false

/-! The parameter objects of function_call.cxx and request_reply.cxx. Each is a shared
pointer to its implementation. -/

namespace DdsRpc
namespace Params

/-- A call of a setter, with the value that a QoS pointer refers to at that time. -/
inductive Setter (DW DR : Type) where
  | serviceName (service_name : String)
  | instanceName (instance_name : String)
  | datawriterQos (qos : DW)
  | datareaderQos (qos : DR)
  | publisher (publisher : Option Nat)
  | subscriber (subscriber : Option Nat)
  | domainParticipant (part : Option Nat)

inductive Getter where
  | serviceName
  | instanceName
  | requestTopicName
  | replyTopicName
  | datawriterQos
  | datareaderQos
  | publisher
  | subscriber
  | domainParticipant

inductive Value (DW DR : Type) where
  | name (s : String)
  | datawriterQos (qos : Option DW)
  | datareaderQos (qos : Option DR)
  | entity (p : Option Nat)

structure ServiceParamsImpl (DW DR : Type) where
  participant : Option Nat
  publisher : Option Nat
  subscriber : Option Nat
  dwqos : DW
  dwqosDef : Bool
  drqos : DR
  drqosDef : Bool
  serviceName : String
  instanceName : String
  requestTopicName : String
  replyTopicName : String

variable {DW DR : Type}

namespace ServiceParamsImpl

def init [Inhabited DW] [Inhabited DR] : ServiceParamsImpl DW DR where
  participant := none
  publisher := none
  subscriber := none
  dwqos := default
  dwqosDef := false
  drqos := default
  drqosDef := false
  serviceName := ""
  instanceName := ""
  requestTopicName := ""
  replyTopicName := ""

def set (impl : ServiceParamsImpl DW DR) : Setter DW DR → ServiceParamsImpl DW DR
  | .serviceName service_name => { impl with serviceName := service_name }
  | .instanceName instance_name => { impl with instanceName := instance_name }
  | .datawriterQos qos => { impl with dwqos := qos, dwqosDef := true }
  | .datareaderQos qos => { impl with drqos := qos, drqosDef := true }
  | .publisher publisher => { impl with publisher }
  | .subscriber subscriber => { impl with subscriber }
  | .domainParticipant part => { impl with participant := part }

def get (impl : ServiceParamsImpl DW DR) : Getter → Value DW DR
  | .serviceName => .name impl.serviceName
  | .instanceName => .name impl.instanceName
  | .requestTopicName => .name impl.requestTopicName
  | .replyTopicName => .name impl.replyTopicName
  | .datawriterQos => .datawriterQos (if impl.dwqosDef then some impl.dwqos else none)
  | .datareaderQos => .datareaderQos (if impl.drqosDef then some impl.drqos else none)
  | .publisher => .entity impl.publisher
  | .subscriber => .entity impl.subscriber
  | .domainParticipant => .entity impl.participant

end ServiceParamsImpl

/-- `RequesterParamsImpl`, and `ReplierParamsImpl`, which has the same members and
functions. -/
structure RequesterParamsImpl where
  participant : Option Nat
  serviceName : String

abbrev ReplierParamsImpl := RequesterParamsImpl

namespace RequesterParamsImpl

def init : RequesterParamsImpl := ⟨none,""⟩

def set (impl : RequesterParamsImpl) : Setter DW DR → Option RequesterParamsImpl
  | .serviceName service_name => some { impl with serviceName := service_name }
  | .domainParticipant participant => some { impl with participant }
  | _ => none

def get (impl : RequesterParamsImpl) : Getter → Option (Value DW DR)
  | .serviceName => some (.name impl.serviceName)
  | .domainParticipant => some (.entity impl.participant)
  | _ => none

end RequesterParamsImpl

inductive Kind where
  | service
  | client
  | server
  | requester
  | replier
  deriving DecidableEq

/-- An implementation of any of the classes. `ClientParamsImpl` adds nothing to its base
`ServiceParamsImpl`; the member of a `ServerParamsImpl` is a `ServiceParams`, again a
pointer. -/
inductive Impl (DW DR : Type) where
  | service (impl : ServiceParamsImpl DW DR)
  | client (impl : ServiceParamsImpl DW DR)
  | server (service_params : Nat)
  | requester (impl : RequesterParamsImpl)
  | replier (impl : ReplierParamsImpl)

def Setter.ofClient : Setter DW DR → Bool
  | .serviceName _ | .domainParticipant _ => true
  | _ => false

def Getter.ofClient : Getter → Bool
  | .serviceName | .domainParticipant => true
  | _ => false

def Impl.set (impl : Impl DW DR) (s : Setter DW DR) : Option (Impl DW DR) :=
  match impl with
  | .service impl => some (.service (impl.set s))
  | .client impl => if s.ofClient then some (.client (impl.set s)) else none
  | .server _ => none
  | .requester impl => (impl.set s).map .requester
  | .replier impl => (impl.set s).map .replier

def Impl.get (impl : Impl DW DR) (g : Getter) : Option (Value DW DR) :=
  match impl with
  | .service impl => some (impl.get g)
  | .client impl => if g.ofClient then some (impl.get g) else none
  | .server _ => none
  | .requester impl => impl.get g
  | .replier impl => impl.get g

abbrev Memory (DW DR : Type) := Heap (Shared (Impl DW DR))

abbrev MemoryAllocator (DW DR : Type) := Allocator (Shared (Impl DW DR))

section
variable (A : MemoryAllocator DW DR) (h : Memory DW DR)

/-- The `impl_` of a new object. A `ServerParamsImpl` makes its `ServiceParams` too. -/
def construct [Inhabited DW] [Inhabited DR] : Kind → Nat × Memory DW DR
  | .service => h.makeShared A (.service .init)
  | .client => h.makeShared A (.client .init)
  | .server =>
    let (service_params,h) := h.makeShared A (.service .init)
    h.makeShared A (.server service_params)
  | .requester => h.makeShared A (.requester .init)
  | .replier => h.makeShared A (.replier .init)

def copyService (other : Nat) : Option (Nat × Memory DW DR) :=
  match h.deref other with
  | some (.service impl) => some (h.makeShared A (.service impl))
  | _ => none

/-- What the copy constructor and the assignment of each class make of `*other.impl_`. The
implicit copy of a `ServerParamsImpl` copies its `ServiceParams` as an object. -/
def copyImpl (other : Nat) : Option (Nat × Memory DW DR) :=
  match h.deref other with
  | some (.server service_params) => do
    let (service_params,h) ← copyService A h service_params
    some (h.makeShared A (.server service_params))
  | some impl => some (h.makeShared A impl)
  | none => none

def releaseImpl (impl : Nat) : Memory DW DR :=
  match h.get impl with
  | some ⟨1,.server service_params⟩ => (h.release service_params).release impl
  | _ => h.release impl

def set (impl : Nat) (s : Setter DW DR) : Option (Memory DW DR) := do
  let i ← h.deref impl
  (i.set s).map (h.write impl)

def get (impl : Nat) (g : Getter) : Option (Value DW DR) := (h.deref impl).bind (Impl.get · g)

def putDefault (impl service_params : Nat) : Option (Memory DW DR) :=
  match h.deref impl with
  | some (.server old) => do
    let (new,h) ← copyService A h service_params
    some ((h.write impl (.server new)).release old)
  | _ => none

/-- `default_service_params()` returns a copy of the member. -/
def takeDefault (impl : Nat) : Option (Nat × Memory DW DR) :=
  match h.deref impl with
  | some (.server service_params) => copyService A h service_params
  | _ => none

def getDefault (impl : Nat) (g : Getter) : Option (Value DW DR × Memory DW DR) := do
  let (temp,h) ← takeDefault A h impl
  (get h temp g).map (fun v => (v,releaseImpl h temp))

end

structure Object where
  kind : Kind
  impl : Nat

/-- In the place of an object that is destroyed there is `none`. What the getters returned
is `observed`. -/
structure World (DW DR : Type) where
  heap : Memory DW DR
  objects : List (Option Object)
  observed : List (Value DW DR)

inductive Op (DW DR : Type) where
  | construct (k : Kind)
  | copy (other : Nat)
  | assign (x that : Nat)
  | set (x : Nat) (s : Setter DW DR)
  | get (x : Nat) (g : Getter)
  | putDefault (x service_params : Nat)
  | takeDefault (x : Nat)
  | getDefault (x : Nat) (g : Getter)
  | destroy (x : Nat)

def Op.isSetterOf (x : Nat) : Op DW DR → Prop
  | .set y _ | .putDefault y _ => y = x
  | _ => False

namespace World

def init : World DW DR := ⟨.empty,[],[]⟩

def object (w : World DW DR) (x : Nat) : Option Object := w.objects[x]?.join

def get (w : World DW DR) (x : Nat) (g : Getter) : Option (Value DW DR) := do
  let o ← w.object x
  Params.get w.heap o.impl g

def getDefault (A : MemoryAllocator DW DR) (w : World DW DR) (x : Nat) (g : Getter) :
    Option (Value DW DR × Memory DW DR) := do
  let o ← w.object x
  Params.getDefault A w.heap o.impl g

/-- A call that the types of the objects do not allow is no step. -/
def step [Inhabited DW] [Inhabited DR] (A : MemoryAllocator DW DR) (w : World DW DR) :
    Op DW DR → Option (World DW DR)
  | .construct k =>
    let (impl,heap) := construct A w.heap k
    some { w with heap, objects := w.objects ++ [some ⟨k,impl⟩] }
  | .copy other => do
    let o ← w.object other
    let (impl,heap) ← copyImpl A w.heap o.impl
    some { w with heap, objects := w.objects ++ [some ⟨o.kind,impl⟩] }
  | .assign x that => do
    let o ← w.object x
    let o' ← w.object that
    if o.kind = o'.kind then
      let (impl,heap) ← copyImpl A w.heap o'.impl
      some { w with
        heap := releaseImpl heap o.impl
        objects := w.objects.set x (some ⟨o.kind,impl⟩) }
    else none
  | .set x s => do
    let o ← w.object x
    let heap ← Params.set w.heap o.impl s
    some { w with heap }
  | .get x g => do
    let v ← w.get x g
    some { w with observed := w.observed ++ [v] }
  | .putDefault x service_params => do
    let o ← w.object x
    let o' ← w.object service_params
    let heap ← putDefault A w.heap o.impl o'.impl
    some { w with heap }
  | .takeDefault x => do
    let o ← w.object x
    let (impl,heap) ← takeDefault A w.heap o.impl
    some { w with heap, objects := w.objects ++ [some ⟨.service,impl⟩] }
  | .getDefault x g => do
    let (v,heap) ← w.getDefault A x g
    some { w with heap, observed := w.observed ++ [v] }
  | .destroy x => do
    let o ← w.object x
    some { w with heap := releaseImpl w.heap o.impl, objects := w.objects.set x none }

def machine [Inhabited DW] [Inhabited DR] (A : MemoryAllocator DW DR) :
    Machine (World DW DR) (Op DW DR) := ⟨step A⟩

end World
end Params
end DdsRpc
