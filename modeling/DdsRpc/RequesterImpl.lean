import DdsRpc.Connext
import DdsRpc.Library.Machine
set_option autoImplicit false

namespace DdsRpc
open Connext

/-- The members that `RequesterImpl` adds to the Connext requester it derives from. A
promise is named by its place in the table of shared states. -/
structure RequesterImpl (α TRep : Type) where
  super : Requester (Request α) TRep
  instanceName : String
  sn : Nat
  suppressInvalid : Bool
  dict : StdMap DDS.SampleIdentity Nat DDS.SampleIdentity.lt
  id2idMap : StdMap SampleIdentity DDS.SampleIdentity SampleIdentity.lt

def SampleIdentity.withLow (id : SampleIdentity) (n : Nat) : SampleIdentity :=
  { id with sequenceNumber := { id.sequenceNumber with low := .ofNat n } }

namespace RequesterImpl
variable {α TRep : Type}

def init (writerGuid : DDS.GUID) : RequesterImpl α TRep :=
  ⟨.init writerGuid,"",0,true,.empty,.empty⟩

/-- What both sends write into the caller's header: `low` gets `++sn`, the other
fields of `requestId` stay as the caller left them. -/
def stamp (impl : RequesterImpl α TRep) (req : Request α) : Request α :=
  { req with
    header :=
      { requestId := req.header.requestId.withLow (impl.sn+1)
        instanceName :=
          if impl.instanceName.length > 0 then impl.instanceName else req.header.instanceName } }

/-- `send_request(TReq &)`; `sent = false` is the Connext send throwing. -/
def sendRequest (impl : RequesterImpl α TRep) (req : Request α) (sent : Bool) :
    RequesterImpl α TRep × Request α :=
  let req := impl.stamp req
  let impl := { impl with sn := impl.sn+1 }
  if sent then
    ({ impl with
        super := impl.super.sendRequest req
        id2idMap := impl.id2idMap.set req.header.requestId impl.super.nextIdentity },req)
  else (impl,req)

/-- `send_request(WriteSampleRef &)`, which passes the sample on unstamped. -/
def sendRequestRef (impl : RequesterImpl α TRep) (req : Request α) (sent : Bool) :
    RequesterImpl α TRep :=
  if sent then { impl with super := impl.super.sendRequest req } else impl

/-- `send_request_async` up to the creation of the thread: `p` is the promise whose
future it returns. -/
def sendRequestAsync (impl : RequesterImpl α TRep) (req : Request α) (p : Nat) (sent : Bool) :
    RequesterImpl α TRep × Request α :=
  let req := impl.stamp req
  let impl := { impl with sn := impl.sn+1 }
  if sent then
    ({ impl with
        super := impl.super.sendRequest req
        dict := impl.dict.set impl.super.nextIdentity p },req)
  else (impl,req)

def receiveNondataSamples (impl : RequesterImpl α TRep) (enable : Bool) :
    RequesterImpl α TRep × Bool :=
  ({ impl with suppressInvalid := enable },impl.suppressInvalid)

def withReader (impl : RequesterImpl α TRep) (rs : List (Sample TRep)) :
    RequesterImpl α TRep := { impl with super := { impl.super with reader := rs } }

def nullIdentity : DDS.SampleIdentity := ⟨⟨.zero 16⟩,⟨0,0⟩⟩

/-- The body of `receive_reply` after `wait_for_replies(1, timeout)` has returned true. -/
def takeRelated (T : TakeReply TRep) (impl : RequesterImpl α TRep) (reply : Sample TRep)
    (relatedRequestId : SampleIdentity) : RequesterImpl α TRep × Bool × Sample TRep :=
  let (identity,id2idMap) := impl.id2idMap.index relatedRequestId nullIdentity
  let impl := { impl with id2idMap }
  let (impl,reply,ret) :=
    match T.take impl.super.reader identity with
    | some (r,rest) => (impl.withReader rest,r,true)
    | none => (impl,reply,false)
  if impl.suppressInvalid && !reply.info.validData then (impl,false,reply)
  else ({ impl with id2idMap := impl.id2idMap.erase relatedRequestId },ret,reply)

theorem takeRelated_of_take {T : TakeReply TRep} {impl : RequesterImpl α TRep}
    {id : SampleIdentity} {i : DDS.SampleIdentity} {r : Sample TRep}
    {rest : List (Sample TRep)} (hf : impl.id2idMap.find id = some i)
    (ht : T.take impl.super.reader i = some (r,rest)) (reply : Sample TRep) :
    impl.takeRelated T reply id =
      if impl.suppressInvalid && !r.info.validData then (impl.withReader rest,false,r)
      else ({ impl.withReader rest with id2idMap := impl.id2idMap.erase id },true,r) := by
  simp only [takeRelated,StdMap.index_of_find hf,ht]
  rfl

theorem takeRelated_of_not_take {T : TakeReply TRep} {impl : RequesterImpl α TRep}
    {id : SampleIdentity} {i : DDS.SampleIdentity} (hf : impl.id2idMap.find id = some i)
    (ht : T.take impl.super.reader i = none) (reply : Sample TRep) :
    impl.takeRelated T reply id =
      if impl.suppressInvalid && !reply.info.validData then (impl,false,reply)
      else ({ impl with id2idMap := impl.id2idMap.erase id },false,reply) := by
  simp only [takeRelated,StdMap.index_of_find hf,ht]

end RequesterImpl
end DdsRpc
