import DdsRpc.RpcTypes
import Mathlib.Data.List.Perm.Basic
set_option autoImplicit false

/-! What the code relies on of RTI Connext: a requester has one writer that numbers its
samples 1,2,3,..., and one reader that keeps a reply until it is taken; a replier has a
reader of requests and a writer of replies. -/

namespace DdsRpc

/-- The fields of `DDS::SampleInfo` that the code or its Connext base classes read. The
reader numbers its samples on reception. -/
structure SampleInfo where
  validData : Bool
  identity : DDS.SampleIdentity
  relatedIdentity : DDS.SampleIdentity
  receptionNumber : Nat
  deriving DecidableEq

structure Sample (T : Type) where
  data : T
  info : SampleInfo
  deriving DecidableEq

namespace Connext
variable {TReq TRep T : Type}

structure Arrival (T : Type) where
  data : T
  validData : Bool
  identity : DDS.SampleIdentity
  relatedIdentity : DDS.SampleIdentity
  deriving DecidableEq

def Arrival.sample (a : Arrival T) (n : Nat) : Sample T :=
  ⟨a.data,⟨a.validData,a.identity,a.relatedIdentity,n⟩⟩

structure WriteSample (T : Type) where
  data : T
  identity : DDS.SampleIdentity
  deriving DecidableEq

/-- `connext::Requester`: a request writer and a reply reader. -/
structure Requester (TReq TRep : Type) where
  writerGuid : DDS.GUID
  written : List (WriteSample TReq)
  reader : List (Sample TRep)
  received : Nat

def Requester.init (writerGuid : DDS.GUID) : Requester TReq TRep := ⟨writerGuid,[],[],0⟩

def Requester.nextIdentity (r : Requester TReq TRep) : DDS.SampleIdentity :=
  ⟨r.writerGuid,.nth (r.written.length+1)⟩

/-- A `send_request` that does not throw; one that throws writes nothing. -/
def Requester.sendRequest (r : Requester TReq TRep) (req : TReq) : Requester TReq TRep :=
  { r with written := r.written ++ [⟨req,r.nextIdentity⟩] }

def Requester.arrive (r : Requester TReq TRep) (a : Arrival TRep) : Requester TReq TRep :=
  { r with reader := r.reader ++ [a.sample (r.received+1)], received := r.received+1 }

/-- `take_reply(s, id)`. It removes one reply related to `id` when there is one; which
one of several is left open. -/
structure TakeReply (TRep : Type) where
  take : List (Sample TRep) → DDS.SampleIdentity → Option (Sample TRep × List (Sample TRep))
  take_some : ∀ {rs : List (Sample TRep)} {i : DDS.SampleIdentity} {r : Sample TRep}
    {rest : List (Sample TRep)}, take rs i = some (r,rest) →
    r.info.relatedIdentity = i ∧ rs.Perm (r :: rest)
  take_none : ∀ {rs : List (Sample TRep)} {i : DDS.SampleIdentity}, take rs i = none →
    ∀ r ∈ rs, r.info.relatedIdentity ≠ i

def takeOldest (i : DDS.SampleIdentity) :
    List (Sample TRep) → Option (Sample TRep × List (Sample TRep))
  | [] => none
  | r :: rs =>
    if r.info.relatedIdentity = i then some (r,rs)
    else (takeOldest i rs).map (fun p => (p.1,r :: p.2))

def TakeReply.oldest : TakeReply TRep where
  take rs i := takeOldest i rs
  take_some := by
    intro rs i r rest h
    induction rs generalizing rest with
    | nil => simp [takeOldest] at h
    | cons s rs ih =>
      by_cases hs : s.info.relatedIdentity = i
      · simp only [takeOldest,hs,if_true,Option.some.injEq,Prod.mk.injEq] at h
        obtain ⟨rfl,rfl⟩ := h
        exact ⟨hs,.refl _⟩
      · simp only [takeOldest,hs,if_false,Option.map_eq_some_iff] at h
        obtain ⟨⟨x,ys⟩,hx,hp⟩ := h
        obtain ⟨rfl,rfl⟩ := Prod.mk.inj hp
        obtain ⟨hrel,hperm⟩ := ih hx
        exact ⟨hrel,(hperm.cons s).trans (.swap _ _ _)⟩
  take_none := by
    intro rs i h
    induction rs with
    | nil => simp
    | cons s rs ih =>
      by_cases hs : s.info.relatedIdentity = i
      · simp [takeOldest,hs] at h
      · simp only [takeOldest,hs,if_false,Option.map_eq_none_iff] at h
        simpa [hs] using ih h

theorem TakeReply.exists_take (T : TakeReply TRep) {rs : List (Sample TRep)}
    {i : DDS.SampleIdentity} {r : Sample TRep} (hr : r ∈ rs)
    (hi : r.info.relatedIdentity = i) : ∃ x rest, T.take rs i = some (x,rest) := by
  cases ht : T.take rs i with
  | none => exact absurd hi (T.take_none ht r hr)
  | some p => exact ⟨p.1,p.2,rfl⟩

structure WriteReply (T : Type) where
  data : T
  relatedIdentity : DDS.SampleIdentity
  deriving DecidableEq

structure Replier (TReq TRep : Type) where
  reader : List (Sample TReq)
  written : List (WriteReply TRep)

def Replier.sendReply (r : Replier TReq TRep) (reply : TRep)
    (relatedIdentity : DDS.SampleIdentity) : Replier TReq TRep :=
  { r with written := r.written ++ [⟨reply,relatedIdentity⟩] }

/-- `receive_request` takes the first request there is when the wait ends; it leaves the
caller's sample alone when there is none. -/
def Replier.receiveRequest (r : Replier TReq TRep) (sample : Sample TReq) :
    Replier TReq TRep × Bool × Sample TReq :=
  match r.reader with
  | [] => (r,false,sample)
  | s :: rest => ({ r with reader := rest },true,s)

end Connext
end DdsRpc
