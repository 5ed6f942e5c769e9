import DdsRpc.Connext
set_option autoImplicit false

namespace DdsRpc
open Connext

structure ReplierImpl (α β : Type) where
  super : Replier (Request α) (Reply β)
  suppressInvalid : Bool

namespace ReplierImpl
variable {α β : Type}

def init : ReplierImpl α β := ⟨⟨[],[]⟩,true⟩

/-- What `send_reply` makes of the caller's reply before it goes out. -/
def outgoing (reply : Reply β) (identity : SampleIdentity) : Reply β :=
  { reply with header := { relatedRequestId := identity, remoteEx := .ok } }

def sendReply (impl : ReplierImpl α β) (reply : Reply β) (identity : SampleIdentity) :
    ReplierImpl α β :=
  { impl with super := impl.super.sendReply (outgoing reply identity) (toConnextIdentity identity) }

def receiveRequest (impl : ReplierImpl α β) (sample : Sample (Request α)) :
    ReplierImpl α β × Bool × Sample (Request α) :=
  let (super,ret,sample) := impl.super.receiveRequest sample
  let impl := { impl with super }
  if impl.suppressInvalid && !sample.info.validData then (impl,false,sample)
  else (impl,ret,sample)

def receiveNondataSamples (impl : ReplierImpl α β) (enable : Bool) : ReplierImpl α β × Bool :=
  ({ impl with suppressInvalid := enable },impl.suppressInvalid)

theorem receiveRequest_cases (impl : ReplierImpl α β) (sample : Sample (Request α)) :
    (∃ r rest, impl.super.reader = r :: rest ∧
      (impl.suppressInvalid && !r.info.validData) = false ∧
      impl.receiveRequest sample = ({ impl with super.reader := rest },true,r)) ∨
    ((∀ r ∈ impl.super.reader.head?, (impl.suppressInvalid && !r.info.validData) = true) ∧
      ∃ s, impl.receiveRequest sample =
        ({ impl with super.reader := impl.super.reader.tail },false,s)) := by
  unfold receiveRequest Replier.receiveRequest
  cases hr : impl.super.reader with
  | nil =>
    refine .inr ⟨by simp,sample,?_⟩
    obtain ⟨⟨_,_⟩,_⟩ := impl
    cases hr
    dsimp only
    split <;> rfl
  | cons r rest =>
    cases hs : (impl.suppressInvalid && !r.info.validData) with
    | false => exact .inl ⟨r,rest,rfl,hs,by simp [hs]⟩
    | true => exact .inr ⟨by simpa using hs,r,by simp [hs]⟩

end ReplierImpl
end DdsRpc
