import DdsRpc.Session
import Mathlib.Data.List.Range
set_option autoImplicit false

/-! The two counters of a requester: `sn`, which goes up at every stamp, and the
sequence number of its writer, which goes up at every successful write. -/

namespace DdsRpc
open Connext

namespace Session
variable {α TRep : Type} {T : TakeReply TRep}

def stamped (w : Session α TRep) : List RequestRecord := w.requests.filter RequestRecord.stamped

def sent (w : Session α TRep) : List RequestRecord := w.requests.filter RequestRecord.sent

def stampedIds (w : Session α TRep) : List SampleIdentity := w.stamped.map (·.requestId)

def stampedBuffers (w : Session α TRep) : List SampleIdentity := w.stamped.map (·.buffer)

structure SendsUnchanged (w w' : Session α TRep) : Prop where
  sn : w'.impl.sn = w.impl.sn
  writerGuid : w'.impl.super.writerGuid = w.impl.super.writerGuid
  written : w'.impl.super.written = w.impl.super.written
  requests : w'.requests = w.requests

theorem AppUnchanged.sends {w w' : Session α TRep} (h : AppUnchanged w w') :
    SendsUnchanged w w' := ⟨h.sn,h.writerGuid,h.written,h.requests⟩

theorem SendsUnchanged.stamped {w w' : Session α TRep} (h : SendsUnchanged w w') :
    w'.stamped = w.stamped := by simp only [Session.stamped,h.requests]

theorem SendsUnchanged.stamped_subset {w w' : Session α TRep} (h : SendsUnchanged w w') :
    w.stamped ⊆ w'.stamped := by rw [h.stamped]; exact List.Subset.refl _

theorem Received.sends {w w' : Session α TRep} {reply reply' : Sample TRep}
    {id : SampleIdentity} {fs : List (Env TRep)} {ret : Bool}
    (h : Received T w reply id fs w' ret reply') : SendsUnchanged w w' := by
  cases h with
  | unknown => exact ⟨rfl,rfl,rfl,rfl⟩
  | timedOut hrun => exact (envRun_unchanged hrun).sends
  | delivered hrun => exact ⟨(envRun_unchanged hrun).sn,(envRun_unchanged hrun).writerGuid,
      (envRun_unchanged hrun).written,(envRun_unchanged hrun).requests⟩
  | suppressed hrun => exact ⟨(envRun_unchanged hrun).sn,(envRun_unchanged hrun).writerGuid,
      (envRun_unchanged hrun).written,(envRun_unchanged hrun).requests⟩
  | kept hrun => exact (envRun_unchanged hrun).sends
  | dropped hrun => exact ⟨(envRun_unchanged hrun).sn,(envRun_unchanged hrun).writerGuid,
      (envRun_unchanged hrun).written,(envRun_unchanged hrun).requests⟩

theorem recordReturn_sends (w : Session α TRep) (id : SampleIdentity) (ret : Bool)
    (reply : Sample TRep) : SendsUnchanged w (w.recordReturn id ret reply) := by
  cases ret <;> exact ⟨rfl,rfl,rfl,rfl⟩

def Event.isSend : Event α TRep → Bool
  | .sendRequest _ _ | .sendRequestRef _ _ | .sendRequestAsync _ _ => true
  | _ => false

theorem step_sendsUnchanged {w w' : Session α TRep} {e : Event α TRep}
    (h : w.step T e = some w') (he : e.isSend = false) : SendsUnchanged w w' := by
  cases e with
  | sendRequest | sendRequestRef | sendRequestAsync => cases he
  | receiveNondataSamples enable =>
    cases h
    exact ⟨rfl,rfl,rfl,rfl⟩
  | receiveReply reply id during between =>
    obtain ⟨⟨w₁,ret,r⟩,hrecv,rfl⟩ := Option.map_eq_some_iff.mp h
    have hr := receiveReply_around hrecv
    have h₁ := hr.sends
    have h₂ := recordReturn_sends w₁ id ret r
    exact ⟨h₂.sn.trans h₁.sn,h₂.writerGuid.trans h₁.writerGuid,h₂.written.trans h₁.written,
      h₂.requests.trans h₁.requests⟩
  | env e => exact (envStep_unchanged h).sends

/-- What a send does to the counters and to its record. -/
structure Sends (w w' : Session α TRep) (q : RequestRecord) : Prop where
  sn : w'.impl.sn = w.impl.sn+q.stamped.toNat
  writerGuid : w'.impl.super.writerGuid = w.impl.super.writerGuid
  written : w'.impl.super.written.length = w.impl.super.written.length+q.sent.toNat
  requests : w'.requests = w.requests ++ [q]
  requestId : q.stamped → q.requestId = q.buffer.withLow (w.impl.sn+1)
  identity : q.sent → q.identity = some w.impl.super.nextIdentity

theorem Sends.stamped_subset {w w' : Session α TRep} {q : RequestRecord} (h : Sends w w' q) :
    w.stamped ⊆ w'.stamped := by
  simp [Session.stamped,h.requests]

theorem sendRequest_sends (w : Session α TRep) (req : Request α) (sent : Bool) :
    Sends w (w.sendRequest req sent) (w.record .sync req sent) := by
  cases sent
  · exact ⟨rfl,rfl,rfl,rfl,fun _ => rfl,fun h => (nomatch h)⟩
  · refine ⟨rfl,rfl,?_,rfl,fun _ => rfl,fun _ => rfl⟩
    simp [sendRequest,RequesterImpl.sendRequest,Requester.sendRequest,record,RequestRecord.sent]

theorem sendRequestRef_sends (w : Session α TRep) (req : Request α) (sent : Bool) :
    Sends w (w.sendRequestRef req sent) (w.record .ref req sent) := by
  cases sent
  · exact ⟨rfl,rfl,rfl,rfl,fun h => (nomatch h),fun h => (nomatch h)⟩
  · refine ⟨rfl,rfl,?_,rfl,fun h => (nomatch h),fun _ => rfl⟩
    simp [sendRequestRef,RequesterImpl.sendRequestRef,Requester.sendRequest,record,
      RequestRecord.sent]

theorem sendRequestAsync_sends (w : Session α TRep) (req : Request α) (sent : Bool) :
    Sends w (w.sendRequestAsync req sent)
      (w.record (.async w.promises.length) req sent) := by
  cases sent
  · exact ⟨rfl,rfl,rfl,rfl,fun _ => rfl,fun h => (nomatch h)⟩
  · refine ⟨rfl,rfl,?_,rfl,fun _ => rfl,fun _ => rfl⟩
    simp [sendRequestAsync,RequesterImpl.sendRequestAsync,Requester.sendRequest,record,
      RequestRecord.sent]

theorem step_sends {w w' : Session α TRep} {e : Event α TRep} (h : w.step T e = some w')
    (he : e.isSend = true) : ∃ q, Sends w w' q := by
  cases e with
  | sendRequest req sent => cases h; exact ⟨_,sendRequest_sends w req sent⟩
  | sendRequestRef req sent => cases h; exact ⟨_,sendRequestRef_sends w req sent⟩
  | sendRequestAsync req sent => cases h; exact ⟨_,sendRequestAsync_sends w req sent⟩
  | receiveNondataSamples | receiveReply | env => cases he

structure Numbering (w : Session α TRep) : Prop where
  sn : w.impl.sn = w.stamped.length
  written : w.impl.super.written.length = w.sent.length
  ids : w.stampedIds = (w.stampedBuffers.zipIdx 1).map (fun p => p.1.withLow p.2)
  identities : w.sent.map (·.identity) = (List.range w.sent.length).map
    (fun n => some ⟨w.impl.super.writerGuid,.nth (n+1)⟩)

theorem numbering_init (guid : DDS.GUID) : Numbering (init guid : Session α TRep) :=
  ⟨rfl,rfl,rfl,rfl⟩

theorem numbering_of_sendsUnchanged {w w' : Session α TRep} (h : SendsUnchanged w w')
    (hw : Numbering w) : Numbering w' := by
  have hst := h.stamped
  have hse : w'.sent = w.sent := by simp only [sent,h.requests]
  constructor
  · rw [h.sn,hst,hw.sn]
  · rw [h.written,hse,hw.written]
  · simp only [stampedIds,stampedBuffers,hst]
    exact hw.ids
  · rw [hse,h.writerGuid,hw.identities]

theorem numbering_of_sends {w w' : Session α TRep} {q : RequestRecord} (h : Sends w w' q)
    (hw : Numbering w) : Numbering w' := by
  have hst : w'.stamped = w.stamped ++ [q].filter RequestRecord.stamped := by
    simp only [stamped,h.requests,List.filter_append]
  have hse : w'.sent = w.sent ++ [q].filter RequestRecord.sent := by
    simp only [sent,h.requests,List.filter_append]
  constructor
  · rw [h.sn,hst,hw.sn]
    cases hq : q.stamped <;> simp [hq]
  · rw [h.written,hse,hw.written]
    cases hq : q.sent <;> simp [hq]
  · have hids := hw.ids
    simp only [stampedIds,stampedBuffers] at hids ⊢
    rw [hst,List.map_append,List.map_append,List.zipIdx_append,List.map_append,hids]
    cases hq : q.stamped with
    | false => simp [hq]
    | true => simp [hq,h.requestId hq,hw.sn,Nat.add_comm]
  · rw [hse,List.map_append,hw.identities,h.writerGuid]
    cases hq : q.sent with
    | false => simp [hq]
    | true =>
      simp [hq,h.identity hq,List.range_succ,Requester.nextIdentity,hw.written]

theorem numbering_step {w w' : Session α TRep} {e : Event α TRep}
    (h : w.step T e = some w') (hw : Numbering w) : Numbering w' := by
  cases he : e.isSend with
  | false => exact numbering_of_sendsUnchanged (step_sendsUnchanged h he) hw
  | true =>
    obtain ⟨q,hq⟩ := step_sends h he
    exact numbering_of_sends hq hw

theorem numbering_run {guid : DDS.GUID} {w : Session α TRep} {es : List (Event α TRep)}
    (h : (machine T).run (init guid) es = some w) : Numbering w :=
  Machine.run_preserves (P := Numbering) numbering_step h (numbering_init guid)

end Session
end DdsRpc
