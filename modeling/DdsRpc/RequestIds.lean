import DdsRpc.ReceiveReply
import DdsRpc.ReplierImpl
set_option autoImplicit false

namespace DdsRpc
open Connext

theorem SampleIdentity.withLow_eq_iff {a b : SampleIdentity} {m n : Nat} (hm : m < 2^32)
    (hn : n < 2^32) : a.withLow m = b.withLow n ↔
      m = n ∧ a.writerGuid = b.writerGuid ∧ a.sequenceNumber.high = b.sequenceNumber.high := by
  obtain ⟨ag,ah,al⟩ := a
  obtain ⟨bg,bh,bl⟩ := b
  simp only [withLow,SampleIdentity.mk.injEq,SequenceNumber.mk.injEq]
  constructor
  · rintro ⟨hg,hh,hl⟩
    exact ⟨uint32_ofNat_inj hm hn hl,hg,hh⟩
  · rintro ⟨rfl,hg,hh⟩
    exact ⟨hg,hh,rfl⟩

namespace Session
variable {α β TRep : Type} {T : TakeReply TRep}

theorem Numbering.requestId {w : Session α TRep} (hw : Numbering w) {n : Nat}
    {q : RequestRecord} (hq : w.stamped[n]? = some q) : q.requestId = q.buffer.withLow (n+1) := by
  have hids := congrArg (fun l => l[n]?) hw.ids
  simp only [stampedIds,stampedBuffers,List.getElem?_map,List.getElem?_zipIdx,hq,
    Option.map_some,Option.some.injEq] at hids
  rw [hids,Nat.add_comm]

/-- The call ends at once with "Unknown dds::SampleIdentity", whatever arrives. -/
def Rejects (T : TakeReply TRep) (w : Session α TRep) (reply : Sample TRep)
    (id : SampleIdentity) : Prop :=
  ∀ during between, w.receiveReply T reply id during between = some (w,false,reply)

theorem takeRelated_received (impl : RequesterImpl α TRep) (reply : Sample TRep)
    (id : SampleIdentity) :
    (impl.takeRelated T reply id).1.super.received = impl.super.received := by
  unfold RequesterImpl.takeRelated
  dsimp only
  split <;> split <;> rfl

theorem rejects_iff {w : Session α TRep} {reply : Sample TRep} {id : SampleIdentity} :
    Rejects T w reply id ↔ w.impl.id2idMap.find id = none := by
  constructor
  · intro h
    by_contra hne
    obtain ⟨i,hf⟩ := Option.ne_none_iff_exists'.mp hne
    -- one more reply comes between the wait and the take, and stays counted
    let a : Arrival TRep := ⟨reply.data,true,i,i⟩
    have hne : (w.afterFirst [a]).reader.isEmpty = false ∧
        w.impl.super.received ≤ (w.afterFirst [a]).impl.super.received := by
      cases hr : w.reader <;> simp [afterFirst,hr,arrive,Requester.arrive,reader]
    have hat : w.atTake T [.arrive a] [.arrive a] = some ((w.afterFirst [a]).arrive a) := by
      have hwait := waitForReplies_arrivals (T := T) w [a]
      simp only [List.map_cons,List.map_nil] at hwait
      simp only [atTake,hwait,hne.1,Bool.not_false]
      rfl
    have hcall := h [.arrive a] [.arrive a]
    rw [receiveReply_atTake hf hat] at hcall
    have hreceived := congrArg (fun p => p.map (·.1.impl.super.received)) hcall
    simp only [Option.map_some,Option.some.injEq,takeRelated_received] at hreceived
    simp only [arrive,Requester.arrive] at hreceived
    omega
  · intro hf during between
    simp [receiveReply,hf]

/-- An id is as good as the low word in it: `receive_reply` takes the id of another
requester's request for its own pending request of that number. -/
theorem Entries.rejects_iff {w : Session α TRep} (hw : Entries w) {reply : Sample TRep}
    {id : SampleIdentity} : Rejects T w reply id ↔
      ∀ q ∈ w.stamped, q.path = .sync →
        q.requestId.sequenceNumber.low = id.sequenceNumber.low →
        w.impl.id2idMap.find q.requestId = none := by
  rw [Session.rejects_iff]
  constructor
  · intro hf q _ _ hlow
    rw [w.impl.id2idMap.find_congr (SampleIdentity.equivalent_iff.mpr hlow),hf]
  · intro hall
    by_contra hne
    obtain ⟨i,hf⟩ := Option.ne_none_iff_exists'.mp hne
    obtain ⟨q,hq,hpath,hlow,-⟩ := hw id i hf
    have hnone := hall q hq hpath hlow
    rw [w.impl.id2idMap.find_congr (SampleIdentity.equivalent_iff.mpr hlow),hf] at hnone
    cases hnone

/-- Ids differ within one requester. Between two of them they are equal as soon as the
positions are, the rest of an id being what the caller's buffer held. -/
theorem requestIds_family {ι : Type} [DecidableEq ι] {guid : ι → DDS.GUID}
    {es : List (ι × Event α TRep)} {w : ι → Session α TRep}
    (h : ((machine T).family ι).run (fun i => init (guid i)) es = some w)
    (hlen : ∀ i, (w i).requests.length < 2^31) :
    (∀ i, (w i).stampedIds.Nodup) ∧
    (∀ i j (m n : Nat) (q q' : RequestRecord), (w i).stamped[m]? = some q →
      (w j).stamped[n]? = some q' →
      (q.requestId = q'.requestId ↔ m = n ∧ q.buffer.writerGuid = q'.buffer.writerGuid ∧
        q.buffer.sequenceNumber.high = q'.buffer.sequenceNumber.high)) ∧
    ∀ i reply id, Rejects T (w i) reply id ↔ ∀ q ∈ (w i).stamped, q.path = .sync →
      q.requestId.sequenceNumber.low = id.sequenceNumber.low →
      (w i).impl.id2idMap.find q.requestId = none := by
  have hrun := Machine.run_family h
  have hlt : ∀ {i n q}, (w i).stamped[n]? = some q → n+1 < 2^32 := by
    intro i n q hq
    have hn := (List.getElem?_eq_some_iff.mp hq).1
    have := (w i).stamped_length_le
    have := hlen i
    omega
  refine ⟨fun i => ?_,fun i j m n q q' hq hq' => ?_,fun i reply id => ?_⟩
  · have hlows := (numbering_run (hrun i)).nodup_lows (Nat.lt_trans (hlen i) (by omega))
    exact List.Nodup.of_map (·.sequenceNumber.low)
      (by simpa [stampedIds,Function.comp_def] using hlows)
  · rw [(numbering_run (hrun i)).requestId hq,(numbering_run (hrun j)).requestId hq',
      SampleIdentity.withLow_eq_iff (hlt hq) (hlt hq')]
    simp
  · exact (entries_run (hrun i)).rejects_iff

def requesterGuid (i : Bool) : DDS.GUID := .ofByte (if i then 1 else 0)

def reusedBuffers : List (Bool × Event Unit Unit) :=
  [(false,.sendRequest ⟨.initial,()⟩ true),(true,.sendRequest ⟨.initial,()⟩ true),
    (true,.sendRequest ⟨⟨RequestHeader.initial.requestId.withLow 1,""⟩,()⟩ true),
    (false,.sendRequest ⟨⟨RequestHeader.initial.requestId.withLow 1,""⟩,()⟩ true)]

theorem requestIds_twoRequesters : ∃ w : Bool → Session Unit Unit, ∃ q q',
    ((machine .oldest).family Bool).run (fun i => init (requesterGuid i)) reusedBuffers =
      some w ∧ (∀ i, (w i).stampedIds.length = 2 ∧ (w i).stampedIds.Nodup) ∧
    (w false).stamped[1]? = some q ∧ (w true).stamped[1]? = some q' ∧
    q.requestId = q'.requestId := by
  obtain ⟨w,q,q',hw,hlen,hq,hq',hguid,hhigh⟩ : ∃ w : Bool → Session Unit Unit, ∃ q q',
      ((machine .oldest).family Bool).run (fun i => init (requesterGuid i)) reusedBuffers =
        some w ∧ (∀ i, (w i).stampedIds.length = 2 ∧ (w i).requests.length = 2) ∧
      (w false).stamped[1]? = some q ∧ (w true).stamped[1]? = some q' ∧
      q.buffer.writerGuid = q'.buffer.writerGuid ∧
      q.buffer.sequenceNumber.high = q'.buffer.sequenceNumber.high :=
    ⟨_,_,_,rfl,by decide,rfl,rfl,rfl,rfl⟩
  obtain ⟨hnodup,heq,-⟩ := requestIds_family hw (fun i => by rw [(hlen i).2]; decide)
  exact ⟨w,q,q',hw,fun i => ⟨(hlen i).1,hnodup i⟩,hq,hq',
    (heq false true 1 1 q q' hq hq').mpr ⟨rfl,hguid,hhigh⟩⟩

def twoRequesters : List (Bool × Event Unit Unit) :=
  [(false,.sendRequest ⟨.initial,()⟩ true),(true,.sendRequest ⟨.initial,()⟩ true)]

theorem requestIds_collide : ∃ w : Bool → Session Unit Unit, ∃ q q',
    ((machine .oldest).family Bool).run (fun i => init (requesterGuid i)) twoRequesters =
      some w ∧ (w false).stamped = [q] ∧ (w true).stamped = [q'] ∧
    q.identity ≠ q'.identity ∧ q.requestId = q'.requestId ∧
    ¬ Rejects .oldest (w true) usedSample q.requestId :=
  ⟨_,_,_,rfl,rfl,rfl,by decide,rfl,fun h => (nomatch (rejects_iff.mp h))⟩

def Event.failedStamp : Event α TRep → Bool
  | .sendRequest _ false | .sendRequestAsync _ false => true
  | _ => false

def Event.refSent : Event α TRep → Bool
  | .sendRequestRef _ true => true
  | _ => false

def Event.stampedSent : Event α TRep → Bool
  | .sendRequest _ true | .sendRequestAsync _ true => true
  | _ => false

theorem step_sends_kind {w w' : Session α TRep} {e : Event α TRep}
    (h : w.step T e = some w') (he : e.isSend = true) :
    ∃ q, Sends w w' q ∧ e.refSent = (q.sent && !q.stamped) ∧
      e.failedStamp = (q.stamped && !q.sent) := by
  cases e with
  | sendRequest req sent =>
    cases h
    exact ⟨_,sendRequest_sends w req sent,by cases sent <;> rfl,by cases sent <;> rfl⟩
  | sendRequestRef req sent =>
    cases h
    exact ⟨_,sendRequestRef_sends w req sent,by cases sent <;> rfl,by cases sent <;> rfl⟩
  | sendRequestAsync req sent =>
    cases h
    exact ⟨_,sendRequestAsync_sends w req sent,by cases sent <;> rfl,by cases sent <;> rfl⟩
  | receiveNondataSamples | receiveReply | env => cases he

theorem counters_step {w w' : Session α TRep} {e : Event α TRep} (h : w.step T e = some w') :
    w'.impl.sn+w.impl.super.written.length+e.refSent.toNat =
      w.impl.sn+w'.impl.super.written.length+e.failedStamp.toNat := by
  cases he : e.isSend with
  | false =>
    have hsame := step_sendsUnchanged h he
    cases e with
    | sendRequest | sendRequestRef | sendRequestAsync => cases he
    | _ => simp [hsame.sn,hsame.written,Event.refSent,Event.failedStamp]
  | true =>
    obtain ⟨q,hq,href,hfailed⟩ := step_sends_kind h he
    rw [hq.sn,hq.written,href,hfailed]
    cases q.stamped <;> cases q.sent <;> simp <;> omega

/-- The two counters drift apart by the stamped sends that throw and the sends that do
not stamp. -/
theorem counters_run {w w' : Session α TRep} {es : List (Event α TRep)}
    (h : (machine T).run w es = some w') :
    w'.impl.sn+w.impl.super.written.length+es.countP Event.refSent =
      w.impl.sn+w'.impl.super.written.length+es.countP Event.failedStamp := by
  induction es generalizing w with
  | nil =>
    cases h
    rfl
  | cons e es ih =>
    obtain ⟨u,hu,hrun⟩ := Machine.run_cons.mp h
    have hstep := counters_step hu
    have hrest := ih hrun
    have hnat : ∀ b : Bool, (if b = true then 1 else 0) = b.toNat := by decide
    simp only [List.countP_cons,hnat]
    omega

/-- The header of `reply` names the request `q`, the last one sent in `w`: its entry is
found under `relatedRequestId` as it is under the id stamped into it. -/
structure NamesRequest (T : TakeReply TRep) (w : Session α TRep) (q : RequestRecord)
    (reply : Reply β) : Prop where
  equivalent : Equivalent SampleIdentity.lt reply.header.relatedRequestId q.requestId
  entry : q.path = .sync → w.impl.id2idMap.find reply.header.relatedRequestId = q.identity
  lookup : ∀ es u, (machine T).run w es = some u →
    u.impl.id2idMap.find reply.header.relatedRequestId = u.impl.id2idMap.find q.requestId

theorem stampedSent_step {w w' : Session α TRep} {e : Event α TRep} (he : e.stampedSent)
    (h : w.step T e = some w') : ∃ q, w'.requests = w.requests ++ [q] ∧
      q.requestId.sequenceNumber.low = .ofNat (w.impl.sn+1) ∧
      q.identity = some w.impl.super.nextIdentity ∧
      (q.path = .sync → w'.impl.id2idMap.find q.requestId = q.identity) := by
  cases e with
  | sendRequest req sent =>
    cases sent with
    | false => cases he
    | true =>
      cases h
      exact ⟨w.record .sync req true,rfl,rfl,rfl,fun _ => StdMap.find_set_self _ _ _⟩
  | sendRequestAsync req sent =>
    cases sent with
    | false => cases he
    | true =>
      cases h
      exact ⟨w.record (.async w.promises.length) req true,rfl,rfl,rfl,fun hpath => (nomatch hpath)⟩
  | sendRequestRef | receiveNondataSamples | receiveReply | env => cases he

theorem uint32_ofNat_eq_iff {m n : Nat} :
    UInt32.ofNat m = UInt32.ofNat n ↔ m % 2^32 = n % 2^32 := by
  rw [← UInt32.toNat_inj,UInt32.toNat_ofNat',UInt32.toNat_ofNat']

/-- The reply to a stamped request names it exactly when as many stamped sends have
thrown before it as sends have gone out unstamped. -/
theorem namesRequest_iff {guid : DDS.GUID} {es : List (Event α TRep)} {e : Event α TRep}
    {w' : Session α TRep} (he : e.stampedSent)
    (h : (machine T).run (init guid) (es ++ [e]) = some w') :
    ∃ q i, w'.requests.getLast? = some q ∧ q.identity = some i ∧ ∀ reply : Reply β,
      NamesRequest T w' q (ReplierImpl.outgoing reply (toRpcSampleIdentity i)) ↔
        es.countP Event.failedStamp % 2^32 = es.countP Event.refSent % 2^32 := by
  obtain ⟨w,hrun,hlast⟩ := Machine.run_append.mp h
  obtain ⟨u,hstep,hnil⟩ := Machine.run_cons.mp hlast
  cases hnil
  obtain ⟨q,hreq,hlow,hident,hentry⟩ := stampedSent_step he hstep
  have hcount := counters_run hrun
  simp only [init,RequesterImpl.init,Requester.init,List.length_nil,Nat.add_zero,
    Nat.zero_add] at hcount
  have hequiv : Equivalent SampleIdentity.lt (toRpcSampleIdentity w.impl.super.nextIdentity)
      q.requestId ↔ es.countP Event.failedStamp % 2^32 = es.countP Event.refSent % 2^32 := by
    have hlow' : (toRpcSampleIdentity w.impl.super.nextIdentity).sequenceNumber.low =
      .ofNat (w.impl.super.written.length+1) := rfl
    rw [SampleIdentity.equivalent_iff,hlow,hlow',uint32_ofNat_eq_iff]
    omega
  refine ⟨q,_,by simp [hreq],hident,fun reply => ?_⟩
  rw [← hequiv]
  refine ⟨fun hn => hn.equivalent,fun heq => ⟨heq,fun hpath => ?_,fun _ u _ => ?_⟩⟩
  · rw [← hentry hpath]
    exact StdMap.find_congr _ heq
  · exact StdMap.find_congr _ heq

def evened : List (Event Unit Unit) :=
  [.sendRequest ⟨.initial,()⟩ false,.sendRequestRef ⟨.initial,()⟩ true]

theorem namesRequest_evened : ∃ w : Session Unit Unit, ∃ q i,
    (machine .oldest).run (init ⟨.zero 16⟩) (evened ++ [.sendRequest ⟨.initial,()⟩ true]) =
      some w ∧
    w.requests.getLast? = some q ∧ q.identity = some i ∧
    NamesRequest .oldest w q
      (ReplierImpl.outgoing (⟨⟨RequestHeader.initial.requestId,.ok⟩,()⟩ : Reply Unit)
        (toRpcSampleIdentity i)) := by
  have hrun : (machine .oldest).run (init ⟨.zero 16⟩)
      (evened ++ [.sendRequest ⟨.initial,()⟩ true]) = some _ := rfl
  obtain ⟨q,i,hq,hi,hiff⟩ := namesRequest_iff (β := Unit) rfl hrun
  exact ⟨_,q,i,hrun,hq,hi,(hiff _).mpr (by decide)⟩

theorem namesRequest_fails : ∃ w : Session Unit Unit, ∃ q i,
    (machine .oldest).run (init ⟨.zero 16⟩)
      [.sendRequest ⟨.initial,()⟩ false,.sendRequest ⟨.initial,()⟩ true] = some w ∧
    w.requests.getLast? = some q ∧ q.identity = some i ∧
    ∀ reply : Reply Unit,
      ¬ NamesRequest .oldest w q (ReplierImpl.outgoing reply (toRpcSampleIdentity i)) := by
  refine ⟨_,_,_,rfl,rfl,rfl,fun reply hn => ?_⟩
  have hlow : UInt32.ofNat 1 = UInt32.ofNat 2 := SampleIdentity.equivalent_iff.mp hn.equivalent
  exact absurd hlow (by decide)

end Session
end DdsRpc
