import DdsRpc.RequestReply
import DdsRpc.RemoteRefinement
set_option autoImplicit false

namespace DdsRpc
open Connext SharedObject

namespace Robot
variable {ts : TypeSupport}

/-- `process_request` as a client sees it that is connected to `robot` directly. -/
def answer (ts : TypeSupport) (status : String) (data : RobotControlCall) (robot : Robot) :
    Read data × Robot :=
  let request := { ts.requestSample with data.data := ts.createRequest.data.deserialize data }
  ((ts.receivedReply (robot.processRequest ts status request).1).data,
    (robot.processRequest ts status request).2)

theorem processRequest_answer (status : String) {r : Sample RobotControlRequest}
    {data : RobotControlCall} (h : r.data.data = ts.createRequest.data.deserialize data) (robot : Robot) :
    (ts.receivedReply (robot.processRequest ts status r).1).data =
        (answer ts status data robot).1 ∧
      (robot.processRequest ts status r).2 = (answer ts status data robot).2 := by
  simp only [answer,processRequest,h,and_self]

end Robot

theorem RobotServer.turn_cases (ts : TypeSupport) (status : String) {w : RobotServer}
    (hw : w.replier.suppressInvalid = true) :
    (w.replier.super.reader = [] ∧ w.turn ts status = w) ∨
    ∃ r rest, w.replier.super.reader = r :: rest ∧ (w.turn ts status =
      if r.info.validData then
        ⟨⟨⟨rest,w.replier.super.written ++
            [⟨ReplierImpl.outgoing (w.robot.processRequest ts status r).1
              (toRpcSampleIdentity r.info.identity),r.info.identity⟩]⟩,true⟩,
          (w.robot.processRequest ts status r).2⟩
      else ⟨⟨⟨rest,w.replier.super.written⟩,true⟩,w.robot⟩) := by
  obtain ⟨⟨⟨reader,written⟩,suppressInvalid⟩,robot⟩ := w
  obtain rfl : suppressInvalid = true := hw
  cases reader with
  | nil =>
    refine .inl ⟨rfl,?_⟩
    simp [turn,ReplierImpl.receiveRequest,Replier.receiveRequest]
  | cons r rest =>
    refine .inr ⟨r,rest,rfl,?_⟩
    cases hv : r.info.validData <;>
      simp [turn,ReplierImpl.receiveRequest,Replier.receiveRequest,ReplierImpl.sendReply,
        Replier.sendReply,hv]

namespace RrSystem

/-- The client waits for the reply to its request of identity `i`, under the id that it
finds in its own request. -/
structure Waits (g : DDS.GUID) (pending : Option RobotControlCall) (id : SampleIdentity)
    (map : StdMap SampleIdentity DDS.SampleIdentity SampleIdentity.lt) (data : RobotControlCall)
    (i : DDS.SampleIdentity) : Prop where
  guid : i.writerGuid = g
  pending : pending = some data
  entry : map = StdMap.empty.set id i

inductive Stage (ts : TypeSupport) (g : DDS.GUID) (pending : Option RobotControlCall)
    (id : SampleIdentity) (map : StdMap SampleIdentity DDS.SampleIdentity SampleIdentity.lt) :
    Places → Phase RobotControlCall Read → Prop where
  | idle : pending = none → map = .empty → Stage ts g pending id map ⟨[],[],[],[]⟩ .idle
  | sent {req : WriteSample RobotControlRequest} :
      Waits g pending id map req.data.data req.identity →
      Stage ts g pending id map ⟨[req],[],[],[]⟩ (.called req.data.data)
  | queued {data : RobotControlCall} {r : Sample RobotControlRequest} :
      Waits g pending id map data r.info.identity → r.info.validData = true →
      r.data.data = ts.createRequest.data.deserialize data →
      Stage ts g pending id map ⟨[],[r],[],[]⟩ (.called data)
  | answered {data : RobotControlCall} {reply : WriteReply RobotControlReply} :
      Waits g pending id map data reply.relatedIdentity →
      Stage ts g pending id map ⟨[],[],[reply],[]⟩
        (.served data (ts.receivedReply reply.data).data)
  | delivered {data : RobotControlCall} {s : Sample RobotControlReply} :
      Waits g pending id map data s.info.relatedIdentity → s.info.validData = true →
      Stage ts g pending id map ⟨[],[],[],[s]⟩ (.served data s.data.data)
  | lost {data : RobotControlCall} {i : DDS.SampleIdentity} {ph : Phase RobotControlCall Read} :
      Waits g pending id map data i → ph.ops = [data] →
      Stage ts g pending id map ⟨[],[],[],[]⟩ ph

variable {ι : Type} {T : TakeReply RobotControlReply} {ts : TypeSupport} {status : String}
  {guid : ι → DDS.GUID} {s₀ : Robot}

def queue (w : RrSystem ι) (g : DDS.GUID) : List (Sample RobotControlRequest) :=
  w.server.replier.super.reader.filter (fun r => r.info.identity.writerGuid = g)

def places (w : RrSystem ι) (g : DDS.GUID) (i : ι) : Places :=
  ⟨w.requests i,w.queue g,w.replies g,(w.requester i).reader⟩

theorem places_eq {w : RrSystem ι} {g : DDS.GUID} {i : ι} {p : Places}
    (h : w.places g i = p) : w.requests i = p.requests ∧ w.queue g = p.queue ∧
      w.replies g = p.replies ∧ (w.requester i).reader = p.reader := by
  subst h
  exact ⟨rfl,rfl,rfl,rfl⟩

def sentReplies (ts : TypeSupport) (w : RrSystem ι) : List (DDS.GUID × RobotControlReturn) :=
  w.server.replier.super.written.map
    (fun x => (x.relatedIdentity.writerGuid,(ts.receivedReply x.data).data))

structure Refines (ts : TypeSupport) (status : String) (guid : ι → DDS.GUID) (s₀ : Robot)
    (w : RrSystem ι) (t : State ι Robot RobotControlCall Read) : Prop where
  suppressInvalid : w.server.replier.suppressInvalid = true
  robot : w.server.robot = t.object
  sent : w.sentReplies ts =
    (direct (Robot.answer ts status) s₀ t.order).1.map (fun p => (guid p.1,p.2.2))
  issued : w.issued = t.issued
  returned : w.returned = t.returned
  senders : ∀ r ∈ w.server.replier.super.reader, ∃ i, r.info.identity.writerGuid = guid i
  writers : ∀ i, (w.requester i).impl.super.writerGuid = guid i
  stage : ∀ i, Stage ts (guid i) (w.pending i) (w.request i).header.requestId
    (w.requester i).impl.id2idMap (w.places (guid i) i) (t.phase i)

theorem refines_init (ts : TypeSupport) (status : String) (guid : ι → DDS.GUID) (s₀ : Robot) :
    Refines ts status guid s₀ (init ts guid s₀) (SharedObject.init s₀) where
  suppressInvalid := rfl
  robot := rfl
  sent := rfl
  issued := rfl
  returned := rfl
  senders _ hr := (nomatch hr)
  writers _ := rfl
  stage _ := .idle rfl rfl

variable [DecidableEq ι] {w w' : RrSystem ι} {t : State ι Robot RobotControlCall Read}

abbrev object (ts : TypeSupport) (status : String) :
    Machine (State ι Robot RobotControlCall Read) (SharedObject.Event ι RobotControlCall) :=
  SharedObject.machine (Robot.answer ts status)

omit [DecidableEq ι] in
theorem Refines.exists_stage (hw : Refines ts status guid s₀ w t) (i : ι) :
    ∃ p ph, w.places (guid i) i = p ∧ t.phase i = ph ∧
      Stage ts (guid i) (w.pending i) (w.request i).header.requestId
        (w.requester i).impl.id2idMap p ph :=
  ⟨_,_,rfl,rfl,hw.stage i⟩

theorem Refines.writers_update (hw : Refines ts status guid s₀ w t) {i : ι}
    {c : Session RobotControlCall RobotControlReply}
    (hc : c.impl.super.writerGuid = (w.requester i).impl.super.writerGuid) (j : ι) :
    (Function.update w.requester i c j).impl.super.writerGuid = guid j := by
  rcases eq_or_ne j i with rfl | hj
  · rw [Function.update_self,hc]
    exact hw.writers j
  · rw [Function.update_of_ne hj]
    exact hw.writers j

theorem refines_send (hw : Refines ts status guid s₀ w t) {i : ι} (hp : w.pending i = none)
    (data : RobotControlCall) (sent : Bool) :
    ∃ ds t', (object ts status).run t ds = some t' ∧
      Refines ts status guid s₀ (w.send i data sent) t' := by
  obtain ⟨p,ph,hpl,hph,hst⟩ := hw.exists_stage i
  cases hst with
  | sent hwait | queued hwait | answered hwait | delivered hwait | lost hwait =>
    have := hwait.pending
    rw [hp] at this
    cases this
  | idle _ hmap =>
    obtain ⟨hreq,hqueue,hrep,hreader⟩ := places_eq hpl
    cases sent with
    | false =>
      refine ⟨[],t,rfl,hw.suppressInvalid,hw.robot,hw.sent,hw.issued,hw.returned,hw.senders,
        hw.writers_update rfl,fun j => ?_⟩
      rcases eq_or_ne j i with rfl | hj
      · have hplaces : (w.send j data false).places (guid j) j = ⟨[],[],[],[]⟩ := by
          simp only [places,Places.mk.injEq]
          refine ⟨?_,hqueue,hrep,?_⟩
          · simp [send,Session.sendRequest,RequesterImpl.sendRequest,hreq]
          · simp only [send,Function.update_self]
            exact hreader
        rw [hplaces,hph]
        simp only [send,Function.update_self]
        exact .idle hp hmap
      · simpa [send,places,queue,hj] using hw.stage j
    | true =>
      refine ⟨[.call i data],_,Machine.run_singleton.trans (step_call hph data),
        hw.suppressInvalid,hw.robot,hw.sent,?_,hw.returned,hw.senders,hw.writers_update rfl,
        fun j => ?_⟩
      · simp only [send,hw.issued,if_true]
      rcases eq_or_ne j i with rfl | hj
      · have hplaces : (w.send j data true).places (guid j) j =
            ⟨[⟨(w.requester j).impl.stamp { w.request j with data },
              (w.requester j).impl.super.nextIdentity⟩],[],[],[]⟩ := by
          simp only [places,Places.mk.injEq]
          refine ⟨?_,hqueue,hrep,?_⟩
          · simp only [send,Function.update_self,hreq,written_sendRequest,List.drop_left,
              List.nil_append]
          · simp only [send,Function.update_self]
            exact hreader
        rw [hplaces]
        simp only [send,Function.update_self,if_true]
        exact Stage.sent ⟨hw.writers j,rfl,by rw [← hmap]; rfl⟩
      · simpa [send,places,queue,hj] using hw.stage j

theorem refines_loseRequest (hw : Refines ts status guid s₀ w t) {i : ι}
    {req : WriteSample RobotControlRequest} {rest : List (WriteSample RobotControlRequest)}
    (hreq : w.requests i = req :: rest) :
    Refines ts status guid s₀ (w.loseRequest i rest) t := by
  obtain ⟨p,ph,hpl,hph,hst⟩ := hw.exists_stage i
  obtain ⟨hreqs,hqueue,hrep,hreader⟩ := places_eq hpl
  cases hst with
  | idle | queued | answered | delivered | lost =>
    rw [hreqs] at hreq
    cases hreq
  | sent hwait =>
    rw [hreqs] at hreq
    obtain ⟨rfl,rfl⟩ := List.cons.inj hreq
    refine ⟨hw.suppressInvalid,hw.robot,hw.sent,hw.issued,hw.returned,hw.senders,hw.writers,
      fun j => ?_⟩
    rcases eq_or_ne j i with rfl | hj
    · simp only [loseRequest,places,queue,Function.update_self,hrep,hreader] at hqueue ⊢
      rw [hqueue,hph]
      exact .lost hwait rfl
    · simpa [loseRequest,places,queue,hj] using hw.stage j

theorem refines_deliverRequest (hg : Function.Injective guid)
    (hw : Refines ts status guid s₀ w t) {i : ι} {req : WriteSample RobotControlRequest}
    {rest : List (WriteSample RobotControlRequest)} (hreq : w.requests i = req :: rest) :
    Refines ts status guid s₀ (w.deliverRequest ts i req rest) t := by
  obtain ⟨p,ph,hpl,hph,hst⟩ := hw.exists_stage i
  obtain ⟨hreqs,hqueue,hrep,hreader⟩ := places_eq hpl
  cases hst with
  | idle | queued | answered | delivered | lost =>
    rw [hreqs] at hreq
    cases hreq
  | @sent req' hwait =>
    rw [hreqs] at hreq
    obtain ⟨rfl,rfl⟩ := List.cons.inj hreq
    refine ⟨hw.suppressInvalid,hw.robot,hw.sent,hw.issued,hw.returned,fun r hr => ?_,hw.writers,
      fun j => ?_⟩
    · rcases List.mem_append.mp hr with hr | hr
      · exact hw.senders r hr
      · rw [List.mem_singleton.mp hr]
        exact ⟨i,hwait.guid⟩
    · have hq : ∀ g, (w.deliverRequest ts i req' []).queue g = w.queue g ++
          if req'.identity.writerGuid = g then [w.requestSample ts req'] else [] := by
        intro g
        simp only [queue,deliverRequest,ReplierImpl.arrive,List.filter_append,
          List.filter_singleton,requestSample]
        split <;> simp_all
      rcases eq_or_ne j i with rfl | hj
      · simp only [places,hq,hqueue,hwait.guid,if_true,List.nil_append,hph]
        simp only [deliverRequest,loseRequest,Function.update_self,hrep,hreader]
        exact .queued hwait rfl rfl
      · have hne : ¬ req'.identity.writerGuid = guid j := by
          rw [hwait.guid]
          exact fun heq => hj (hg heq).symm
        simp only [places,hq,if_neg hne,List.append_nil]
        simpa [deliverRequest,loseRequest,places,hj] using hw.stage j

theorem Refines.exists_queued (hg : Function.Injective guid)
    (hw : Refines ts status guid s₀ w t) {r : Sample RobotControlRequest}
    {rest : List (Sample RobotControlRequest)}
    (hr : w.server.replier.super.reader = r :: rest) :
    ∃ i data, t.phase i = .called data ∧ r.info.identity.writerGuid = guid i ∧
      r.info.validData = true ∧ r.data.data = ts.createRequest.data.deserialize data ∧
      Waits (guid i) (w.pending i) (w.request i).header.requestId (w.requester i).impl.id2idMap
        data r.info.identity ∧
      w.places (guid i) i = ⟨[],[r],[],[]⟩ ∧
      ∀ j, rest.filter (fun r => r.info.identity.writerGuid = guid j) =
        if j = i then [] else w.queue (guid j) := by
  obtain ⟨i,hi⟩ := hw.senders r (by rw [hr]; exact .head _)
  have hq : w.queue (guid i) =
      r :: rest.filter (fun r => r.info.identity.writerGuid = guid i) := by
    simp [queue,hr,hi]
  obtain ⟨p,ph,hpl,hph,hst⟩ := hw.exists_stage i
  cases hst with
  | idle | sent | answered | delivered | lost =>
    rw [(places_eq hpl).2.1] at hq
    cases hq
  | @queued data r' hwait hv hdata =>
    rw [(places_eq hpl).2.1] at hq
    obtain ⟨rfl,hrest⟩ := List.cons.inj hq
    refine ⟨i,data,hph,hi,hv,hdata,hwait,hpl,fun j => ?_⟩
    rcases eq_or_ne j i with rfl | hj
    · rw [← hrest,if_pos rfl]
    · have hne : ¬ r'.info.identity.writerGuid = guid j := by
        rw [hi]
        exact fun heq => hj (hg heq).symm
      simp [queue,hr,hne,hj]

theorem refines_turn (hg : Function.Injective guid) (hw : Refines ts status guid s₀ w t)
    (ht : t.object = (direct (Robot.answer ts status) s₀ t.order).2) :
    ∃ ds t', (object ts status).run t ds = some t' ∧
      Refines ts status guid s₀ (w.turn ts status) t' := by
  rcases RobotServer.turn_cases ts status hw.suppressInvalid with ⟨hempty,hturn⟩ |
    ⟨r,rest,hr,hturn⟩
  · refine ⟨[],t,rfl,?_⟩
    have hsame : w.turn ts status = w := by
      simp [turn,hturn,System.route]
    rwa [hsame]
  · obtain ⟨i,data,hph,hi,hv,hdata,hwait,hpl,hrest⟩ := hw.exists_queued hg hr
    obtain ⟨hreqs,-,hrep,hreader⟩ := places_eq hpl
    obtain ⟨hout,hrobot⟩ := Robot.processRequest_answer status hdata w.server.robot
    rw [if_pos hv] at hturn
    refine ⟨[.serve i],_,Machine.run_singleton.trans (step_serve hph),?_⟩
    simp only [turn,hturn,List.drop_left]
    refine ⟨rfl,?_,?_,hw.issued,hw.returned,fun r' hr' => ?_,hw.writers,fun j => ?_⟩
    · rw [← hw.robot]
      exact hrobot
    · have hsent := hw.sent
      simp only [sentReplies] at hsent
      simp only [sentReplies,List.map_append,List.map_cons,List.map_nil,hsent,direct_append,← ht,
        hi,← hw.robot]
      exact congrArg (fun d => _ ++ [(guid i,d)]) hout
    · exact hw.senders r' (by rw [hr]; exact .tail _ hr')
    · simp only [places,queue,System.route,hi,hrest]
      rcases eq_or_ne j i with rfl | hj
      · simp only [if_true,Function.update_self,hreqs,hrep,hreader,List.nil_append,← hw.robot]
        rw [← hout]
        exact Stage.answered hwait
      · have hne : guid j ≠ guid i := fun heq => hj (hg heq)
        simpa [hj,hne,places,queue] using hw.stage j

omit [DecidableEq ι] in
theorem refines_loseReply (hg : Function.Injective guid) (hw : Refines ts status guid s₀ w t)
    {i : ι} {reply : WriteReply RobotControlReply} {rest : List (WriteReply RobotControlReply)}
    (hreply : w.replies (guid i) = reply :: rest) :
    Refines ts status guid s₀ (w.loseReply (guid i) rest) t := by
  obtain ⟨p,ph,hpl,hph,hst⟩ := hw.exists_stage i
  obtain ⟨hreqs,hqueue,hrep,hreader⟩ := places_eq hpl
  cases hst with
  | idle | sent | queued | delivered | lost =>
    rw [hrep] at hreply
    cases hreply
  | answered hwait =>
    rw [hrep] at hreply
    obtain ⟨rfl,rfl⟩ := List.cons.inj hreply
    refine ⟨hw.suppressInvalid,hw.robot,hw.sent,hw.issued,hw.returned,hw.senders,hw.writers,
      fun j => ?_⟩
    rcases eq_or_ne j i with rfl | hj
    · simp only [loseReply,places,queue,Function.update_self,hreqs,hreader] at hqueue ⊢
      rw [hqueue,hph]
      exact .lost hwait rfl
    · have hne : guid j ≠ guid i := fun heq => hj (hg heq)
      simpa [loseReply,places,queue,hne] using hw.stage j

theorem refines_deliverReply (hg : Function.Injective guid)
    (hw : Refines ts status guid s₀ w t) {i : ι} {identity : DDS.SampleIdentity}
    {reply : WriteReply RobotControlReply} {rest : List (WriteReply RobotControlReply)}
    (hreply : w.replies (guid i) = reply :: rest) :
    Refines ts status guid s₀ (w.deliverReply ts i identity reply rest) t := by
  obtain ⟨p,ph,hpl,hph,hst⟩ := hw.exists_stage i
  obtain ⟨hreqs,hqueue,hrep,hreader⟩ := places_eq hpl
  cases hst with
  | idle | sent | queued | delivered | lost =>
    rw [hrep] at hreply
    cases hreply
  | answered hwait =>
    rw [hrep] at hreply
    obtain ⟨rfl,rfl⟩ := List.cons.inj hreply
    refine ⟨hw.suppressInvalid,hw.robot,hw.sent,hw.issued,hw.returned,hw.senders,
      hw.writers_update rfl,fun j => ?_⟩
    rcases eq_or_ne j i with rfl | hj
    · have hread : ∀ a, ((w.requester j).arrive a).reader =
          [a.sample ((w.requester j).impl.super.received+1)] := by
        intro a
        change (w.requester j).reader ++ _ = _
        rw [hreader,List.nil_append]
      simp only [deliverReply,loseReply,places,queue,hw.writers,Function.update_self,hread,
        hreqs] at hqueue ⊢
      rw [hqueue,hph]
      exact .delivered (s := Arrival.sample _ _) hwait rfl
    · have hne : guid j ≠ guid i := fun heq => hj (hg heq)
      simpa [deliverReply,loseReply,hw.writers,places,queue,hj,hne] using hw.stage j

theorem receiveReply_of_empty {c : Session RobotControlCall RobotControlReply}
    (hr : c.reader = []) (reply : Sample RobotControlReply) (id : SampleIdentity) :
    c.receiveReply T reply id [] [] = some (c,false,reply) := by
  simp [Session.receiveReply,Session.waitForReplies,hr]

theorem refines_receive (hw : Refines ts status guid s₀ w t) {i : ι}
    (h : w.receive T i = some w') :
    ∃ ds t', (object ts status).run t ds = some t' ∧ Refines ts status guid s₀ w' t' := by
  obtain ⟨data,hpend,h⟩ := Option.bind_eq_some_iff.mp h
  obtain ⟨p,ph,hpl,hph,hst⟩ := hw.exists_stage i
  obtain ⟨hreqs,hqueue,hrep,hreader⟩ := places_eq hpl
  cases hst with
  | idle | sent | queued | answered | lost =>
    rw [receiveReply_of_empty hreader] at h
    cases h
    refine ⟨[],t,rfl,hw.suppressInvalid,hw.robot,hw.sent,hw.issued,hw.returned,hw.senders,
      hw.writers_update rfl,fun j => ?_⟩
    simpa [places,queue,Function.update_eq_self] using hw.stage j
  | @delivered data' s hwait hv =>
    have hdata := hwait.pending
    rw [hpend] at hdata
    cases hdata
    rw [receiveReply_only hwait.entry hreader rfl hv] at h
    cases h
    refine ⟨[.ret i],_,Machine.run_singleton.trans (step_ret hph),hw.suppressInvalid,hw.robot,
      hw.sent,hw.issued,?_,hw.senders,hw.writers_update rfl,fun j => ?_⟩
    · simp only [hw.returned]
    · rcases eq_or_ne j i with rfl | hj
      · simp only [places,queue,Function.update_self,hreqs,hrep] at hqueue ⊢
        rw [hqueue]
        exact .idle rfl rfl
      · simpa [places,queue,hj] using hw.stage j

theorem refines_step (hg : Function.Injective guid) {e : Event ι}
    (h : (machine T ts status).step w e = some w') (hw : Refines ts status guid s₀ w t)
    (ht : Linearized (Robot.answer ts status) s₀ t) :
    ∃ ds t', (object ts status).run t ds = some t' ∧ Refines ts status guid s₀ w' t' := by
  cases e with
  | send i data sent =>
    simp only [machine] at h
    split at h
    · cases h
      exact refines_send hw (Option.isNone_iff_eq_none.mp ‹_›) data sent
    · cases h
  | deliverRequest i =>
    simp only [machine] at h
    split at h
    · cases h
    · cases h
      exact ⟨[],t,rfl,refines_deliverRequest hg hw ‹_›⟩
  | loseRequest i =>
    simp only [machine] at h
    split at h
    · cases h
    · cases h
      exact ⟨[],t,rfl,refines_loseRequest hw ‹_›⟩
  | turn =>
    cases h
    exact refines_turn hg hw ht.object
  | deliverReply i identity =>
    simp only [machine,hw.writers i] at h
    split at h
    · cases h
    · cases h
      exact ⟨[],t,rfl,refines_deliverReply hg hw ‹_›⟩
  | loseReply i =>
    simp only [machine,hw.writers i] at h
    split at h
    · cases h
    · cases h
      exact ⟨[],t,rfl,refines_loseReply hg hw ‹_›⟩
  | receive i => exact refines_receive hw h

theorem refines_run (hg : Function.Injective guid) {es : List (Event ι)}
    (h : (machine T ts status).run (init ts guid s₀) es = some w) :
    ∃ t, Refines ts status guid s₀ w t ∧ Linearized (Robot.answer ts status) s₀ t := by
  obtain ⟨ds,t,-,hw⟩ := Machine.run_simulation (A := object ts status)
    (R := fun w t => Refines ts status guid s₀ w t ∧ Linearized (Robot.answer ts status) s₀ t)
    (fun hs hw => by
      obtain ⟨ds,t',hrun,hw'⟩ := refines_step hg hs hw.1 hw.2
      exact ⟨ds,t',hrun,hw',Machine.run_preserves linearized_step hrun hw.2⟩)
    h ⟨refines_init ts status guid s₀,linearized_init s₀⟩
  exact ⟨t,hw⟩

omit [DecidableEq ι] in
theorem Refines.phase_ops (hw : Refines ts status guid s₀ w t) (i : ι) :
    (t.phase i).ops = (w.pending i).toList := by
  have hst := hw.stage i
  generalize w.places (guid i) i = p at hst
  generalize t.phase i = ph at hst
  cases hst with
  | idle hpend =>
    rw [hpend]
    rfl
  | sent hwait | queued hwait | answered hwait | delivered hwait =>
    rw [hwait.pending]
    rfl
  | lost hwait hops =>
    rw [hwait.pending,hops]
    rfl

omit [DecidableEq ι] in
theorem Refines.phase_of_none (hw : Refines ts status guid s₀ w t) {i : ι}
    (hp : w.pending i = none) : (t.phase i).outcomes = [] := by
  have hops := hw.phase_ops i
  rw [hp] at hops
  cases hph : t.phase i with
  | idle | called => rfl
  | served =>
    rw [hph] at hops
    cases hops

omit [DecidableEq ι] in
theorem Refines.known (hw : Refines ts status guid s₀ w t) {i : ι} (hp : w.pending i ≠ none) :
    ((w.requester i).impl.id2idMap.find (w.request i).header.requestId).isSome := by
  have hst := hw.stage i
  generalize w.places (guid i) i = p at hst
  generalize t.phase i = ph at hst
  cases hst with
  | idle hpend => exact absurd hpend hp
  | sent hwait | queued hwait | answered hwait | delivered hwait | lost hwait =>
    rw [hwait.entry,StdMap.find_set_self]
    rfl

/-- The requests of `order`, answered directly one after another from the robot `s₀`,
explain what the server has sent and what the clients have read. -/
structure AsDirect (ts : TypeSupport) (status : String) (guid : ι → DDS.GUID) (s₀ : Robot)
    (w : RrSystem ι) (order : List (ι × RobotControlCall)) : Prop where
  robot : w.server.robot = (direct (Robot.answer ts status) s₀ order).2
  sent : w.sentReplies ts =
    (direct (Robot.answer ts status) s₀ order).1.map (fun p => (guid p.1,p.2.2))
  ownOrder : ∀ i, ofClient i order <+: w.issued i
  issued : ∀ i, w.issued i = (w.returned i).map Sigma.fst ++ (w.pending i).toList
  returned : ∀ i, w.returned i <+: ofClient i (direct (Robot.answer ts status) s₀ order).1
  /-- No call of `receive_reply` is made for an unknown identity. -/
  known : ∀ i, w.pending i ≠ none →
    ((w.requester i).impl.id2idMap.find (w.request i).header.requestId).isSome
  complete : ∀ i, w.pending i = none →
    w.returned i = ofClient i (direct (Robot.answer ts status) s₀ order).1

theorem Refines.asDirect (hw : Refines ts status guid s₀ w t)
    (ht : Linearized (Robot.answer ts status) s₀ t) : AsDirect ts status guid s₀ w t.order where
  robot := hw.robot.trans ht.object
  sent := hw.sent
  ownOrder i := by
    rw [hw.issued]
    exact ht.own_order i
  issued i := by rw [hw.issued,hw.returned,ht.issued,hw.phase_ops]
  returned i := by
    rw [hw.returned,ht.outcomes]
    exact List.prefix_append _ _
  known i := hw.known
  complete i hp := by rw [hw.returned,ht.outcomes,hw.phase_of_none hp,List.append_nil]

/-- However many clients there are, whatever they ask for and whatever is lost: the loops
around `receive_reply` give every client the answers that `process_request` would give it
directly, one request at a time. -/
theorem requestReply_asDirect (T : TakeReply RobotControlReply) (ts : TypeSupport)
    (status : String) {guid : ι → DDS.GUID} (hg : Function.Injective guid) {s₀ : Robot}
    {w : RrSystem ι} {es : List (Event ι)}
    (h : (machine T ts status).run (init ts guid s₀) es = some w) :
    ∃ order, AsDirect ts status guid s₀ w order := by
  obtain ⟨t,hw,ht⟩ := refines_run hg h
  exact ⟨t.order,hw.asDirect ht⟩

def reusingRun (speed : RobotControlCall) : List (Event Bool) :=
  [.send false speed true,.receive false,.send true { speed with d := getSpeedHash } true,
    .deliverRequest true,.turn,.deliverRequest false,.turn,
    .deliverReply false RequesterImpl.nullIdentity,
    .deliverReply true RequesterImpl.nullIdentity,.receive true,.receive false,
    .send true { speed with d := 7 } true,.send false { speed with d := getSpeedHash } true,
    .loseRequest true,.receive true]

def setSpeedFive : RobotControlCall :=
  { TypeSupport.zero.createRequest.data with d := setSpeedHash, setSpeed := ⟨.finite 5⟩ }

theorem requestReply_reusing : ∃ (w : RrSystem Bool) (order : List (Bool × RobotControlCall)),
    (machine .oldest .zero "Good Status").run (init .zero System.clientGuid .init)
      (reusingRun setSpeedFive) = some w ∧
    (w.returned false).map (fun p => p.2.d) = [setSpeedHash] ∧
    (w.returned true).map (fun p => p.2.getSpeed.result.return_) = [.finite 0] ∧
    AsDirect .zero "Good Status" System.clientGuid .init w order := by
  have hsome : ((machine .oldest .zero "Good Status").run (init .zero System.clientGuid .init)
      (reusingRun setSpeedFive)).any (fun w : RrSystem Bool =>
        (w.returned false).map (fun p => p.2.d) = [setSpeedHash] ∧
        (w.returned true).map (fun p => p.2.getSpeed.result.return_) = [.finite 0]) := by
    decide +kernel
  obtain ⟨w,hw,hret⟩ := (Option.any_eq_true _ _).mp hsome
  obtain ⟨hfalse,htrue⟩ := of_decide_eq_true hret
  have hg : Function.Injective System.clientGuid := by
    unfold Function.Injective
    decide
  obtain ⟨order,horder⟩ := requestReply_asDirect .oldest .zero "Good Status" hg hw
  exact ⟨w,order,hw,hfalse,htrue,horder⟩

end RrSystem
end DdsRpc
