import DdsRpc.RemoteCalls
import DdsRpc.ReceiveReply
set_option autoImplicit false

namespace DdsRpc
open Connext SharedObject

variable {ι σ : Type} {T : TakeReply RobotControlReply} {ts : TypeSupport} {R : RobotControl σ}

/-- The methods return normally, or `setSpeed` throws `TooFast`. -/
def RobotControl.Declared (R : RobotControl σ) : Prop :=
  ∀ created op s, undeclared op (R.call created op s).1 = false

/-- The client reads from a reply the outcome that the server has put there. The
discriminator that `getStatus` looks at belongs to a member it did not receive. -/
theorem result_receivedReply (hts : ts.createReply.data.getSpeed.d = remoteExOk) {op : Call}
    {out : Outcome op} {reply : RobotControlReply} (h : replyOf ts op out = .ok reply)
    (id : SampleIdentity) (info : SampleInfo) :
    ClientImpl.result op ⟨ts.receivedReply (ReplierImpl.outgoing reply id),info⟩ = out := by
  cases op with
  | command com =>
    rcases out with e | ⟨⟩
    · cases h
    · rfl
  | setSpeed v =>
    rcases out with (e | e | _) | v
    case error.tooFast | ok =>
      cases h
      rfl
    all_goals cases h
  | getSpeed =>
    rcases out with e | v
    · cases h
    · cases h
      rfl
  | getStatus =>
    rcases out with e | st
    · cases h
    · cases h
      simp [ClientImpl.result,ClientImpl.getStatusResult,TypeSupport.receivedReply,
        ReplierImpl.outgoing,RobotControlReturn.deserialize,
        RobotControlGetStatusResult.deserialize,hts,getStatusHash,commandHash,setSpeedHash,
        getSpeedHash]

theorem receiveReply_only {c : Session RobotControlCall RobotControlReply} {id : SampleIdentity}
    {i : DDS.SampleIdentity} {s : Sample RobotControlReply}
    (hmap : c.impl.id2idMap = StdMap.empty.set id i) (hr : c.reader = [s])
    (hi : s.info.relatedIdentity = i) (hv : s.info.validData = true)
    (reply : Sample RobotControlReply) :
    c.receiveReply T reply id [] [] =
      some ({ c with impl := { c.impl.withReader [] with id2idMap := .empty } },true,s) := by
  have hf : c.impl.id2idMap.find id = some i := by rw [hmap,StdMap.find_set_self]
  have hmem : s ∈ c.reader := by rw [hr]; exact .head _
  obtain ⟨x,rest,ht⟩ := T.exists_take hmem hi
  have hperm := (T.take_some ht).2
  rw [hr,List.singleton_perm] at hperm
  obtain ⟨rfl,rfl⟩ := List.cons.inj hperm
  rw [Session.receiveReply_atTake hf (Session.atTake_of_reader (by rw [hr]; rfl)),
    RequesterImpl.takeRelated_of_take hf ht]
  simp only [hv,Bool.not_true,Bool.and_false,Bool.false_eq_true,if_false]
  rw [hmap,StdMap.erase_set_of_find_none (StdMap.find_empty _)]

theorem written_sendRequest (c : Session RobotControlCall RobotControlReply)
    (req : RobotControlRequest) : (c.sendRequest req true).impl.super.written =
      c.impl.super.written ++ [⟨c.impl.stamp req,c.impl.super.nextIdentity⟩] := rfl

/-- The client waits in `op` for a reply related to `i`. -/
structure Waits (g : DDS.GUID) (pending : Option (Call × SampleIdentity))
    (map : StdMap SampleIdentity DDS.SampleIdentity SampleIdentity.lt) (op : Call)
    (i : DDS.SampleIdentity) : Prop where
  guid : i.writerGuid = g
  entry : ∃ id, pending = some (op,id) ∧ map = StdMap.empty.set id i

structure Places where
  requests : List (WriteSample RobotControlRequest)
  queue : List (Sample RobotControlRequest)
  replies : List (WriteReply RobotControlReply)
  reader : List (Sample RobotControlReply)

/-- A call is in one place at a time, and it has taken effect when the dispatcher has
written its reply. -/
inductive Stage (ts : TypeSupport) (g : DDS.GUID) (pending : Option (Call × SampleIdentity))
    (map : StdMap SampleIdentity DDS.SampleIdentity SampleIdentity.lt) :
    Places → Phase Call Outcome → Prop where
  | idle : pending = none → map = .empty → Stage ts g pending map ⟨[],[],[],[]⟩ .idle
  | sent {op : Call} {req : WriteSample RobotControlRequest} :
      Waits g pending map op req.identity → req.data.data.selected = some op →
      Stage ts g pending map ⟨[req],[],[],[]⟩ (.called op)
  | queued {op : Call} {r : Sample RobotControlRequest} :
      Waits g pending map op r.info.identity → r.info.validData = true →
      r.data.data.selected = some op → Stage ts g pending map ⟨[],[r],[],[]⟩ (.called op)
  | answered {op : Call} {out : Outcome op} {reply : WriteReply RobotControlReply} :
      Waits g pending map op reply.relatedIdentity →
      (∀ info, ClientImpl.result op ⟨ts.receivedReply reply.data,info⟩ = out) →
      Stage ts g pending map ⟨[],[],[reply],[]⟩ (.served op out)
  | delivered {op : Call} {out : Outcome op} {s : Sample RobotControlReply} :
      Waits g pending map op s.info.relatedIdentity → s.info.validData = true →
      ClientImpl.result op s = out → Stage ts g pending map ⟨[],[],[],[s]⟩ (.served op out)

namespace System

def queue (w : System ι σ) (g : DDS.GUID) : List (Sample RobotControlRequest) :=
  w.server.reader.filter (fun r => r.info.identity.writerGuid = g)

def places (w : System ι σ) (g : DDS.GUID) (i : ι) : Places :=
  ⟨w.requests i,w.queue g,w.replies g,(w.client i).reader⟩

theorem places_eq {w : System ι σ} {g : DDS.GUID} {i : ι} {p : Places}
    (h : w.places g i = p) : w.requests i = p.requests ∧ w.queue g = p.queue ∧
      w.replies g = p.replies ∧ (w.client i).reader = p.reader := by
  subst h
  exact ⟨rfl,rfl,rfl,rfl⟩

/-- The system `w` stands for the object and its clients `t`. -/
structure Refines (ts : TypeSupport) (guid : ι → DDS.GUID) (w : System ι σ)
    (t : State ι σ Call Outcome) : Prop where
  service : w.server.dispatcher.service = (t.object,t.order.map Prod.snd)
  issued : w.issued = t.issued
  returned : w.returned = t.returned
  taken : w.server.taken.map
    (fun k => (k.request.info.identity.writerGuid,k.request.data.data.selected)) =
    t.order.map (fun p => (guid p.1,some p.2))
  senders : ∀ r ∈ w.server.reader, ∃ i, r.info.identity.writerGuid = guid i
  writers : ∀ i, (w.client i).impl.super.writerGuid = guid i
  stage : ∀ i, Stage ts (guid i) (w.pending i) (w.client i).impl.id2idMap
    (w.places (guid i) i) (t.phase i)

theorem refines_init (ts : TypeSupport) (guid : ι → DDS.GUID) (s : σ) :
    Refines ts guid (init guid s) (SharedObject.init s) where
  service := rfl
  issued := rfl
  returned := rfl
  taken := rfl
  senders _ hr := (nomatch hr)
  writers _ := rfl
  stage _ := .idle rfl rfl

variable [DecidableEq ι] {guid : ι → DDS.GUID} {w w' : System ι σ} {t : State ι σ Call Outcome}

abbrev object (ts : TypeSupport) (R : RobotControl σ) :
    Machine (State ι σ Call Outcome) (SharedObject.Event ι Call) :=
  SharedObject.machine (R.call ts.createStatus)

omit [DecidableEq ι] in
theorem Refines.exists_stage (hw : Refines ts guid w t) (i : ι) :
    ∃ p ph, w.places (guid i) i = p ∧ t.phase i = ph ∧
      Stage ts (guid i) (w.pending i) (w.client i).impl.id2idMap p ph :=
  ⟨_,_,rfl,rfl,hw.stage i⟩

theorem Refines.writers_update (hw : Refines ts guid w t) {i : ι}
    {c : Session RobotControlCall RobotControlReply}
    (hc : c.impl.super.writerGuid = (w.client i).impl.super.writerGuid) (j : ι) :
    (Function.update w.client i c j).impl.super.writerGuid = guid j := by
  rcases eq_or_ne j i with rfl | hj
  · rw [Function.update_self,hc]
    exact hw.writers j
  · rw [Function.update_of_ne hj]
    exact hw.writers j

theorem refines_call (hw : Refines ts guid w t) {i : ι} (hp : w.pending i = none) (op : Call) :
    ∃ ds t', (object ts R).run t ds = some t' ∧ Refines ts guid (w.call ts i op) t' := by
  obtain ⟨p,ph,hpl,hph,hst⟩ := hw.exists_stage i
  cases hst with
  | sent hwait | queued hwait | answered hwait | delivered hwait =>
    obtain ⟨id,hid,-⟩ := hwait.entry
    rw [hp] at hid
    cases hid
  | idle _ hmap =>
    obtain ⟨hreq,hqueue,hrep,hreader⟩ := places_eq hpl
    refine ⟨[.call i op],_,Machine.run_singleton.trans (step_call hph op),?_⟩
    constructor
    · exact hw.service
    · simp only [call,hw.issued]
    · exact hw.returned
    · exact hw.taken
    · exact hw.senders
    · exact hw.writers_update rfl
    · intro j
      rcases eq_or_ne j i with rfl | hj
      · have hplaces : (w.call ts j op).places (guid j) j =
            ⟨[⟨(w.client j).impl.stamp (ClientImpl.request ts op),
              (w.client j).impl.super.nextIdentity⟩],[],[],[]⟩ := by
          simp only [places,Places.mk.injEq]
          refine ⟨?_,hqueue,hrep,?_⟩
          · simp only [call,Function.update_self,hreq,written_sendRequest,List.drop_left,
              List.nil_append]
          · simp only [call,Function.update_self]
            exact hreader
        rw [hplaces]
        simp only [call,Function.update_self]
        exact .sent ⟨hw.writers j,_,rfl,by rw [← hmap]; rfl⟩ (ClientImpl.request_selected ts op)
      · simpa [call,places,queue,hj] using hw.stage j

theorem refines_deliverRequest (hg : Function.Injective guid) (hw : Refines ts guid w t) {i : ι}
    {req : WriteSample RobotControlRequest} {rest : List (WriteSample RobotControlRequest)}
    (hreq : w.requests i = req :: rest) :
    Refines ts guid { w with
      requests := Function.update w.requests i rest
      server := w.server.arrive (w.requestSample ts req) } t := by
  obtain ⟨p,ph,hpl,hph,hst⟩ := hw.exists_stage i
  cases hst with
  | idle | queued | answered | delivered =>
    rw [(places_eq hpl).1] at hreq
    cases hreq
  | @sent op req' hwait hsel =>
    obtain ⟨hreqs,hqueue,hrep,hreader⟩ := places_eq hpl
    rw [hreqs] at hreq
    obtain ⟨rfl,rfl⟩ := List.cons.inj hreq
    constructor
    · exact hw.service
    · exact hw.issued
    · exact hw.returned
    · exact hw.taken
    · intro r hr
      rcases List.mem_append.mp hr with hr | hr
      · exact hw.senders r hr
      · rw [List.mem_singleton.mp hr]
        exact ⟨i,hwait.guid⟩
    · exact hw.writers
    · intro j
      have hq : ∀ g, queue { w with
          requests := Function.update w.requests i []
          server := w.server.arrive (w.requestSample ts req') } g =
          w.queue g ++ if req'.identity.writerGuid = g then [w.requestSample ts req'] else [] := by
        intro g
        simp only [queue,Serving.arrive,Serving.reader,List.filter_append,List.filter_singleton,
          requestSample]
        split <;> simp_all
      rcases eq_or_ne j i with rfl | hj
      · have hsel' : (w.requestSample ts req').data.data.selected = some op := by
          simpa [requestSample,TypeSupport.receivedRequest] using hsel
        simp only [places,hq,hqueue,hwait.guid,if_true,hrep,hreader,Function.update_self,hph,
          List.nil_append]
        exact .queued hwait rfl hsel'
      · have hne : ¬ req'.identity.writerGuid = guid j := by
          rw [hwait.guid]
          exact fun heq => hj (hg heq).symm
        simpa [places,hq,hne,hj] using hw.stage j

theorem Refines.exists_queued (hg : Function.Injective guid) (hw : Refines ts guid w t)
    {r : Sample RobotControlRequest} {rest : List (Sample RobotControlRequest)}
    (hr : w.server.reader = r :: rest) :
    ∃ i op, t.phase i = .called op ∧ r.info.identity.writerGuid = guid i ∧
      r.info.validData = true ∧ r.data.data.selected = some op ∧
      Waits (guid i) (w.pending i) (w.client i).impl.id2idMap op r.info.identity ∧
      w.places (guid i) i = ⟨[],[r],[],[]⟩ ∧
      ∀ j, rest.filter (fun r => r.info.identity.writerGuid = guid j) =
        if j = i then [] else w.queue (guid j) := by
  obtain ⟨i,hi⟩ := hw.senders r (by rw [hr]; exact .head _)
  have hq : w.queue (guid i) =
      r :: rest.filter (fun r => r.info.identity.writerGuid = guid i) := by
    simp [queue,hr,hi]
  obtain ⟨p,ph,hpl,hph,hst⟩ := hw.exists_stage i
  cases hst with
  | idle | sent | answered | delivered =>
    rw [(places_eq hpl).2.1] at hq
    cases hq
  | @queued op r' hwait hv hsel =>
    rw [(places_eq hpl).2.1] at hq
    obtain ⟨rfl,hrest⟩ := List.cons.inj hq
    refine ⟨i,op,hph,hi,hv,hsel,hwait,hpl,fun j => ?_⟩
    rcases eq_or_ne j i with rfl | hj
    · rw [← hrest,if_pos rfl]
    · have hne : ¬ r'.info.identity.writerGuid = guid j := by
        rw [hi]
        exact fun heq => hj (hg heq).symm
      simp [queue,hr,hne,hj]

theorem refines_dispatch (hg : Function.Injective guid)
    (hts : ts.createReply.data.getSpeed.d = remoteExOk) (hR : R.Declared)
    (hw : Refines ts guid w t) :
    ∃ ds t', (object ts R).run t ds = some t' ∧ Refines ts guid (w.dispatch ts R) t' := by
  have hd := Serving.dispatch_cases ts R.logged w.server
  unfold dispatch
  generalize w.server.dispatch ts R.logged = v at hd
  cases hd with
  | idle hnone =>
    have hempty : w.server.reader = [] := by
      cases hr : w.server.reader with
      | nil => rfl
      | cons r rest =>
        obtain ⟨i,op,-,-,hv,-⟩ := hw.exists_queued hg hr
        have := hnone r (by rw [hr]; rfl)
        simp [hv] at this
    refine ⟨[],t,rfl,hw.service,hw.issued,hw.returned,hw.taken,?_,hw.writers,fun j => ?_⟩
    · simp [Serving.reader,hempty]
    · simpa [places,queue,Serving.reader,hempty,route] using hw.stage j
  | @escaped r rest e s' hr hreq =>
    obtain ⟨i,op,-,-,-,hsel,-⟩ := hw.exists_queued hg hr
    have hok := replyOf_isOk ts op (R.call ts.createStatus op t.object).1
    rw [dispatchRequest_selected hsel,hw.service,logged_call] at hreq
    rw [(Prod.mk.inj hreq).1,hR] at hok
    cases hok
  | @replied r rest reply s' hr hreq =>
    obtain ⟨i,op,hph,hi,-,hsel,hwait,hpl,hrest⟩ := hw.exists_queued hg hr
    obtain ⟨hreqs,-,hrep,hreader⟩ := places_eq hpl
    rw [dispatchRequest_selected hsel,hw.service,logged_call] at hreq
    obtain ⟨hreply,rfl⟩ := Prod.mk.inj hreq
    refine ⟨[.serve i],_,Machine.run_singleton.trans (step_serve hph),?_⟩
    constructor
    · simp only [List.map_append,List.map_cons,List.map_nil]
    · exact hw.issued
    · exact hw.returned
    · simp only [List.map_append,List.map_cons,List.map_nil,hw.taken,hi,hsel]
    · intro r' hr'
      exact hw.senders r' (by rw [hr]; exact .tail _ hr')
    · exact hw.writers
    · intro j
      simp only [places,queue,Serving.reader,Serving.written,List.drop_left,route,hi,hrest]
      rcases eq_or_ne j i with rfl | hj
      · simp only [if_true,Function.update_self,hreqs,hrep,hreader,List.nil_append]
        exact .answered hwait (fun info => result_receivedReply hts hreply _ info)
      · have hne : guid j ≠ guid i := fun heq => hj (hg heq)
        simpa [hj,hne,places,queue] using hw.stage j

theorem refines_deliverReply (hg : Function.Injective guid) (hw : Refines ts guid w t) {i : ι}
    {identity : DDS.SampleIdentity} (h : w.deliverReply ts i identity = some w') :
    Refines ts guid w' t := by
  simp only [deliverReply,hw.writers i] at h
  obtain ⟨p,ph,hpl,hph,hst⟩ := hw.exists_stage i
  obtain ⟨hreqs,hqueue,hrep,hreader⟩ := places_eq hpl
  cases hst with
  | idle | sent | queued | delivered =>
    rw [hrep] at h
    cases h
  | @answered op out reply hwait hout =>
    rw [hrep] at h
    cases h
    refine ⟨hw.service,hw.issued,hw.returned,hw.taken,hw.senders,hw.writers_update rfl,
      fun j => ?_⟩
    · rcases eq_or_ne j i with rfl | hj
      · have hread : ∀ a, ((w.client j).arrive a).reader =
            [a.sample ((w.client j).impl.super.received+1)] := by
          intro a
          change (w.client j).reader ++ _ = _
          rw [hreader,List.nil_append]
        simp only [places,queue,Function.update_self,hread,hreqs] at hqueue ⊢
        rw [hqueue,hph]
        exact .delivered hwait rfl (hout _)
      · have hne : guid j ≠ guid i := fun heq => hj (hg heq)
        simpa [places,queue,hj,hne] using hw.stage j

theorem refines_ret (hw : Refines ts guid w t) {i : ι} (h : w.ret T ts i = some w') :
    ∃ ds t', (object ts R).run t ds = some t' ∧ Refines ts guid w' t' := by
  obtain ⟨⟨op,id⟩,hpend,h⟩ := Option.bind_eq_some_iff.mp h
  obtain ⟨p,ph,hpl,hph,hst⟩ := hw.exists_stage i
  obtain ⟨hreqs,hqueue,hrep,hreader⟩ := places_eq hpl
  cases hst with
  | idle | sent | queued | answered => simp [hreader] at h
  | @delivered op' out s hwait hv hout =>
    obtain ⟨id',hpend',hmap⟩ := hwait.entry
    rw [hpend] at hpend'
    obtain ⟨rfl,rfl⟩ := Prod.mk.inj (Option.some.inj hpend')
    simp only [receiveReply_only (T := T) hmap hreader rfl hv,hreader,List.isEmpty_cons,
      Bool.false_eq_true,if_false] at h
    cases h
    refine ⟨[.ret i],_,Machine.run_singleton.trans (step_ret hph),?_⟩
    refine ⟨hw.service,hw.issued,?_,hw.taken,hw.senders,hw.writers_update rfl,fun j => ?_⟩
    · simp only [hw.returned,hout]
    · rcases eq_or_ne j i with rfl | hj
      · simp only [places,queue,Function.update_self,hreqs,hrep] at hqueue ⊢
        rw [hqueue]
        exact .idle rfl rfl
      · simpa [places,queue,hj] using hw.stage j

theorem refines_step (hg : Function.Injective guid)
    (hts : ts.createReply.data.getSpeed.d = remoteExOk) (hR : R.Declared) {e : Event ι}
    (h : (machine T ts R).step w e = some w') (hw : Refines ts guid w t) :
    ∃ ds t', (object ts R).run t ds = some t' ∧ Refines ts guid w' t' := by
  cases e with
  | call i op =>
    simp only [machine] at h
    split at h
    · cases h
      exact refines_call hw (Option.isNone_iff_eq_none.mp ‹_›) op
    · cases h
  | deliverRequest i =>
    simp only [machine] at h
    split at h
    · cases h
    · cases h
      exact ⟨[],t,rfl,refines_deliverRequest hg hw ‹_›⟩
  | dispatch =>
    cases h
    exact refines_dispatch hg hts hR hw
  | deliverReply i identity => exact ⟨[],t,rfl,refines_deliverReply hg hw h⟩
  | ret i => exact refines_ret hw h

/-- `order` is the order in which the dispatcher has received the requests. The calls it
stands for, made directly one after another from the state `s₀`, explain the run. -/
structure AsLocal (ts : TypeSupport) (R : RobotControl σ) (guid : ι → DDS.GUID) (s₀ : σ)
    (w : System ι σ) (order : List (ι × Call)) : Prop where
  received : w.server.taken.map
    (fun k => (k.request.info.identity.writerGuid,k.request.data.data.selected)) =
    order.map (fun p => (guid p.1,some p.2))
  invoked : w.server.dispatcher.service =
    ((direct (R.call ts.createStatus) s₀ order).2,order.map Prod.snd)
  ownOrder : ∀ i, ofClient i order <+: w.issued i
  issued : ∀ i, w.issued i =
    (w.returned i).map Sigma.fst ++ ((w.pending i).map Prod.fst).toList
  outcomes : ∀ i, w.returned i <+: ofClient i (direct (R.call ts.createStatus) s₀ order).1
  /-- Between calls every call has been received. -/
  complete : ∀ i, w.pending i = none → ofClient i order = w.issued i ∧
    w.returned i = ofClient i (direct (R.call ts.createStatus) s₀ order).1

omit [DecidableEq ι] in
theorem Refines.phase_ops (hw : Refines ts guid w t) (i : ι) :
    (t.phase i).ops = ((w.pending i).map Prod.fst).toList := by
  have hst := hw.stage i
  generalize w.places (guid i) i = p at hst
  generalize t.phase i = ph at hst
  cases hst with
  | idle hpend =>
    rw [hpend]
    rfl
  | sent hwait | queued hwait | answered hwait | delivered hwait =>
    obtain ⟨id,hpend,-⟩ := hwait.entry
    rw [hpend]
    rfl

theorem Refines.asLocal {s₀ : σ} (hw : Refines ts guid w t)
    (ht : Linearized (R.call ts.createStatus) s₀ t) : AsLocal ts R guid s₀ w t.order := by
  have hissued : ∀ i, w.issued i =
      (w.returned i).map Sigma.fst ++ ((w.pending i).map Prod.fst).toList := by
    intro i
    rw [hw.issued,hw.returned,ht.issued,hw.phase_ops]
  refine ⟨hw.taken,by rw [hw.service,ht.object],fun i => ?_,hissued,fun i => ?_,fun i hp => ?_⟩
  · rw [hw.issued]
    exact ht.own_order i
  · rw [hw.returned,ht.outcomes]
    exact List.prefix_append _ _
  · have hnone : (t.phase i).outcomes = [] := by
      have hops := hw.phase_ops i
      rw [hp] at hops
      cases hph : t.phase i <;> simp_all [Phase.ops,Phase.outcomes]
    have hret : w.returned i = ofClient i (direct (R.call ts.createStatus) s₀ t.order).1 := by
      rw [hw.returned,ht.outcomes,hnone,List.append_nil]
    refine ⟨?_,hret⟩
    rw [hissued,hp,hret,ofClient_direct]
    exact (List.append_nil _).symm

/-- Every run of clients that call a declared service through its dispatcher is a run of
direct calls, one at a time. -/
theorem remoteCalls_asLocal (T : TakeReply RobotControlReply) {ts : TypeSupport}
    {R : RobotControl σ} {guid : ι → DDS.GUID} (hg : Function.Injective guid)
    (hts : ts.createReply.data.getSpeed.d = remoteExOk) (hR : R.Declared) {s₀ : σ}
    {w : System ι σ} {es : List (Event ι)}
    (h : (machine T ts R).run (init guid s₀) es = some w) :
    ∃ order, AsLocal ts R guid s₀ w order := by
  obtain ⟨ds,t,ht,hw⟩ := Machine.run_simulation (A := object ts R) (R := Refines ts guid)
    (refines_step hg hts hR) h (refines_init ts guid s₀)
  exact ⟨t.order,hw.asLocal (linearized_run ht)⟩

def overtakingRun : List (Event Bool) :=
  [.call false (.setSpeed (.finite 5)),.call true .getStatus,.deliverRequest true,.dispatch,
    .deliverRequest false,.dispatch,.deliverReply false RequesterImpl.nullIdentity,
    .deliverReply true RequesterImpl.nullIdentity,.ret true,.ret false]

def clientGuid (i : Bool) : DDS.GUID := .ofByte (if i then 1 else 0)

theorem remoteCalls_overtaking : ∃ (w : System Bool Unit) (order : List (Bool × Call)),
    (machine .oldest .zero Serving.echoRobot).run (init clientGuid ()) overtakingRun = some w ∧
    (w.returned false).map Sigma.fst = [.setSpeed (.finite 5)] ∧
    AsLocal .zero Serving.echoRobot clientGuid () w order := by
  have hsome : ((machine .oldest .zero Serving.echoRobot).run (init clientGuid ())
      overtakingRun).any (fun w : System Bool Unit =>
        (w.returned false).map Sigma.fst = [.setSpeed (.finite 5)]) := by decide
  obtain ⟨w,hw,hret⟩ := (Option.any_eq_true _ _).mp hsome
  have hg : Function.Injective clientGuid := by
    unfold Function.Injective
    decide
  have hR : Serving.echoRobot.Declared := fun _ op _ => by cases op <;> rfl
  obtain ⟨order,horder⟩ := remoteCalls_asLocal .oldest hg rfl hR hw
  exact ⟨w,order,hw,of_decide_eq_true hret,horder⟩

end System

end DdsRpc
