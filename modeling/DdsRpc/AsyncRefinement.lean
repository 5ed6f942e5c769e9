import DdsRpc.AsyncClients
import DdsRpc.RemoteRefinement
import DdsRpc.Library.Faults
set_option autoImplicit false

namespace DdsRpc
open Connext SharedObject ClientImpl

namespace AsyncSystem
variable {ι σ : Type} [DecidableEq ι] {T : TakeReply RobotControlReply} {ts : TypeSupport}
  {R : RobotControl σ} {guid : ι → DDS.GUID} {s₀ : σ} {w w' : AsyncSystem ι σ}

abbrev Ticket (ι : Type) : Type := NumberedCalls.Ticket ι Call

/-- Of a request counts what it selects. -/
abbrev Client (ts : TypeSupport) (guid : DDS.GUID) (calls : List Call)
    (c : Session RobotControlCall RobotControlReply) : Prop :=
  AsyncClient RobotControlCall.selected (fun op => some (asked ts op)) guid calls c

def seen (r : Sample RobotControlRequest) : DDS.SampleIdentity × Option Call :=
  (r.info.identity,r.data.data.selected)

def ticketSeen (ts : TypeSupport) (guid : ι → DDS.GUID) (p : Ticket ι) :
    DDS.SampleIdentity × Option Call :=
  (callIdentity (guid p.1.1) p.1.2,some (asked ts p.2))

/-- The reply answers a call, and the continuation of the call reads the outcome from it. -/
def Answers (ts : TypeSupport) (guid : ι → DDS.GUID) (outs : List ((ι × ℕ) × Sigma Told))
    (x : WriteReply RobotControlReply) : Prop :=
  ∃ p ∈ outs, x.relatedIdentity = callIdentity (guid p.1.1) p.1.2 ∧
    ∀ info, continuation p.2.1 (.ok ⟨ts.receivedReply x.data,info⟩) = p.2.2

/-- The system `w` stands for the service and its numbered calls `t`. -/
structure Refines (ts : TypeSupport) (R : RobotControl σ) (guid : ι → DDS.GUID) (s₀ : σ)
    (w : AsyncSystem ι σ) (t : NumberedCalls.State ι σ Call) : Prop where
  calls : w.calls = t.calls
  delivered : w.delivered = t.next
  taken : w.server.taken.map (fun k => seen k.request) = t.order.map (ticketSeen ts guid)
  reader : w.server.reader.map seen = t.queued.map (ticketSeen ts guid)
  service : w.server.dispatcher.service = (t.object,t.order.map (fun p => asked ts p.2))
  written : ∀ x ∈ w.server.written, Answers ts guid (direct (told ts R) s₀ t.order).1 x
  clients : ∀ i, Client ts (guid i) (w.calls i) (w.client i)
  samples : ∀ i, (w.client i).Holds (Came ts.receivedReply w.server.written)

omit [DecidableEq ι] in
theorem refines_init (ts : TypeSupport) (R : RobotControl σ) (guid : ι → DDS.GUID) (s₀ : σ) :
    Refines ts R guid s₀ (init guid s₀) (NumberedCalls.init s₀) where
  calls := rfl
  delivered := rfl
  taken := rfl
  reader := rfl
  service := rfl
  written x hx := by cases hx
  clients i := .init _ _ (guid i)
  samples i := Session.holds_init (guid i)

variable {t : NumberedCalls.State ι σ Call}

theorem Refines.client_update (hw : Refines ts R guid s₀ w t) {i : ι} {calls : List Call}
    {c : Session RobotControlCall RobotControlReply} (hc : Client ts (guid i) calls c) (j : ι) :
    Client ts (guid j) (Function.update w.calls i calls j) (Function.update w.client i c j) := by
  rcases eq_or_ne j i with rfl | hj
  · simpa using hc
  · simpa [hj] using hw.clients j

theorem Refines.samples_update (hw : Refines ts R guid s₀ w t) {i : ι}
    {c : Session RobotControlCall RobotControlReply}
    (hc : c.Holds (Came ts.receivedReply w.server.written)) (j : ι) :
    (Function.update w.client i c j).Holds (Came ts.receivedReply w.server.written) := by
  rcases eq_or_ne j i with rfl | hj
  · simpa using hc
  · simpa [hj] using hw.samples j

theorem refines_call (hw : Refines ts R guid s₀ w t) (i : ι) (op : Call) (sent : Bool) :
    ∃ ds t', (NumberedCalls.machine (told ts R)).run t ds = some t' ∧
      Refines ts R guid s₀ (w.call ts i op sent) t' := by
  have hsamples := hw.samples_update (i := i)
    (Session.holds_sendRequestAsync (hw.samples i) (requestAsync ts op) sent)
  cases sent with
  | true =>
    refine ⟨[.call i op],_,Machine.run_singleton,?_,hw.delivered,hw.taken,hw.reader,hw.service,
      hw.written,hw.client_update ((hw.clients i).send (requestAsync_asked ts op)),hsamples⟩
    simp only [call,hw.calls,if_true]
  | false =>
    refine ⟨[],t,rfl,hw.calls,hw.delivered,hw.taken,hw.reader,hw.service,hw.written,fun j => ?_,
      hsamples⟩
    have hc := hw.client_update ((hw.clients i).sendThrows (requestAsync ts op)) j
    rwa [Function.update_eq_self] at hc

omit [DecidableEq ι] in
theorem Refines.exists_next (hw : Refines ts R guid s₀ w t) {i : ι}
    {req : WriteSample RobotControlRequest} (hreq : w.nextRequest i = some req) :
    ∃ op, (t.calls i)[t.next i]? = some op ∧ req.identity = callIdentity (guid i) (t.next i) ∧
      req.data.data.selected = some (asked ts op) := by
  rw [← hw.calls,← hw.delivered]
  exact (hw.clients i).written_get hreq

theorem refines_loseRequest (hw : Refines ts R guid s₀ w t) {i : ι}
    {req : WriteSample RobotControlRequest} (hreq : w.nextRequest i = some req) :
    ∃ ds t', (NumberedCalls.machine (told ts R)).run t ds = some t' ∧
      Refines ts R guid s₀ (w.loseRequest i) t' := by
  obtain ⟨op,hop,-⟩ := hw.exists_next hreq
  refine ⟨[.lose i],_,Machine.run_singleton.trans (NumberedCalls.step_lose hop),hw.calls,?_,
    hw.taken,hw.reader,hw.service,hw.written,hw.clients,hw.samples⟩
  simp only [loseRequest,hw.delivered]

theorem refines_deliverRequest (hw : Refines ts R guid s₀ w t) {i : ι}
    {req : WriteSample RobotControlRequest} (hreq : w.nextRequest i = some req) :
    ∃ ds t', (NumberedCalls.machine (told ts R)).run t ds = some t' ∧
      Refines ts R guid s₀ (w.deliverRequest ts i req) t' := by
  obtain ⟨op,hop,hid,hsel⟩ := hw.exists_next hreq
  refine ⟨[.receive i],_,Machine.run_singleton.trans (NumberedCalls.step_receive hop),hw.calls,
    ?_,hw.taken,?_,hw.service,hw.written,hw.clients,hw.samples⟩
  · simp only [deliverRequest,loseRequest,hw.delivered]
  · have hseen : seen (w.requestSample ts req) = ticketSeen ts guid ((i,t.next i),op) := by
      simpa [seen,ticketSeen,requestSample,TypeSupport.receivedRequest,hid] using hsel
    simp only [deliverRequest,Serving.arrive,Serving.reader,List.map_append,List.map_cons,
      List.map_nil,hseen]
    exact congrArg (· ++ _) hw.reader

omit [DecidableEq ι] in
theorem Refines.taken_next (hw : Refines ts R guid s₀ w t) {r : Sample RobotControlRequest}
    {rest : List (Sample RobotControlRequest)} (hr : w.server.reader = r :: rest) :
    ∃ p queued, t.queued = p :: queued ∧ seen r = ticketSeen ts guid p ∧
      rest.map seen = queued.map (ticketSeen ts guid) ∧
      dispatchRequest ts R.logged r w.server.dispatcher.service =
        (replyOf ts (asked ts p.2) (R.call ts.createStatus (asked ts p.2) t.object).1,
          ((told ts R p.2 t.object).2,(t.order ++ [p]).map (fun p => asked ts p.2))) := by
  have hreader := hw.reader
  rw [hr,List.map_cons] at hreader
  obtain ⟨p,queued,hq,hp,hqs⟩ := List.map_eq_cons_iff.mp hreader.symm
  have hsel : r.data.data.selected = some (asked ts p.2) := congrArg Prod.snd hp.symm
  refine ⟨p,queued,hq,hp.symm,hqs.symm,?_⟩
  rw [dispatchRequest_selected hsel,hw.service,logged_call]
  simp [told]

theorem refines_dispatch (hw : Refines ts R guid s₀ w t)
    (ht : NumberedCalls.Numbered (told ts R) s₀ t) :
    ∃ ds t', (NumberedCalls.machine (told ts R)).run t ds = some t' ∧
      Refines ts R guid s₀ { w with server := w.server.dispatch ts R.logged } t' := by
  have hd := Serving.dispatch_cases ts R.logged w.server
  generalize w.server.dispatch ts R.logged = v at hd
  cases hd with
  | idle =>
    refine ⟨[.drop],_,Machine.run_singleton,hw.calls,hw.delivered,hw.taken,?_,hw.service,
      hw.written,hw.clients,hw.samples⟩
    simp only [Serving.reader,List.map_tail]
    exact congrArg List.tail hw.reader
  | @replied r rest reply s' hr hreq =>
    obtain ⟨p,queued,hq,hseen,hrest,hcall⟩ := hw.taken_next hr
    obtain ⟨hreply,rfl⟩ := Prod.mk.inj (hcall.symm.trans hreq)
    have hgrown : w.server.written ⊆ w.server.written ++
        [⟨ReplierImpl.outgoing reply (toRpcSampleIdentity r.info.identity),r.info.identity⟩] :=
      List.subset_append_left _ _
    refine ⟨[.serve],_,Machine.run_singleton.trans (NumberedCalls.step_serve hq),hw.calls,
      hw.delivered,?_,hrest,rfl,fun x hx => ?_,hw.clients,
      fun i => (hw.samples i).mono (fun _ hr => hr.mono hgrown)⟩
    · simp only [List.map_append,List.map_cons,List.map_nil,hw.taken,hseen]
    · rw [direct_append,← ht.object]
      rcases List.mem_append.mp hx with hx | hx
      · obtain ⟨p',hp',hrest'⟩ := hw.written x hx
        exact ⟨p',List.mem_append_left _ hp',hrest'⟩
      · rw [List.mem_singleton.mp hx]
        exact ⟨_,List.mem_append_right _ (.head _),congrArg Prod.fst hseen,
          continuation_receivedReply hreply _⟩
  | @escaped r rest e s' hr hreq =>
    obtain ⟨p,queued,hq,hseen,hrest,hcall⟩ := hw.taken_next hr
    obtain ⟨-,rfl⟩ := Prod.mk.inj (hcall.symm.trans hreq)
    refine ⟨[.serve],_,Machine.run_singleton.trans (NumberedCalls.step_serve hq),hw.calls,
      hw.delivered,?_,hrest,rfl,fun x hx => ?_,hw.clients,hw.samples⟩
    · simp only [List.map_append,List.map_cons,List.map_nil,hw.taken,hseen]
    · obtain ⟨p',hp',hrest'⟩ := hw.written x hx
      exact ⟨p',by rw [direct_append]; exact List.mem_append_left _ hp',hrest'⟩

theorem refines_withClient (hw : Refines ts R guid s₀ w t) {i : ι}
    {e : Session.Env RobotControlReply} {c : Session RobotControlCall RobotControlReply}
    (hc : (w.client i).envStep T e = some c)
    (hholds : c.Holds (Came ts.receivedReply w.server.written)) :
    Refines ts R guid s₀ (w.withClient i c) t where
  calls := hw.calls
  delivered := hw.delivered
  taken := hw.taken
  reader := hw.reader
  service := hw.service
  written := hw.written
  clients j := by
    have hc := hw.client_update ((hw.clients i).envStep hc) j
    rwa [Function.update_eq_self] at hc
  samples := hw.samples_update hholds

theorem refines_step {e : Event ι} (h : (machine T ts R).step w e = some w')
    (hw : Refines ts R guid s₀ w t) (ht : NumberedCalls.Numbered (told ts R) s₀ t) :
    ∃ ds t', (NumberedCalls.machine (told ts R)).run t ds = some t' ∧
      Refines ts R guid s₀ w' t' := by
  cases e with
  | call i op sent =>
    cases h
    exact refines_call hw i op sent
  | deliverRequest i =>
    obtain ⟨req,hreq,rfl⟩ := Option.map_eq_some_iff.mp h
    exact refines_deliverRequest hw hreq
  | loseRequest i =>
    obtain ⟨req,hreq,rfl⟩ := Option.map_eq_some_iff.mp h
    exact refines_loseRequest hw hreq
  | dispatch =>
    cases h
    exact refines_dispatch hw ht
  | deliverReply i n identity =>
    obtain ⟨reply,hreply,h⟩ := Option.bind_eq_some_iff.mp h
    split at h
    case isFalse => cases h
    cases h
    have hcame : ∀ m, Came ts.receivedReply w.server.written
        ((replySample ts reply identity).sample m) :=
      fun m => ⟨reply,List.mem_of_getElem? hreply,rfl,rfl⟩
    exact ⟨[],t,rfl,refines_withClient (T := T) hw
      (show (w.client i).envStep T (.arrive (replySample ts reply identity)) = some _ from rfl)
      (Session.holds_arrive (hw.samples i) hcame)⟩
  | thread i k s =>
    obtain ⟨c,hc,rfl⟩ := Option.map_eq_some_iff.mp h
    exact ⟨[],t,rfl,refines_withClient (T := T) hw
      (show (w.client i).envStep T (.thread k s) = some c from hc)
      (Session.holds_threadStep hc (hw.samples i))⟩

theorem refines_run {es : List (Event ι)} (h : (machine T ts R).run w es = some w')
    (hw : Refines ts R guid s₀ w t) (ht : NumberedCalls.Numbered (told ts R) s₀ t) :
    ∃ ds t', (NumberedCalls.machine (told ts R)).run t ds = some t' ∧
      Refines ts R guid s₀ w' t' ∧ NumberedCalls.Numbered (told ts R) s₀ t' :=
  Machine.run_simulation (A := NumberedCalls.machine (told ts R))
    (R := fun w t => Refines ts R guid s₀ w t ∧ NumberedCalls.Numbered (told ts R) s₀ t)
    (fun hs hw => by
      obtain ⟨ds,t',hrun,hw'⟩ := refines_step hs hw.1 hw.2
      exact ⟨ds,t',hrun,hw',NumberedCalls.numbered_run hrun hw.2⟩)
    h ⟨hw,ht⟩

/-- The future of the `n`-th call of `i` tells `out`. -/
def Tells (P : Ppl Exn) (exn : String → Exn) (w : AsyncSystem ι σ) (i : ι) (n : ℕ) (op : Call)
    (out : Told op) : Prop :=
  ∃ cs v, (w.client i).promises[n]? = some cs ∧ v ∈ cs ∧ completedOutcome P exn op v = out

def Replied (P : Ppl Exn) (w : AsyncSystem ι σ) (i : ι) (n : ℕ) (op : Call) (out : Told op) :
    Prop :=
  ∃ cs reply, (w.client i).promises[n]? = some cs ∧ .value reply ∈ cs ∧
    asyncOutcome P op reply = out

def failure (w : AsyncSystem ι σ) (i : ι) (n : ℕ) : Option String := (w.client i).failure n

abbrev Telling (P : Ppl Exn) (exn : String → Exn) (w : AsyncSystem ι σ) : Prop :=
  Faults.Telling (thrown exn) w.failure (w.Replied P) (w.Tells P exn)

omit [DecidableEq ι] in
theorem telling (P : Ppl Exn) (exn : String → Exn)
    (h : ∀ i, Client ts (guid i) (w.calls i) (w.client i)) : Telling P exn w where
  replied := by
    rintro i n op out ⟨cs,v,hcs,hv,hout⟩ hf
    obtain ⟨reply,rfl⟩ := Completion.eq_value (((h i).failure_eq hcs hv).symm.trans hf)
    exact ⟨cs,reply,hcs,hv,hout⟩
  thrown := by
    rintro i n op out what ⟨cs,v,hcs,hv,rfl⟩ hf
    obtain rfl := Completion.eq_exception (((h i).failure_eq hcs hv).symm.trans hf)
    exact completedOutcome_exception P exn op what

/-- `order` is the order in which the dispatcher has received the requests. The calls it
stands for, made directly one after another from the state `s₀`, explain the replies that the
futures tell of; else they tell of an exception of `execute`. -/
structure AsLocal (P : Ppl Exn) (exn : String → Exn) (ts : TypeSupport) (R : RobotControl σ)
    (guid : ι → DDS.GUID) (s₀ : σ) (w : AsyncSystem ι σ) (order : List (Ticket ι)) :
    Prop where
  received : w.server.taken.map (fun k => seen k.request) = order.map (ticketSeen ts guid)
  invoked : w.server.dispatcher.service =
    ((direct (told ts R) s₀ order).2,order.map (fun p => asked ts p.2))
  explains : NumberedCalls.Explains (told ts R) s₀ w.calls (w.Replied P) order
  telling : Telling P exn w

theorem Refines.asLocal (P : Ppl Exn) (exn : String → Exn) (hg : Function.Injective guid)
    (hw : Refines ts R guid s₀ w t) (ht : NumberedCalls.Numbered (told ts R) s₀ t) :
    AsLocal P exn ts R guid s₀ w t.order where
  received := hw.taken
  invoked := by rw [hw.service,ht.object]
  explains := by
    rw [hw.calls]
    refine ht.explains ?_
    rintro i n op out hop ⟨cs,⟨data,info⟩,hcs,hr,rfl⟩
    obtain ⟨x,hx,hrel,hdata⟩ := (hw.samples i).promised cs (List.mem_of_getElem? hcs) _ hr
    obtain ⟨⟨⟨j,m⟩,op',out⟩,hp,hid,hout⟩ := hw.written x hx
    rw [(hw.clients i).related hcs hr,hid] at hrel
    obtain ⟨hgij,rfl⟩ := callIdentity_inj hrel
    obtain rfl := hg hgij
    have hop' := ht.calls _ (List.mem_append_left _ (mem_of_mem_direct hp))
    obtain rfl := Option.some.inj (hop.symm.trans hop')
    obtain rfl : data = _ := hdata
    rwa [asyncOutcome_eq,hout info]
  telling := AsyncSystem.telling P exn hw.clients

theorem exists_asLocal (P : Ppl Exn) (exn : String → Exn) (hg : Function.Injective guid)
    {es : List (Event ι)} (h : (machine T ts R).run (init guid s₀) es = some w) :
    ∃ order, ∃ made : List (Ticket ι), AsLocal P exn ts R guid s₀ w order ∧
      ∀ i n op, (w.calls i)[n]? = some op ↔ ((i,n),op) ∈ made := by
  obtain ⟨ds,t,hrun,hw,ht⟩ := refines_run h (refines_init ts R guid s₀)
    (NumberedCalls.numbered_init s₀)
  obtain ⟨made,hmade⟩ := NumberedCalls.made_run hrun
  exact ⟨t.order,made,hw.asLocal P exn hg ht,by rwa [hw.calls]⟩

/-- Whatever is lost, late or repeated, the futures tell of direct calls, one at a time, in
an order that only grows from the end, or of an exception of `execute`. -/
theorem asyncCalls_asLocal (P : Ppl Exn) (exn : String → Exn) (T : TakeReply RobotControlReply)
    (ts : TypeSupport) (R : RobotControl σ) {guid : ι → DDS.GUID}
    (hg : Function.Injective guid) {s₀ : σ} {w w' : AsyncSystem ι σ} {es fs : List (Event ι)}
    (h : (machine T ts R).run (init guid s₀) es = some w)
    (h' : (machine T ts R).run w fs = some w') :
    ∃ order later, AsLocal P exn ts R guid s₀ w order ∧
      AsLocal P exn ts R guid s₀ w' (order ++ later) := by
  obtain ⟨ds,t,-,hw,ht⟩ := refines_run h (refines_init ts R guid s₀)
    (NumberedCalls.numbered_init s₀)
  obtain ⟨ds',t',hrun,hw',ht'⟩ := refines_run h' hw ht
  obtain ⟨later,hlater⟩ := NumberedCalls.order_run hrun
  exact ⟨t.order,later,hw.asLocal P exn hg ht,by rw [hlater]; exact hw'.asLocal P exn hg ht'⟩

def crossingRun : List (Event Bool) :=
  [.call false (.setSpeed (.finite 5)) true,.call false .getSpeed true,
    .call true .getStatus true,.loseRequest false,.deliverRequest false,.deliverRequest true,
    .dispatch,.dispatch,.deliverReply false 0 RequesterImpl.nullIdentity,
    .deliverReply false 0 RequesterImpl.nullIdentity,
    .deliverReply true 1 RequesterImpl.nullIdentity]

def lateRun : List (Event Bool) :=
  [.thread false 0 .expire,.thread false 1 .wake,.thread false 1 .take,.thread false 1 .complete,
    .thread true 0 .wake,.thread true 0 (.takeThrows "no resources"),.thread true 0 .complete]

/-- The first request is lost, the reply to the second one comes twice, and that to the third
one cannot be taken. -/
theorem asyncCalls_crossed : ∃ (w w' : AsyncSystem Bool Unit) (order later : List (Ticket Bool)),
    (machine .oldest .zero Serving.echoRobot).run (init System.clientGuid ()) crossingRun =
      some w ∧
    (machine .oldest .zero Serving.echoRobot).run w lateRun = some w' ∧
    (w'.client false).promises.map List.length = [0,1] ∧
    w'.failure true 0 = some "no resources" ∧
    AsLocal (.eager Exn) .runtimeError .zero Serving.echoRobot System.clientGuid () w'
      (order ++ later) := by
  have hsome : ((machine .oldest .zero Serving.echoRobot).run (init System.clientGuid ())
      crossingRun).any (fun w : AsyncSystem Bool Unit =>
        ((machine .oldest .zero Serving.echoRobot).run w lateRun).any (fun w' =>
          (w'.client false).promises.map List.length = [0,1] ∧
            w'.failure true 0 = some "no resources")) := by decide
  obtain ⟨w,hw,hlate⟩ := (Option.any_eq_true _ _).mp hsome
  obtain ⟨w',hw',hlen⟩ := (Option.any_eq_true _ _).mp hlate
  obtain ⟨hlen,hfailure⟩ := of_decide_eq_true hlen
  have hg : Function.Injective System.clientGuid := by
    unfold Function.Injective
    decide
  obtain ⟨order,later,-,h⟩ :=
    asyncCalls_asLocal (.eager Exn) .runtimeError .oldest .zero Serving.echoRobot hg hw hw'
  exact ⟨w,w',order,later,hw,hw',hlen,hfailure,h⟩

end AsyncSystem
end DdsRpc
