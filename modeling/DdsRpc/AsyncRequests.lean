import DdsRpc.AsyncClients
import DdsRpc.RequestReplyRefinement
import DdsRpc.Library.Faults
set_option autoImplicit false

/-! Requesters at work as in the other tests of robot_reqrep.cxx: `send_request_async` with
any number of requests under way, each with a future for its reply. At the other end is
`server_rr`. Whatever the network does, the futures tell of direct calls. -/

namespace DdsRpc
open Connext SharedObject

/-- The first `delivered` requests of a requester have reached the replier or are lost. -/
structure AsyncRrSystem (ι : Type) where
  requester : ι → Session RobotControlCall RobotControlReply
  delivered : ι → ℕ
  server : RobotServer

namespace AsyncRrSystem
variable {ι : Type}

def init (guid : ι → DDS.GUID) (robot : Robot) : AsyncRrSystem ι where
  requester i := .init (guid i)
  delivered _ := 0
  server := ⟨.init,robot⟩

/-- The request that is sent can be a new one or one that has been sent before, with the
header and the other members that it has from then. A reply that the server has written can
arrive late, again or not at all. -/
inductive Event (ι : Type) where
  | send (i : ι) (req : RobotControlRequest) (sent : Bool)
  | deliverRequest (i : ι)
  | loseRequest (i : ι)
  | turn
  | deliverReply (i : ι) (n : ℕ) (identity : DDS.SampleIdentity)
  | thread (i : ι) (k : ℕ) (s : Session.ThreadStep)
  deriving DecidableEq

def requests (w : AsyncRrSystem ι) (i : ι) : List RobotControlCall :=
  (w.requester i).impl.super.written.map (fun s => s.data.data)

abbrev Told (data : RobotControlCall) : Type := Except Exn (Read data)

def outcome (exn : String → Exn) (data : RobotControlCall) (v : Completion RobotControlReply) :
    Told data := (ClientImpl.completion exn v).map (fun reply_sample => reply_sample.data.data)

/-- The future of the `n`-th request of `i` tells `out`. -/
def Tells (exn : String → Exn) (w : AsyncRrSystem ι) (i : ι) (n : ℕ) (data : RobotControlCall)
    (out : Told data) : Prop :=
  ∃ cs v, (w.requester i).promises[n]? = some cs ∧ v ∈ cs ∧ outcome exn data v = out

def Replied (w : AsyncRrSystem ι) (i : ι) (n : ℕ) (data : RobotControlCall) (read : Read data) :
    Prop :=
  ∃ cs reply, (w.requester i).promises[n]? = some cs ∧ .value reply ∈ cs ∧
    reply.data.data = read

def failure (w : AsyncRrSystem ι) (i : ι) (n : ℕ) : Option String := (w.requester i).failure n

def thrown (exn : String → Exn) (data : RobotControlCall) (what : String) : Told data :=
  .error (exn what)

abbrev Telling (exn : String → Exn) (w : AsyncRrSystem ι) : Prop :=
  Faults.Telling (thrown exn) w.failure
    (fun i n data out => ∃ read, w.Replied i n data read ∧ .ok read = out) (w.Tells exn)

abbrev reader (w : AsyncRrSystem ι) : List (Sample RobotControlRequest) :=
  w.server.replier.super.reader

abbrev written (w : AsyncRrSystem ι) : List (WriteReply RobotControlReply) :=
  w.server.replier.super.written

variable [DecidableEq ι]

def send (w : AsyncRrSystem ι) (i : ι) (req : RobotControlRequest) (sent : Bool) :
    AsyncRrSystem ι :=
  { w with
    requester := Function.update w.requester i ((w.requester i).sendRequestAsync req sent) }

def nextRequest (w : AsyncRrSystem ι) (i : ι) : Option (WriteSample RobotControlRequest) :=
  (w.requester i).impl.super.written[w.delivered i]?

def requestSample (ts : TypeSupport) (w : AsyncRrSystem ι)
    (req : WriteSample RobotControlRequest) : Sample RobotControlRequest :=
  ⟨ts.receivedRequest req.data,
    ⟨true,req.identity,RequesterImpl.nullIdentity,w.written.length+w.reader.length+1⟩⟩

def loseRequest (w : AsyncRrSystem ι) (i : ι) : AsyncRrSystem ι :=
  { w with delivered := Function.update w.delivered i (w.delivered i+1) }

def deliverRequest (ts : TypeSupport) (w : AsyncRrSystem ι) (i : ι)
    (req : WriteSample RobotControlRequest) : AsyncRrSystem ι :=
  { w.loseRequest i with
    server := { w.server with replier := w.server.replier.arrive (w.requestSample ts req) } }

def replySample (ts : TypeSupport) (reply : WriteReply RobotControlReply)
    (identity : DDS.SampleIdentity) : Arrival RobotControlReply :=
  ⟨ts.receivedReply reply.data,true,identity,reply.relatedIdentity⟩

def withRequester (w : AsyncRrSystem ι) (i : ι)
    (c : Session RobotControlCall RobotControlReply) : AsyncRrSystem ι :=
  { w with requester := Function.update w.requester i c }

def machine (T : TakeReply RobotControlReply) (ts : TypeSupport) (status : String) :
    Machine (AsyncRrSystem ι) (Event ι) where
  step w
    | .send i req sent => some (w.send i req sent)
    | .deliverRequest i => (w.nextRequest i).map (w.deliverRequest ts i)
    | .loseRequest i => (w.nextRequest i).map (fun _ => w.loseRequest i)
    | .turn => some { w with server := w.server.turn ts status }
    | .deliverReply i n identity => do
      let reply ← w.written[n]?
      if reply.relatedIdentity.writerGuid = (w.requester i).impl.super.writerGuid then
        some (w.withRequester i ((w.requester i).arrive (replySample ts reply identity)))
      else none
    | .thread i k s => ((w.requester i).threadStep T k s).map (w.withRequester i)

variable {T : TakeReply RobotControlReply} {ts : TypeSupport} {status : String}
  {guid : ι → DDS.GUID} {s₀ : Robot} {w w' : AsyncRrSystem ι}

abbrev Ticket (ι : Type) : Type := NumberedCalls.Ticket ι RobotControlCall

abbrev object (ts : TypeSupport) (status : String) :
    Machine (NumberedCalls.State ι Robot RobotControlCall)
      (NumberedCalls.Event ι RobotControlCall) :=
  NumberedCalls.machine (Robot.answer ts status)

def seen (r : Sample RobotControlRequest) : DDS.SampleIdentity × Bool × RobotControlCall :=
  (r.info.identity,r.info.validData,r.data.data)

def ticketSeen (ts : TypeSupport) (guid : ι → DDS.GUID) (p : Ticket ι) :
    DDS.SampleIdentity × Bool × RobotControlCall :=
  (callIdentity (guid p.1.1) p.1.2,true,ts.createRequest.data.deserialize p.2)

def directReplies (ts : TypeSupport) (status : String) (guid : ι → DDS.GUID) (s₀ : Robot)
    (order : List (Ticket ι)) : List (DDS.SampleIdentity × RobotControlReturn) :=
  (direct (Robot.answer ts status) s₀ order).1.map
    (fun o => (callIdentity (guid o.1.1) o.1.2,o.2.2))

def sentReplies (ts : TypeSupport) (w : AsyncRrSystem ι) :
    List (DDS.SampleIdentity × RobotControlReturn) :=
  w.written.map (fun x => (x.relatedIdentity,(ts.receivedReply x.data).data))

/-- The system `w` stands for the robot and its numbered calls `t`. -/
structure Refines (ts : TypeSupport) (status : String) (guid : ι → DDS.GUID) (s₀ : Robot)
    (w : AsyncRrSystem ι) (t : NumberedCalls.State ι Robot RobotControlCall) : Prop where
  suppressInvalid : w.server.replier.suppressInvalid = true
  requests : w.requests = t.calls
  delivered : w.delivered = t.next
  reader : w.reader.map seen = t.queued.map (ticketSeen ts guid)
  robot : w.server.robot = t.object
  sent : w.sentReplies ts = directReplies ts status guid s₀ t.order
  clients : ∀ i, AsyncClient id id (guid i) (w.requests i) (w.requester i)
  samples : ∀ i, (w.requester i).Holds (Came ts.receivedReply w.written)

omit [DecidableEq ι] in
theorem refines_init (ts : TypeSupport) (status : String) (guid : ι → DDS.GUID) (s₀ : Robot) :
    Refines ts status guid s₀ (init guid s₀) (NumberedCalls.init s₀) where
  suppressInvalid := rfl
  requests := rfl
  delivered := rfl
  reader := rfl
  robot := rfl
  sent := rfl
  clients i := .init _ _ (guid i)
  samples i := Session.holds_init (guid i)

variable {t : NumberedCalls.State ι Robot RobotControlCall}

theorem requests_send (w : AsyncRrSystem ι) (i : ι) (req : RobotControlRequest) :
    (w.send i req true).requests =
      Function.update w.requests i (w.requests i ++ [req.data]) := by
  funext j
  rcases eq_or_ne j i with rfl | hj
  · simp [requests,send,Session.sendRequestAsync,RequesterImpl.sendRequestAsync,
      Requester.sendRequest,RequesterImpl.stamp]
  · simp [requests,send,hj]

theorem requests_send_throws (w : AsyncRrSystem ι) (i : ι) (req : RobotControlRequest) :
    (w.send i req false).requests = w.requests := by
  funext j
  rcases eq_or_ne j i with rfl | hj
  · simp [requests,send,Session.sendRequestAsync,RequesterImpl.sendRequestAsync]
  · simp [requests,send,hj]

theorem requests_withRequester {i : ι} {e : Session.Env RobotControlReply}
    {c : Session RobotControlCall RobotControlReply}
    (hc : (w.requester i).envStep T e = some c) :
    (w.withRequester i c).requests = w.requests := by
  funext j
  rcases eq_or_ne j i with rfl | hj
  · simp [requests,withRequester,(Session.envStep_unchanged hc).written]
  · simp [requests,withRequester,hj]

theorem Refines.client_update (hw : Refines ts status guid s₀ w t) {i : ι}
    {calls : List RobotControlCall} {c : Session RobotControlCall RobotControlReply}
    (hc : AsyncClient id id (guid i) calls c) (j : ι) :
    AsyncClient id id (guid j) (Function.update w.requests i calls j)
      (Function.update w.requester i c j) := by
  rcases eq_or_ne j i with rfl | hj
  · simpa using hc
  · simpa [hj] using hw.clients j

theorem Refines.samples_update (hw : Refines ts status guid s₀ w t) {i : ι}
    {c : Session RobotControlCall RobotControlReply}
    (hc : c.Holds (Came ts.receivedReply w.written)) (j : ι) :
    (Function.update w.requester i c j).Holds (Came ts.receivedReply w.written) := by
  rcases eq_or_ne j i with rfl | hj
  · simpa using hc
  · simpa [hj] using hw.samples j

theorem refines_send (hw : Refines ts status guid s₀ w t) (i : ι) (req : RobotControlRequest)
    (sent : Bool) : ∃ ds t', (object ts status).run t ds = some t' ∧
      Refines ts status guid s₀ (w.send i req sent) t' := by
  have hsamples := hw.samples_update (i := i)
    (Session.holds_sendRequestAsync (hw.samples i) req sent)
  cases sent with
  | true =>
    refine ⟨[.call i req.data],_,Machine.run_singleton,hw.suppressInvalid,?_,hw.delivered,
      hw.reader,hw.robot,hw.sent,fun j => ?_,hsamples⟩
    · rw [requests_send,hw.requests]
    · rw [requests_send]
      exact hw.client_update ((hw.clients i).send rfl) j
  | false =>
    refine ⟨[],t,rfl,hw.suppressInvalid,?_,hw.delivered,hw.reader,hw.robot,hw.sent,fun j => ?_,
      hsamples⟩
    · rw [requests_send_throws,hw.requests]
    · rw [requests_send_throws]
      have hc := hw.client_update ((hw.clients i).sendThrows req) j
      rwa [Function.update_eq_self] at hc

omit [DecidableEq ι] in
theorem Refines.exists_next (hw : Refines ts status guid s₀ w t) {i : ι}
    {req : WriteSample RobotControlRequest} (hreq : w.nextRequest i = some req) :
    (t.calls i)[t.next i]? = some req.data.data ∧
      req.identity = callIdentity (guid i) (t.next i) := by
  rw [← hw.requests,← hw.delivered]
  obtain ⟨op,hop,hid,hsee⟩ := (hw.clients i).written_get hreq
  obtain rfl : req.data.data = op := hsee
  exact ⟨hop,hid⟩

theorem refines_loseRequest (hw : Refines ts status guid s₀ w t) {i : ι}
    {req : WriteSample RobotControlRequest} (hreq : w.nextRequest i = some req) :
    ∃ ds t', (object ts status).run t ds = some t' ∧
      Refines ts status guid s₀ (w.loseRequest i) t' := by
  obtain ⟨hop,-⟩ := hw.exists_next hreq
  refine ⟨[.lose i],_,Machine.run_singleton.trans (NumberedCalls.step_lose hop),
    hw.suppressInvalid,hw.requests,?_,hw.reader,hw.robot,hw.sent,hw.clients,hw.samples⟩
  simp only [loseRequest,hw.delivered]

theorem refines_deliverRequest (hw : Refines ts status guid s₀ w t) {i : ι}
    {req : WriteSample RobotControlRequest} (hreq : w.nextRequest i = some req) :
    ∃ ds t', (object ts status).run t ds = some t' ∧
      Refines ts status guid s₀ (w.deliverRequest ts i req) t' := by
  obtain ⟨hop,hid⟩ := hw.exists_next hreq
  refine ⟨[.receive i],_,Machine.run_singleton.trans (NumberedCalls.step_receive hop),
    hw.suppressInvalid,hw.requests,?_,?_,hw.robot,hw.sent,hw.clients,hw.samples⟩
  · simp only [deliverRequest,loseRequest,hw.delivered]
  · have hseen : seen (w.requestSample ts req) =
        ticketSeen ts guid ((i,t.next i),req.data.data) := by
      simp [seen,ticketSeen,requestSample,TypeSupport.receivedRequest,hid]
    simp only [deliverRequest,ReplierImpl.arrive,reader,List.map_append,List.map_cons,
      List.map_nil,hseen]
    exact congrArg (· ++ _) hw.reader

theorem refines_turn (hw : Refines ts status guid s₀ w t)
    (ht : NumberedCalls.Numbered (Robot.answer ts status) s₀ t) :
    ∃ ds t', (object ts status).run t ds = some t' ∧
      Refines ts status guid s₀ { w with server := w.server.turn ts status } t' := by
  rcases RobotServer.turn_cases ts status hw.suppressInvalid with ⟨-,hturn⟩ | ⟨r,rest,hr,hturn⟩
  · rw [hturn]
    exact ⟨[],t,rfl,hw⟩
  · have hreader := hw.reader
    rw [reader,hr,List.map_cons] at hreader
    obtain ⟨⟨x,data⟩,queued,hq,hp,hqs⟩ := List.map_eq_cons_iff.mp hreader.symm
    obtain ⟨hid,hp⟩ := Prod.mk.inj hp
    obtain ⟨hv,hdata⟩ := Prod.mk.inj hp
    obtain ⟨hout,hrobot⟩ := Robot.processRequest_answer status hdata.symm w.server.robot
    rw [if_pos hv.symm] at hturn
    rw [hturn]
    refine ⟨[.serve],_,Machine.run_singleton.trans (NumberedCalls.step_serve hq),rfl,
      hw.requests,hw.delivered,hqs.symm,?_,?_,hw.clients,
      fun i => (hw.samples i).mono (fun _ hr => hr.mono (List.subset_append_left _ _))⟩
    · rw [← hw.robot]
      exact hrobot
    · have hsent := hw.sent
      simp only [sentReplies,written,directReplies] at hsent
      simp only [sentReplies,written,directReplies,direct_append,List.map_append,List.map_cons,
        List.map_nil,hsent,← ht.object,← hw.robot,hid]
      exact congrArg (fun d => _ ++ [(r.info.identity,d)]) hout

theorem refines_withRequester (hw : Refines ts status guid s₀ w t) {i : ι}
    {e : Session.Env RobotControlReply} {c : Session RobotControlCall RobotControlReply}
    (hc : (w.requester i).envStep T e = some c)
    (hholds : c.Holds (Came ts.receivedReply w.written)) :
    Refines ts status guid s₀ (w.withRequester i c) t where
  suppressInvalid := hw.suppressInvalid
  requests := (requests_withRequester hc).trans hw.requests
  delivered := hw.delivered
  reader := hw.reader
  robot := hw.robot
  sent := hw.sent
  clients j := by
    rw [requests_withRequester hc]
    have hc := hw.client_update ((hw.clients i).envStep hc) j
    rwa [Function.update_eq_self] at hc
  samples := hw.samples_update hholds

theorem refines_step {e : Event ι} (h : (machine T ts status).step w e = some w')
    (hw : Refines ts status guid s₀ w t)
    (ht : NumberedCalls.Numbered (Robot.answer ts status) s₀ t) :
    ∃ ds t', (object ts status).run t ds = some t' ∧ Refines ts status guid s₀ w' t' := by
  cases e with
  | send i req sent =>
    cases h
    exact refines_send hw i req sent
  | deliverRequest i =>
    obtain ⟨req,hreq,rfl⟩ := Option.map_eq_some_iff.mp h
    exact refines_deliverRequest hw hreq
  | loseRequest i =>
    obtain ⟨req,hreq,rfl⟩ := Option.map_eq_some_iff.mp h
    exact refines_loseRequest hw hreq
  | turn =>
    cases h
    exact refines_turn hw ht
  | deliverReply i n identity =>
    obtain ⟨reply,hreply,h⟩ := Option.bind_eq_some_iff.mp h
    split at h
    case isFalse => cases h
    cases h
    have hcame : ∀ m, Came ts.receivedReply w.written
        ((replySample ts reply identity).sample m) :=
      fun m => ⟨reply,List.mem_of_getElem? hreply,rfl,rfl⟩
    exact ⟨[],t,rfl,refines_withRequester (T := T) hw
      (show (w.requester i).envStep T (.arrive (replySample ts reply identity)) = some _ from rfl)
      (Session.holds_arrive (hw.samples i) hcame)⟩
  | thread i k s =>
    obtain ⟨c,hc,rfl⟩ := Option.map_eq_some_iff.mp h
    exact ⟨[],t,rfl,refines_withRequester (T := T) hw
      (show (w.requester i).envStep T (.thread k s) = some c from hc)
      (Session.holds_threadStep hc (hw.samples i))⟩

theorem refines_run {es : List (Event ι)} (h : (machine T ts status).run w es = some w')
    (hw : Refines ts status guid s₀ w t)
    (ht : NumberedCalls.Numbered (Robot.answer ts status) s₀ t) :
    ∃ ds t', (object ts status).run t ds = some t' ∧ Refines ts status guid s₀ w' t' ∧
      NumberedCalls.Numbered (Robot.answer ts status) s₀ t' :=
  Machine.run_simulation (A := object ts status)
    (R := fun w t => Refines ts status guid s₀ w t ∧
      NumberedCalls.Numbered (Robot.answer ts status) s₀ t)
    (fun hs hw => by
      obtain ⟨ds,t',hrun,hw'⟩ := refines_step hs hw.1 hw.2
      exact ⟨ds,t',hrun,hw',NumberedCalls.numbered_run hrun hw.2⟩)
    h ⟨hw,ht⟩

omit [DecidableEq ι] in
theorem telling (exn : String → Exn)
    (h : ∀ i, AsyncClient id id (guid i) (w.requests i) (w.requester i)) : Telling exn w where
  replied := by
    rintro i n data out ⟨cs,v,hcs,hv,hout⟩ hf
    obtain ⟨reply,rfl⟩ := Completion.eq_value (((h i).failure_eq hcs hv).symm.trans hf)
    exact ⟨_,⟨cs,reply,hcs,hv,rfl⟩,hout⟩
  thrown := by
    rintro i n data out what ⟨cs,v,hcs,hv,rfl⟩ hf
    obtain rfl := Completion.eq_exception (((h i).failure_eq hcs hv).symm.trans hf)
    rfl

/-- `order` is the order in which the replier has received the requests. They explain the
replies that the futures tell of; else these tell of an exception of `execute`. -/
structure AsDirect (exn : String → Exn) (ts : TypeSupport) (status : String)
    (guid : ι → DDS.GUID) (s₀ : Robot) (w : AsyncRrSystem ι) (order : List (Ticket ι)) :
    Prop where
  robot : w.server.robot = (direct (Robot.answer ts status) s₀ order).2
  sent : w.sentReplies ts = directReplies ts status guid s₀ order
  explains : NumberedCalls.Explains (Robot.answer ts status) s₀ w.requests w.Replied order
  telling : Telling exn w

omit [DecidableEq ι] in
theorem Refines.replied (hw : Refines ts status guid s₀ w t) {i : ι} {n : ℕ}
    {data : RobotControlCall} {read : Read data} (h : w.Replied i n data read) :
    (callIdentity (guid i) n,read) ∈ directReplies ts status guid s₀ t.order := by
  obtain ⟨cs,⟨reply,info⟩,hcs,hr,rfl⟩ := h
  obtain ⟨x,hx,hrel,hdata⟩ := (hw.samples i).promised cs (List.mem_of_getElem? hcs) _ hr
  rw [(hw.clients i).related hcs hr] at hrel
  obtain rfl : reply = _ := hdata
  rw [← hw.sent,hrel]
  exact List.mem_map.mpr ⟨x,hx,rfl⟩

theorem Refines.asDirect (exn : String → Exn) (hg : Function.Injective guid)
    (hw : Refines ts status guid s₀ w t)
    (ht : NumberedCalls.Numbered (Robot.answer ts status) s₀ t) :
    AsDirect exn ts status guid s₀ w t.order where
  robot := hw.robot.trans ht.object
  sent := hw.sent
  explains := by
    rw [hw.requests]
    refine ht.explains ?_
    intro i n data read hop hreplied
    obtain ⟨⟨⟨j,m⟩,data',read'⟩,hp,heq⟩ := List.mem_map.mp (hw.replied hreplied)
    obtain ⟨hid,rfl⟩ := Prod.mk.inj heq
    obtain ⟨hgij,rfl⟩ := callIdentity_inj hid
    obtain rfl := hg hgij
    have hop' := ht.calls _ (List.mem_append_left _ (mem_of_mem_direct hp))
    obtain rfl := Option.some.inj (hop.symm.trans hop')
    exact hp
  telling := AsyncRrSystem.telling exn hw.clients

theorem exists_asDirect (exn : String → Exn) (hg : Function.Injective guid)
    {es : List (Event ι)} (h : (machine T ts status).run (init guid s₀) es = some w) :
    ∃ order, ∃ made : List (Ticket ι), AsDirect exn ts status guid s₀ w order ∧
      ∀ i n data, (w.requests i)[n]? = some data ↔ ((i,n),data) ∈ made := by
  obtain ⟨ds,t,hrun,hw,ht⟩ := refines_run h (refines_init ts status guid s₀)
    (NumberedCalls.numbered_init s₀)
  obtain ⟨made,hmade⟩ := NumberedCalls.made_run hrun
  exact ⟨t.order,made,hw.asDirect exn hg ht,by rwa [hw.requests]⟩

/-- Whatever requesters send and whatever the network does with it, their futures and
`server_rr` behave as if `process_request` had been called directly, one request at a time
and in an order that only grows from the end. -/
theorem asyncRequests_asDirect (exn : String → Exn) (T : TakeReply RobotControlReply)
    (ts : TypeSupport) (status : String) {guid : ι → DDS.GUID}
    (hg : Function.Injective guid) {s₀ : Robot} {w w' : AsyncRrSystem ι}
    {es fs : List (Event ι)} (h : (machine T ts status).run (init guid s₀) es = some w)
    (h' : (machine T ts status).run w fs = some w') :
    ∃ order later, AsDirect exn ts status guid s₀ w order ∧
      AsDirect exn ts status guid s₀ w' (order ++ later) := by
  obtain ⟨ds,t,-,hw,ht⟩ := refines_run h (refines_init ts status guid s₀)
    (NumberedCalls.numbered_init s₀)
  obtain ⟨ds',t',hrun,hw',ht'⟩ := refines_run h' hw ht
  obtain ⟨later,hlater⟩ := NumberedCalls.order_run hrun
  exact ⟨t.order,later,hw.asDirect exn hg ht,by rw [hlater]; exact hw'.asDirect exn hg ht'⟩

/-- A buffer is sent again with another speed while its first request is under way. -/
def crossingRun : List (Event Bool) :=
  let fast := { TypeSupport.zero.createRequest with
    data.d := setSpeedHash, data.setSpeed.speed := .finite 110 }
  [.send false fast true,.send false { fast with data.setSpeed.speed := .finite 40 } true,
    .send true { fast with data.d := getSpeedHash } true,
    .deliverRequest false,.deliverRequest false,.deliverRequest true,.turn,.turn,.turn,
    .deliverReply false 1 RequesterImpl.nullIdentity,
    .deliverReply false 0 RequesterImpl.nullIdentity,
    .deliverReply true 2 RequesterImpl.nullIdentity]

def lateRun : List (Event Bool) :=
  [.thread false 0 .wake,.thread false 1 .wake,.thread false 1 .take,.thread false 1 .complete,
    .thread false 0 .take,.thread false 0 .complete,.thread true 0 .wake,
    .thread true 0 (.takeThrows "no resources"),.thread true 0 .complete]

theorem asyncRequests_crossed : ∃ (w w' : AsyncRrSystem Bool) (order later : List (Ticket Bool)),
    (machine .oldest .zero "Good Status").run (init System.clientGuid .init) crossingRun =
      some w ∧
    (machine .oldest .zero "Good Status").run w lateRun = some w' ∧
    (w'.requester false).promises.map List.length = [1,1] ∧
    w'.failure true 0 = some "no resources" ∧ w'.server.robot.speed = .finite 40 ∧
    AsDirect .runtimeError .zero "Good Status" System.clientGuid .init w' (order ++ later) := by
  have hsome : ((machine .oldest .zero "Good Status").run (init System.clientGuid .init)
      crossingRun).any (fun w : AsyncRrSystem Bool =>
        ((machine .oldest .zero "Good Status").run w lateRun).any (fun w' =>
          (w'.requester false).promises.map List.length = [1,1] ∧
            w'.failure true 0 = some "no resources" ∧ w'.server.robot.speed = .finite 40)) := by
    decide +kernel
  obtain ⟨w,hw,hlate⟩ := (Option.any_eq_true _ _).mp hsome
  obtain ⟨w',hw',hend⟩ := (Option.any_eq_true _ _).mp hlate
  obtain ⟨hlen,hfailure,hspeed⟩ := of_decide_eq_true hend
  have hg : Function.Injective System.clientGuid := by
    unfold Function.Injective
    decide
  obtain ⟨order,later,-,h⟩ :=
    asyncRequests_asDirect .runtimeError .oldest .zero "Good Status" hg hw hw'
  exact ⟨w,w',order,later,hw,hw',hlen,hfailure,hspeed,h⟩

end AsyncRrSystem
end DdsRpc
