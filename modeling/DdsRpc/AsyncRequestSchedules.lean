import DdsRpc.AsyncRequests
set_option autoImplicit false

/-! Programs that send requests to `server_rr` and wait for their futures: any number of
chains of them on a requester. They can do what programs can do that call `process_request`
itself, and nothing else. -/

namespace DdsRpc
open Connext SharedObject

namespace AsyncRrSystem
variable {ι κ : Type} [DecidableEq ι] [DecidableEq κ] {exn : String → Exn}
  {T : TakeReply RobotControlReply} {ts : TypeSupport} {status : String} {guid : ι → DDS.GUID}
  {E : String → Prop} {s₀ : Robot} {w : AsyncRrSystem ι} {owner : ι → ℕ → κ}

/-- `process_request` called directly, with its reply as a future tells it. -/
def told (ts : TypeSupport) (status : String) (data : RobotControlCall) (robot : Robot) :
    Told data × Robot :=
  (.ok (robot.answer ts status data).1,(robot.answer ts status data).2)

abbrev Runs (exn : String → Exn) {Q : Type} (p : Program Q RobotControlCall Told) (q : Q)
    (w : AsyncRrSystem ι) (owner : ι → ℕ → κ) (x : ι × κ) (outs : List (Sigma Told)) : Prop :=
  Chains.Runs w.requests (w.Tells exn) p q owner x outs

theorem AsDirect.explains_told {order : List (Ticket ι)}
    (h : AsDirect exn ts status guid s₀ w order) :
    NumberedCalls.Explains (told ts status) s₀ w.requests
      (fun i n data out => ∃ read, w.Replied i n data read ∧ .ok read = out) order :=
  h.explains.mapOut (fun _ => Except.ok)

theorem AsDirect.robot_told {order : List (Ticket ι)}
    (h : AsDirect exn ts status guid s₀ w order) :
    w.server.robot = (direct (told ts status) s₀ order).2 := by
  have hmap : (direct (told ts status) s₀ order).2 = (direct (Robot.answer ts status) s₀ order).2 :=
    congrArg Prod.snd (direct_mapOut (fun _ => Except.ok) s₀ order)
  exact h.robot.trans hmap.symm

abbrev Scheduled (exn : String → Exn) (ts : TypeSupport) (status : String) {Q : ι × κ → Type}
    (p : (x : ι × κ) → Program (Q x) RobotControlCall Told) (s₀ : Robot) (q : (x : ι × κ) → Q x)
    (w : AsyncRrSystem ι) (owner : ι → ℕ → κ) (outs : ι × κ → List (Sigma Told))
    (schedule : List ((ι × κ) × Faults.Fate String)) (q' : (x : ι × κ) → Q x) : Prop :=
  Faults.Scheduled (told ts status) (thrown exn) p s₀ q owner w.failure outs w.server.robot
    schedule q'

theorem requests_asDirect (exn : String → Exn) (T : TakeReply RobotControlReply)
    (ts : TypeSupport) (status : String) (hg : Function.Injective guid) {Q : ι × κ → Type}
    {p : (x : ι × κ) → Program (Q x) RobotControlCall Told} {q : (x : ι × κ) → Q x}
    {es : List (Event ι)} (h : (machine T ts status).run (init guid s₀) es = some w)
    {outs : ι × κ → List (Sigma Told)}
    (hr : ∀ x, Runs exn (p x) (q x) w owner x (outs x)) :
    ∃ schedule q', Scheduled exn ts status p s₀ q w owner outs schedule q' := by
  obtain ⟨order,made,hw,hmade⟩ := exists_asDirect exn hg h
  obtain ⟨schedule,q',hs⟩ := Faults.exists_scheduled hw.explains_told hmade hw.telling hr
  refine ⟨schedule,q',?_⟩
  rw [Scheduled,hw.robot_told]
  exact hs

/-- Nothing is on its way, and every request has been answered or given up; `E` are the
exceptions that there have been. -/
structure Quiet (guid : ι → DDS.GUID) (E : String → Prop) (w : AsyncRrSystem ι) : Prop where
  server : w.server.replier = ⟨⟨[],w.written⟩,true⟩
  clients : ∀ i, AsyncClient id id (guid i) (w.requests i) (w.requester i)
  delivered : ∀ i, w.delivered i = (w.requests i).length
  replies : ∀ i, AsyncClient.Stale (guid i) (w.requests i) (w.requester i)
  faults : ∀ i n what, w.failure i n = some what → E what

abbrev Settled (guid : ι → DDS.GUID) (E : String → Prop) (w : AsyncRrSystem ι) : Prop :=
  AsyncClient.Settled id id guid E w.requests w.requester

omit [DecidableEq ι] in
theorem Quiet.settled (hw : Quiet guid E w) : Settled guid E w :=
  ⟨hw.clients,hw.replies,hw.faults⟩

theorem withRequester_withRequester (w : AsyncRrSystem ι) (i : ι)
    (c c' : Session RobotControlCall RobotControlReply) :
    (w.withRequester i c).withRequester i c' = w.withRequester i c' := by
  simp [withRequester]

theorem run_threads (ts : TypeSupport) (status : String) (w : AsyncRrSystem ι) (i : ι)
    {fs : List (Nat × Session.ThreadStep)} {c c' : Session RobotControlCall RobotControlReply}
    (h : (Session.executing T).run c fs = some c') :
    (machine T ts status).run (w.withRequester i c) (fs.map (fun f => .thread i f.1 f.2)) =
      some (w.withRequester i c') := by
  refine Machine.run_embed (w.withRequester i) (fun f => Event.thread i f.1 f.2)
    (fun {c f c'} hc => ?_) h
  have hself : (w.withRequester i c).requester i = c := by simp [withRequester]
  have hc : c.threadStep T f.1 f.2 = some c' := hc
  simp [machine,hself,hc,withRequester_withRequester]

structure Served (ts : TypeSupport) (status : String) (w : AsyncRrSystem ι) (i : ι)
    (req : RobotControlRequest) (reply : RobotControlReply) (u : AsyncRrSystem ι) : Prop where
  requester : u.requester =
    Function.update w.requester i ((w.requester i).sendRequestAsync req true)
  delivered : u.delivered = Function.update w.delivered i (w.delivered i+1)
  server : u.server.replier =
    ⟨⟨[],w.written ++ [⟨reply,(w.requester i).impl.super.nextIdentity⟩]⟩,true⟩
  robot : u.server.robot = (Robot.answer ts status req.data w.server.robot).2
  data : (ts.receivedReply reply).data = (Robot.answer ts status req.data w.server.robot).1

theorem quiet_served (T : TakeReply RobotControlReply) (ts : TypeSupport) (status : String)
    (hw : Quiet guid E w) (i : ι) (req : RobotControlRequest) : ∃ reply u,
      (machine T ts status).run w [.send i req true,.deliverRequest i,.turn] = some u ∧
      Served ts status w i req reply u := by
  let x : WriteSample RobotControlRequest :=
    ⟨(w.requester i).impl.stamp req,(w.requester i).impl.super.nextIdentity⟩
  have hwritten : ((w.send i req true).requester i).impl.super.written =
      (w.requester i).impl.super.written ++ [x] := by
    simp [send,Session.sendRequestAsync,RequesterImpl.sendRequestAsync,Requester.sendRequest,
      Requester.nextIdentity,x]
  -- The request is the next one that arrives.
  have hnext : (w.send i req true).nextRequest i = some x := by
    have hlen : w.delivered i = (w.requester i).impl.super.written.length :=
      (hw.delivered i).trans (hw.clients i).written_length.symm
    rw [nextRequest,hwritten,show (w.send i req true).delivered i = _ from hlen,
      List.getElem?_concat_length]
  have harrive : (machine T ts status).step (w.send i req true) (.deliverRequest i) =
      some ((w.send i req true).deliverRequest ts i x) := by
    simp only [machine,hnext,Option.map_some]
  have hturn := RobotServer.turn_arrive ts status hw.server ((w.send i req true).requestSample ts x)
  rw [if_pos (show ((w.send i req true).requestSample ts x).info.validData = true from rfl)]
    at hturn
  obtain ⟨hout,hrobot⟩ := Robot.processRequest_answer status
    (show ((w.send i req true).requestSample ts x).data.data =
      ts.createRequest.data.deserialize req.data from rfl) w.server.robot
  exact ⟨_,_,Machine.run_cons.mpr ⟨_,rfl,Machine.run_cons.mpr ⟨_,harrive,
    Machine.run_cons.mpr ⟨_,rfl,rfl⟩⟩⟩,rfl,rfl,congrArg RobotServer.replier hturn,
    (congrArg RobotServer.robot hturn).trans hrobot,hout⟩

theorem step_deliverLast {reply : WriteReply RobotControlReply}
    {written : List (WriteReply RobotControlReply)} (T : TakeReply RobotControlReply)
    (ts : TypeSupport) (status : String) {i : ι} (hwritten : w.written = written ++ [reply])
    (hguid : reply.relatedIdentity.writerGuid = (w.requester i).impl.super.writerGuid)
    (identity : DDS.SampleIdentity) :
    (machine T ts status).step w (.deliverReply i written.length identity) =
      some (w.withRequester i ((w.requester i).arrive (replySample ts reply identity))) := by
  have hlast : w.written[written.length]? = some reply := by
    rw [hwritten,List.getElem?_concat_length]
  simp only [machine,hlast,Option.bind_eq_bind,Option.bind_some,hguid,if_true]

abbrev Answered (exn : String → Exn) (ts : TypeSupport) (status : String) (guid : ι → DDS.GUID)
    (E : String → Prop) (f : Faults.Fate String) :
    AsyncRrSystem ι → AsyncRrSystem ι → ι → RobotControlCall → Prop :=
  Chains.Answered (Faults.faulty (told ts status) (thrown exn) f) requests (Tells exn)
    (fun w => w.server.robot) (Quiet guid E)

/-- A request that is sent, served and answered before anything else happens; if it is to
fail, `take_reply` throws. -/
theorem quiet_call (exn : String → Exn) (T : TakeReply RobotControlReply) (ts : TypeSupport)
    (status : String) (hw : Quiet guid E w) (i : ι) (data : RobotControlCall)
    {f : Faults.Fate String} (hf : f.Allowed E) : ∃ es w',
      (machine T ts status).run w es = some w' ∧
      Answered exn ts status guid E f w w' i data := by
  obtain ⟨req,rfl⟩ : ∃ req : RobotControlRequest, req.data = data :=
    ⟨{ ts.createRequest with data },rfl⟩
  obtain ⟨reply,u,hserve,hu⟩ := quiet_served T ts status hw i req
  have hclient : u.requester i = (w.requester i).sendRequestAsync req true := by
    rw [hu.requester,Function.update_self]
  have hguid : (w.requester i).impl.super.nextIdentity.writerGuid =
      (u.requester i).impl.super.writerGuid := by
    rw [hclient]
    rfl
  have hdeliver := step_deliverLast T ts status (congrArg (fun r => r.super.written) hu.server)
    hguid RequesterImpl.nullIdentity
  -- The thread of the request takes the reply.
  obtain ⟨fs,c,v,hrun,hc,hreplies,hpromises,hwhat,hdata⟩ := (hw.clients i).run_completes T
    (hw.replies i) (show id req.data = id req.data from rfl)
    (a := replySample ts ⟨reply,(w.requester i).impl.super.nextIdentity⟩ RequesterImpl.nullIdentity)
    rfl f.exception
  have hthreads := run_threads ts status u i hrun
  rw [hclient] at hdeliver
  have hall : (u.withRequester i c).requester = Function.update w.requester i c := by
    simp [withRequester,hu.requester]
  have hrequests : (u.withRequester i c).requests =
      Function.update w.requests i (w.requests i ++ [req.data]) := by
    funext j
    rw [requests,hall]
    rcases eq_or_ne j i with rfl | hj
    · rw [Function.update_self,Function.update_self]
      exact hc.seen_written.trans (List.map_id _)
    · rw [Function.update_of_ne hj,Function.update_of_ne hj]
      rfl
  have hsettled : Settled guid E (u.withRequester i c) := by
    rw [Settled,hall,hrequests]
    exact hw.settled.complete hc hreplies hpromises (fun what h => hf.2 what (hwhat ▸ h))
  have hserver : u.server.replier = ⟨⟨[],u.written⟩,true⟩ := by rw [written,hu.server]
  have hrobot : u.server.robot = (told ts status req.data w.server.robot).2 := hu.robot
  have hlast : ((u.withRequester i c).requester i).promises[(w.requests i).length]? =
      some [v] := by
    rw [hall,Function.update_self,hpromises,← (hw.clients i).promises_length,
      List.getElem?_concat_length]
  refine ⟨_,u.withRequester i c,Machine.run_append.mpr ⟨_,hserve,
      Machine.run_cons.mpr ⟨_,hdeliver,hthreads⟩⟩,
    ⟨⟨hserver,hsettled.clients,fun j => ?_,hsettled.replies,hsettled.faults⟩,
      hrobot.trans (Faults.faulty_of_served hf.1 req.data _).symm,hrequests,?_,?_⟩⟩
  · rw [hrequests]
    rcases eq_or_ne j i with rfl | hj
    · simp [withRequester,hu.delivered,hw.delivered]
    · simp [withRequester,hu.delivered,hj,hw.delivered]
  · rintro j n data read ⟨cs,r,hcs,hrest⟩
    exact ⟨cs,r,by rw [hall]; exact Session.promises_update hpromises hcs,hrest⟩
  · refine ⟨_,v,hlast,List.mem_singleton.mpr rfl,?_⟩
    cases f with
    | answered =>
      obtain ⟨⟨reply',info⟩,rfl⟩ := Completion.eq_value hwhat
      obtain rfl : reply' = _ := hdata _ rfl
      exact congrArg Except.ok hu.data
    | failed =>
      obtain rfl := Completion.eq_exception hwhat
      rfl
    | lost => cases hf.1

omit [DecidableEq ι] in
theorem quiet_init (guid : ι → DDS.GUID) (E : String → Prop) (s₀ : Robot) :
    Quiet guid E (init guid s₀) where
  server := rfl
  clients i := .init _ _ (guid i)
  delivered _ := rfl
  replies i r hr := by cases hr
  faults i n what h := by simp [failure,Session.failure,init,Session.init] at h

variable {Q : ι × κ → Type} {p : (x : ι × κ) → Program (Q x) RobotControlCall Told}
  {q : (x : ι × κ) → Q x}

/-- Every run of programs that call `process_request` itself happens over the network too. -/
theorem programs_asRequests [Nonempty κ] (exn : String → Exn) (T : TakeReply RobotControlReply)
    (ts : TypeSupport) (status : String) (guid : ι → DDS.GUID)
    {v : Robot × ((x : ι × κ) → Q x)} {schedule : List ((ι × κ) × Faults.Fate String)}
    (hs : ∀ e ∈ schedule, e.2.served = true)
    (h : (Faults.faultyPrograms p (told ts status) (thrown exn)).run (s₀,q) schedule = some v) :
    ∃ es w, ∃ (owner : ι → ℕ → κ) (outs : ι × κ → List (Sigma Told)),
      (machine T ts status).run (init guid s₀) es = some w ∧ w.server.robot = v.1 ∧
      (∀ i n what, w.failure i n = some what → ∃ e ∈ schedule, e.2.exception = some what) ∧
      ∀ x, Runs exn (p x) (q x) w owner x (outs x) ∧ (p x).after (q x) (outs x) = v.2 x := by
  obtain ⟨es,w,owner,hrun,hw⟩ := Faults.exists_realizes (M := machine T ts status)
    (w := init guid s₀) (fun hw i data _ => quiet_call exn T ts status hw i data)
    (quiet_init guid _ s₀) rfl (Faults.allowed_of_served hs) h
  obtain ⟨outs,houts⟩ := Classical.skolem.mp hw.runs
  exact ⟨es,w,owner,outs,hrun,hw.served,hw.quiet.faults,
    fun x => ⟨(houts x).1,(houts x).2.2⟩⟩

end AsyncRrSystem
end DdsRpc
