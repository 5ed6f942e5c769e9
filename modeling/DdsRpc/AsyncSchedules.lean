import DdsRpc.AsyncPrograms
set_option autoImplicit false

namespace DdsRpc
open Connext SharedObject ClientImpl

/-- A request for a call that ends as declared is answered, and the future of the call
tells what the call has come to. -/
theorem Serving.dispatch_answers {σ : Type} {ts : TypeSupport} {R : RobotControl σ}
    (hR : R.Declared) {v : Serving (σ × List Call)} {r : Sample RobotControlRequest}
    (hr : v.reader = [r]) (hv : r.info.validData = true) {op : Call}
    (hop : r.data.data.selected = some (asked ts op)) : ∃ reply,
      (v.dispatch ts R.logged).reader = [] ∧
      (v.dispatch ts R.logged).written = v.written ++ [⟨reply,r.info.identity⟩] ∧
      (v.dispatch ts R.logged).dispatcher.service.1 =
        (told ts R op v.dispatcher.service.1).2 ∧
      ∀ info, continuation op (.ok ⟨ts.receivedReply reply,info⟩) =
        (told ts R op v.dispatcher.service.1).1 := by
  rcases hs : v.dispatcher.service with ⟨s,l⟩
  have hreq : dispatchRequest ts R.logged r v.dispatcher.service =
      (replyOf ts (asked ts op) (R.call ts.createStatus (asked ts op) s).1,
        ((R.call ts.createStatus (asked ts op) s).2,l ++ [asked ts op])) := by
    rw [hs,dispatchRequest_selected hop,logged_call]
  have hok := replyOf_isOk ts (asked ts op) (R.call ts.createStatus (asked ts op) s).1
  rw [hR] at hok
  have hd := dispatch_cases ts R.logged v
  generalize v.dispatch ts R.logged = v' at hd
  cases hd with
  | idle hnone =>
    have := hnone r (by rw [hr]; rfl)
    simp [hv] at this
  | replied hr' hreq' =>
    obtain ⟨rfl,rfl⟩ := List.cons.inj (hr.symm.trans hr')
    obtain ⟨hreply,rfl⟩ := Prod.mk.inj (hreq.symm.trans hreq')
    exact ⟨_,rfl,rfl,rfl,fun info => continuation_receivedReply hreply _ info⟩
  | escaped hr' hreq' =>
    obtain ⟨rfl,-⟩ := List.cons.inj (hr.symm.trans hr')
    rw [(Prod.mk.inj (hreq.symm.trans hreq')).1] at hok
    cases hok

namespace AsyncSystem
variable {ι κ σ : Type} [DecidableEq ι] [DecidableEq κ] {P : Ppl Exn} {exn : String → Exn}
  {T : TakeReply RobotControlReply} {ts : TypeSupport} {R : RobotControl σ}
  {guid : ι → DDS.GUID} {E : String → Prop} {s₀ : σ} {w : AsyncSystem ι σ}

/-- Nothing is on its way, and every call has been answered or given up; `E` are the
exceptions that there have been. -/
structure Quiet (ts : TypeSupport) (guid : ι → DDS.GUID) (E : String → Prop)
    (w : AsyncSystem ι σ) : Prop where
  clients : ∀ i, Client ts (guid i) (w.calls i) (w.client i)
  requests : ∀ i, w.delivered i = (w.calls i).length
  server : w.server.reader = []
  replies : ∀ i, AsyncClient.Stale (guid i) (w.calls i) (w.client i)
  faults : ∀ i n what, w.failure i n = some what → E what

abbrev Settled (ts : TypeSupport) (guid : ι → DDS.GUID) (E : String → Prop)
    (w : AsyncSystem ι σ) : Prop :=
  AsyncClient.Settled RobotControlCall.selected (fun op => some (asked ts op)) guid E w.calls
    w.client

omit [DecidableEq ι] in
theorem Quiet.settled (hw : Quiet ts guid E w) : Settled ts guid E w :=
  ⟨hw.clients,hw.replies,hw.faults⟩

theorem withClient_withClient (w : AsyncSystem ι σ) (i : ι)
    (c c' : Session RobotControlCall RobotControlReply) :
    (w.withClient i c).withClient i c' = w.withClient i c' := by
  simp [withClient]

theorem run_threads (ts : TypeSupport) (R : RobotControl σ) (w : AsyncSystem ι σ) (i : ι)
    {fs : List (Nat × Session.ThreadStep)} {c c' : Session RobotControlCall RobotControlReply}
    (h : (Session.executing T).run c fs = some c') :
    (machine T ts R).run (w.withClient i c) (fs.map (fun f => .thread i f.1 f.2)) =
      some (w.withClient i c') := by
  refine Machine.run_embed (w.withClient i) (fun f => Event.thread i f.1 f.2)
    (fun {c f c'} hc => ?_) h
  have hself : (w.withClient i c).client i = c := by simp [withClient]
  have hc : c.threadStep T f.1 f.2 = some c' := hc
  simp [machine,hself,hc,withClient_withClient]

structure Served (ts : TypeSupport) (R : RobotControl σ) (w : AsyncSystem ι σ) (i : ι) (op : Call)
    (reply : RobotControlReply) (u : AsyncSystem ι σ) : Prop where
  client : u.client =
    Function.update w.client i ((w.client i).sendRequestAsync (requestAsync ts op) true)
  calls : u.calls = Function.update w.calls i (w.calls i ++ [op])
  delivered : u.delivered = Function.update w.delivered i (w.delivered i+1)
  reader : u.server.reader = []
  written : u.server.written =
    w.server.written ++ [⟨reply,(w.client i).impl.super.nextIdentity⟩]
  object : u.server.dispatcher.service.1 = (told ts R op w.server.dispatcher.service.1).2
  outcome : ∀ info, continuation op (.ok ⟨ts.receivedReply reply,info⟩) =
    (told ts R op w.server.dispatcher.service.1).1

theorem quiet_served (T : TakeReply RobotControlReply) (hR : R.Declared)
    (hw : Quiet ts guid E w) (i : ι) (op : Call) : ∃ reply u,
      (machine T ts R).run w [.call i op true,.deliverRequest i,.dispatch] = some u ∧
      Served ts R w i op reply u := by
  have hc := hw.clients i
  have hsent := hc.send (requestAsync_asked ts op)
  -- The request of this call is the next one that arrives.
  obtain ⟨req,hreq⟩ : ∃ req, (w.call ts i op true).nextRequest i = some req := by
    refine ⟨_,List.getElem?_eq_getElem ?_⟩
    simp only [call,Function.update_self,hw.requests i,hsent.written_length,List.length_append]
    exact Nat.lt_succ_self _
  have hget : ((w.client i).sendRequestAsync (requestAsync ts op) true).impl.super.written[
      (w.calls i).length]? = some req := by
    simpa [nextRequest,call,hw.requests i] using hreq
  obtain ⟨op',hop,hid,hsel⟩ := hsent.written_get hget
  obtain rfl := Option.some.inj (List.getElem?_concat_length.symm.trans hop)
  have harrive : (machine T ts R).step (w.call ts i op true) (.deliverRequest i) =
      some ((w.call ts i op true).deliverRequest ts i req) := by
    simp only [machine,hreq,Option.map_some]
  have hreader : ((w.call ts i op true).deliverRequest ts i req).server.reader =
      [(w.call ts i op true).requestSample ts req] := by
    have := hw.server
    simp_all [deliverRequest,loseRequest,call,Serving.arrive,Serving.reader]
  have hselected : ((w.call ts i op true).requestSample ts req).data.data.selected =
      some (asked ts op) := by
    simpa [requestSample,TypeSupport.receivedRequest] using hsel
  obtain ⟨reply,hempty,hwritten,hservice,hout⟩ :=
    Serving.dispatch_answers hR hreader rfl hselected
  refine ⟨reply,_,Machine.run_cons.mpr ⟨_,rfl,Machine.run_cons.mpr ⟨_,harrive,
    Machine.run_cons.mpr ⟨_,rfl,rfl⟩⟩⟩,rfl,?_,rfl,hempty,?_,hservice,hout⟩
  · simp [deliverRequest,loseRequest,call]
  · rw [hc.nextIdentity,← hid]
    exact hwritten

theorem step_deliverLast {reply : WriteReply RobotControlReply}
    {written : List (WriteReply RobotControlReply)} (ts : TypeSupport)
    (T : TakeReply RobotControlReply) (R : RobotControl σ) {i : ι}
    (hwritten : w.server.written = written ++ [reply])
    (hguid : reply.relatedIdentity.writerGuid = (w.client i).impl.super.writerGuid)
    (identity : DDS.SampleIdentity) :
    (machine T ts R).step w (.deliverReply i written.length identity) =
      some (w.withClient i ((w.client i).arrive (replySample ts reply identity))) := by
  have hlast : w.server.written[written.length]? = some reply := by
    rw [hwritten,List.getElem?_concat_length]
  simp only [machine,hlast,Option.bind_eq_bind,Option.bind_some,hguid,if_true]

def object (w : AsyncSystem ι σ) : σ := w.server.dispatcher.service.1

abbrev Answered (P : Ppl Exn) (exn : String → Exn) (ts : TypeSupport) (R : RobotControl σ)
    (guid : ι → DDS.GUID) (E : String → Prop) (f : Faults.Fate String) :
    AsyncSystem ι σ → AsyncSystem ι σ → ι → Call → Prop :=
  Chains.Answered (Faults.faulty (told ts R) (thrown exn) f) calls (Tells P exn) object
    (Quiet ts guid E)

/-- A call that is sent, served and answered before anything else happens; if it is to fail,
`take_reply` throws. -/
theorem quiet_call (P : Ppl Exn) (exn : String → Exn) (T : TakeReply RobotControlReply)
    (hR : R.Declared) (hw : Quiet ts guid E w) (i : ι) (op : Call) {f : Faults.Fate String}
    (hf : f.Allowed E) : ∃ es w',
      (machine T ts R).run w es = some w' ∧ Answered P exn ts R guid E f w w' i op := by
  obtain ⟨reply,u,hserve,hu⟩ := quiet_served T hR hw i op
  have hsent := (hw.clients i).send (requestAsync_asked ts op)
  have hclient : u.client i = (w.client i).sendRequestAsync (requestAsync ts op) true := by
    rw [hu.client,Function.update_self]
  have hguid : (w.client i).impl.super.nextIdentity.writerGuid =
      (u.client i).impl.super.writerGuid := by
    rw [hclient,hsent.writer,← (hw.clients i).writer]
    rfl
  have hdeliver := step_deliverLast ts T R hu.written hguid RequesterImpl.nullIdentity
  -- The thread of the call takes the reply.
  obtain ⟨fs,c',v,hrun,hclient',hreplies,hpromises,hwhat,hdata⟩ := (hw.clients i).run_completes T
    (hw.replies i) (requestAsync_asked ts op)
    (a := replySample ts ⟨reply,(w.client i).impl.super.nextIdentity⟩ RequesterImpl.nullIdentity)
    rfl f.exception
  have hthreads := run_threads ts R u i hrun
  rw [hclient] at hdeliver
  have hall : (u.withClient i c').client = Function.update w.client i c' := by
    simp [withClient,hu.client]
  have hsettled : Settled ts guid E (u.withClient i c') := by
    rw [Settled,hall,show (u.withClient i c').calls = _ from hu.calls]
    exact hw.settled.complete hclient' hreplies hpromises (fun what h => hf.2 what (hwhat ▸ h))
  have hlast : ((u.withClient i c').client i).promises[(w.calls i).length]? = some [v] := by
    rw [hall,Function.update_self,hpromises,← (hw.clients i).promises_length,
      List.getElem?_concat_length]
  refine ⟨_,u.withClient i c',Machine.run_append.mpr ⟨_,hserve,
      Machine.run_cons.mpr ⟨_,hdeliver,hthreads⟩⟩,
    ⟨⟨hsettled.clients,fun j => ?_,hu.reader,hsettled.replies,hsettled.faults⟩,
      hu.object.trans (Faults.faulty_of_served hf.1 op _).symm,hu.calls,?_,?_⟩⟩
  · rcases eq_or_ne j i with rfl | hj
    · simp [withClient,hu.delivered,hu.calls,hw.requests]
    · simp [withClient,hu.delivered,hu.calls,hj,hw.requests]
  · rintro j n op' out ⟨cs,r,hcs,hrest⟩
    exact ⟨cs,r,by rw [hall]; exact Session.promises_update hpromises hcs,hrest⟩
  · refine ⟨_,v,hlast,List.mem_singleton.mpr rfl,?_⟩
    cases f with
    | answered =>
      obtain ⟨⟨data,info⟩,rfl⟩ := Completion.eq_value hwhat
      obtain rfl : data = _ := hdata _ rfl
      exact (asyncOutcome_eq P op _).trans (hu.outcome info)
    | failed what =>
      obtain rfl := Completion.eq_exception hwhat
      exact completedOutcome_exception P exn op what
    | lost => cases hf.1

omit [DecidableEq ι] in
theorem quiet_init (ts : TypeSupport) (guid : ι → DDS.GUID) (E : String → Prop) (s₀ : σ) :
    Quiet ts guid E (init guid s₀) where
  clients i := .init _ _ (guid i)
  requests _ := rfl
  server := rfl
  replies i r hr := by cases hr
  faults i n what h := by simp [failure,Session.failure,init,Session.init] at h

variable {Q : ι × κ → Type} {p : (x : ι × κ) → Program (Q x) Call Told} {q : (x : ι × κ) → Q x}

theorem exists_realizes [Nonempty κ] (P : Ppl Exn) (exn : String → Exn)
    (T : TakeReply RobotControlReply) (ts : TypeSupport) (hR : R.Declared) (guid : ι → DDS.GUID)
    {v : σ × ((x : ι × κ) → Q x)} {schedule : List ((ι × κ) × Faults.Fate String)}
    (hs : ∀ e ∈ schedule, e.2.served = true)
    (h : (Faults.faultyPrograms p (told ts R) (thrown exn)).run (s₀,q) schedule = some v) :
    ∃ es w owner, (machine T ts R).run (init guid s₀) es = some w ∧
      Chains.Realizes calls (Tells P exn) object
        (Quiet ts guid (fun what => ∃ e ∈ schedule, e.2.exception = some what)) p q v w owner :=
  Faults.exists_realizes (M := machine T ts R)
    (fun hw i op _ => quiet_call P exn T hR hw i op) (quiet_init ts guid _ s₀) rfl
    (Faults.allowed_of_served hs) h

/-- Every run of programs that call the service, one call at a time, happens over the
network too, with any number of chains on a client: a program can be told of an exception of
`execute` in place of the outcome of any call. -/
theorem programs_asAsync [Nonempty κ] (P : Ppl Exn) (exn : String → Exn)
    (T : TakeReply RobotControlReply) (ts : TypeSupport) (hR : R.Declared) (guid : ι → DDS.GUID)
    {v : σ × ((x : ι × κ) → Q x)} {schedule : List ((ι × κ) × Faults.Fate String)}
    (hs : ∀ e ∈ schedule, e.2.served = true)
    (h : (Faults.faultyPrograms p (told ts R) (thrown exn)).run (s₀,q) schedule = some v) :
    ∃ es w, ∃ (owner : ι → ℕ → κ) (outs : ι × κ → List (Sigma Told)),
      (machine T ts R).run (init guid s₀) es = some w ∧
      w.server.dispatcher.service.1 = v.1 ∧
      (∀ i n what, w.failure i n = some what → ∃ e ∈ schedule, e.2.exception = some what) ∧
      ∀ x, Runs P exn (p x) (q x) w owner x (outs x) ∧ (p x).after (q x) (outs x) = v.2 x := by
  obtain ⟨es,w,owner,hrun,hw⟩ := exists_realizes P exn T ts hR guid hs h
  obtain ⟨outs,houts⟩ := Classical.skolem.mp hw.runs
  exact ⟨es,w,owner,outs,hrun,hw.served,hw.quiet.faults,
    fun x => ⟨(houts x).1,(houts x).2.2⟩⟩

theorem programs_asAsync_readOnce : ∃ es w, ∃ (owner : Unit → ℕ → Bool)
      (outs : Unit × Bool → List (Sigma Told)),
    (machine .oldest .zero Serving.echoRobot).run
      (init (fun _ => System.clientGuid false) ()) es = some w ∧
    ∀ x, Runs (.eager Exn) .runtimeError readOnce none w owner x (outs x) ∧
      readOnce.after none (outs x) = some (toldOfSpeed x.2) := by
  have hR : Serving.echoRobot.Declared := fun _ op _ => by cases op <;> rfl
  have hrun : (Faults.faultyPrograms (fun _ : Unit × Bool => readOnce)
      (told .zero Serving.echoRobot) (thrown .runtimeError)).run ((),fun _ => none)
        [(((),true),.answered),(((),false),.failed "no resources")] = some _ := rfl
  obtain ⟨es,w,owner,outs,hw,-,-,hr⟩ := programs_asAsync (.eager Exn) .runtimeError .oldest .zero
    hR (fun _ : Unit => System.clientGuid false) (by decide) hrun
  refine ⟨es,w,owner,outs,hw,fun x => ⟨(hr x).1,(hr x).2.trans ?_⟩⟩
  revert x
  decide

end AsyncSystem
end DdsRpc
