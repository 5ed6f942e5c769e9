import DdsRpc.UniqueDataFrame
import DdsRpc.Serving
set_option autoImplicit false

namespace DdsRpc
open Connext

structure Traced (T : Type) where
  now : UniqueData T
  events : List (UniqueData.Event T)

def Traced.perform {T : Type} (w : Traced T) (e : UniqueData.Event T) : Traced T :=
  ⟨w.now.apply e,w.events ++ [e]⟩

variable {σ : Type} {ts : TypeSupport} {R : RobotControl σ} {r : Sample RobotControlRequest}

/-- How the calls turn out that a `dispatch` makes: `create_data` for its own reply and for
that of the `do_*` function, and what the replier throws. A reply that is returned may be
moved, or its move is `elided`. -/
structure Outcomes where
  created : Bool
  receive : Option Exn
  doCreated : Bool
  elided : Bool
  send : Option Exn

def cantCreateData : Exn := .runtimeError "Can't create data"

/-- A `do_*` function, of which `f` is what it does to its reply. The result is the handle
that the caller gets. -/
def doOwned (ts : TypeSupport) (o : Outcomes) (f : Method σ RobotControlReply) :
    Method (σ × Traced RobotControlReply) Nat := fun (s,w) =>
  if o.doCreated then
    let reply := w.now.handles.length
    let w := w.perform (.construct (some ts.createReply))
    match f s with
    | (.ok t,s) =>
      let w := w.perform (.write reply (fun _ => t))
      if o.elided then (.ok reply,s,w)
      else
        (.ok w.now.handles.length,s,
          (w.perform (.moveConstruct reply)).perform (.destroy reply))
    | (.error e,s) => (.error e,s,w.perform (.destroy reply))
  else (.error cantCreateData,s,w.perform (.construct none))

def assignReply (reply : Nat) (f : Method (σ × Traced RobotControlReply) Nat) :
    Method (σ × Traced RobotControlReply) Unit := fun w =>
  match f w with
  | (.ok temp,s,w) => (.ok (),s,(w.perform (.moveAssign reply temp)).perform (.destroy temp))
  | (.error e,w) => (.error e,w)

def unknownOperation (reply : RobotControlReply) : RobotControlReply :=
  { reply with
    header.remoteEx := .unknownOperation
    data.d := 0 }

def dispatchRequestData (ts : TypeSupport) (R : RobotControl σ) (o : Outcomes)
    (request_sample : Sample RobotControlRequest) (reply : Nat) :
    Method (σ × Traced RobotControlReply) Unit := fun (s,w) =>
  if isCommand request_sample then
    assignReply reply (doOwned ts o (doCommand ts R request_sample)) (s,w)
  else if isGetSpeed request_sample then
    assignReply reply (doOwned ts o (doGetSpeed ts R request_sample)) (s,w)
  else if isSetSpeed request_sample then
    assignReply reply (doOwned ts o (doSetSpeed ts R request_sample)) (s,w)
  else if isGetStatus request_sample then
    assignReply reply (doOwned ts o (doGetStatus ts R request_sample)) (s,w)
  else (.ok (),s,w.perform (.write reply unknownOperation))

namespace Dispatcher

def serveRequest (ts : TypeSupport) (R : RobotControl σ) (o : Outcomes) (reply : Nat) :
    Method (Dispatcher σ × Traced RobotControlReply) Unit := fun (d,w) =>
  match o.receive with
  | some e => (.error e,d,w)
  | none =>
    let (replier,ret,request_sample) := d.replier.receiveRequest ts.requestSample
    if ret then
      match dispatchRequestData ts R o request_sample reply (d.service,w) with
      | (.error e,service,w) => (.error e,{ replier,service },w)
      | (.ok (),service,w) =>
        match o.send with
        | some e => (.error e,{ replier,service },w)
        | none =>
          (.ok (),
            { replier := (w.now.deref reply).elim replier (fun t =>
                replier.sendReply t (toRpcSampleIdentity request_sample.info.identity))
              service },w)
    else (.ok (),{ d with replier },w)

/-- Whatever is thrown, `reply` is destroyed when `dispatch` ends. -/
def dispatchData (ts : TypeSupport) (R : RobotControl σ) (o : Outcomes) :
    Method (Dispatcher σ × Traced RobotControlReply) Unit := fun (d,w) =>
  if o.created then
    let reply := w.now.handles.length
    let (out,d,w) :=
      serveRequest ts R o reply (d,w.perform (.construct (some ts.createReply)))
    (out,d,w.perform (.destroy reply))
  else (.error cantCreateData,d,w.perform (.construct none))

end Dispatcher

namespace UniqueData
variable {T : Type}

structure OneLeft (es : List (Event T)) (t : T) : Prop where
  run : (machine T).run init es = some (made es)
  given : (made es).given = List.range (made es).data.length
  handles : ∃ p n, (made es).handles = some p :: List.replicate n none
  deref : (made es).deref 0 = some t

structure NoneLeft (es : List (Event T)) : Prop where
  run : (machine T).run init es = some (made es)
  given : (made es).given = List.range (made es).data.length
  handles : ∃ n, (made es).handles = List.replicate n none

theorem noneLeft_failed : NoneLeft [(.construct none : Event T)] := ⟨rfl,rfl,⟨0,rfl⟩⟩

theorem made_concat (es : List (Event T)) (e : Event T) : made (es ++ [e]) = (made es).apply e := by
  simp [made]

theorem OneLeft.destroy {es : List (Event T)} {t : T} (hes : OneLeft es t) :
    NoneLeft (es ++ [.destroy 0]) where
  run := by
    obtain ⟨p,n,hp⟩ := hes.handles
    have hd : (machine T).step (made es) (.destroy 0) = some (made (es ++ [.destroy 0])) :=
      step_eq_some.mpr ⟨by simp [allowed,handle,hp],(made_concat es _).symm⟩
    exact Machine.run_append.mpr ⟨_,hes.run,Machine.run_singleton.trans hd⟩
  given := by
    rw [made_concat]
    exact hes.given
  handles := by
    obtain ⟨p,n,hp⟩ := hes.handles
    rw [made_concat]
    exact ⟨n+1,by simp [apply,UniqueData.destroy,hp,List.replicate_succ]⟩

/-- Its events lead from `w` to `w'`, and of what they made no handle is left, while each
datum was deleted once. -/
structure Cleared (w : UniqueData T) (w' : Traced T) : Prop where
  run : (machine T).run w w'.events = some w'.now
  exclusive : ∀ fs u, fs <+: w'.events → (machine T).run w fs = some u → Exclusive u
  handles : ∃ n, w'.now.handles = w.handles ++ List.replicate n none
  deleted : ∀ d, w.data.length ≤ d → d < w'.now.data.length → w'.now.deleted.count d = 1

end UniqueData

open UniqueData

namespace Traced
variable {T : Type}

def after (w : Traced T) (es : List (UniqueData.Event T)) : Traced T :=
  ⟨w.now.frame (made es),w.events ++ es.map (Event.shift w.now)⟩

variable (w : Traced T)

theorem after_nil : w.after [] = w := by
  simp [after,made]

theorem perform_after (es : List (UniqueData.Event T)) (e : UniqueData.Event T) :
    (w.after es).perform (e.shift w.now) = w.after (es ++ [e]) := by
  simp [after,perform,made_concat,apply_frame]

theorem construct_after (created : Option T) :
    w.perform (.construct created) = w.after [.construct created] := by
  have := w.perform_after [] (.construct created)
  rwa [after_nil] at this

theorem write_after (es : List (UniqueData.Event T)) (f : T → T) :
    (w.after es).perform (.write w.now.handles.length f) = w.after (es ++ [.write 0 f]) :=
  w.perform_after es (.write 0 f)

theorem moveConstruct_after (es : List (UniqueData.Event T)) :
    (w.after es).perform (.moveConstruct w.now.handles.length) =
      w.after (es ++ [.moveConstruct 0]) :=
  w.perform_after es (.moveConstruct 0)

theorem destroy_after (es : List (UniqueData.Event T)) :
    (w.after es).perform (.destroy w.now.handles.length) = w.after (es ++ [.destroy 0]) :=
  w.perform_after es (.destroy 0)

theorem assign_after (es : List (UniqueData.Event T)) (j : Nat) :
    ((w.after es).perform (.moveAssign w.now.handles.length (w.now.handles.length+j))).perform
      (.destroy (w.now.handles.length+j)) = w.after (es ++ [.moveAssign 0 j,.destroy j]) := by
  rw [show (w.after es).perform (.moveAssign w.now.handles.length (w.now.handles.length+j)) = _
    from w.perform_after es (.moveAssign 0 j)]
  have := w.perform_after (es ++ [.moveAssign 0 j]) (.destroy j)
  rwa [List.append_assoc] at this

theorem after_after (es fs : List (UniqueData.Event T)) :
    (w.after es).after fs = w.after (es ++ fs.map (Event.shift (made es))) := by
  simp [after,frame_frame,frame_made,shift_frame,Function.comp_def]

theorem handles_after (es : List (UniqueData.Event T)) :
    (w.after es).now.handles.length = w.now.handles.length+(made es).handles.length := by
  simp [after,frame]

end Traced

theorem UniqueData.NoneLeft.cleared {T : Type} {es : List (UniqueData.Event T)} (hes : NoneLeft es)
    {w : UniqueData T} (hw : Owned w) : Cleared w (Traced.after ⟨w,[]⟩ es) := by
  obtain ⟨n,hn⟩ := hes.handles
  have hrun : (machine T).run w (es.map (Event.shift w)) = some (w.frame (made es)) := by
    have := run_frame hw hes.run
    rwa [frame_init] at this
  refine ⟨hrun,fun _ _ _ hfs => (owned_run hfs hw).exclusive,
    ⟨n,by simp [Traced.after,frame,hn]⟩,fun d hd hlt => ?_⟩
  obtain ⟨i,rfl⟩ := Nat.exists_eq_add_of_le hd
  have hi : i < (made es).data.length := by simpa [Traced.after,frame] using hlt
  have hcount : (made es).deleted.count i = 1 :=
    (owned_run hes.run owned_init).exclusive.ended (by simp [hn]) i
      (hes.given ▸ List.mem_range.mpr hi)
  have hmem : i ∈ (made es).deleted := List.count_pos_iff.mp (by omega)
  exact List.count_eq_one_of_mem (owned_run hrun hw).once
    (List.mem_append_right _ (List.mem_map_of_mem hmem))

theorem doOwned_ok {o : Outcomes} {f : Method σ RobotControlReply} {s s' : σ}
    {t : RobotControlReply} (ho : o.doCreated = true) (hf : f s = (.ok t,s'))
    (w : Traced RobotControlReply) :
    doOwned ts o f (s,w) =
      if o.elided then
        (.ok w.now.handles.length,s',
          w.after [.construct (some ts.createReply),.write 0 (fun _ => t)])
      else
        (.ok (w.now.handles.length+1),s',
          w.after [.construct (some ts.createReply),.write 0 (fun _ => t),.moveConstruct 0,
            .destroy 0]) := by
  simp only [doOwned,ho,hf,w.construct_after,w.write_after,w.moveConstruct_after,w.destroy_after,
    w.handles_after,if_true,List.cons_append,List.nil_append]
  rfl

theorem doOwned_error {o : Outcomes} {f : Method σ RobotControlReply} {s s' : σ} {e : Exn}
    (ho : o.doCreated = true) (hf : f s = (.error e,s')) (w : Traced RobotControlReply) :
    doOwned ts o f (s,w) =
      (.error e,s',w.after [.construct (some ts.createReply),.destroy 0]) := by
  simp only [doOwned,ho,hf,w.construct_after,w.destroy_after,if_true,List.cons_append,
    List.nil_append]

inductive Leaves (o : Outcomes) (w : Traced RobotControlReply) :
    Except Exn RobotControlReply × σ → Except Exn Unit × σ × Traced RobotControlReply → Prop
  | ok {es : List (UniqueData.Event RobotControlReply)} {t : RobotControlReply} {s : σ}
      (hes : OneLeft es t) : Leaves o w (.ok t,s) (.ok (),s,w.after es)
  | error {es : List (UniqueData.Event RobotControlReply)} {t : RobotControlReply} {s : σ}
      {e : Exn} (hes : OneLeft es t) (hmade : o.doCreated = true → (made es).data.length = 2) :
      Leaves o w (.error e,s) (.error e,s,w.after es)

section
variable {T : Type} (t₀ t : T)

theorem oneLeft_construct : OneLeft [.construct (some t₀)] t₀ :=
  ⟨rfl,rfl,⟨some 0,0,rfl⟩,rfl⟩

theorem oneLeft_write (f : T → T) : OneLeft [.construct (some t₀),.write 0 f] (f t₀) :=
  ⟨rfl,rfl,⟨some 0,0,rfl⟩,rfl⟩

theorem oneLeft_failed : OneLeft [.construct (some t₀),.construct none] t₀ :=
  ⟨rfl,rfl,⟨some 0,0,rfl⟩,rfl⟩

theorem oneLeft_thrown :
    OneLeft [.construct (some t₀),.construct (some t₀),.destroy 1] t₀ :=
  ⟨rfl,rfl,⟨some 0,1,rfl⟩,rfl⟩

theorem oneLeft_elided :
    OneLeft [.construct (some t₀),.construct (some t₀),.write 1 (fun _ => t),.moveAssign 0 1,
      .destroy 1] t :=
  ⟨rfl,rfl,⟨some 1,1,rfl⟩,rfl⟩

theorem oneLeft_moved :
    OneLeft [.construct (some t₀),.construct (some t₀),.write 1 (fun _ => t),.moveConstruct 1,
      .destroy 1,.moveAssign 0 2,.destroy 2] t :=
  ⟨rfl,rfl,⟨some 1,2,rfl⟩,rfl⟩

end

theorem assignReply_leaves (o : Outcomes) (f : Method σ RobotControlReply) (s : σ)
    (w : Traced RobotControlReply) :
    Leaves o w (if o.doCreated then f s else (.error cantCreateData,s))
      (assignReply w.now.handles.length (doOwned ts o f)
        (s,w.perform (.construct (some ts.createReply)))) := by
  have hlen : (w.after [.construct (some ts.createReply)]).now.handles.length =
      w.now.handles.length+1 := w.handles_after _
  rw [w.construct_after,assignReply]
  cases ho : o.doCreated with
  | false =>
    have hnone : doOwned ts o f (s,w.after [.construct (some ts.createReply)]) =
        (.error cantCreateData,s,w.after [.construct (some ts.createReply),.construct none]) := by
      simp only [doOwned,ho]
      exact congrArg (fun w => (_,s,w)) (w.perform_after _ (.construct none))
    rw [hnone]
    exact .error (oneLeft_failed _) (by simp [ho])
  | true =>
    rcases hf : f s with ⟨e | t,s'⟩
    · rw [doOwned_error ho hf,Traced.after_after]
      exact .error (oneLeft_thrown _) (fun _ => rfl)
    · rw [doOwned_ok ho hf,hlen,Traced.after_after,Traced.after_after]
      cases o.elided with
      | true =>
        simp only [if_true,w.assign_after _ 1]
        exact .ok (oneLeft_elided ts.createReply t)
      | false =>
        simp only [if_false,Bool.false_eq_true,Nat.add_assoc,w.assign_after _ (1+1)]
        exact .ok (oneLeft_moved ts.createReply t)

theorem dispatchRequestData_leaves (ts : TypeSupport) (R : RobotControl σ)
    (r : Sample RobotControlRequest) (o : Outcomes) (s : σ) (w : Traced RobotControlReply) :
    ∃ res, Leaves o w res
        (dispatchRequestData ts R o r w.now.handles.length
          (s,w.perform (.construct (some ts.createReply)))) ∧
      (o.doCreated = true → res = dispatchRequest ts R r s) := by
  unfold dispatchRequestData dispatchRequest
  split_ifs
  · exact ⟨_,assignReply_leaves o _ s w,fun ho => if_pos ho⟩
  · exact ⟨_,assignReply_leaves o _ s w,fun ho => if_pos ho⟩
  · exact ⟨_,assignReply_leaves o _ s w,fun ho => if_pos ho⟩
  · exact ⟨_,assignReply_leaves o _ s w,fun ho => if_pos ho⟩
  · refine ⟨_,?_,fun _ => rfl⟩
    simp only [w.construct_after,w.write_after]
    exact .ok (oneLeft_write ts.createReply unknownOperation)

namespace Dispatcher

theorem serveRequest_oneLeft (ts : TypeSupport) (R : RobotControl σ) (o : Outcomes)
    (d : Dispatcher σ) (w : Traced RobotControlReply) :
    ∃ es t, OneLeft es t ∧
      (serveRequest ts R o w.now.handles.length
        (d,w.perform (.construct (some ts.createReply)))).2.2 = w.after es := by
  have hidle : ∃ es t, OneLeft es t ∧
      w.perform (.construct (some ts.createReply)) = w.after es :=
    ⟨_,_,oneLeft_construct _,w.construct_after _⟩
  rcases hrec : d.replier.receiveRequest ts.requestSample with ⟨replier,ret,request_sample⟩
  simp only [serveRequest,hrec]
  cases o.receive with
  | some e => exact hidle
  | none =>
    cases ret with
    | false => exact hidle
    | true =>
      obtain ⟨res,hl,_⟩ := dispatchRequestData_leaves ts R request_sample o d.service w
      generalize dispatchRequestData ts R o request_sample w.now.handles.length
        (d.service,w.perform (.construct (some ts.createReply))) = out at hl
      cases hl with
      | ok hes => cases o.send <;> exact ⟨_,_,hes,rfl⟩
      | error hes => exact ⟨_,_,hes,rfl⟩

theorem dispatchData_noneLeft (ts : TypeSupport) (R : RobotControl σ) (o : Outcomes)
    (d : Dispatcher σ) (w : Traced RobotControlReply) :
    ∃ es, NoneLeft es ∧ (dispatchData ts R o (d,w)).2.2 = w.after es := by
  unfold dispatchData
  cases o.created with
  | false => exact ⟨_,noneLeft_failed,w.construct_after none⟩
  | true =>
    obtain ⟨es,t,hes,hw⟩ := serveRequest_oneLeft ts R o d w
    refine ⟨_,hes.destroy,?_⟩
    simp only [if_true,hw]
    exact w.destroy_after es

/-- When nothing fails that `dispatch` calls, it does what it does on replies that are not
kept track of. -/
theorem dispatchData_eq {o : Outcomes} (hcreated : o.created = true) (hreceive : o.receive = none)
    (hdo : o.doCreated = true) (hsend : o.send = none) (d : Dispatcher σ)
    (w : Traced RobotControlReply) :
    ((dispatchData ts R o (d,w)).1,(dispatchData ts R o (d,w)).2.1) = d.dispatch ts R := by
  rcases hrec : d.replier.receiveRequest ts.requestSample with ⟨replier,ret,request_sample⟩
  simp only [dispatchData,serveRequest,dispatch,hcreated,hreceive,hsend,hrec,if_true]
  cases ret with
  | false => rfl
  | true =>
    obtain ⟨res,hl,hres⟩ := dispatchRequestData_leaves ts R request_sample o d.service w
    rw [← hres hdo]
    generalize dispatchRequestData ts R o request_sample w.now.handles.length
      (d.service,w.perform (.construct (some ts.createReply))) = out at hl
    cases hl with
    | error hes => rfl
    | @ok es t s hes =>
      have hderef : (w.after es).now.deref w.now.handles.length = some t :=
        (deref_frame w.now (made es) 0).trans hes.deref
      simp [hderef]

theorem dispatchData_throws {o : Outcomes} (hcreated : o.created = true)
    (hreceive : o.receive = none) (hdo : o.doCreated = true) {d : Dispatcher σ}
    {replier : ReplierImpl RobotControlCall RobotControlReturn} {e : Exn}
    (hrec : d.replier.receiveRequest ts.requestSample = (replier,true,r))
    (he : (dispatchRequest ts R r d.service).1 = .error e) (w : Traced RobotControlReply) :
    (dispatchData ts R o (d,w)).1 = .error e ∧
      (dispatchData ts R o (d,w)).2.2.now.data.length = w.now.data.length+2 := by
  simp only [dispatchData,serveRequest,hcreated,hreceive,hrec,if_true]
  obtain ⟨res,hl,hres⟩ := dispatchRequestData_leaves ts R r o d.service w
  rw [← hres hdo] at he
  generalize dispatchRequestData ts R o r w.now.handles.length
    (d.service,w.perform (.construct (some ts.createReply))) = out at hl
  cases hl with
  | ok hes => cases he
  | error hes hmade =>
    cases he
    exact ⟨rfl,by simp [Traced.perform,Traced.after,apply,frame,destroy,hmade hdo]⟩

theorem dispatchData_cleared (ts : TypeSupport) (R : RobotControl σ) (o : Outcomes)
    (d : Dispatcher σ) {w : UniqueData RobotControlReply} (hw : Owned w) :
    Cleared w (dispatchData ts R o (d,⟨w,[]⟩)).2.2 := by
  obtain ⟨es,hes,hafter⟩ := dispatchData_noneLeft ts R o d ⟨w,[]⟩
  rw [hafter]
  exact hes.cleared hw

end Dispatcher

/-- In every run the data that handles were given are owned by one handle each and deleted
once. A `dispatch` is a part of such a run, whatever is thrown, and clears what it made; so
it does with both replies when a `do_*` function throws. -/
theorem uniqueData_exclusive :
    (∀ (T : Type) (es : List (UniqueData.Event T)) (w : UniqueData T),
      (machine T).run init es = some w → Exclusive w) ∧
    ∀ (σ : Type) (ts : TypeSupport) (R : RobotControl σ) (o : Outcomes) (d : Dispatcher σ)
      (es : List (UniqueData.Event RobotControlReply)) (w : UniqueData RobotControlReply),
      (machine RobotControlReply).run init es = some w →
        Cleared w (Dispatcher.dispatchData ts R o (d,⟨w,[]⟩)).2.2 ∧
        ∀ replier r e, o.created = true → o.receive = none → o.doCreated = true →
          d.replier.receiveRequest ts.requestSample = (replier,true,r) →
          (dispatchRequest ts R r d.service).1 = .error e →
          (Dispatcher.dispatchData ts R o (d,⟨w,[]⟩)).1 = .error e ∧
          ∀ reply ∈ [w.data.length,w.data.length+1],
            (Dispatcher.dispatchData ts R o (d,⟨w,[]⟩)).2.2.now.deleted.count reply = 1 := by
  refine ⟨fun T es w h => (owned_run h owned_init).exclusive,fun σ ts R o d es w h => ?_⟩
  have hcleared := Dispatcher.dispatchData_cleared ts R o d (owned_run h owned_init)
  refine ⟨hcleared,fun replier r e hcreated hreceive hdo hrec he => ?_⟩
  obtain ⟨hout,(hlen : _ = w.data.length+2)⟩ :=
    Dispatcher.dispatchData_throws hcreated hreceive hdo hrec he ⟨w,[]⟩
  refine ⟨hout,fun reply hreply => hcleared.deleted reply ?_ ?_⟩
  · rcases List.mem_pair.mp hreply with rfl | rfl <;> omega
  · rcases List.mem_pair.mp hreply with rfl | rfl <;> omega

theorem uniqueData_exclusive_thrown :
    (∃ w : UniqueData Nat,
      (machine Nat).run init [.construct (some 5),.createData 6,.adopt (some 1),.construct none,
        .moveConstruct 0,.moveAssign 2 1,.moveAssign 1 1,.destroy 0,.destroy 1,.destroy 2] =
        some w ∧ Exclusive w) ∧
    (Dispatcher.dispatchData .zero Serving.mutedRobot ⟨true,none,true,false,none⟩
      ({ Dispatcher.init () with replier.super.reader := [Serving.requestOf getSpeedHash] },
        ⟨init,[]⟩)).2.2.now.deleted.count 1 = 1 := by
  have hrun : (machine Nat).run init [.construct (some 5),.createData 6,.adopt (some 1),
      .construct none,.moveConstruct 0,.moveAssign 2 1,.moveAssign 1 1,.destroy 0,.destroy 1,
      .destroy 2] = some _ := rfl
  refine ⟨⟨_,hrun,uniqueData_exclusive.1 Nat _ _ hrun⟩,?_⟩
  exact ((uniqueData_exclusive.2 Unit .zero Serving.mutedRobot ⟨true,none,true,false,none⟩
    { Dispatcher.init () with replier.super.reader := [Serving.requestOf getSpeedHash] }
    [] init rfl).2 _ _ (.runtimeError "no speed") rfl rfl rfl rfl rfl).2 1 (by decide)

end DdsRpc
