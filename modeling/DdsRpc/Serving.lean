import DdsRpc.Dispatcher
set_option autoImplicit false

namespace DdsRpc
open Connext

variable {σ : Type} {ts : TypeSupport} {R : RobotControl σ}

/-- A request that `receive_request` has handed to `dispatch`, and the state that the
service was in. -/
structure Taken (σ : Type) where
  request : Sample RobotControlRequest
  service : σ

def Taken.undeclared (ts : TypeSupport) (R : RobotControl σ) (t : Taken σ) : Bool :=
  match t.request.data.data.selected with
  | some op => DdsRpc.undeclared op (R.call ts.createStatus op t.service).1
  | none => false

theorem undeclared_of_dispatchRequest {r : Sample RobotControlRequest} {s s' : σ}
    {out : Except Exn RobotControlReply} (h : dispatchRequest ts R r s = (out,s')) :
    Taken.undeclared ts R ⟨r,s⟩ = !out.isOk := by
  obtain rfl : (dispatchRequest ts R r s).1 = out := by rw [h]
  unfold Taken.undeclared
  cases hsel : r.data.data.selected with
  | none =>
    rw [dispatchRequest_unknown hsel]
    rfl
  | some op => rw [dispatchRequest_selected hsel,replyOf_isOk,Bool.not_not]

/-- `taken` records what was handed over; the code does not read it. -/
structure Serving (σ : Type) where
  dispatcher : Dispatcher σ
  taken : List (Taken σ)

namespace Serving

inductive Event where
  | arrive (r : Sample RobotControlRequest)
  | dispatch
  deriving DecidableEq

def init (s : σ) : Serving σ := ⟨.init s,[]⟩

def arrive (w : Serving σ) (r : Sample RobotControlRequest) : Serving σ :=
  let super := w.dispatcher.replier.super
  { w with dispatcher.replier.super := { super with reader := super.reader ++ [r] } }

def dispatch (ts : TypeSupport) (R : RobotControl σ) (w : Serving σ) : Serving σ :=
  let (_,ret,request) := w.dispatcher.replier.receiveRequest ts.requestSample
  { dispatcher := (w.dispatcher.dispatch ts R).2
    taken := if ret then w.taken ++ [⟨request,w.dispatcher.service⟩] else w.taken }

def machine (ts : TypeSupport) (R : RobotControl σ) : Machine (Serving σ) Event where
  step w
    | .arrive r => some (w.arrive r)
    | .dispatch => some (w.dispatch ts R)

abbrev reader (w : Serving σ) : List (Sample RobotControlRequest) :=
  w.dispatcher.replier.super.reader

abbrev written (w : Serving σ) : List (WriteReply RobotControlReply) :=
  w.dispatcher.replier.super.written

inductive Dispatched (ts : TypeSupport) (R : RobotControl σ) (w : Serving σ) :
    Serving σ → Prop where
  | idle : (∀ r ∈ w.reader.head?,
        (w.dispatcher.replier.suppressInvalid && !r.info.validData) = true) →
      Dispatched ts R w { w with dispatcher.replier.super.reader := w.reader.tail }
  | replied {r : Sample RobotControlRequest} {rest : List (Sample RobotControlRequest)}
      {reply : RobotControlReply} {s' : σ} : w.reader = r :: rest →
      dispatchRequest ts R r w.dispatcher.service = (.ok reply,s') →
      Dispatched ts R w
        { dispatcher.replier.suppressInvalid := w.dispatcher.replier.suppressInvalid
          dispatcher.replier.super.reader := rest
          dispatcher.replier.super.written := w.written ++
            [⟨ReplierImpl.outgoing reply (toRpcSampleIdentity r.info.identity),r.info.identity⟩]
          dispatcher.service := s'
          taken := w.taken ++ [⟨r,w.dispatcher.service⟩] }
  | escaped {r : Sample RobotControlRequest} {rest : List (Sample RobotControlRequest)}
      {e : Exn} {s' : σ} : w.reader = r :: rest →
      dispatchRequest ts R r w.dispatcher.service = (.error e,s') →
      Dispatched ts R w
        { dispatcher.replier := { w.dispatcher.replier with super.reader := rest }
          dispatcher.service := s'
          taken := w.taken ++ [⟨r,w.dispatcher.service⟩] }

theorem dispatch_cases (ts : TypeSupport) (R : RobotControl σ) (w : Serving σ) :
    Dispatched ts R w (w.dispatch ts R) := by
  unfold dispatch Dispatcher.dispatch
  rcases w.dispatcher.replier.receiveRequest_cases ts.requestSample with
    ⟨r,rest,hr,-,hrecv⟩ | ⟨hnone,s,hrecv⟩
  · rw [hrecv]
    simp only [if_true]
    rcases h : dispatchRequest ts R r w.dispatcher.service with ⟨e | reply,s'⟩
    · exact .escaped hr h
    · simp only [ReplierImpl.sendReply,Replier.sendReply,toConnextIdentity_toRpcSampleIdentity]
      exact .replied hr h
  · rw [hrecv]
    exact .idle hnone

def ReportsUnknownException (reply : RobotControlReply) : Prop :=
  reply.header.remoteEx = .unknownException ∨
    reply.data.resultD = some RemoteExceptionCode.unknownException.value

/-- The requests taken and the replies written belong together one by one. -/
structure Answered (ts : TypeSupport) (R : RobotControl σ) (w : Serving σ) : Prop where
  once : w.written.map (·.relatedIdentity) = w.taken.map (·.request.info.identity)
  reported : ∀ (n : Nat) (t : Taken σ) out, w.taken[n]? = some t →
    w.written[n]? = some out → t.undeclared ts R → ReportsUnknownException out.data

def Replied (ts : TypeSupport) (R : RobotControl σ) (w : Serving σ) : Prop :=
  w.written.map (·.relatedIdentity) =
    (w.taken.filter (fun t => !t.undeclared ts R)).map (·.request.info.identity)

theorem replied_dispatch {w : Serving σ} (hw : Replied ts R w) :
    Replied ts R (w.dispatch ts R) := by
  have hd := dispatch_cases ts R w
  generalize w.dispatch ts R = w' at hd
  cases hd with
  | idle => exact hw
  | @replied r rest reply s' hr hreq =>
    have hu : Taken.undeclared ts R ⟨r,w.dispatcher.service⟩ = false :=
      undeclared_of_dispatchRequest hreq
    simp only [Replied,written,List.filter_append,List.map_append] at hw ⊢
    rw [hw]
    simp [hu]
  | @escaped r rest e s' hr hreq =>
    have hu : Taken.undeclared ts R ⟨r,w.dispatcher.service⟩ = true :=
      undeclared_of_dispatchRequest hreq
    simp only [Replied,written,List.filter_append,List.map_append] at hw ⊢
    rw [hw]
    simp [hu]

theorem replied_run {s : σ} {w : Serving σ} {es : List Event}
    (h : (machine ts R).run (init s) es = some w) : Replied ts R w := by
  refine Machine.run_preserves (P := Replied ts R) (fun {w e w'} hs hw => ?_) h rfl
  cases e with
  | arrive r =>
    cases hs
    exact hw
  | dispatch =>
    cases hs
    exact replied_dispatch hw

/-- A dispatcher loses exactly the requests whose method ends with an exception that
its operation does not declare. -/
theorem answered_iff {s : σ} {w : Serving σ} {es : List Event}
    (h : (machine ts R).run (init s) es = some w) :
    Answered ts R w ↔ ∀ t ∈ w.taken, t.undeclared ts R = false := by
  have hw := replied_run h
  unfold Replied at hw
  constructor
  · intro ha t ht
    have hlen := congrArg List.length (ha.once.symm.trans hw)
    simp only [List.length_map] at hlen
    have hall := List.length_filter_eq_length_iff.mp hlen.symm
    simpa using hall t ht
  · intro hall
    refine ⟨?_,fun n t out ht _ hu => ?_⟩
    · rw [hw,List.filter_eq_self.mpr (fun t ht => by simp [hall t ht])]
    · rw [hall t (List.mem_of_getElem? ht)] at hu
      cases hu

def echoRobot : RobotControl Unit where
  command _ s := (.ok (),s)
  setSpeed speed s := (.ok speed,s)
  getSpeed s := (.ok (.finite 0),s)
  getStatus status s := (.ok status,s)

def mutedRobot : RobotControl Unit :=
  { echoRobot with getSpeed := fun s => (.error (.runtimeError "no speed"),s) }

def requestOf (d : Int32) : Sample RobotControlRequest :=
  { TypeSupport.zero.requestSample with
    data.data.d := d
    info.validData := true }

theorem answered_getSpeed : ∃ w : Serving Unit,
    (machine .zero echoRobot).run (init ()) [.arrive (requestOf getSpeedHash),.dispatch] = some w ∧
    Answered .zero echoRobot w := by
  have hrun : (machine .zero echoRobot).run (init ())
      [.arrive (requestOf getSpeedHash),.dispatch] = some _ := rfl
  refine ⟨_,hrun,(answered_iff hrun).mpr (fun t ht => ?_)⟩
  obtain rfl := List.mem_singleton.mp ht
  rfl

theorem answered_fails : ∃ w : Serving Unit,
    (machine .zero mutedRobot).run (init ()) [.arrive (requestOf getSpeedHash),.dispatch] =
      some w ∧ ¬ Answered .zero mutedRobot w :=
  ⟨_,rfl,fun h => absurd (congrArg List.length h.once) (by decide)⟩

/-- The reply that goes out for `r` has the code of its operation in its header: the
code that `dispatch` has set, where it has set one. -/
structure CarriesRemoteEx (ts : TypeSupport) (R : RobotControl σ) (w : Serving σ)
    (r : Sample RobotControlRequest) : Prop where
  unknown : ∀ out, (w.dispatch ts R).written = w.written ++ [out] →
    (out.data.header.remoteEx = .unknownOperation ↔ r.data.data.d ∉ operationHashes)
  ok : ∀ out, (w.dispatch ts R).written = w.written ++ [out] →
    r.data.data.d ∈ operationHashes → out.data.header.remoteEx = .ok
  kept : ∀ out reply s', (w.dispatch ts R).written = w.written ++ [out] →
    dispatchRequest ts R r w.dispatcher.service = (.ok reply,s') →
    r.data.data.d ∉ operationHashes → out.data.header.remoteEx = reply.header.remoteEx

theorem dispatch_remoteEx {w : Serving σ} {out : WriteReply RobotControlReply}
    (h : (w.dispatch ts R).written = w.written ++ [out]) : out.data.header.remoteEx = .ok := by
  have hd := dispatch_cases ts R w
  generalize w.dispatch ts R = w' at h hd
  cases hd with
  | idle | escaped =>
    have hlen := congrArg List.length h
    simp at hlen
  | replied =>
    obtain rfl := (List.cons.inj (List.append_cancel_left h)).1
    rfl

theorem dispatch_unknown (ts : TypeSupport) (R : RobotControl σ) {w : Serving σ}
    {r : Sample RobotControlRequest} {rest : List (Sample RobotControlRequest)}
    (hr : w.reader = r :: rest)
    (hv : (w.dispatcher.replier.suppressInvalid && !r.info.validData) = false)
    (hd : r.data.data.d ∉ operationHashes) :
    ∃ out, (w.dispatch ts R).written = w.written ++ [out] := by
  have hreq : dispatchRequest ts R r w.dispatcher.service = _ :=
    dispatchRequest_unknown (RobotControlCall.selected_eq_none.mpr hd) _
  have hcases := dispatch_cases ts R w
  generalize w.dispatch ts R = w' at hcases
  cases hcases with
  | idle hnone =>
    rw [hnone r (by rw [hr]; rfl)] at hv
    cases hv
  | replied => exact ⟨_,rfl⟩
  | escaped hr' hreq' =>
    obtain ⟨rfl,-⟩ := List.cons.inj (hr.symm.trans hr')
    rw [hreq] at hreq'
    cases hreq'

/-- The code in the header is right exactly for the operations of the interface. -/
theorem carriesRemoteEx_iff (ts : TypeSupport) (R : RobotControl σ) {w : Serving σ}
    {r : Sample RobotControlRequest} {rest : List (Sample RobotControlRequest)}
    (hr : w.reader = r :: rest)
    (hv : (w.dispatcher.replier.suppressInvalid && !r.info.validData) = false) :
    CarriesRemoteEx ts R w r ↔ r.data.data.d ∈ operationHashes := by
  constructor
  · intro h
    by_contra hd
    obtain ⟨out,hout⟩ := dispatch_unknown ts R hr hv hd
    have hcode := (h.unknown out hout).mpr hd
    rw [dispatch_remoteEx hout] at hcode
    cases hcode
  · intro hd
    refine ⟨fun out hout => ?_,fun out hout _ => dispatch_remoteEx hout,
      fun _ _ _ _ _ hnd => absurd hd hnd⟩
    rw [dispatch_remoteEx hout]
    exact iff_of_false (fun h => (nomatch h)) (fun hnd => hnd hd)

theorem carriesRemoteEx_getSpeed :
    CarriesRemoteEx .zero echoRobot ((init ()).arrive (requestOf getSpeedHash))
      (requestOf getSpeedHash) :=
  (carriesRemoteEx_iff .zero echoRobot rfl rfl).mpr (by decide)

theorem carriesRemoteEx_fails :
    ¬ CarriesRemoteEx .zero echoRobot ((init ()).arrive (requestOf 5)) (requestOf 5) :=
  fun h => absurd ((h.unknown _ rfl).mpr (by decide)) (by decide)

end Serving
end DdsRpc
