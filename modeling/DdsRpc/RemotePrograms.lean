import DdsRpc.RemoteRefinement
import DdsRpc.Library.Programs
set_option autoImplicit false

namespace DdsRpc
open Connext SharedObject

namespace System
variable {ι σ : Type} [DecidableEq ι] {T : TakeReply RobotControlReply} {ts : TypeSupport}
  {R : RobotControl σ} {guid : ι → DDS.GUID} {w w' : System ι σ} {t : State ι σ Call Outcome}

def Event.isCall : Event ι → Bool
  | .call _ _ => true
  | _ => false

/-- No more than `n` steps, none of them a call, end the call of `i`. -/
abbrev ReturnsWithin (T : TakeReply RobotControlReply) (ts : TypeSupport) (R : RobotControl σ)
    (w : System ι σ) (i : ι) (n : ℕ) : Prop :=
  (machine T ts R).Within (fun e => e.isCall = false) (fun w => w.pending i = none) w n

theorem Refines.returns_of_reader (hw : Refines ts guid w t) {i : ι}
    (hr : (w.client i).reader ≠ []) : ReturnsWithin T ts R w i 1 := by
  obtain ⟨p,ph,hpl,-,hst⟩ := hw.exists_stage i
  obtain ⟨-,-,-,hreader⟩ := places_eq hpl
  cases hst with
  | idle | sent | queued | answered => exact absurd hreader hr
  | @delivered op out s hwait hv hout =>
    obtain ⟨id,hpend,hmap⟩ := hwait.entry
    have hret : ∃ w', w.ret T ts i = some w' ∧ w'.pending i = none := by
      refine ⟨?w,?hs,?hnone⟩
      case hs =>
        simp only [ret,hpend,Option.bind_eq_bind,Option.bind_some,hreader,List.isEmpty_cons,
          Bool.false_eq_true,if_false,receiveReply_only (T := T) hmap hreader rfl hv]
        rfl
      case hnone => exact Function.update_self ..
    obtain ⟨w',hs,hnone⟩ := hret
    exact .cons (e := .ret i) rfl hs (Machine.Within.now hnone)

theorem Refines.returns_of_replies (hg : Function.Injective guid) (hw : Refines ts guid w t)
    {i : ι} (hr : w.replies (guid i) ≠ []) : ReturnsWithin T ts R w i 2 := by
  obtain ⟨reply,rest,hrep⟩ := List.exists_cons_of_ne_nil hr
  have hs : ∃ w', w.deliverReply ts i RequesterImpl.nullIdentity = some w' ∧
      (w'.client i).reader ≠ [] := by
    refine ⟨?w,?hs,?hreader⟩
    case hs =>
      simp only [deliverReply,hw.writers i,hrep]
      rfl
    case hreader =>
      simp only [Function.update_self]
      exact List.append_ne_nil_of_right_ne_nil _ (List.cons_ne_nil _ _)
  obtain ⟨w',hs,hreader⟩ := hs
  exact .cons (e := .deliverReply i RequesterImpl.nullIdentity) rfl hs
    ((refines_deliverReply hg hw hs).returns_of_reader hreader)

omit [DecidableEq ι] in
theorem Refines.phase_of_none (hw : Refines ts guid w t) {i : ι} (hp : w.pending i = none) :
    (t.phase i).outcomes = [] := by
  have hops := hw.phase_ops i
  rw [hp] at hops
  cases hph : t.phase i with
  | idle | called => rfl
  | served =>
    rw [hph] at hops
    cases hops

omit [DecidableEq ι] in
theorem reader_dispatch (w : Serving (σ × List Call)) :
    (w.dispatch ts R.logged).reader = w.reader.tail := by
  have hd := Serving.dispatch_cases ts R.logged w
  generalize w.dispatch ts R.logged = v at hd
  cases hd with
  | idle => rfl
  | escaped hr | replied hr =>
    simp only [hr]
    rfl

theorem Refines.returns_of_queue (hg : Function.Injective guid)
    (hts : ts.createReply.data.getSpeed.d = remoteExOk) (hR : R.Declared)
    (hw : Refines ts guid w t) {i : ι} (hq : w.queue (guid i) ≠ []) :
    ReturnsWithin T ts R w i (w.server.reader.length+2) := by
  obtain ⟨reader,hreader⟩ : ∃ l, w.server.reader = l := ⟨_,rfl⟩
  induction reader generalizing w t with
  | nil =>
    rw [queue,hreader] at hq
    exact absurd rfl hq
  | cons r rest ih =>
    obtain ⟨p,ph,hpl,-,hst⟩ := hw.exists_stage i
    obtain ⟨hreqs,hqueue,-,hread⟩ := places_eq hpl
    cases hst with
    | idle | sent | answered | delivered => exact absurd hqueue hq
    | @queued op r' hwait =>
      obtain ⟨ds,t',-,hw'⟩ := refines_dispatch hg hts hR hw
      have htail : (w.dispatch ts R).server.reader = rest := by
        rw [dispatch,reader_dispatch,hreader]
        rfl
      rw [hreader,List.length_cons,Nat.add_right_comm]
      refine .cons (e := .dispatch) rfl rfl ?_
      by_cases hq' : (w.dispatch ts R).queue (guid i) = []
      · obtain ⟨p',ph',hpl',-,hst'⟩ := hw'.exists_stage i
        obtain ⟨hreqs',hqueue',hrep',hread'⟩ := places_eq hpl'
        refine .mono (Nat.le_add_left _ _) (hw'.returns_of_replies hg ?_)
        cases hst' with
        | answered =>
          rw [hrep']
          exact List.cons_ne_nil _ _
        | idle hpend =>
          obtain ⟨id,hid,-⟩ := hwait.entry
          exact absurd (hid.symm.trans hpend) (by simp)
        | sent => exact absurd (hreqs.symm.trans hreqs') (by simp)
        | queued => exact absurd (hqueue'.symm.trans hq') (by simp)
        | delivered => exact absurd (hread.symm.trans hread') (by simp)
      · rw [← htail]
        exact ih hw' hq' htail

theorem Refines.returns (hg : Function.Injective guid)
    (hts : ts.createReply.data.getSpeed.d = remoteExOk) (hR : R.Declared)
    (hw : Refines ts guid w t) (i : ι) :
    ReturnsWithin T ts R w i (w.server.reader.length+4) := by
  obtain ⟨p,ph,hpl,-,hst⟩ := hw.exists_stage i
  obtain ⟨hreqs,hqueue,hrep,hread⟩ := places_eq hpl
  cases hst with
  | idle hpend => exact Machine.Within.now hpend
  | @sent op req hwait =>
    have hw' := refines_deliverRequest hg hw hreqs
    have hs : (machine T ts R).step w (.deliverRequest i) = some { w with
        requests := Function.update w.requests i []
        server := w.server.arrive (w.requestSample ts req) } := by
      simp only [machine,hreqs]
    refine .mono ?_ (.cons rfl hs (hw'.returns_of_queue hg hts hR ?_))
    · simp [Serving.arrive,Serving.reader]
    · have hmem : w.requestSample ts req ∈ queue { w with
          requests := Function.update w.requests i []
          server := w.server.arrive (w.requestSample ts req) } (guid i) :=
        List.mem_filter.mpr ⟨List.mem_append_right _ (.head _),decide_eq_true hwait.guid⟩
      exact List.ne_nil_of_mem hmem
  | queued =>
    exact .mono (by omega) (hw.returns_of_queue hg hts hR (by rw [hqueue]; exact List.cons_ne_nil _ _))
  | answered =>
    exact .mono (by omega) (hw.returns_of_replies hg (by rw [hrep]; exact List.cons_ne_nil _ _))
  | delivered =>
    exact .mono (by omega) (hw.returns_of_reader (by rw [hread]; exact List.cons_ne_nil _ _))

/-- No run comes to a state in which a call is stuck. -/
theorem remoteCalls_return (T : TakeReply RobotControlReply) {ts : TypeSupport}
    {R : RobotControl σ} {guid : ι → DDS.GUID} (hg : Function.Injective guid)
    (hts : ts.createReply.data.getSpeed.d = remoteExOk) (hR : R.Declared) {s₀ : σ}
    {w : System ι σ} {es : List (Event ι)}
    (h : (machine T ts R).run (init guid s₀) es = some w) (i : ι) :
    ReturnsWithin T ts R w i (w.server.reader.length+4) := by
  obtain ⟨ds,t,-,hw⟩ := Machine.run_simulation (A := object ts R) (R := Refines ts guid)
    (refines_step hg hts hR) h (refines_init ts guid s₀)
  exact hw.returns hg hts hR i

theorem remoteCalls_return_overtaken : ∃ w : System Bool Unit,
    (machine .oldest .zero Serving.echoRobot).run (init clientGuid ())
      [.call true .getStatus,.call false .getSpeed,.deliverRequest false] = some w ∧
    (w.pending true).isSome ∧ ReturnsWithin .oldest .zero Serving.echoRobot w true 5 := by
  have hsome : ((machine .oldest .zero Serving.echoRobot).run (init clientGuid ())
      [.call true .getStatus,.call false .getSpeed,.deliverRequest false]).any
      (fun w : System Bool Unit => (w.pending true).isSome ∧ w.server.reader.length = 1) := by
    decide
  obtain ⟨w,hw,h⟩ := (Option.any_eq_true _ _).mp hsome
  obtain ⟨hp,hlen⟩ := of_decide_eq_true h
  have hg : Function.Injective clientGuid := by
    unfold Function.Injective
    decide
  have hR : Serving.echoRobot.Declared := fun _ op _ => by cases op <;> rfl
  have hret := remoteCalls_return .oldest hg rfl hR hw true
  rw [hlen] at hret
  exact ⟨w,hw,hp,hret⟩

/-- Clients that run programs of remote calls are programs that call the service itself,
one call at a time. -/
theorem remotePrograms_asLocal (T : TakeReply RobotControlReply) {ts : TypeSupport}
    {R : RobotControl σ} {guid : ι → DDS.GUID} (hg : Function.Injective guid)
    (hts : ts.createReply.data.getSpeed.d = remoteExOk) (hR : R.Declared) {s₀ : σ}
    {w : System ι σ} {es : List (Event ι)}
    (h : (machine T ts R).run (init guid s₀) es = some w) {Q : ι → Type}
    {p : (i : ι) → Program (Q i) Call Outcome} {q : (i : ι) → Q i}
    (hf : ∀ i, (p i).Follows (q i) (w.issued i) (w.returned i)) :
    ∃ (schedule : List ι) (q' : (i : ι) → Q i),
      (programs p (R.call ts.createStatus)).run (s₀,q) schedule =
        some (w.server.dispatcher.service.1,q') ∧
      ∀ i, w.pending i = none → q' i = (p i).after (q i) (w.returned i) := by
  obtain ⟨ds,t,ht,hw⟩ := Machine.run_simulation (A := object ts R) (R := Refines ts guid)
    (refines_step hg hts hR) h (refines_init ts guid s₀)
  have hrun := (linearized_run ht).programs_run (p := p) (q := q)
    (by rw [← hw.issued,← hw.returned]; exact hf)
  refine ⟨_,_,by rw [hw.service]; exact hrun,fun i hp => ?_⟩
  simp only [hw.phase_of_none hp,List.append_nil,hw.returned]

def readStatusOnce : Program Bool Call Outcome where
  next read := if read then none else some .getStatus
  resume _ _ _ := true

theorem remotePrograms_asLocal_once : ∃ (schedule : List Bool) (q' : Bool → Bool),
    (programs (fun _ => readStatusOnce) (Serving.echoRobot.call TypeSupport.zero.createStatus)).run
      ((),fun _ => false) schedule = some ((),q') ∧ q' true = true := by
  have hsome : ((machine .oldest .zero Serving.echoRobot).run (init clientGuid ())
      [.call true .getStatus,.deliverRequest true,.dispatch,
        .deliverReply true RequesterImpl.nullIdentity,.ret true]).any
      (fun w : System Bool Unit => w.issued false = [] ∧ w.issued true = [.getStatus] ∧
        w.pending true = none ∧ (w.returned true).length = 1) := by
    decide
  obtain ⟨w,hw,h⟩ := (Option.any_eq_true _ _).mp hsome
  obtain ⟨hfalse,htrue,hp,hlen⟩ := of_decide_eq_true h
  obtain ⟨out,hout⟩ := List.length_eq_one_iff.mp hlen
  have hg : Function.Injective clientGuid := by
    unfold Function.Injective
    decide
  have hR : Serving.echoRobot.Declared := fun _ op _ => by cases op <;> rfl
  have hf : ∀ i, readStatusOnce.Follows false (w.issued i) (w.returned i)
    | false => by rw [hfalse]; exact Program.follows_nil _ _
    | true => by
      rw [htrue,hout]
      exact Program.follows_cons.mpr ⟨rfl,Program.follows_nil _ _⟩
  obtain ⟨schedule,q',hrun,hend⟩ := remotePrograms_asLocal .oldest hg rfl hR hw hf
  refine ⟨schedule,q',hrun,?_⟩
  rw [hend true hp,hout]
  rfl

theorem remoteOutline (T : TakeReply RobotControlReply) {ts : TypeSupport}
    {R : RobotControl σ} {guid : ι → DDS.GUID} (hg : Function.Injective guid)
    (hts : ts.createReply.data.getSpeed.d = remoteExOk) (hR : R.Declared) {s₀ : σ}
    {w : System ι σ} {es : List (Event ι)}
    (h : (machine T ts R).run (init guid s₀) es = some w) {Q : Type} {p : Program Q Call Outcome}
    {H : Call → Prop} {A : Q → σ → Prop} (hA : Outline p (R.call ts.createStatus) H A) {q : Q}
    (hq : A q s₀) {i : ι} (hf : p.Follows q (w.issued i) (w.returned i))
    (hothers : ∀ j ≠ i, ∀ op ∈ w.issued j, H op) :
    (∀ out ∈ w.returned i, ∃ q' s, A q' s ∧ p.next q' = some out.1 ∧
      (R.call ts.createStatus out.1 s).1 = out.2) ∧
    (w.pending i = none → A (p.after q (w.returned i)) w.server.dispatcher.service.1) := by
  obtain ⟨ds,t,ht,hw⟩ := Machine.run_simulation (A := object ts R) (R := Refines ts guid)
    (refines_step hg hts hR) h (refines_init ts guid s₀)
  rw [hw.issued,hw.returned] at hf
  rw [hw.issued] at hothers
  obtain ⟨hreturned,hbetween⟩ := (linearized_run ht).outline hA hf hothers hq
  rw [hw.returned,hw.service]
  exact ⟨hreturned,fun hp => hbetween (hw.phase_of_none hp)⟩

end System
end DdsRpc
