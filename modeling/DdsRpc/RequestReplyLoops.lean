import DdsRpc.RequestReplyRefinement
set_option autoImplicit false

namespace DdsRpc
open Connext SharedObject

namespace RrSystem
variable {ι : Type} {T : TakeReply RobotControlReply} {ts : TypeSupport} {status : String}
  {guid : ι → DDS.GUID} {s₀ : Robot}

def Event.isSend : Event ι → Bool
  | .send _ _ _ => true
  | _ => false

def nowhere : Places := ⟨[],[],[],[]⟩

variable [DecidableEq ι] {w w' : RrSystem ι} {t : State ι Robot RobotControlCall Read}

/-- No more than `n` steps, none of them a send, end the loop of `i`. -/
abbrev EndsWithin (T : TakeReply RobotControlReply) (ts : TypeSupport) (status : String)
    (w : RrSystem ι) (i : ι) (n : ℕ) : Prop :=
  (machine T ts status).Within (fun e => e.isSend = false) (fun w => w.pending i = none) w n

theorem Refines.ends_of_reader (hw : Refines ts status guid s₀ w t) {i : ι}
    (hr : (w.requester i).reader ≠ []) : EndsWithin T ts status w i 1 := by
  obtain ⟨p,ph,hpl,-,hst⟩ := hw.exists_stage i
  obtain ⟨-,-,-,hreader⟩ := places_eq hpl
  cases hst with
  | idle | sent | queued | answered | lost => exact absurd hreader hr
  | @delivered data s hwait hv =>
    have hs : ∃ w', w.receive T i = some w' ∧ w'.pending i = none := by
      refine ⟨?w,?hs,?hnone⟩
      case hs =>
        simp only [receive,hwait.pending,Option.bind_eq_bind,Option.bind_some,
          receiveReply_only (T := T) hwait.entry hreader rfl hv,if_true]
        rfl
      case hnone => exact Function.update_self ..
    obtain ⟨w',hs,hnone⟩ := hs
    exact .cons (e := .receive i) rfl hs (.now hnone)

theorem Refines.ends_of_replies (hg : Function.Injective guid)
    (hw : Refines ts status guid s₀ w t) {i : ι} (hr : w.replies (guid i) ≠ []) :
    EndsWithin T ts status w i 2 := by
  obtain ⟨reply,rest,hrep⟩ := List.exists_cons_of_ne_nil hr
  have hs : (machine T ts status).step w (.deliverReply i RequesterImpl.nullIdentity) =
      some (w.deliverReply ts i RequesterImpl.nullIdentity reply rest) := by
    simp only [machine,hw.writers i,hrep]
  refine .cons rfl hs ((refines_deliverReply hg hw hrep).ends_of_reader ?_)
  simp only [deliverReply,Function.update_self]
  exact List.append_ne_nil_of_right_ne_nil _ (List.cons_ne_nil _ _)

omit [DecidableEq ι] in
theorem reader_turn (hw : Refines ts status guid s₀ w t) :
    (w.turn ts status).server.replier.super.reader = w.server.replier.super.reader.tail := by
  rcases RobotServer.turn_cases ts status hw.suppressInvalid with ⟨hempty,hturn⟩ |
    ⟨r,rest,hr,hturn⟩
  · simp only [turn,hturn,hempty,List.tail_nil]
  · simp only [turn,hturn,hr,List.tail_cons]
    split <;> rfl

theorem replies_turn (hg : Function.Injective guid) (hw : Refines ts status guid s₀ w t) {i : ι}
    (hq : w.queue (guid i) ≠ []) (hq' : (w.turn ts status).queue (guid i) = []) :
    (w.turn ts status).replies (guid i) ≠ [] := by
  rcases RobotServer.turn_cases ts status hw.suppressInvalid with ⟨hempty,-⟩ | ⟨r,rest,hr,hturn⟩
  · exact absurd (by simp [queue,hempty]) hq
  · obtain ⟨j,data,-,hj,hv,-,-,-,hrest⟩ := hw.exists_queued hg hr
    rw [if_pos hv] at hturn
    rcases eq_or_ne i j with rfl | hne
    · simp only [turn,hturn,List.drop_left,System.route,hj,Function.update_self]
      exact List.append_ne_nil_of_right_ne_nil _ (List.cons_ne_nil _ _)
    · have hsame := hrest i
      simp only [queue,turn,hturn] at hq'
      rw [if_neg hne,hq'] at hsame
      exact absurd hsame.symm hq

theorem Refines.ends_of_queue (hg : Function.Injective guid)
    (hw : Refines ts status guid s₀ w t)
    (ht : Linearized (Robot.answer ts status) s₀ t) {i : ι} (hq : w.queue (guid i) ≠ []) :
    EndsWithin T ts status w i (w.server.replier.super.reader.length+2) := by
  obtain ⟨reader,hreader⟩ : ∃ l, w.server.replier.super.reader = l := ⟨_,rfl⟩
  induction reader generalizing w t with
  | nil =>
    rw [queue,hreader] at hq
    exact absurd rfl hq
  | cons r rest ih =>
    obtain ⟨ds,t',hrun,hw'⟩ := refines_turn hg hw ht.object
    have ht' := Machine.run_preserves linearized_step hrun ht
    have htail : (w.turn ts status).server.replier.super.reader = rest := by
      rw [reader_turn hw,hreader]
      rfl
    rw [hreader,List.length_cons,Nat.add_right_comm]
    refine .cons (e := .turn) rfl rfl ?_
    by_cases hq' : (w.turn ts status).queue (guid i) = []
    · exact .mono (Nat.le_add_left _ _) (hw'.ends_of_replies hg (replies_turn hg hw hq hq'))
    · rw [← htail]
      exact ih hw' ht' hq' htail

theorem Refines.ends (hg : Function.Injective guid) (hw : Refines ts status guid s₀ w t)
    (ht : Linearized (Robot.answer ts status) s₀ t) {i : ι}
    (hp : w.places (guid i) i ≠ nowhere) :
    EndsWithin T ts status w i (w.server.replier.super.reader.length+4) := by
  obtain ⟨p,ph,hpl,-,hst⟩ := hw.exists_stage i
  obtain ⟨hreqs,hqueue,hrep,hread⟩ := places_eq hpl
  cases hst with
  | idle | lost => exact absurd hpl hp
  | @sent req hwait =>
    have hw' := refines_deliverRequest hg hw hreqs
    have hs : (machine T ts status).step w (.deliverRequest i) =
        some (w.deliverRequest ts i req []) := by
      simp only [machine,hreqs]
    refine .mono ?_ (.cons rfl hs (hw'.ends_of_queue hg ht ?_))
    · simp [deliverRequest,ReplierImpl.arrive]
    · have hmem : w.requestSample ts req ∈ (w.deliverRequest ts i req []).queue (guid i) :=
        List.mem_filter.mpr ⟨List.mem_append_right _ (.head _),decide_eq_true hwait.guid⟩
      exact List.ne_nil_of_mem hmem
  | queued =>
    exact .mono (by omega) (hw.ends_of_queue hg ht (by rw [hqueue]; exact List.cons_ne_nil _ _))
  | answered =>
    exact .mono (by omega) (hw.ends_of_replies hg (by rw [hrep]; exact List.cons_ne_nil _ _))
  | delivered =>
    exact .mono (by omega) (hw.ends_of_reader (by rw [hread]; exact List.cons_ne_nil _ _))

/-- The client waits for a message that is nowhere. -/
def Lost (guid : ι → DDS.GUID) (i : ι) (w : RrSystem ι) : Prop :=
  w.pending i ≠ none ∧ w.places (guid i) i = nowhere

omit [DecidableEq ι] in
theorem Refines.sender (hw : Refines ts status guid s₀ w t) {i : ι}
    {req : WriteSample RobotControlRequest} {rest : List (WriteSample RobotControlRequest)}
    (hreq : w.requests i = req :: rest) : req.identity.writerGuid = guid i := by
  obtain ⟨p,ph,hpl,-,hst⟩ := hw.exists_stage i
  have hreqs := (places_eq hpl).1
  cases hst with
  | idle | queued | answered | delivered | lost =>
    rw [hreqs] at hreq
    cases hreq
  | sent hwait =>
    rw [hreqs] at hreq
    obtain ⟨rfl,-⟩ := List.cons.inj hreq
    exact hwait.guid

theorem lost_turn (hg : Function.Injective guid) {i : ι} (hw : Refines ts status guid s₀ w t)
    (hi : Lost guid i w) : Lost guid i (w.turn ts status) := by
  obtain ⟨hp,hpl⟩ := hi
  obtain ⟨hreqs,hqueue,hrep,hread⟩ := places_eq hpl
  rcases RobotServer.turn_cases ts status hw.suppressInvalid with ⟨-,hturn⟩ | ⟨r,rest,hr,hturn⟩
  · have hsame : w.turn ts status = w := by simp [turn,hturn,System.route]
    rw [hsame]
    exact ⟨hp,hpl⟩
  · obtain ⟨j,data,-,hj,hv,-,-,hplj,hrest⟩ := hw.exists_queued hg hr
    have hne : i ≠ j := by
      rintro rfl
      have := (places_eq hplj).2.1
      rw [hqueue] at this
      cases this
    have hguid : guid i ≠ guid j := fun heq => hne (hg heq)
    rw [if_pos hv] at hturn
    have hqueue' := hrest i
    rw [if_neg hne,hqueue] at hqueue'
    refine ⟨hp,?_⟩
    simp only [places,queue,turn,hturn,List.drop_left,System.route,hj,
      Function.update_of_ne hguid,hreqs,hrep,hread,hqueue',nowhere]

theorem lost_receive {i j : ι} (h : w.receive T j = some w') (hi : Lost guid i w) :
    Lost guid i w' := by
  obtain ⟨hp,hpl⟩ := hi
  obtain ⟨data,hpend,h⟩ := Option.bind_eq_some_iff.mp h
  obtain ⟨⟨c,ret,replySample⟩,hrecv,h⟩ := Option.bind_eq_some_iff.mp h
  rcases eq_or_ne i j with rfl | hne
  · -- The wait for it times out.
    rw [receiveReply_of_empty (places_eq hpl).2.2.2] at hrecv
    cases hrecv
    cases h
    exact ⟨hp,by simpa [places,queue] using hpl⟩
  · cases ret <;> cases h <;> exact ⟨by simpa [hne] using hp,by simpa [places,queue,hne] using hpl⟩

theorem lost_step (hg : Function.Injective guid) {e : Event ι} {i : ι}
    (h : (machine T ts status).step w e = some w') (hw : Refines ts status guid s₀ w t)
    (hi : Lost guid i w) : Lost guid i w' := by
  obtain ⟨hp,hpl⟩ := hi
  obtain ⟨hreqs,hqueue,hrep,hread⟩ := places_eq hpl
  cases e with
  | send j data sent =>
    simp only [machine] at h
    split at h
    case isFalse => cases h
    cases h
    have hne : i ≠ j := fun heq => hp (Option.isNone_iff_eq_none.mp (heq ▸ ‹_›))
    refine ⟨?_,?_⟩
    · cases sent <;> simpa [send,hne] using hp
    · simpa [send,places,queue,hne] using hpl
  | deliverRequest j =>
    simp only [machine] at h
    split at h
    · cases h
    · rename_i req rest hreq
      cases h
      have hne : i ≠ j := by
        rintro rfl
        rw [hreqs] at hreq
        cases hreq
      have hguid : ¬ req.identity.writerGuid = guid i := by
        rw [hw.sender hreq]
        exact fun heq => hne (hg heq).symm
      refine ⟨hp,?_⟩
      simpa [deliverRequest,loseRequest,places,queue,ReplierImpl.arrive,List.filter_append,
        List.filter_singleton,requestSample,hguid,hne] using hpl
  | loseRequest j =>
    simp only [machine] at h
    split at h
    · cases h
    · rename_i req rest hreq
      cases h
      have hne : i ≠ j := by
        rintro rfl
        rw [hreqs] at hreq
        cases hreq
      exact ⟨hp,by simpa [loseRequest,places,queue,hne] using hpl⟩
  | turn =>
    cases h
    exact lost_turn hg hw ⟨hp,hpl⟩
  | deliverReply j identity =>
    simp only [machine,hw.writers j] at h
    split at h
    · cases h
    · rename_i reply rest hreply
      cases h
      have hne : i ≠ j := by
        rintro rfl
        rw [hrep] at hreply
        cases hreply
      have hguid : guid i ≠ guid j := fun heq => hne (hg heq)
      exact ⟨hp,by simpa [deliverReply,loseReply,hw.writers,places,queue,hne,hguid] using hpl⟩
  | loseReply j =>
    simp only [machine,hw.writers j] at h
    split at h
    · cases h
    · rename_i reply rest hreply
      cases h
      have hne : i ≠ j := by
        rintro rfl
        rw [hrep] at hreply
        cases hreply
      have hguid : guid i ≠ guid j := fun heq => hne (hg heq)
      exact ⟨hp,by simpa [loseReply,places,queue,hguid] using hpl⟩
  | receive j => exact lost_receive h ⟨hp,hpl⟩

theorem lost_run (hg : Function.Injective guid) {es : List (Event ι)} {i : ι}
    (h : (machine T ts status).run w es = some w') (hw : Refines ts status guid s₀ w t)
    (ht : Linearized (Robot.answer ts status) s₀ t) (hi : Lost guid i w) : Lost guid i w' := by
  have hrun := Machine.run_preserves (M := machine T ts status)
    (P := fun w => Lost guid i w ∧ ∃ t, Refines ts status guid s₀ w t ∧
      Linearized (Robot.answer ts status) s₀ t) (fun hs hu => ?_) h ⟨hi,t,hw,ht⟩
  · exact hrun.1
  obtain ⟨hi,t,hw,ht⟩ := hu
  obtain ⟨ds,t',hrun,hw'⟩ := refines_step hg hs hw ht
  exact ⟨lost_step hg hs hw hi,t',hw',Machine.run_preserves linearized_step hrun ht⟩

/-- A client that waits comes to the end of its loop, in so many steps and with no send of
anybody's, exactly if its message is still somewhere. Once that is lost, nothing that
anybody does ends the loop. -/
theorem requestReply_ends_iff (T : TakeReply RobotControlReply) (ts : TypeSupport)
    (status : String) {guid : ι → DDS.GUID} (hg : Function.Injective guid) {s₀ : Robot}
    {w : RrSystem ι} {es : List (Event ι)}
    (h : (machine T ts status).run (init ts guid s₀) es = some w) {i : ι}
    (hp : w.pending i ≠ none) :
    ((∃ fs w', (machine T ts status).run w fs = some w' ∧ w'.pending i = none) ↔
      w.places (guid i) i ≠ nowhere) ∧
    (w.places (guid i) i ≠ nowhere →
      EndsWithin T ts status w i (w.server.replier.super.reader.length+4)) := by
  obtain ⟨t,hw,ht⟩ := refines_run hg h
  refine ⟨⟨?_,fun hpl => ?_⟩,fun hpl => hw.ends hg ht hpl⟩
  · rintro ⟨fs,w',hrun,hnone⟩ hpl
    exact (lost_run hg hrun hw ht ⟨hp,hpl⟩).1 hnone
  · obtain ⟨fs,w',-,-,hrun,hnone⟩ := hw.ends (T := T) hg ht hpl
    exact ⟨fs,w',hrun,hnone⟩

theorem requestReply_ends_iff_queued : ∃ w : RrSystem Bool,
    (machine .oldest .zero "Good Status").run (init .zero System.clientGuid .init)
      [.send false setSpeedFive true,.send true setSpeedFive true,.loseRequest false,
        .deliverRequest true,.receive false] = some w ∧
    (¬ ∃ fs w', (machine .oldest .zero "Good Status").run w fs = some w' ∧
      w'.pending false = none) ∧
    EndsWithin .oldest .zero "Good Status" w true 5 := by
  obtain ⟨w,hw,hfalse,htrue,hnowhere,hqueued,hlen⟩ : ∃ w : RrSystem Bool,
      (machine .oldest .zero "Good Status").run (init .zero System.clientGuid .init)
        [.send false setSpeedFive true,.send true setSpeedFive true,.loseRequest false,
          .deliverRequest true,.receive false] = some w ∧
      w.pending false ≠ none ∧ w.pending true ≠ none ∧
      w.places (System.clientGuid false) false = nowhere ∧
      w.places (System.clientGuid true) true ≠ nowhere ∧
      w.server.replier.super.reader.length = 1 :=
    ⟨_,rfl,nofun,nofun,rfl,nofun,rfl⟩
  have hg : Function.Injective System.clientGuid := by
    unfold Function.Injective
    decide
  refine ⟨w,hw,fun hend => ?_,?_⟩
  · exact (requestReply_ends_iff .oldest .zero "Good Status" hg hw hfalse).1.mp hend hnowhere
  · have hends := (requestReply_ends_iff .oldest .zero "Good Status" hg hw htrue).2 hqueued
    rwa [hlen] at hends

end RrSystem
end DdsRpc
