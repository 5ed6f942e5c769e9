import DdsRpc.ReceiveReply
import DdsRpc.ReplierImpl
set_option autoImplicit false

namespace DdsRpc
open Connext

def ExecutePc.held {TRep : Type} : ExecutePc TRep → Option (Completion TRep)
  | .holding c => some c
  | _ => none

namespace Session
variable {α TRep : Type} {T : TakeReply TRep}

def given (w : Session α TRep) (k : Nat) : List (Completion TRep) := w.promises[k]?.getD []

def newly (w w' : Session α TRep) (k : Nat) : List (Completion TRep) :=
  (w'.given k).drop (w.given k).length

def takes (T : TakeReply TRep) (w : Session α TRep) : Env TRep → Option (Nat × Sample TRep)
  | .thread k .take => do
    let t ← w.threads[k]?
    let (r,_) ← T.take w.reader t.identity
    some (k,r)
  | _ => none

def gives (w : Session α TRep) (k : Nat) : Env TRep → List (Completion TRep)
  | .thread j .complete => if j = k then (w.threads[k]?.bind (·.pc.held)).toList else []
  | _ => []

def Delivering (w : Session α TRep) (k : Nat) (r : Sample TRep) : Prop :=
  (∃ t, w.threads[k]? = some t ∧ t.pc = .holding (.value r)) ∨ .value r ∈ w.given k

theorem Threads.given_envStep {w w' : Session α TRep} {e : Env TRep} (hw : Threads w)
    (h : w.envStep T e = some w') (k : Nat) :
    w'.given k = w.given k ++ w.gives k e := by
  cases e with
  | arrive a =>
    cases h
    simp [given,gives,arrive]
  | thread j s =>
    obtain ⟨t,ht,hex⟩ := threadStep_cases h
    cases hex with
    | complete hpc =>
      rename_i c
      have hok := hw.ok ht
      have hentry : w.impl.dict.find t.identity = some j := by
        simpa [hpc,ExecutePc.erased] using hok.entry
      obtain ⟨cs,hcs,-⟩ := hok.promise
      by_cases hjk : j = k
      · subst hjk
        simp [given,gives,setPc,setPromise,hentry,hcs,ht,hpc,ExecutePc.held]
      · simp [given,gives,setPc,setPromise,hentry,hjk]
    | _ => simp [given,gives,setPc,withReader,eraseDict]

theorem Threads.given_envRun {w w' : Session α TRep} {fs : List (Env TRep)}
    (hw : Threads w) (h : (environment T).run w fs = some w') (k : Nat) :
    w'.given k = w.given k ++ newly w w' k := by
  have hle : w.given k <+: w'.given k := by
    refine (Machine.run_preserves (P := fun u : Session α TRep =>
      Threads u ∧ w.given k <+: u.given k) ?_ h ⟨hw,List.prefix_refl _⟩).2
    rintro u e v hstep ⟨hu,hpre⟩
    refine ⟨threads_envStep hstep hu,?_⟩
    rw [hu.given_envStep hstep]
    exact hpre.trans (List.prefix_append _ _)
  obtain ⟨cs,hcs⟩ := hle
  rw [newly,← hcs,List.drop_left]

theorem Threads.newly_iff {P : Completion TRep → Prop} {w w' : Session α TRep}
    {fs : List (Env TRep)} (hw : Threads w) (h : (environment T).run w fs = some w') :
    (∀ k, ∀ c ∈ newly w w' k, P c) ↔
      (environment T).Along (fun u e _ => ∀ k, ∀ c ∈ u.gives k e, P c) w fs := by
  induction fs generalizing w with
  | nil =>
    cases h
    simp [newly,Machine.Along]
  | cons e fs ih =>
    obtain ⟨u,hu,hrun⟩ := Machine.run_cons.mp h
    have hu' := threads_envStep hu hw
    have hnew : ∀ k, newly w w' k = w.gives k e ++ newly u w' k := by
      intro k
      rw [newly,hu'.given_envRun hrun k,hw.given_envStep hu k,List.append_assoc,
        List.drop_left]
    rw [Machine.along_cons hu,← ih hu' hrun]
    simp only [hnew,List.forall_mem_append,forall_and]

theorem Threads.delivering_envStep {w w' : Session α TRep} {e : Env TRep} {k : Nat}
    {r : Sample TRep} (hw : Threads w) (h : w.envStep T e = some w')
    (hr : Delivering w k r) : Delivering w' k r := by
  have hgiven := hw.given_envStep h k
  rcases hr with ⟨t,ht,hpc⟩ | hr
  · cases e with
    | arrive a =>
      cases h
      exact .inl ⟨t,ht,hpc⟩
    | thread j s =>
      obtain ⟨t',ht',hex⟩ := threadStep_cases h
      by_cases hjk : j = k
      · -- the thread that holds `r` has no other step than to hand it over
        subst hjk
        obtain rfl := Option.some.inj (ht.symm.trans ht')
        refine .inr ?_
        rw [hgiven]
        cases hex with
        | complete hc => simp [gives,ht,hpc,ExecutePc.held]
        | _ => simp_all
      · refine .inl ⟨t,?_,hpc⟩
        cases hex with
        | complete hc => rw [threads_getElem_setPc,if_neg (Ne.symm hjk),setPromise_threads,ht]
        | _ => rw [threads_getElem_setPc,if_neg (Ne.symm hjk)]; exact ht
  · exact .inr (hgiven ▸ List.mem_append_left _ hr)

theorem Threads.delivering_envRun {w w' : Session α TRep} {fs : List (Env TRep)} {k : Nat}
    {r : Sample TRep} (hw : Threads w) (h : (environment T).run w fs = some w')
    (hr : Delivering w k r) : Delivering w' k r :=
  (Machine.run_preserves (P := fun u : Session α TRep => Threads u ∧ Delivering u k r)
    (fun hstep hu => ⟨threads_envStep hstep hu.1,hu.1.delivering_envStep hstep hu.2⟩) h ⟨hw,hr⟩).2

theorem delivering_of_takes {w w' : Session α TRep} {e : Env TRep} {k : Nat}
    {r : Sample TRep} (h : w.envStep T e = some w') (hr : w.takes T e = some (k,r)) :
    Delivering w' k r := by
  cases e with
  | arrive a => cases hr
  | thread j s =>
    cases s with
    | take =>
      obtain ⟨t,ht,hex⟩ := threadStep_cases h
      simp only [takes,ht,Option.bind_eq_bind,Option.bind_some] at hr
      cases hex with
      | take hpc htake =>
        simp only [htake,Option.bind_some,Option.some.injEq,Prod.mk.injEq] at hr
        obtain ⟨rfl,rfl⟩ := hr
        refine .inl ⟨{ t with pc := _ },?_,rfl⟩
        rw [threads_getElem_setPc,if_pos rfl]
        exact congrArg (Option.map _) ht
      | unavailable hpc htake => simp [htake] at hr
    | _ => cases hr

theorem Threads.along_takes {w w' : Session α TRep} {fs : List (Env TRep)} (hw : Threads w)
    (h : (environment T).run w fs = some w') :
    (environment T).Along (fun u e _ => ∀ k r, u.takes T e = some (k,r) → Delivering w' k r)
      w fs := by
  induction fs generalizing w with
  | nil => trivial
  | cons e fs ih =>
    obtain ⟨u,hu,hrun⟩ := Machine.run_cons.mp h
    have hu' := threads_envStep hu hw
    exact (Machine.along_cons hu).mpr ⟨fun k r hr =>
      hu'.delivering_envRun hrun (delivering_of_takes hu hr),ih hu' hrun⟩

def meanwhile (T : TakeReply TRep) (w : Session α TRep) : Event α TRep → List (Env TRep)
  | .env e => [e]
  | .receiveReply _ id during between => w.around T id during between
  | _ => []

theorem step_meanwhile {w w' : Session α TRep} {e : Event α TRep}
    (h : w.step T e = some w') :
    ∃ u, (environment T).run w (w.meanwhile T e) = some u ∧ (∀ k, w'.given k = u.given k) ∧
      ∀ k r, Delivering u k r → Delivering w' k r := by
  have hsame : ∀ {u : Session α TRep}, u.threads = w'.threads → u.promises = w'.promises →
      (∀ k, w'.given k = u.given k) ∧ ∀ k r, Delivering u k r → Delivering w' k r := by
    intro u hthreads hpromises
    have hgiven : ∀ k, w'.given k = u.given k := by simp [given,hpromises]
    refine ⟨hgiven,fun k r hr => ?_⟩
    rwa [Delivering,hgiven,← hthreads]
  cases e with
  | sendRequest req sent | sendRequestRef req sent | receiveNondataSamples enable =>
    cases h
    exact ⟨w,rfl,hsame rfl rfl⟩
  | sendRequestAsync req sent =>
    cases h
    cases sent with
    | false => exact ⟨w,rfl,hsame rfl rfl⟩
    | true =>
      have hgiven : ∀ k, (w.sendRequestAsync req true).given k = w.given k := by
        intro k
        simp only [given,sendRequestAsync,if_true,List.getElem?_append,List.getElem?_singleton]
        split
        · rfl
        · rename_i hlt
          rw [List.getElem?_eq_none (Nat.le_of_not_lt hlt)]
          split <;> rfl
      refine ⟨w,rfl,hgiven,fun k r hr => ?_⟩
      rcases hr with ⟨t,ht,hpc⟩ | hr
      · obtain ⟨hlt,-⟩ := List.getElem?_eq_some_iff.mp ht
        exact .inl ⟨t,by simp [sendRequestAsync,List.getElem?_append_left hlt,ht],hpc⟩
      · exact .inr (hgiven k ▸ hr)
  | receiveReply reply id during between =>
    obtain ⟨⟨w₁,ret,r⟩,hrecv,rfl⟩ := Option.map_eq_some_iff.mp h
    obtain ⟨u,hrun,hu⟩ := (receiveReply_around hrecv).threads
    have hrec := recordReturn_threads w₁ id ret r
    exact ⟨u,hrun,hsame (hrec.threads.trans hu.threads).symm
      (hrec.promises.trans hu.promises).symm⟩
  | env e => exact ⟨w',Machine.run_singleton.trans h,hsame rfl rfl⟩

def replyTaken (T : TakeReply TRep) (w : Session α TRep) : Event α TRep → Option (Sample TRep)
  | .receiveReply _ id during between => do
    let i ← w.impl.id2idMap.find id
    let w ← w.atTake T during between
    let (r,_) ← T.take w.reader i
    some r
  | _ => none

def replyReturned (T : TakeReply TRep) (w : Session α TRep) :
    Event α TRep → Option (Sample TRep)
  | .receiveReply reply id during between => do
    let (_,ret,reply) ← w.receiveReply T reply id during between
    if ret then some reply else none
  | _ => none

theorem replyReturned_eq {w w' : Session α TRep} {e : Event α TRep}
    (h : w.step T e = some w') : w.replyReturned T e = (w.replyTaken T e).filter
      (fun r => !(w.impl.suppressInvalid && !r.info.validData)) := by
  cases e with
  | receiveReply reply id during between =>
    obtain ⟨⟨w₁,ret,reply'⟩,hrecv,-⟩ := Option.map_eq_some_iff.mp h
    simp only [replyReturned,replyTaken]
    rcases w.atTake_or T id during between with hnot | ⟨i,u,hf,hat⟩
    · obtain ⟨rfl,-⟩ := receiveReply_of_not_atTake hnot hrecv
      rw [hrecv]
      cases hf : w.impl.id2idMap.find id with
      | none => rfl
      | some i => simp [hnot i hf]
    · have hu := atTake_unchanged hat
      have hf' : u.impl.id2idMap.find id = some i := by rw [hu.id2idMap,hf]
      rw [receiveReply_atTake hf hat reply,hf,hat]
      cases ht : T.take u.reader i with
      | none =>
        rw [RequesterImpl.takeRelated_of_not_take hf' ht]
        split <;> simp [ht]
      | some p =>
        obtain ⟨r,rest⟩ := p
        rw [RequesterImpl.takeRelated_of_take hf' ht,← hu.suppressInvalid]
        cases u.impl.suppressInvalid <;> cases hv : r.info.validData <;>
          simp [ht,Option.filter_some,hv]
  | _ => rfl

end Session

def ReplierImpl.requestReturned {α β : Type} (impl : ReplierImpl α β)
    (sample : Sample (Request α)) : Option (Sample (Request α)) :=
  let (_,ret,sample) := impl.receiveRequest sample
  if ret then some sample else none

theorem ReplierImpl.requestReturned_eq {α β : Type} (impl : ReplierImpl α β)
    (sample : Sample (Request α)) : impl.requestReturned sample =
      impl.super.reader.head?.filter (fun r => !(impl.suppressInvalid && !r.info.validData)) := by
  unfold requestReturned
  rcases impl.receiveRequest_cases sample with ⟨r,rest,hr,hs,hrecv⟩ | ⟨hnone,s,hrecv⟩
  · rw [hrecv,hr,List.head?_cons,Option.filter_some,hs]
    rfl
  · rw [hrecv]
    cases hr : impl.super.reader.head? with
    | none => rfl
    | some r =>
      rw [Option.filter_some,hnone r hr]
      rfl

/-- `requesterAsked` and `replierAsked` record the argument of the last call of
`receive_nondata_samples`, if there was one; the code does not read them. -/
structure Endpoints (α β : Type) where
  requester : Session α (Reply β)
  replier : ReplierImpl α β
  requesterAsked : Option Bool
  replierAsked : Option Bool

namespace Endpoints
open Session
variable {α β : Type} {T : TakeReply (Reply β)}

def init (guid : DDS.GUID) : Endpoints α β := ⟨.init guid,.init,none,none⟩

inductive Event (α β : Type) where
  | requester (e : Session.Event α (Reply β))
  | arrive (r : Sample (Request α))
  | receiveRequest (sample : Sample (Request α))
  | sendReply (reply : Reply β) (identity : SampleIdentity)
  | receiveNondataSamples (enable : Bool)
  deriving DecidableEq

def askedAfter (asked : Option Bool) : Session.Event α (Reply β) → Option Bool
  | .receiveNondataSamples enable => some enable
  | _ => asked

def step (T : TakeReply (Reply β)) (p : Endpoints α β) : Event α β → Option (Endpoints α β)
  | .requester e => (p.requester.step T e).map (fun w =>
    { p with requester := w, requesterAsked := askedAfter p.requesterAsked e })
  | .arrive r => some { p with replier.super.reader := p.replier.super.reader ++ [r] }
  | .receiveRequest sample => some { p with replier := (p.replier.receiveRequest sample).1 }
  | .sendReply reply identity => some { p with replier := p.replier.sendReply reply identity }
  | .receiveNondataSamples enable =>
    some { p with
      replier := (p.replier.receiveNondataSamples enable).1
      replierAsked := some enable }

def machine (T : TakeReply (Reply β)) : Machine (Endpoints α β) (Event α β) := ⟨step T⟩

def meanwhile (T : TakeReply (Reply β)) (p : Endpoints α β) : Event α β → List (Env (Reply β))
  | .requester e => p.requester.meanwhile T e
  | _ => []

def replyTaken (T : TakeReply (Reply β)) (p : Endpoints α β) :
    Event α β → Option (Sample (Reply β))
  | .requester e => p.requester.replyTaken T e
  | _ => none

def replyReturned (T : TakeReply (Reply β)) (p : Endpoints α β) :
    Event α β → Option (Sample (Reply β))
  | .requester e => p.requester.replyReturned T e
  | _ => none

def requestTaken (p : Endpoints α β) : Event α β → Option (Sample (Request α))
  | .receiveRequest _ => p.replier.super.reader.head?
  | _ => none

def requestReturned (p : Endpoints α β) : Event α β → Option (Sample (Request α))
  | .receiveRequest sample => p.replier.requestReturned sample
  | _ => none

/-- No sample without data is returned while receipt is off, and every one that is taken
while it is on. -/
structure HandedOver {X : Type} (asked : Option Bool) (taken returned : Option (Sample X)) :
    Prop where
  off : asked ≠ some true → ∀ r ∈ returned, r.info.validData = true
  on : asked = some true → ∀ r ∈ taken, r.info.validData = false → r ∈ returned

structure HandsOver (T : TakeReply (Reply β)) (p : Endpoints α β) (e : Event α β)
    (p' : Endpoints α β) : Prop where
  replies : HandedOver p.requesterAsked (p.replyTaken T e) (p.replyReturned T e)
  requests : HandedOver p.replierAsked (p.requestTaken e) (p.requestReturned e)
  futuresOff : p.requesterAsked ≠ some true → ∀ k, ∀ c ∈ newly p.requester p'.requester k,
    ∀ r, c = .value r → r.info.validData = true
  futuresOn : p.requesterAsked = some true → (environment T).Along
    (fun w f _ => ∀ k r, w.takes T f = some (k,r) → r.info.validData = false →
      Delivering p'.requester k r) p.requester (p.meanwhile T e)
  futuresKept : ∀ k r, Delivering p.requester k r → Delivering p'.requester k r

/-- Samples without data are taken by the two calls before the flag is ever set, and no
thread that holds one comes to complete its promise while receipt is off. -/
structure FlagUnset (T : TakeReply (Reply β)) (p : Endpoints α β) (e : Event α β) : Prop where
  replies : ∀ r ∈ p.replyTaken T e, r.info.validData = false → p.requesterAsked = none
  requests : ∀ r ∈ p.requestTaken e, r.info.validData = false → p.replierAsked = none
  futures : p.requesterAsked ≠ some true → (environment T).Along
    (fun w f _ => ∀ k, ∀ c ∈ w.gives k f, ∀ r, c = .value r → r.info.validData = true)
    p.requester (p.meanwhile T e)

structure Flags (p : Endpoints α β) : Prop where
  requester : p.requester.impl.suppressInvalid = p.requesterAsked.getD true
  replier : p.replier.suppressInvalid = p.replierAsked.getD true
  threads : Threads p.requester

theorem handedOver_iff {X : Type} {asked : Option Bool} {taken returned : Option (Sample X)}
    (h : returned = taken.filter (fun r => !(asked.getD true && !r.info.validData))) :
    HandedOver asked taken returned ↔
      ∀ r ∈ taken, r.info.validData = false → asked = none := by
  subst h
  constructor
  · rintro ⟨hoff,hon⟩ r hr hv
    cases asked with
    | none => rfl
    | some b =>
      cases b with
      | false =>
        have := hoff (by decide) r (Option.mem_filter_iff.mpr ⟨hr,rfl⟩)
        rw [hv] at this
        cases this
      | true =>
        obtain ⟨-,hpass⟩ := Option.mem_filter_iff.mp (hon rfl r hr hv)
        simp [hv] at hpass
  · intro h
    refine ⟨fun _ r hr => ?_,fun hon r hr hv => ?_⟩
    · obtain ⟨hr,hpass⟩ := Option.mem_filter_iff.mp hr
      by_contra hv
      rw [h r hr (eq_false_of_ne_true hv)] at hpass
      exact hv (by simpa using hpass)
    · rw [h r hr hv] at hon
      cases hon

theorem flags_step {p p' : Endpoints α β} {e : Event α β} (h : (machine T).step p e = some p')
    (hp : Flags p) : Flags p' := by
  cases e with
  | requester e =>
    obtain ⟨w,hw,rfl⟩ := Option.map_eq_some_iff.mp h
    refine ⟨?_,hp.replier,threads_step hw hp.threads⟩
    cases e with
    | receiveNondataSamples enable =>
      cases hw
      rfl
    | sendRequest req sent | sendRequestRef req sent | sendRequestAsync req sent =>
      cases hw
      cases sent <;> exact hp.requester
    | receiveReply reply id during between =>
      obtain ⟨⟨w₁,ret,r⟩,hrecv,rfl⟩ := Option.map_eq_some_iff.mp hw
      have hsame : w₁.impl.suppressInvalid = p.requester.impl.suppressInvalid := by
        cases receiveReply_around hrecv with
        | unknown => rfl
        | timedOut hrun | delivered hrun | suppressed hrun | kept hrun | dropped hrun =>
          exact (envRun_unchanged hrun).suppressInvalid
      dsimp only
      rw [recordReturn_impl,hsame,hp.requester]
      rfl
    | env e => exact (envStep_unchanged hw).suppressInvalid.trans hp.requester
  | receiveRequest sample =>
    cases h
    refine ⟨hp.requester,?_,hp.threads⟩
    have hsame : (p.replier.receiveRequest sample).1.suppressInvalid =
        p.replier.suppressInvalid := by
      rcases p.replier.receiveRequest_cases sample with ⟨_,_,-,-,hrecv⟩ | ⟨-,_,hrecv⟩ <;>
        rw [hrecv]
    exact hsame.trans hp.replier
  | arrive r | sendReply reply identity =>
    cases h
    exact ⟨hp.requester,hp.replier,hp.threads⟩
  | receiveNondataSamples enable =>
    cases h
    exact ⟨hp.requester,rfl,hp.threads⟩

theorem replies_iff {p p' : Endpoints α β} {e : Event α β}
    (h : (machine T).step p e = some p') (hp : Flags p) :
    HandedOver p.requesterAsked (p.replyTaken T e) (p.replyReturned T e) ↔
      ∀ r ∈ p.replyTaken T e, r.info.validData = false → p.requesterAsked = none := by
  refine handedOver_iff ?_
  cases e with
  | requester e =>
    obtain ⟨w,hw,-⟩ := Option.map_eq_some_iff.mp h
    rw [← hp.requester]
    exact replyReturned_eq hw
  | _ => rfl

theorem requests_iff {p : Endpoints α β} (e : Event α β) (hp : Flags p) :
    HandedOver p.replierAsked (p.requestTaken e) (p.requestReturned e) ↔
      ∀ r ∈ p.requestTaken e, r.info.validData = false → p.replierAsked = none := by
  refine handedOver_iff ?_
  cases e with
  | receiveRequest sample =>
    rw [← hp.replier]
    exact p.replier.requestReturned_eq sample
  | _ => rfl

theorem step_futures {p p' : Endpoints α β} {e : Event α β}
    (h : (machine T).step p e = some p') :
    ∃ u, (environment T).run p.requester (p.meanwhile T e) = some u ∧
      (∀ k, p'.requester.given k = u.given k) ∧
      ∀ k r, Delivering u k r → Delivering p'.requester k r := by
  cases e with
  | requester e =>
    obtain ⟨w,hw,rfl⟩ := Option.map_eq_some_iff.mp h
    exact step_meanwhile hw
  | _ =>
    cases h
    exact ⟨p.requester,rfl,fun _ => rfl,fun _ _ => id⟩

theorem handsOver_step {p p' : Endpoints α β} {e : Event α β}
    (h : (machine T).step p e = some p') (hp : Flags p) :
    HandsOver T p e p' ↔ FlagUnset T p e := by
  obtain ⟨u,hrun,hgiven,hdel⟩ := step_futures h
  have hoff := hp.threads.newly_iff
    (P := fun c => ∀ r, c = .value r → r.info.validData = true) hrun
  have hnewly : ∀ k, newly p.requester p'.requester k = newly p.requester u k := by
    intro k
    rw [newly,newly,hgiven]
  constructor
  · intro hh
    refine ⟨(replies_iff h hp).mp hh.replies,(requests_iff e hp).mp hh.requests,fun hasked => ?_⟩
    exact hoff.mp (fun k => hnewly k ▸ hh.futuresOff hasked k)
  · intro hf
    refine ⟨(replies_iff h hp).mpr hf.replies,(requests_iff e hp).mpr hf.requests,
      fun hasked k => ?_,fun _ => ?_,fun k r hr => hdel k r (hp.threads.delivering_envRun hrun hr)⟩
    · rw [hnewly]
      exact hoff.mpr (hf.futures hasked) k
    · exact Machine.along_mono (fun hall k r ht _ => hdel k r (hall k r ht))
        (hp.threads.along_takes hrun)

/-- Receipt is as asked for in a run exactly if the two calls take no sample without data
once the flag has been set, and no thread completes a future with one while receipt is
off. -/
theorem handsOver_iff (T : TakeReply (Reply β)) (guid : DDS.GUID) (es : List (Event α β)) :
    (machine T).Along (HandsOver T) (init guid) es ↔
      (machine T).Along (fun p e _ => FlagUnset T p e) (init guid) es :=
  Machine.along_congr (I := Flags) handsOver_step (fun h _ => flags_step h)
    ⟨rfl,rfl,threads_init guid⟩

theorem handsOver_fails : ¬ (machine .oldest).Along (HandsOver .oldest)
    (init ⟨.zero 16⟩ : Endpoints Unit Unit)
    [.receiveNondataSamples true,
      .arrive ⟨⟨.initial,()⟩,⟨false,⟨⟨.zero 16⟩,.nth 1⟩,⟨⟨.zero 16⟩,.nth 1⟩,1⟩⟩,
      .receiveRequest ⟨⟨.initial,()⟩,⟨true,⟨⟨.zero 16⟩,.nth 1⟩,⟨⟨.zero 16⟩,.nth 1⟩,1⟩⟩] := by
  intro h
  have hon := ((h _ rfl).2 _ rfl).2 _ rfl
  have hmem := hon.1.requests.on rfl _ rfl rfl
  cases hmem

end Endpoints
end DdsRpc
