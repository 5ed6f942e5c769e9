import DdsRpc.Execute
set_option autoImplicit false

namespace DdsRpc
open Connext

structure ImplObject (α TRep : Type) where
  session : Session α TRep
  destroyed : Bool

/-- The `impl_` of a requester is a shared pointer, `none` once the requester is gone.
The `k`-th thread of the `i`-th implementation has `i` in its `SyncProxy`. -/
structure Process (α TRep : Type) where
  impls : List (ImplObject α TRep)
  requesters : List (Option Nat)

namespace Process
variable {α TRep : Type} {T : TakeReply TRep}

def init : Process α TRep := ⟨[],[]⟩

inductive Event (α TRep : Type) where
  | create (writerGuid : DDS.GUID)
  | copy (h : Nat)
  | close (h : Nat)
  | destroy (h : Nat)
  | call (h : Nat) (e : Session.Event α TRep)
  | arrive (i : Nat) (a : Arrival TRep)
  | thread (i k : Nat) (s : Session.ThreadStep)
  deriving DecidableEq

def Event.isThread : Event α TRep → Bool
  | .thread _ _ _ => true
  | _ => false

def isCall : Session.Event α TRep → Bool
  | .env _ => false
  | _ => true

def impl (p : Process α TRep) (h : Nat) : Option Nat := p.requesters[h]?.join

def setSession (p : Process α TRep) (i : Nat) (session : Session α TRep) : Process α TRep :=
  { p with impls := p.impls.modify i (fun o => { o with session }) }

/-- The destructor of a requester is empty; that of its `impl_` counts. -/
def destroy (p : Process α TRep) (h i : Nat) : Process α TRep :=
  let requesters := p.requesters.set h none
  { requesters
    impls :=
      if some i ∈ requesters then p.impls
      else p.impls.modify i (fun o => { o with destroyed := true }) }

/-- `close` does nothing. A thread goes on whatever has become of the implementation. -/
def step (T : TakeReply TRep) (p : Process α TRep) : Event α TRep → Option (Process α TRep)
  | .create writerGuid =>
    some ⟨p.impls ++ [⟨.init writerGuid,false⟩],p.requesters ++ [some p.impls.length]⟩
  | .copy h => (p.impl h).map (fun i => { p with requesters := p.requesters ++ [some i] })
  | .close h => (p.impl h).map (fun _ => p)
  | .destroy h => (p.impl h).map (p.destroy h)
  | .call h e => do
    let i ← p.impl h
    let o ← p.impls[i]?
    if isCall e then (o.session.step T e).map (p.setSession i) else none
  | .arrive i a => do
    let o ← p.impls[i]?
    if o.destroyed then none else some (p.setSession i (o.session.arrive a))
  | .thread i k s => do
    let o ← p.impls[i]?
    let session ← o.session.threadStep T k s
    some (p.setSession i session)

def machine (T : TakeReply TRep) : Machine (Process α TRep) (Event α TRep) := ⟨step T⟩

def Alive (p : Process α TRep) (i : Nat) : Prop :=
  ∃ o, p.impls[i]? = some o ∧ o.destroyed = false

/-- A step of `execute`, on its own or during a call of a requester, happens on an
implementation that is not destroyed. -/
def OnAlive (p : Process α TRep) : Event α TRep → Process α TRep → Prop
  | .thread i _ _,_ => p.Alive i
  | .call h _,_ => ∃ i, p.impl h = some i ∧ p.Alive i
  | _,_ => True

/-- No thread outlives its requester, in whatever order the threads go on from here. -/
def ThreadsSafe (T : TakeReply TRep) (p : Process α TRep) : Prop :=
  ∀ fs, (∀ e ∈ fs, e.isThread) → (machine T).Along OnAlive p fs

def ThreadsEnded (p : Process α TRep) : Event α TRep → Process α TRep → Prop
  | .destroy h,_ => ∀ i (o : ImplObject α TRep), p.impl h = some i → p.impls[i]? = some o →
      some i ∉ p.requesters.set h none → ∀ t ∈ o.session.threads, t.pc.ended
  | _,_ => True

/-- What requesters share is alive, and what is destroyed has no thread left. -/
structure Owned (p : Process α TRep) : Prop where
  alive : ∀ h i, p.impl h = some i → p.Alive i
  ended : ∀ (i : Nat) (o : ImplObject α TRep), p.impls[i]? = some o → o.destroyed →
    ∀ t ∈ o.session.threads, t.pc.ended

theorem owned_init : Owned (init : Process α TRep) :=
  ⟨fun h i hi => by simp [impl,init] at hi,fun i o ho => by simp [init] at ho⟩

theorem Owned.not_destroyed {p : Process α TRep} (hp : Owned p) {i k : Nat}
    {o : ImplObject α TRep} {w : Session α TRep} {s : Session.ThreadStep}
    (ho : p.impls[i]? = some o) (h : o.session.threadStep T k s = some w) :
    o.destroyed = false := by
  obtain ⟨t,ht,hex⟩ := Session.threadStep_cases h
  refine eq_false_of_ne_true (fun hd => ?_)
  have hended := hp.ended i o ho hd t (List.mem_of_getElem? ht)
  cases hex <;> simp_all [ExecutePc.ended]

theorem exists_threadStep (T : TakeReply TRep) {w : Session α TRep} {k : Nat}
    {t : ReplyThread TRep} (ht : w.threads[k]? = some t) (hpc : t.pc.ended = false) :
    ∃ s w', w.threadStep T k s = some w' := by
  obtain ⟨identity,pc⟩ := t
  cases pc with
  | waiting => exact ⟨.expire,_,by simp [Session.threadStep,ht]; rfl⟩
  | woken =>
    cases htake : T.take w.reader identity <;>
      exact ⟨.take,_,by simp [Session.threadStep,ht,htake]; rfl⟩
  | holding c => exact ⟨.complete,_,by simp [Session.threadStep,ht]; rfl⟩
  | completed => exact ⟨.erase,_,by simp [Session.threadStep,ht]; rfl⟩
  | returned | timedOut | terminated => cases hpc

theorem getElem?_modify_eq_some {X : Type} {l : List X} {f : X → X} {i j : Nat} {b : X} :
    (l.modify i f)[j]? = some b ↔ ∃ a, l[j]? = some a ∧ (if i = j then f a else a) = b := by
  simp [List.getElem?_modify,Option.map_eq_some_iff]

theorem of_getElem?_concat {X : Type} {l : List X} {a b : X} {i : Nat}
    (h : (l ++ [a])[i]? = some b) : l[i]? = some b ∨ a = b := by
  rw [List.getElem?_append] at h
  split at h
  · exact .inl h
  · rw [List.getElem?_singleton] at h
    split at h
    · exact .inr (Option.some.inj h)
    · cases h

theorem impl_of_concat {p p' : Process α TRep} {h i m : Nat}
    (hp' : p'.requesters = p.requesters ++ [some m]) (hi : p'.impl h = some i) :
    p.impl h = some i ∨ i = m := by
  rw [impl,Option.join_eq_some_iff,hp'] at hi
  rcases of_getElem?_concat hi with hold | hnew
  · exact .inl (Option.join_eq_some_iff.mpr hold)
  · exact .inr (Option.some.inj hnew.symm)

theorem owned_setSession {p : Process α TRep} {i : Nat} {o : ImplObject α TRep}
    {session : Session α TRep} (ho : p.impls[i]? = some o)
    (hended : o.destroyed → ∀ t ∈ session.threads, t.pc.ended) (hp : Owned p) :
    Owned (p.setSession i session) := by
  constructor
  · intro h j hj
    obtain ⟨o',ho',hd⟩ := hp.alive h j hj
    exact ⟨_,getElem?_modify_eq_some.mpr ⟨o',ho',rfl⟩,by split <;> exact hd⟩
  · intro j o' ho' hd
    obtain ⟨o'',ho'',rfl⟩ := getElem?_modify_eq_some.mp ho'
    split at hd
    · subst j
      obtain rfl := Option.some.inj (ho.symm.trans ho'')
      rw [if_pos rfl]
      exact hended hd
    · rw [if_neg ‹_›]
      exact hp.ended j o'' ho'' hd

theorem impl_set_none {p : Process α TRep} {h j i : Nat}
    (hi : (p.requesters.set h none)[j]?.join = some i) :
    j ≠ h ∧ p.impl j = some i ∧ some i ∈ p.requesters.set h none := by
  rw [Option.join_eq_some_iff] at hi
  have hmem := List.mem_of_getElem? hi
  rw [List.getElem?_set] at hi
  split at hi
  · split at hi <;> cases hi
  · exact ⟨Ne.symm ‹_›,by rw [impl,hi]; rfl,hmem⟩

theorem owned_destroy {p : Process α TRep} {h i : Nat} (hi : p.impl h = some i)
    (hjoin : ThreadsEnded p (.destroy h) (p.destroy h i)) (hp : Owned p) :
    Owned (p.destroy h i) := by
  by_cases hlast : some i ∈ p.requesters.set h none
  · have hsame : (p.destroy h i).impls = p.impls := if_pos hlast
    refine ⟨fun j k hk => ?_,fun k o ho => hp.ended k o (hsame ▸ ho)⟩
    rw [Alive,hsame]
    exact hp.alive j k (impl_set_none hk).2.1
  · constructor
    · intro j k hk
      obtain ⟨-,hk',hmem⟩ := impl_set_none hk
      obtain ⟨o,ho,hd⟩ := hp.alive j k hk'
      have hik : i ≠ k := fun heq => hlast (heq ▸ hmem)
      refine ⟨o,?_,hd⟩
      simp only [destroy,if_neg hlast]
      exact getElem?_modify_eq_some.mpr ⟨o,ho,if_neg hik⟩
    · intro k o ho hd
      simp only [destroy,if_neg hlast] at ho
      obtain ⟨o',ho',rfl⟩ := getElem?_modify_eq_some.mp ho
      split
      · subst k
        exact hjoin i o' hi ho' hlast
      · rw [if_neg ‹_›] at hd
        exact hp.ended k o' ho' hd

theorem owned_step {p p' : Process α TRep} {e : Event α TRep}
    (h : (machine T).step p e = some p') (hjoin : ThreadsEnded p e p') (hp : Owned p) :
    Owned p' := by
  cases e with
  | create writerGuid =>
    cases h
    constructor
    · intro j i hi
      rcases impl_of_concat rfl hi with hold | rfl
      · obtain ⟨o,ho,hd⟩ := hp.alive j i hold
        exact ⟨o,List.getElem?_append_left (List.getElem?_eq_some_iff.mp ho).1 ▸ ho,hd⟩
      · exact ⟨_,List.getElem?_concat_length,rfl⟩
    · intro i o ho hd
      rcases of_getElem?_concat ho with hold | rfl
      · exact hp.ended i o hold hd
      · cases hd
  | copy j =>
    obtain ⟨i,hi,rfl⟩ := Option.map_eq_some_iff.mp h
    refine ⟨fun k m hm => ?_,hp.ended⟩
    rcases impl_of_concat rfl hm with hold | rfl
    · exact hp.alive k m hold
    · exact hp.alive j _ hi
  | close j =>
    obtain ⟨i,-,rfl⟩ := Option.map_eq_some_iff.mp h
    exact hp
  | destroy j =>
    obtain ⟨i,hi,rfl⟩ := Option.map_eq_some_iff.mp h
    exact owned_destroy hi hjoin hp
  | call j e =>
    obtain ⟨i,hi,h⟩ := Option.bind_eq_some_iff.mp h
    obtain ⟨o,ho,h⟩ := Option.bind_eq_some_iff.mp h
    split at h
    case isFalse => cases h
    obtain ⟨session,-,rfl⟩ := Option.map_eq_some_iff.mp h
    obtain ⟨o',ho',hd⟩ := hp.alive j i hi
    obtain rfl := Option.some.inj (ho.symm.trans ho')
    exact owned_setSession ho (fun hd' => by simp [hd] at hd') hp
  | arrive i a =>
    obtain ⟨o,ho,h⟩ := Option.bind_eq_some_iff.mp h
    split at h
    · cases h
    · cases h
      exact owned_setSession ho (fun hd' => absurd hd' ‹_›) hp
  | thread i k s =>
    obtain ⟨o,ho,h⟩ := Option.bind_eq_some_iff.mp h
    obtain ⟨session,hs,h⟩ := Option.bind_eq_some_iff.mp h
    cases h
    exact owned_setSession ho (fun hd => absurd hd (by simp [hp.not_destroyed ho hs])) hp

theorem Owned.onAlive {p p' : Process α TRep} {e : Event α TRep} (hp : Owned p)
    (h : (machine T).step p e = some p') : OnAlive p e p' := by
  cases e with
  | thread i k s =>
    obtain ⟨o,ho,h⟩ := Option.bind_eq_some_iff.mp h
    obtain ⟨session,hs,-⟩ := Option.bind_eq_some_iff.mp h
    exact ⟨o,ho,hp.not_destroyed ho hs⟩
  | call j e =>
    obtain ⟨i,hi,-⟩ := Option.bind_eq_some_iff.mp h
    exact ⟨i,hi,hp.alive j i hi⟩
  | _ => trivial

theorem Owned.threadsSafe {p : Process α TRep} (hp : Owned p) : ThreadsSafe T p := by
  intro fs hfs
  refine Machine.along_of_invariant (Q := fun e => e.isThread = true) (I := Owned) ?_ hfs hp
  intro u e v he hstep hu
  refine ⟨hu.onAlive hstep,owned_step hstep ?_ hu⟩
  cases e with
  | thread i k s => trivial
  | _ => cases he

theorem ended_of_threadsSafe {p : Process α TRep} (h : ThreadsSafe T p) {i : Nat}
    {o : ImplObject α TRep} (ho : p.impls[i]? = some o) (hd : o.destroyed) :
    ∀ t ∈ o.session.threads, t.pc.ended := by
  intro t ht
  by_contra hpc
  obtain ⟨k,hk⟩ := List.getElem?_of_mem ht
  obtain ⟨s,w,hs⟩ := exists_threadStep T hk (eq_false_of_ne_true hpc)
  have hstep : (machine T).step p (.thread i k s) = some (p.setSession i w) := by
    simp [machine,step,ho,hs]
  obtain ⟨o',ho',hd'⟩ := (h [.thread i k s] (by simp [Event.isThread]) _ hstep).1
  rw [ho] at ho'
  cases ho'
  rw [hd] at hd'
  cases hd'

theorem threadsSafe_iff {p p' : Process α TRep} {e : Event α TRep}
    (h : (machine T).step p e = some p') (hp : Owned p) :
    ThreadsSafe T p' ↔ ThreadsEnded p e p' := by
  refine ⟨fun hsafe => ?_,fun hjoin => (owned_step h hjoin hp).threadsSafe⟩
  cases e with
  | destroy j =>
    obtain ⟨i,hi,rfl⟩ := Option.map_eq_some_iff.mp h
    intro i' o hi' ho hlast
    obtain rfl := Option.some.inj (hi.symm.trans hi')
    refine ended_of_threadsSafe (i := i) (o := { o with destroyed := true }) hsafe ?_ rfl
    simp only [destroy,if_neg hlast]
    exact getElem?_modify_eq_some.mpr ⟨o,ho,if_pos rfl⟩
  | _ => trivial

/-- In a run no thread can outlive its requester exactly if the last requester of each
implementation goes when its threads have ended; the run then has no step of `execute`
on a destroyed one. -/
theorem threadsSafe_run_iff (T : TakeReply TRep) (es : List (Event α TRep)) :
    ((machine T).Along (fun _ _ p => ThreadsSafe T p) init es ↔
      (machine T).Along ThreadsEnded init es) ∧
    ((machine T).Along ThreadsEnded init es → (machine T).Along OnAlive init es) := by
  constructor
  · exact Machine.along_congr threadsSafe_iff owned_step owned_init
  · exact fun hes => Machine.along_imp (I := Owned)
      (fun h hjoin hp => ⟨hp.onAlive h,owned_step h hjoin hp⟩) hes owned_init

theorem onAlive_fails : ¬ (machine .oldest).Along OnAlive (init : Process Unit Unit)
    [.create ⟨.zero 16⟩,.call 0 (.sendRequestAsync ⟨.initial,()⟩ true),.destroy 0,
      .thread 0 0 .expire] := by
  intro h
  have hlast := (((h _ rfl).2 _ rfl).2 _ rfl).2 _ rfl
  obtain ⟨o,ho,hd⟩ := hlast.1
  cases ho
  cases hd

end Process
end DdsRpc
