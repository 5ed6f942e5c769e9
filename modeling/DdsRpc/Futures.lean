import DdsRpc.Execute
set_option autoImplicit false

namespace DdsRpc
open Connext

namespace Session
variable {α TRep : Type} {T : TakeReply TRep}

structure FuturesCompleted (w : Session α TRep) : Prop where
  completed : ∀ q ∈ w.requests, ∀ p i, q.path = .async p → q.identity = some i →
    ∀ t ∈ w.threads, t.identity = i → t.pc.ended →
    (∃ c, w.promises[p]? = some [c] ∧ c.Related i) ∧ w.impl.dict.find i = none
  keys : ∀ i, i ∈ w.impl.dict.keys ↔
    ∃ q ∈ w.requests, (∃ p, q.path = .async p) ∧ q.identity = some i ∧
      ∃ t ∈ w.threads, t.identity = i ∧ t.pc.ended = false

def Env.waitFails : Env TRep → Bool
  | .thread _ .expire | .thread _ .waitThrows => true
  | _ => false

def Event.waitFails : Event α TRep → Bool
  | .env e => e.waitFails
  | .receiveReply _ _ during between => (during ++ between).any Env.waitFails
  | _ => false

theorem mem_asyncs {w : Session α TRep} {i : DDS.SampleIdentity} {p : Nat} :
    (i,p) ∈ w.asyncs ↔ ∃ q ∈ w.requests, q.path = .async p ∧ q.identity = some i := by
  simp only [asyncs,List.mem_filterMap]
  constructor
  · rintro ⟨q,hq,h⟩
    split at h
    · rename_i p' hp
      obtain ⟨j,hj,he⟩ := Option.map_eq_some_iff.mp h
      obtain ⟨rfl,rfl⟩ := Prod.mk.inj he
      exact ⟨q,hq,hp,hj⟩
    · cases h
  · rintro ⟨q,hq,hp,hi⟩
    exact ⟨q,hq,by rw [hp]; simp [hi]⟩

theorem Threads.async_iff {w : Session α TRep} (hw : Threads w) {i : DDS.SampleIdentity}
    {p : Nat} : (∃ q ∈ w.requests, q.path = .async p ∧ q.identity = some i) ↔
    ∃ t, w.threads[p]? = some t ∧ t.identity = i := by
  rw [← mem_asyncs,hw.asyncs,List.mem_zipIdx_iff_getElem?]
  simp [threadIds,List.getElem?_map]

theorem Threads.thread_unique {w : Session α TRep} (hw : Threads w) {k : Nat}
    {s t : ReplyThread TRep} (hk : w.threads[k]? = some s) (ht : t ∈ w.threads)
    (h : t.identity = s.identity) : t = s := by
  obtain ⟨j,hj⟩ := List.getElem?_of_mem ht
  have hjk := hw.index_unique hj hk (h ▸ Equivalent.refl _)
  rw [hjk,hk] at hj
  exact (Option.some.inj hj).symm

theorem futuresCompleted_of_threads {w : Session α TRep} (hw : Threads w)
    (hok : ∀ t ∈ w.threads, t.pc.waitFailed = false) : FuturesCompleted w := by
  have hended : ∀ t ∈ w.threads, t.pc.ended = t.pc.erased := by
    intro t ht
    have hf := hok t ht
    cases hpc : t.pc <;> simp_all [ExecutePc.ended,ExecutePc.erased,ExecutePc.waitFailed]
  constructor
  · intro q hq p i hpath hid t ht hti hend
    obtain ⟨s,hs,rfl⟩ := hw.async_iff.mp ⟨q,hq,hpath,hid⟩
    cases hw.thread_unique hs ht hti
    have hto := hw.ok hs
    rw [hended t ht] at hend
    refine ⟨?_,by simpa [hend] using hto.entry⟩
    obtain ⟨cs,hcs,hlen,hrel⟩ := hto.promise
    have hone : t.pc.completions = 1 := by
      cases hpc : t.pc <;> simp_all [ExecutePc.erased,ExecutePc.completions]
    obtain ⟨c,rfl⟩ := List.length_eq_one_iff.mp (hlen.trans hone)
    exact ⟨c,hcs,hrel c (List.mem_singleton_self c)⟩
  · intro i
    constructor
    · intro hi
      obtain ⟨e,he,rfl⟩ := List.mem_map.mp hi
      obtain ⟨t,ht,hpc,hid⟩ := hw.keys e he
      obtain ⟨k,hk⟩ := List.getElem?_of_mem ht
      obtain ⟨q,hq,hpath,hqid⟩ := hw.async_iff.mpr ⟨t,hk,hid⟩
      exact ⟨q,hq,⟨k,hpath⟩,hqid,t,ht,hid,by rw [hended t ht,hpc]⟩
    · rintro ⟨q,hq,⟨p,hpath⟩,hqid,t,ht,rfl,hend⟩
      obtain ⟨k,hk⟩ := List.getElem?_of_mem ht
      have hentry := (hw.ok hk).entry
      rw [← hended t ht,hend] at hentry
      obtain ⟨e,he,hequiv,-⟩ := StdMap.exists_of_find hentry
      obtain ⟨s,hs,-,hsid⟩ := hw.keys e he
      obtain ⟨j,hj⟩ := List.getElem?_of_mem hs
      have hjk := hw.index_unique hj hk (hsid ▸ hequiv)
      rw [hjk,hk] at hj
      obtain rfl := Option.some.inj hj
      exact List.mem_map.mpr ⟨e,he,hsid.symm⟩

theorem waitFailed_envStep {w w' : Session α TRep} {e : Env TRep}
    (he : e.waitFails = false) (h : w.envStep T e = some w')
    (hw : ∀ t ∈ w.threads, t.pc.waitFailed = false) :
    ∀ t ∈ w'.threads, t.pc.waitFailed = false := by
  cases e with
  | arrive a =>
    cases h
    exact hw
  | thread k s =>
    obtain ⟨t,ht,hex⟩ := threadStep_cases h
    have hset : ∀ (u : Session α TRep) (pc : ExecutePc TRep), u.threads = w.threads →
        pc.waitFailed = false → ∀ t ∈ (u.setPc k pc).threads, t.pc.waitFailed = false := by
      intro u pc hu hpc s hs
      obtain ⟨j,hj⟩ := List.getElem?_of_mem hs
      rw [threads_getElem_setPc,hu] at hj
      split at hj
      · obtain ⟨s',-,rfl⟩ := Option.map_eq_some_iff.mp hj
        exact hpc
      · exact hw s (List.mem_of_getElem? hj)
    cases hex with
    | expire | waitThrows => cases he
    | complete hpc => exact hset _ _ (setPromise_threads w t.identity _) rfl
    | _ => exact hset _ _ rfl rfl

theorem waitFailed_step {w w' : Session α TRep} {e : Event α TRep}
    (he : e.waitFails = false) (h : w.step T e = some w')
    (hw : ∀ t ∈ w.threads, t.pc.waitFailed = false) :
    ∀ t ∈ w'.threads, t.pc.waitFailed = false := by
  cases e with
  | sendRequest req sent | sendRequestRef req sent | receiveNondataSamples enable =>
    cases h
    exact hw
  | sendRequestAsync req sent =>
    cases h
    cases sent
    · exact hw
    · intro t ht
      rcases List.mem_append.mp ht with ht | ht
      · exact hw t ht
      · rw [List.mem_singleton.mp ht]
        rfl
  | receiveReply reply id during between =>
    obtain ⟨⟨w₁,ret,r⟩,hrecv,rfl⟩ := Option.map_eq_some_iff.mp h
    have hr := receiveReply_around hrecv
    obtain ⟨w₂,hrun,hsame⟩ := hr.threads
    rw [(recordReturn_threads w₁ id ret r).threads,hsame.threads]
    refine Machine.run_preserves_of (Q := fun e => e.waitFails = false)
      (P := fun w : Session α TRep => ∀ t ∈ w.threads, t.pc.waitFailed = false)
      waitFailed_envStep (fun e hmem => ?_) hrun hw
    have hany := List.any_eq_false.mp he
    exact eq_false_of_ne_true (hany e (w.around_subset T id during between hmem))
  | env e => exact waitFailed_envStep he h hw

/-- Every future is completed, and every entry of `dict` removed, exactly as long as no
thread's wait has expired or thrown: those two ways out of `execute` do neither. -/
theorem futuresCompleted_iff {guid : DDS.GUID} {es : List (Event α TRep)}
    {w : Session α TRep} (h : (machine T).run (init guid) es = some w) :
    (FuturesCompleted w ↔ ∀ t ∈ w.threads, t.pc.waitFailed = false) ∧
    ((∀ e ∈ es, e.waitFails = false) → FuturesCompleted w) := by
  have hw := threads_run h
  refine ⟨⟨fun hf t ht => ?_,futuresCompleted_of_threads hw⟩,fun hes => ?_⟩
  · by_contra hfailed
    obtain ⟨k,hk⟩ := List.getElem?_of_mem ht
    obtain ⟨q,hq,hpath,hid⟩ := hw.async_iff.mpr ⟨t,hk,rfl⟩
    have hends : t.pc.ended = true ∧ t.pc.completions = 0 := by
      cases hpc : t.pc <;> simp_all [ExecutePc.ended,ExecutePc.waitFailed,ExecutePc.completions]
    obtain ⟨⟨c,hc,-⟩,-⟩ := hf.completed q hq k t.identity hpath hid t ht rfl hends.1
    obtain ⟨cs,hcs,hlen,-⟩ := (hw.ok hk).promise
    rw [hc] at hcs
    cases hcs
    rw [hends.2] at hlen
    cases hlen
  · refine futuresCompleted_of_threads hw ?_
    exact Machine.run_preserves_of (Q := fun e => e.waitFails = false)
      (P := fun w : Session α TRep => ∀ t ∈ w.threads, t.pc.waitFailed = false)
      waitFailed_step hes h (by simp [init])

def answeredRun : List (Event Unit Unit) :=
  [.sendRequestAsync ⟨.initial,()⟩ true,
    .env (.arrive ⟨(),true,⟨⟨.zero 16⟩,.nth 1⟩,⟨⟨.zero 16⟩,.nth 1⟩⟩),
    .env (.thread 0 .wake),.env (.thread 0 .take),.env (.thread 0 .complete),
    .env (.thread 0 .erase)]

theorem futuresCompleted_answered : ∃ w : Session Unit Unit,
    (machine .oldest).run (init ⟨.zero 16⟩) answeredRun = some w ∧ FuturesCompleted w := by
  have hsome : ((machine .oldest).run (init ⟨.zero 16⟩) answeredRun).isSome := by decide
  obtain ⟨w,hw⟩ := Option.isSome_iff_exists.mp hsome
  exact ⟨w,hw,(futuresCompleted_iff hw).2 (by decide)⟩

theorem futuresCompleted_fails : ∃ w : Session Unit Unit,
    (machine .oldest).run (init ⟨.zero 16⟩)
      [.sendRequestAsync ⟨.initial,()⟩ true,.env (.thread 0 .expire)] = some w ∧
    ¬ FuturesCompleted w := by
  refine ⟨_,rfl,fun hf => ?_⟩
  obtain ⟨⟨c,hc,-⟩,-⟩ := hf.completed _ (List.mem_singleton_self _) 0 _ rfl rfl _
    (List.mem_singleton_self _) rfl rfl
  cases hc

end Session
end DdsRpc
