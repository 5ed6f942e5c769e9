import DdsRpc.Numbering
set_option autoImplicit false

namespace DdsRpc
open Connext

variable {α TRep : Type}

def Completion.Related (i : DDS.SampleIdentity) : Completion TRep → Prop
  | .value reply => reply.info.relatedIdentity = i
  | .exception _ => True

def ExecutePc.completions : ExecutePc TRep → Nat
  | .completed | .returned => 1
  | _ => 0

def ExecutePc.erased : ExecutePc TRep → Bool
  | .returned => true
  | _ => false

def ExecutePc.ended : ExecutePc TRep → Bool
  | .returned | .timedOut | .terminated => true
  | _ => false

def ExecutePc.waitFailed : ExecutePc TRep → Bool
  | .timedOut | .terminated => true
  | _ => false

namespace Session
variable {T : TakeReply TRep}

def asyncs (w : Session α TRep) : List (DDS.SampleIdentity × Nat) :=
  w.requests.filterMap (fun q =>
    match q.path with
    | .async p => q.identity.map (fun i => (i,p))
    | _ => none)

def threadIds (w : Session α TRep) : List DDS.SampleIdentity := w.threads.map (·.identity)

structure ThreadOk (w : Session α TRep) (k : Nat) (t : ReplyThread TRep) : Prop where
  entry : w.impl.dict.find t.identity = if t.pc.erased then none else some k
  promise : ∃ cs, w.promises[k]? = some cs ∧ cs.length = t.pc.completions ∧
    ∀ c ∈ cs, c.Related t.identity
  held : ∀ c, t.pc = .holding c → c.Related t.identity

structure Threads (w : Session α TRep) : Prop where
  asyncs : w.asyncs = w.threadIds.zipIdx
  promises : w.promises.length = w.threads.length
  numbered : ∃ ns : List Nat,
    w.threadIds = ns.map (fun n => ⟨w.impl.super.writerGuid,.nth n⟩) ∧
    ns.Pairwise (· < ·) ∧ ∀ n ∈ ns, n ≤ w.impl.super.written.length
  ok : ∀ {k t}, w.threads[k]? = some t → ThreadOk w k t
  keys : ∀ e ∈ w.impl.dict.entries, ∃ t ∈ w.threads, t.pc.erased = false ∧ t.identity = e.1

theorem threads_init (guid : DDS.GUID) : Threads (init guid : Session α TRep) where
  asyncs := rfl
  promises := rfl
  numbered := ⟨[],rfl,.nil,by simp⟩
  ok := by simp [init]
  keys := by simp [init,RequesterImpl.init,StdMap.empty]

theorem Threads.nodup {w : Session α TRep} (hw : Threads w) :
    (w.threadIds.map (·.sequenceNumber)).Nodup := by
  obtain ⟨ns,hns,hlt,-⟩ := hw.numbered
  rw [hns,List.map_map]
  exact List.Pairwise.map _ (fun m n (h : m < n) heq =>
    absurd (SequenceNumber.nth_injective heq) (Nat.ne_of_lt h)) hlt

theorem Threads.index_unique {w : Session α TRep} (hw : Threads w) {j k : Nat}
    {s t : ReplyThread TRep} (hj : w.threads[j]? = some s) (hk : w.threads[k]? = some t)
    (h : Equivalent DDS.SampleIdentity.lt s.identity t.identity) : j = k := by
  have hj' : (w.threadIds.map (·.sequenceNumber))[j]? = some s.identity.sequenceNumber := by
    simp [threadIds,hj]
  have hk' : (w.threadIds.map (·.sequenceNumber))[k]? = some t.identity.sequenceNumber := by
    simp [threadIds,hk]
  rw [DDS.SampleIdentity.equivalent_iff.mp h] at hj'
  obtain ⟨hlt,-⟩ := List.getElem?_eq_some_iff.mp hj'
  exact (List.getElem?_inj hlt hw.nodup).mp (hj'.trans hk'.symm)

/-- The members that the invariant reads, apart from a growing number of writes. -/
structure ThreadsUnchanged (w w' : Session α TRep) : Prop where
  dict : w'.impl.dict = w.impl.dict
  promises : w'.promises = w.promises
  threads : w'.threads = w.threads
  asyncs : w'.asyncs = w.asyncs
  writerGuid : w'.impl.super.writerGuid = w.impl.super.writerGuid
  written : w.impl.super.written.length ≤ w'.impl.super.written.length

theorem threads_of_unchanged {w w' : Session α TRep} (h : ThreadsUnchanged w w')
    (hw : Threads w) : Threads w' where
  asyncs := by rw [h.asyncs,hw.asyncs,threadIds,threadIds,h.threads]
  promises := by rw [h.promises,h.threads,hw.promises]
  numbered := by
    obtain ⟨ns,hns,hlt,hle⟩ := hw.numbered
    refine ⟨ns,?_,hlt,fun n hn => Nat.le_trans (hle n hn) h.written⟩
    rw [h.writerGuid,← hns,threadIds,threadIds,h.threads]
  ok hk := by
    rw [h.threads] at hk
    have ht := hw.ok hk
    exact ⟨by rw [h.dict,ht.entry],by rw [h.promises]; exact ht.promise,ht.held⟩
  keys e he := by
    rw [h.dict] at he
    rw [h.threads]
    exact hw.keys e he

theorem threads_getElem_setPc (w : Session α TRep) (k j : Nat) (pc : ExecutePc TRep) :
    (w.setPc k pc).threads[j]? =
      if j = k then w.threads[j]?.map (fun t => { t with pc }) else w.threads[j]? := by
  rw [setPc,List.getElem?_modify]
  split <;> split <;> simp_all [eq_comm]

@[simp] theorem threadIds_setPc (w : Session α TRep) (k : Nat) (pc : ExecutePc TRep) :
    (w.setPc k pc).threadIds = w.threadIds := by
  apply List.ext_getElem?
  intro j
  simp only [threadIds,List.getElem?_map,threads_getElem_setPc]
  split <;> simp [Option.map_map,Function.comp_def]

theorem threads_setPc {w u : Session α TRep} {k : Nat} {t : ReplyThread TRep}
    {pc : ExecutePc TRep} (hw : Threads w) (ht : w.threads[k]? = some t)
    (hthreads : u.threads = w.threads) (hasyncs : u.asyncs = w.asyncs)
    (hguid : u.impl.super.writerGuid = w.impl.super.writerGuid)
    (hwritten : u.impl.super.written = w.impl.super.written)
    (hlen : u.promises.length = w.promises.length)
    (hself : ThreadOk u k { t with pc })
    (hother : ∀ j s, j ≠ k → w.threads[j]? = some s → ThreadOk u j s)
    (hkeys : ∀ e ∈ u.impl.dict.entries, e ∈ w.impl.dict.entries)
    (hgone : pc.erased → ∀ e ∈ u.impl.dict.entries, t.identity ≠ e.1) :
    Threads (u.setPc k pc) := by
  have hids : u.threadIds = w.threadIds := by rw [threadIds,threadIds,hthreads]
  constructor
  · change u.asyncs = _
    rw [threadIds_setPc,hids,hasyncs,hw.asyncs]
  · simp [setPc,hlen,hthreads,hw.promises]
  · obtain ⟨ns,hns,hlt,hle⟩ := hw.numbered
    refine ⟨ns,?_,hlt,?_⟩
    · rw [threadIds_setPc,hids,hns]
      exact congrArg (fun g => ns.map (fun n => (⟨g,.nth n⟩ : DDS.SampleIdentity))) hguid.symm
    · change ∀ n ∈ ns, n ≤ u.impl.super.written.length
      rwa [hwritten]
  · intro j s hj
    rw [threads_getElem_setPc,hthreads] at hj
    split at hj
    · subst j
      rw [ht] at hj
      cases hj
      exact ⟨hself.entry,hself.promise,hself.held⟩
    · have hs := hother j s ‹_› hj
      exact ⟨hs.entry,hs.promise,hs.held⟩
  · intro e he
    obtain ⟨s,hs,hpc,hid⟩ := hw.keys e (hkeys e he)
    obtain ⟨j,hj⟩ := List.getElem?_of_mem hs
    have hj' := threads_getElem_setPc u k j pc
    rw [hthreads,hj] at hj'
    by_cases hjk : j = k
    · subst j
      rw [ht] at hj
      cases hj
      rw [if_pos rfl] at hj'
      exact ⟨_,List.mem_of_getElem? hj',eq_false_of_ne_true (fun h => hgone h e he hid),hid⟩
    · rw [if_neg hjk] at hj'
      exact ⟨s,List.mem_of_getElem? hj',hpc,hid⟩

theorem threads_move {w : Session α TRep} {k : Nat} {t : ReplyThread TRep}
    {pc : ExecutePc TRep} (hw : Threads w) (ht : w.threads[k]? = some t)
    (hfrom : t.pc.erased = false) (hto : pc.erased = false)
    (hcount : pc.completions = t.pc.completions)
    (hheld : ∀ c, pc = .holding c → c.Related t.identity) : Threads (w.setPc k pc) := by
  have hok := hw.ok ht
  refine threads_setPc hw ht rfl rfl rfl rfl rfl ⟨?_,?_,hheld⟩ (fun j s _ hj => hw.ok hj)
    (fun _ he => he) (fun h => absurd h (by simp [hto]))
  · simpa [hfrom,hto] using hok.entry
  · obtain ⟨cs,hcs,hlen,hrel⟩ := hok.promise
    exact ⟨cs,hcs,hlen.trans hcount.symm,hrel⟩

theorem threads_withReader {w : Session α TRep} (hw : Threads w) (rs : List (Sample TRep)) :
    Threads (w.withReader rs) :=
  threads_of_unchanged (w := w) ⟨rfl,rfl,rfl,rfl,rfl,Nat.le_refl _⟩ hw

theorem threads_complete {w : Session α TRep} {k : Nat} {t : ReplyThread TRep}
    {c : Completion TRep} (hw : Threads w) (ht : w.threads[k]? = some t)
    (hpc : t.pc = .holding c) : Threads ((w.setPromise t.identity c).setPc k .completed) := by
  have hok := hw.ok ht
  have hentry : w.impl.dict.find t.identity = some k := by
    simpa [hpc,ExecutePc.erased] using hok.entry
  obtain ⟨cs,hcs,hlen,hrel⟩ := hok.promise
  have hu : w.setPromise t.identity c =
      { w with promises := w.promises.modify k (· ++ [c]) } := by simp [setPromise,hentry]
  rw [hu]
  refine threads_setPc hw ht rfl rfl rfl rfl (by simp) ⟨?_,?_,?_⟩ ?_ (fun _ he => he) ?_
  · simpa [ExecutePc.erased] using hentry
  · refine ⟨cs ++ [c],by simp [hcs],?_,?_⟩
    · simp [hlen,hpc,ExecutePc.completions]
    · intro d hd
      rcases List.mem_append.mp hd with hd | hd
      · exact hrel d hd
      · rw [List.mem_singleton.mp hd]
        exact hok.held c hpc
  · intro d hd
    cases hd
  · intro j s hj hs
    have hos := hw.ok hs
    refine ⟨hos.entry,?_,hos.held⟩
    obtain ⟨ds,hds,hrest⟩ := hos.promise
    exact ⟨ds,by simp [List.getElem?_modify_ne _ _ (Ne.symm hj),hds],hrest⟩
  · intro he
    cases he

theorem threads_erase {w : Session α TRep} {k : Nat} {t : ReplyThread TRep}
    (hw : Threads w) (ht : w.threads[k]? = some t) (hpc : t.pc = .completed) :
    Threads ((w.eraseDict t.identity).setPc k .returned) := by
  have hok := hw.ok ht
  refine threads_setPc hw ht rfl rfl rfl rfl rfl ⟨?_,?_,?_⟩ ?_ ?_ ?_
  · simp [eraseDict,StdMap.find_erase,Equivalent.refl,ExecutePc.erased]
  · obtain ⟨cs,hcs,hlen,hrel⟩ := hok.promise
    exact ⟨cs,hcs,by rw [hlen,hpc]; rfl,hrel⟩
  · intro d hd
    cases hd
  · intro j s hj hs
    have hos := hw.ok hs
    have hne : ¬ Equivalent DDS.SampleIdentity.lt t.identity s.identity := fun h =>
      hj (hw.index_unique ht hs h).symm
    exact ⟨by simpa [eraseDict,StdMap.find_erase,hne] using hos.entry,hos.promise,hos.held⟩
  · intro e he
    exact (StdMap.mem_erase.mp he).1
  · intro _ e he hid
    exact (StdMap.mem_erase.mp he).2 (hid ▸ Equivalent.refl _)

theorem threads_envStep {w w' : Session α TRep} {e : Env TRep} (h : w.envStep T e = some w')
    (hw : Threads w) : Threads w' := by
  cases e with
  | arrive a =>
    cases h
    exact threads_of_unchanged (w := w) ⟨rfl,rfl,rfl,rfl,rfl,Nat.le_refl _⟩ hw
  | thread k s =>
    obtain ⟨t,ht,hex⟩ := threadStep_cases h
    cases hex with
    | wake hpc | expire hpc | waitThrows hpc =>
      exact threads_move hw ht (by rw [hpc]; rfl) rfl (by rw [hpc]; rfl)
        (fun c hc => nomatch hc)
    | take hpc htake =>
      refine threads_move (threads_withReader hw _) ht (by rw [hpc]; rfl) rfl
        (by rw [hpc]; rfl) (fun c hc => ?_)
      cases hc
      exact (T.take_some htake).1
    | unavailable hpc | takeThrows hpc =>
      refine threads_move hw ht (by rw [hpc]; rfl) rfl (by rw [hpc]; rfl)
        (fun c hc => ?_)
      cases hc
      trivial
    | complete hpc => exact threads_complete hw ht hpc
    | erase hpc => exact threads_erase hw ht hpc

theorem threads_envRun {w w' : Session α TRep} {fs : List (Env TRep)}
    (h : (environment T).run w fs = some w') (hw : Threads w) : Threads w' :=
  Machine.run_preserves (P := Threads) threads_envStep h hw

theorem Received.threads {w w' : Session α TRep} {reply reply' : Sample TRep}
    {id : SampleIdentity} {fs : List (Env TRep)} {ret : Bool}
    (h : Received T w reply id fs w' ret reply') :
    ∃ w₁, (environment T).run w fs = some w₁ ∧ ThreadsUnchanged w₁ w' := by
  cases h with
  | unknown _ hfs => exact ⟨w,by rw [hfs]; rfl,⟨rfl,rfl,rfl,rfl,rfl,Nat.le_refl _⟩⟩
  | timedOut hrun | delivered hrun | suppressed hrun | kept hrun | dropped hrun =>
    exact ⟨_,hrun,⟨rfl,rfl,rfl,rfl,rfl,Nat.le_refl _⟩⟩

theorem recordReturn_threads (w : Session α TRep) (id : SampleIdentity) (ret : Bool)
    (reply : Sample TRep) : ThreadsUnchanged w (w.recordReturn id ret reply) := by
  cases ret <;> exact ⟨rfl,rfl,rfl,rfl,rfl,Nat.le_refl _⟩

theorem sendRequest_threads (w : Session α TRep) (req : Request α) (sent : Bool) :
    ThreadsUnchanged w (w.sendRequest req sent) := by
  have ha : (w.sendRequest req sent).asyncs = w.asyncs := by
    simp [asyncs,sendRequest,record]
  cases sent
  · exact ⟨rfl,rfl,rfl,ha,rfl,Nat.le_refl _⟩
  · exact ⟨rfl,rfl,rfl,ha,rfl,by
      simp [sendRequest,RequesterImpl.sendRequest,Requester.sendRequest]⟩

theorem sendRequestRef_threads (w : Session α TRep) (req : Request α) (sent : Bool) :
    ThreadsUnchanged w (w.sendRequestRef req sent) := by
  have ha : (w.sendRequestRef req sent).asyncs = w.asyncs := by
    simp [asyncs,sendRequestRef,record]
  cases sent
  · exact ⟨rfl,rfl,rfl,ha,rfl,Nat.le_refl _⟩
  · exact ⟨rfl,rfl,rfl,ha,rfl,by
      simp [sendRequestRef,RequesterImpl.sendRequestRef,Requester.sendRequest]⟩

theorem sendRequestAsync_threads_of_throw (w : Session α TRep) (req : Request α) :
    ThreadsUnchanged w (w.sendRequestAsync req false) :=
  ⟨rfl,rfl,rfl,by simp [asyncs,sendRequestAsync,record],rfl,Nat.le_refl _⟩

theorem Threads.nextIdentity_new {w : Session α TRep} (hw : Threads w) :
    ∀ t ∈ w.threads,
      ¬ Equivalent DDS.SampleIdentity.lt w.impl.super.nextIdentity t.identity := by
  intro t ht he
  obtain ⟨ns,hns,-,hle⟩ := hw.numbered
  have hmem : t.identity ∈ w.threadIds := List.mem_map_of_mem ht
  rw [hns] at hmem
  obtain ⟨n,hn,hid⟩ := List.mem_map.mp hmem
  rw [DDS.SampleIdentity.equivalent_iff,← hid] at he
  have hlast := SequenceNumber.nth_injective he
  have := hle n hn
  omega

theorem Threads.find_nextIdentity {w : Session α TRep} (hw : Threads w) :
    w.impl.dict.find w.impl.super.nextIdentity = none := by
  refine StdMap.find_eq_none.mpr (fun e he h => ?_)
  obtain ⟨t,ht,-,hid⟩ := hw.keys e he
  exact hw.nextIdentity_new t ht (hid ▸ h.symm)

theorem Threads.ok_sendRequestAsync {w : Session α TRep} (hw : Threads w) (req : Request α)
    {k : Nat} {t : ReplyThread TRep} (hk : w.threads[k]? = some t) :
    ThreadOk (w.sendRequestAsync req true) k t := by
  have hok := hw.ok hk
  have hne := hw.nextIdentity_new t (List.mem_of_getElem? hk)
  refine ⟨?_,?_,hok.held⟩
  · simpa [sendRequestAsync,RequesterImpl.sendRequestAsync,StdMap.find_set,hne] using hok.entry
  · obtain ⟨cs,hcs,hrest⟩ := hok.promise
    obtain ⟨hlt,-⟩ := List.getElem?_eq_some_iff.mp hcs
    exact ⟨cs,by simp [sendRequestAsync,List.getElem?_append_left hlt,hcs],hrest⟩

theorem Threads.ok_new {w : Session α TRep} (hw : Threads w) (req : Request α) :
    ThreadOk (w.sendRequestAsync req true) w.threads.length
      ⟨w.impl.super.nextIdentity,.waiting⟩ := by
  refine ⟨?_,⟨[],?_,rfl,by simp⟩,?_⟩
  · simp [sendRequestAsync,RequesterImpl.sendRequestAsync,ExecutePc.erased,hw.promises]
  · simp [sendRequestAsync,← hw.promises]
  · intro c hc
    cases hc

theorem Threads.numbered_sendRequestAsync {w : Session α TRep} (hw : Threads w)
    (req : Request α) : ∃ ns : List Nat,
      (w.sendRequestAsync req true).threadIds =
        ns.map (fun n => ⟨w.impl.super.writerGuid,.nth n⟩) ∧
      ns.Pairwise (· < ·) ∧ ∀ n ∈ ns, n ≤ w.impl.super.written.length+1 := by
  obtain ⟨ns,hns,hlt,hle⟩ := hw.numbered
  refine ⟨ns ++ [w.impl.super.written.length+1],?_,?_,?_⟩
  · rw [List.map_append,← hns]
    simp [threadIds,sendRequestAsync,Requester.nextIdentity]
  · refine List.pairwise_append.mpr ⟨hlt,List.pairwise_singleton _ _,fun n hn m hm => ?_⟩
    have := hle n hn
    simp only [List.mem_singleton] at hm
    omega
  · intro n hn
    rcases List.mem_append.mp hn with hn | hn
    · exact Nat.le_succ_of_le (hle n hn)
    · exact Nat.le_of_eq (List.mem_singleton.mp hn)

theorem threads_sendRequestAsync {w : Session α TRep} (hw : Threads w) (req : Request α) :
    Threads (w.sendRequestAsync req true) := by
  have hids : (w.sendRequestAsync req true).threadIds =
      w.threadIds ++ [w.impl.super.nextIdentity] := by simp [threadIds,sendRequestAsync]
  have hlen : (w.sendRequestAsync req true).impl.super.written.length =
      w.impl.super.written.length+1 := by
    simp [sendRequestAsync,RequesterImpl.sendRequestAsync,Requester.sendRequest]
  constructor
  · rw [hids,List.zipIdx_append,← hw.asyncs]
    simp [asyncs,sendRequestAsync,record,threadIds,hw.promises]
  · simp [sendRequestAsync,hw.promises]
  · rw [hlen]
    exact hw.numbered_sendRequestAsync req
  · intro k t hk
    simp only [sendRequestAsync,if_true] at hk
    rcases Nat.lt_or_ge k w.threads.length with hlt | hge
    · rw [List.getElem?_append_left hlt] at hk
      exact hw.ok_sendRequestAsync req hk
    · rw [List.getElem?_append_right hge,List.getElem?_singleton] at hk
      split at hk
      · cases hk
        obtain rfl : k = w.threads.length := by omega
        exact hw.ok_new req
      · cases hk
  · intro e he
    simp only [sendRequestAsync,RequesterImpl.sendRequestAsync,if_true] at he ⊢
    rcases (StdMap.mem_set_of_find_none hw.find_nextIdentity).mp he with rfl | he
    · exact ⟨_,List.mem_append_right _ (List.mem_singleton_self _),rfl,rfl⟩
    · obtain ⟨t,ht,hrest⟩ := hw.keys e he
      exact ⟨t,List.mem_append_left _ ht,hrest⟩

theorem threads_step {w w' : Session α TRep} {e : Event α TRep}
    (h : w.step T e = some w') (hw : Threads w) : Threads w' := by
  cases e with
  | sendRequest req sent =>
    cases h
    exact threads_of_unchanged (sendRequest_threads w req sent) hw
  | sendRequestRef req sent =>
    cases h
    exact threads_of_unchanged (sendRequestRef_threads w req sent) hw
  | sendRequestAsync req sent =>
    cases h
    cases sent
    · exact threads_of_unchanged (sendRequestAsync_threads_of_throw w req) hw
    · exact threads_sendRequestAsync hw req
  | receiveNondataSamples enable =>
    cases h
    exact threads_of_unchanged (w := w) ⟨rfl,rfl,rfl,rfl,rfl,Nat.le_refl _⟩ hw
  | receiveReply reply id during between =>
    obtain ⟨⟨w₁,ret,r⟩,hrecv,rfl⟩ := Option.map_eq_some_iff.mp h
    have hr := receiveReply_around hrecv
    obtain ⟨w₂,hrun,hsame⟩ := hr.threads
    exact threads_of_unchanged (recordReturn_threads w₁ id ret r)
      (threads_of_unchanged hsame (threads_envRun hrun hw))
  | env e => exact threads_envStep h hw

theorem threads_run {guid : DDS.GUID} {w : Session α TRep} {es : List (Event α TRep)}
    (h : (machine T).run (init guid) es = some w) : Threads w :=
  Machine.run_preserves (P := Threads) threads_step h (threads_init guid)

end Session
end DdsRpc
