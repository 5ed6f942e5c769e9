import DdsRpc.Futures
import DdsRpc.Lifecycle
import Mathlib.Algebra.Group.Action.Defs
import Mathlib.Algebra.Order.BigOperators.Group.List
import Mathlib.Algebra.Order.Ring.Nat
set_option autoImplicit false

namespace DdsRpc
open Connext

def ExecutePc.remaining {TRep : Type} : ExecutePc TRep → ℕ
  | .waiting => 4
  | .woken => 3
  | .holding _ => 2
  | .completed => 1
  | .returned | .timedOut | .terminated => 0

theorem sum_map_modify {β : Type} {l : List β} {k : ℕ} {x : β} (h : l[k]? = some x) (f : β → β)
    (g : β → ℕ) : ((l.modify k f).map g).sum+g x = (l.map g).sum+g (f x) := by
  induction l generalizing k with
  | nil => simp at h
  | cons y l ih =>
    cases k with
    | zero =>
      cases h
      simp only [List.modify_zero_cons,List.map_cons,List.sum_cons]
      omega
    | succ k =>
      have := ih (k := k) h
      simp only [List.modify_succ_cons,List.map_cons,List.sum_cons]
      omega

namespace Session
variable {α TRep : Type} {T : TakeReply TRep} {w w' : Session α TRep}

def Env.isThread : Env TRep → Bool
  | .thread _ _ => true
  | .arrive _ => false

def remaining (w : Session α TRep) : ℕ := (w.threads.map (·.pc.remaining)).sum

theorem remaining_setPc {u : Session α TRep} {k : ℕ} {t : ReplyThread TRep}
    {pc : ExecutePc TRep} (hu : u.threads = w.threads) (ht : w.threads[k]? = some t)
    (hlt : pc.remaining < t.pc.remaining) : (u.setPc k pc).remaining < w.remaining := by
  have hsum := sum_map_modify ht (fun t => { t with pc }) (·.pc.remaining)
  simp only [remaining,setPc,hu] at hsum ⊢
  omega

theorem remaining_thread {k : ℕ} {s : ThreadStep} (h : w.threadStep T k s = some w') :
    w'.remaining < w.remaining := by
  obtain ⟨t,ht,hex⟩ := threadStep_cases h
  cases hex with
  | wake hpc | expire hpc | waitThrows hpc | take hpc | unavailable hpc | takeThrows hpc
    | erase hpc =>
    exact remaining_setPc rfl ht (by rw [hpc]; simp [ExecutePc.remaining])
  | complete hpc =>
    exact remaining_setPc (setPromise_threads w t.identity _) ht
      (by rw [hpc]; simp [ExecutePc.remaining])

theorem sum_toNat {β : Type} (p : β → Bool) (l : List β) :
    (l.map (fun x => (p x).toNat)).sum = l.countP p := by
  induction l with
  | nil => rfl
  | cons x l ih =>
    rw [List.map_cons,List.sum_cons,List.countP_cons,ih,Nat.add_comm]
    cases p x <;> rfl

theorem thread_steps_le {fs : List (Env TRep)} (h : (environment T).run w fs = some w') :
    fs.countP Env.isThread+w'.remaining ≤ w.remaining := by
  have hrun := Machine.run_amortized (M := environment T) (I := fun _ => True) (Φ := remaining)
    (c := fun e : Env TRep => e.isThread.toNat) (d := fun _ => 0) (fun {u e v} hs _ => ?_) h
    trivial
  · simpa [sum_toNat] using hrun
  refine ⟨trivial,?_⟩
  cases e with
  | arrive a =>
    cases hs
    change 0+u.remaining ≤ 0+u.remaining
    exact Nat.le_refl _
  | thread k s =>
    have := remaining_thread hs
    simp only [Env.isThread,Bool.toNat_true]
    omega

theorem exists_threads_ended (T : TakeReply TRep) (w : Session α TRep) :
    ∃ fs w', (∀ e ∈ fs, e.isThread) ∧ (environment T).run w fs = some w' ∧
      ∀ t ∈ w'.threads, t.pc.ended := by
  induction hn : w.remaining using Nat.strongRecOn generalizing w with
  | ind n ih =>
    subst hn
    by_cases hall : ∀ t ∈ w.threads, t.pc.ended
    · exact ⟨[],w,nofun,rfl,hall⟩
    · simp only [not_forall] at hall
      obtain ⟨t,ht,hpc⟩ := hall
      obtain ⟨k,hk⟩ := List.getElem?_of_mem ht
      obtain ⟨s,u,hs⟩ := Process.exists_threadStep T hk (eq_false_of_ne_true hpc)
      obtain ⟨fs,w',hfs,hrun,hended⟩ := ih u.remaining (remaining_thread hs) u rfl
      exact ⟨.thread k s :: fs,w',List.forall_mem_cons.mpr ⟨rfl,hfs⟩,
        Machine.run_cons.mpr ⟨u,hs,hrun⟩,hended⟩

theorem Threads.keys_of_ended (hw : Threads w) (hended : ∀ t ∈ w.threads, t.pc.ended)
    (i : DDS.SampleIdentity) :
    i ∈ w.impl.dict.keys ↔ ∃ t ∈ w.threads, t.identity = i ∧ t.pc.waitFailed := by
  have hfailed : ∀ t ∈ w.threads, t.pc.waitFailed = !t.pc.erased := by
    intro t ht
    have hend := hended t ht
    cases hpc : t.pc <;> simp_all [ExecutePc.ended,ExecutePc.erased,ExecutePc.waitFailed]
  constructor
  · intro hi
    obtain ⟨e,he,rfl⟩ := List.mem_map.mp hi
    obtain ⟨t,ht,hpc,hid⟩ := hw.keys e he
    exact ⟨t,ht,hid,by rw [hfailed t ht,hpc]; rfl⟩
  · rintro ⟨t,ht,rfl,hpc⟩
    obtain ⟨k,hk⟩ := List.getElem?_of_mem ht
    rw [hfailed t ht,Bool.not_eq_true'] at hpc
    have hentry := (hw.ok hk).entry
    rw [hpc] at hentry
    obtain ⟨e,he,hequiv,-⟩ := StdMap.exists_of_find hentry
    obtain ⟨s,hs,-,hsid⟩ := hw.keys e he
    obtain ⟨j,hj⟩ := List.getElem?_of_mem hs
    have hjk := hw.index_unique hj hk (hsid ▸ hequiv)
    rw [hjk,hk] at hj
    obtain rfl := Option.some.inj hj
    exact List.mem_map.mpr ⟨e,he,hsid.symm⟩

theorem remaining_le (w : Session α TRep) : w.remaining ≤ 4*w.threads.length := by
  have hle := List.sum_le_card_nsmul (w.threads.map (·.pc.remaining)) 4 (fun n hn => by
    obtain ⟨t,-,rfl⟩ := List.mem_map.mp hn
    cases t.pc <;> simp [ExecutePc.remaining])
  rwa [List.length_map,smul_eq_mul,Nat.mul_comm] at hle

theorem Threads.promise_of_ended (hw : Threads w) {k : ℕ} {t : ReplyThread TRep}
    (hk : w.threads[k]? = some t) (hended : t.pc.ended) :
    t.pc.waitFailed ↔ w.promises[k]? = some [] := by
  obtain ⟨cs,hcs,hlen,-⟩ := (hw.ok hk).promise
  rw [hcs,Option.some.injEq,← List.length_eq_zero_iff,hlen]
  cases hpc : t.pc <;> simp_all [ExecutePc.ended,ExecutePc.waitFailed,ExecutePc.completions]

/-- From every reachable state the threads end after so many steps of theirs, whatever
arrives between these. They then have left behind what their waits have cost: an entry
of `dict`, and a promise that nobody completes, for every wait that has failed. -/
theorem threads_end {guid : DDS.GUID} {es : List (Event α TRep)}
    (h : (machine T).run (init guid) es = some w) :
    (∀ fs w', (environment T).run w fs = some w' →
      fs.countP Env.isThread ≤ w.remaining ∧ w.remaining ≤ 4*w.threads.length) ∧
    (∃ fs w', (∀ e ∈ fs, e.isThread) ∧ (environment T).run w fs = some w' ∧
      ∀ t ∈ w'.threads, t.pc.ended) ∧
    ∀ fs w', (environment T).run w fs = some w' → (∀ t ∈ w'.threads, t.pc.ended) →
      (∀ i, i ∈ w'.impl.dict.keys ↔ ∃ t ∈ w'.threads, t.identity = i ∧ t.pc.waitFailed) ∧
      ∀ (k : ℕ) (t : ReplyThread TRep), w'.threads[k]? = some t →
        (t.pc.waitFailed ↔ w'.promises[k]? = some []) := by
  have hw := threads_run h
  refine ⟨fun fs w' hrun => ⟨?_,w.remaining_le⟩,exists_threads_ended T w,
    fun fs w' hrun hended => ?_⟩
  · have := thread_steps_le hrun
    omega
  · have hw' := threads_envRun hrun hw
    exact ⟨hw'.keys_of_ended hended,
      fun k t hk => hw'.promise_of_ended hk (hended t (List.mem_of_getElem? hk))⟩

theorem threads_end_twoWaits : ∃ w w' : Session Unit Unit,
    (machine .oldest).run (init ⟨.zero 16⟩)
      [.sendRequestAsync ⟨.initial,()⟩ true,.sendRequestAsync ⟨.initial,()⟩ true,
        .env (.arrive ⟨(),true,⟨⟨.zero 16⟩,.nth 1⟩,⟨⟨.zero 16⟩,.nth 2⟩⟩)] = some w ∧
    (environment .oldest).run w [.thread 0 .expire,.thread 1 .wake,.thread 1 .take,
      .thread 1 .complete,.thread 1 .erase] = some w' ∧
    w'.impl.dict.keys = [⟨⟨.zero 16⟩,.nth 1⟩] ∧ w'.promises[0]? = some [] := by
  have hw : (machine .oldest).run (init ⟨.zero 16⟩)
    [.sendRequestAsync ⟨.initial,()⟩ true,.sendRequestAsync ⟨.initial,()⟩ true,
      .env (.arrive ⟨(),true,⟨⟨.zero 16⟩,.nth 1⟩,⟨⟨.zero 16⟩,.nth 2⟩⟩)] = some _ := rfl
  refine ⟨_,_,hw,rfl,rfl,?_⟩
  exact (((threads_end (α := Unit) hw).2.2 [.thread 0 .expire,.thread 1 .wake,
    .thread 1 .take,.thread 1 .complete,.thread 1 .erase] _ rfl (by decide)).2 0 _ rfl).mp rfl

end Session
end DdsRpc
