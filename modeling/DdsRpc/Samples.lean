import DdsRpc.Execute
import Mathlib.Data.List.Count
set_option autoImplicit false

namespace DdsRpc
open Connext

variable {α TRep : Type}

def Completion.numbers : Completion TRep → List Nat
  | .value reply => [reply.info.receptionNumber]
  | .exception _ => []

def ExecutePc.numbers : ExecutePc TRep → List Nat
  | .holding c => c.numbers
  | _ => []

@[simp] theorem Completion.numbers_value (r : Sample TRep) :
    (Completion.value r).numbers = [r.info.receptionNumber] := rfl

@[simp] theorem Completion.numbers_exception (what : String) :
    (Completion.exception what : Completion TRep).numbers = [] := rfl

@[simp] theorem ExecutePc.numbers_holding (c : Completion TRep) :
    (ExecutePc.holding c).numbers = c.numbers := rfl

@[simp] theorem ExecutePc.numbers_completed :
    (ExecutePc.completed : ExecutePc TRep).numbers = [] := rfl

theorem count_flatMap_modify {β : Type} {l : List β} {k : Nat} {b : β} (h : l[k]? = some b)
    (f : β → β) (g : β → List Nat) (n : Nat) :
    ((l.modify k f).flatMap g).count n+(g b).count n =
      (l.flatMap g).count n+(g (f b)).count n := by
  induction l generalizing k with
  | nil => simp at h
  | cons a l ih =>
    cases k with
    | zero =>
      obtain rfl : a = b := by simpa using h
      simp only [List.modify_zero_cons,List.flatMap_cons,List.count_append]
      omega
    | succ k =>
      have := ih (by simpa using h)
      simp only [List.modify_succ_cons,List.flatMap_cons,List.count_append]
      omega

namespace Session
variable {T : TakeReply TRep}

def delivered (w : Session α TRep) : List Nat :=
  w.returned.map (·.2.info.receptionNumber) ++
    w.promises.flatMap (fun cs => cs.flatMap Completion.numbers)

def numbers (w : Session α TRep) : List Nat :=
  w.reader.map (·.info.receptionNumber) ++ w.threads.flatMap (·.pc.numbers) ++ w.delivered

/-- No sample is in two places, and none has a number that was not given out. -/
structure Accounted (w : Session α TRep) : Prop where
  once : ∀ n, w.numbers.count n ≤ 1
  numbered : ∀ n, w.impl.super.received < n → w.numbers.count n = 0

theorem accounted_init (guid : DDS.GUID) : Accounted (init guid : Session α TRep) := by
  constructor <;> simp [numbers,delivered,reader,init,RequesterImpl.init,Requester.init]

theorem Accounted.nodup {w : Session α TRep} (hw : Accounted w) : w.delivered.Nodup := by
  refine List.nodup_iff_count.mpr (fun n => ?_)
  have h := hw.once n
  simp only [numbers,List.count_append] at h
  omega

structure Moved (w w' : Session α TRep) : Prop where
  received : w'.impl.super.received = w.impl.super.received
  numbers : ∀ n, w'.numbers.count n ≤ w.numbers.count n

theorem accounted_of_moved {w w' : Session α TRep} (h : Moved w w') (hw : Accounted w) :
    Accounted w' where
  once n := Nat.le_trans (h.numbers n) (hw.once n)
  numbered n hn := Nat.le_zero.mp (hw.numbered n (h.received ▸ hn) ▸ h.numbers n)

theorem accounted_arrive {w : Session α TRep} (hw : Accounted w) (a : Arrival TRep) :
    Accounted (w.arrive a) := by
  have hcount : ∀ n, (w.arrive a).numbers.count n =
      w.numbers.count n+if w.impl.super.received+1 = n then 1 else 0 := by
    intro n
    simp only [arrive,numbers,delivered,reader,Requester.arrive,Arrival.sample,List.count_append,
      List.map_append,List.map_cons,List.map_nil,List.count_singleton,beq_iff_eq]
    omega
  constructor
  · intro n
    rw [hcount]
    split_ifs with hn
    · rw [hw.numbered n (by omega)]
    · exact hw.once n
  · intro n hn
    have hn : w.impl.super.received+1 < n := hn
    rw [hcount,if_neg (by omega),hw.numbered n (by omega)]

theorem count_threads_setPc {w : Session α TRep} {k : Nat} {t : ReplyThread TRep}
    (ht : w.threads[k]? = some t) (pc : ExecutePc TRep) (n : Nat) :
    ((w.setPc k pc).threads.flatMap (·.pc.numbers)).count n+t.pc.numbers.count n =
      (w.threads.flatMap (·.pc.numbers)).count n+pc.numbers.count n :=
  count_flatMap_modify ht (fun t => { t with pc }) (·.pc.numbers) n

theorem moved_setPc {w : Session α TRep} {k : Nat} {t : ReplyThread TRep}
    (ht : w.threads[k]? = some t) {pc : ExecutePc TRep} (hpc : pc.numbers = []) :
    Moved w (w.setPc k pc) := by
  refine ⟨rfl,fun n => ?_⟩
  have hc := count_threads_setPc ht pc n
  change (w.reader.map (·.info.receptionNumber) ++
    (w.setPc k pc).threads.flatMap (·.pc.numbers) ++ w.delivered).count n ≤ _
  simp only [hpc,List.count_nil] at hc
  simp only [numbers,List.count_append]
  omega

theorem moved_take {w : Session α TRep} {k : Nat} {t : ReplyThread TRep}
    (ht : w.threads[k]? = some t) {r : Sample TRep} {rest : List (Sample TRep)}
    (htake : T.take w.reader t.identity = some (r,rest)) :
    Moved w ((w.withReader rest).setPc k (.holding (.value r))) := by
  refine ⟨rfl,fun n => ?_⟩
  have hr := ((T.take_some htake).2.map (·.info.receptionNumber)).count_eq n
  have hc := count_threads_setPc ht (.holding (.value r)) n
  change (rest.map (·.info.receptionNumber) ++
    (w.setPc k (.holding (.value r))).threads.flatMap (·.pc.numbers) ++ w.delivered).count n ≤ _
  simp only [numbers,List.count_append,List.map_cons,List.count_cons,ExecutePc.numbers_holding,
    Completion.numbers_value,List.count_nil] at hr hc ⊢
  omega

theorem count_setPromise (w : Session α TRep) (i : DDS.SampleIdentity) (c : Completion TRep)
    (n : Nat) : ((w.setPromise i c).promises.flatMap (·.flatMap Completion.numbers)).count n ≤
      (w.promises.flatMap (·.flatMap Completion.numbers)).count n+c.numbers.count n := by
  unfold setPromise
  split
  · rename_i p _
    cases hp : w.promises[p]? with
    | none =>
      have hlen := List.getElem?_eq_none_iff.mp hp
      simp [List.modify_eq_self hlen]
    | some cs =>
      have hm := count_flatMap_modify hp (· ++ [c]) (·.flatMap Completion.numbers) n
      simp only [List.flatMap_append,List.flatMap_singleton,List.count_append] at hm
      simp only
      omega
  · simp [List.count_append]

theorem moved_complete {w : Session α TRep} {k : Nat} {t : ReplyThread TRep}
    {c : Completion TRep} (ht : w.threads[k]? = some t) (hpc : t.pc = .holding c) :
    Moved w ((w.setPromise t.identity c).setPc k .completed) := by
  have happ := setPromise_unchanged w t.identity c
  have hthreads := w.setPromise_threads t.identity c
  have hsuper := w.setPromise_super t.identity c
  refine ⟨congrArg Requester.received hsuper,fun n => ?_⟩
  have hc := count_threads_setPc (w := w.setPromise t.identity c) (hthreads.symm ▸ ht) .completed n
  have hp := count_setPromise w t.identity c n
  have hreader : (w.setPromise t.identity c).reader = w.reader :=
    congrArg Requester.reader hsuper
  change ((w.setPromise t.identity c).reader.map (·.info.receptionNumber) ++
    ((w.setPromise t.identity c).setPc k .completed).threads.flatMap (·.pc.numbers) ++
    (w.setPromise t.identity c).delivered).count n ≤ _
  simp only [hthreads,hpc,ExecutePc.numbers_holding,ExecutePc.numbers_completed,
    List.count_nil] at hc
  simp only [numbers,delivered,List.count_append,hreader,happ.returned]
  omega

theorem accounted_envStep {w w' : Session α TRep} {e : Env TRep}
    (h : w.envStep T e = some w') (hw : Accounted w) : Accounted w' := by
  cases e with
  | arrive a =>
    cases h
    exact accounted_arrive hw a
  | thread k s =>
    obtain ⟨t,ht,hex⟩ := threadStep_cases h
    cases hex with
    | take hpc htake => exact accounted_of_moved (moved_take ht htake) hw
    | complete hpc => exact accounted_of_moved (moved_complete ht hpc) hw
    | erase hpc =>
      exact accounted_of_moved (moved_setPc (w := w.eraseDict t.identity) ht rfl)
        (accounted_of_moved (w := w) ⟨rfl,fun _ => Nat.le_refl _⟩ hw)
    | _ => exact accounted_of_moved (moved_setPc ht rfl) hw

theorem accounted_envRun {w w' : Session α TRep} {fs : List (Env TRep)}
    (h : (environment T).run w fs = some w') (hw : Accounted w) : Accounted w' :=
  Machine.run_preserves (P := Accounted) accounted_envStep h hw

theorem Received.accounted {w w' : Session α TRep} {reply reply' : Sample TRep}
    {id : SampleIdentity} {fs : List (Env TRep)} {ret : Bool}
    (h : Received T w reply id fs w' ret reply') (hw : Accounted w) :
    Accounted (w'.recordReturn id ret reply') := by
  cases h with
  | unknown => exact hw
  | timedOut hrun | kept hrun => exact accounted_envRun hrun hw
  | @dropped w₁ i hrun =>
    exact accounted_of_moved (w := w₁) ⟨rfl,fun _ => Nat.le_refl _⟩ (accounted_envRun hrun hw)
  | @delivered w₁ i r rest hrun hf htake hs =>
    refine accounted_of_moved (w := w₁) ⟨rfl,fun n => ?_⟩ (accounted_envRun hrun hw)
    have hr := ((T.take_some htake).2.map (·.info.receptionNumber)).count_eq n
    simp only [numbers,Session.delivered,reader,recordReturn,RequesterImpl.withReader,if_true,
      List.count_append,List.map_append,List.map_cons,List.map_nil,List.count_cons,
      List.count_nil] at hr ⊢
    omega
  | @suppressed w₁ i r rest hrun hf htake hs =>
    refine accounted_of_moved (w := w₁) ⟨rfl,fun n => ?_⟩ (accounted_envRun hrun hw)
    have hr := ((T.take_some htake).2.map (·.info.receptionNumber)).count_eq n
    simp only [numbers,Session.delivered,reader,recordReturn,withReader,RequesterImpl.withReader,
      List.count_append,List.map_cons,List.count_cons] at hr ⊢
    simp only [Bool.false_eq_true,if_false]
    omega

theorem accounted_step {w w' : Session α TRep} {e : Event α TRep}
    (h : w.step T e = some w') (hw : Accounted w) : Accounted w' := by
  cases e with
  | sendRequest req sent | sendRequestRef req sent =>
    cases h
    cases sent <;> exact accounted_of_moved (w := w) ⟨rfl,fun _ => Nat.le_refl _⟩ hw
  | sendRequestAsync req sent =>
    cases h
    cases sent
    · exact accounted_of_moved (w := w) ⟨rfl,fun _ => Nat.le_refl _⟩ hw
    · refine accounted_of_moved (w := w) ⟨rfl,fun n => Nat.le_of_eq ?_⟩ hw
      simp [numbers,delivered,reader,sendRequestAsync,RequesterImpl.sendRequestAsync,
        Requester.sendRequest,ExecutePc.numbers]
  | receiveNondataSamples enable =>
    cases h
    exact accounted_of_moved (w := w) ⟨rfl,fun _ => Nat.le_refl _⟩ hw
  | receiveReply reply id during between =>
    obtain ⟨⟨w₁,ret,r⟩,hrecv,rfl⟩ := Option.map_eq_some_iff.mp h
    have hr := receiveReply_around hrecv
    exact hr.accounted hw
  | env e => exact accounted_envStep h hw

theorem accounted_run {guid : DDS.GUID} {w : Session α TRep} {es : List (Event α TRep)}
    (h : (machine T).run (init guid) es = some w) : Accounted w :=
  Machine.run_preserves (P := Accounted) accounted_step h (accounted_init guid)

end Session
end DdsRpc
