import DdsRpc.Serving
import Mathlib.Data.List.Nodup
set_option autoImplicit false

namespace DdsRpc
open Connext

variable {σ : Type} {ts : TypeSupport}

/-- A registered dispatcher. The objects of all services make up the one state that the
methods work on; `taken` records what was handed over, as in `Serving`. -/
structure Registered (σ : Type) where
  robotimpl : RobotControl σ
  replier : ReplierImpl RobotControlCall RobotControlReturn
  taken : List (Taken σ)

namespace Registered

abbrev reader (d : Registered σ) : List (Sample RobotControlRequest) := d.replier.super.reader

abbrev written (d : Registered σ) : List (WriteReply RobotControlReply) := d.replier.super.written

def handsOver (d : Registered σ) (r : Sample RobotControlRequest) : Bool :=
  !(d.replier.suppressInvalid && !r.info.validData)

def runImpl (ts : TypeSupport) (d : Registered σ) (s : σ) :
    Except Exn Unit × Registered σ × σ :=
  let (_,ret,request) := d.replier.receiveRequest ts.requestSample
  let (out,d') := Dispatcher.dispatch ts d.robotimpl ⟨d.replier,s⟩
  (out,
    { d with
      replier := d'.replier
      taken := if ret then d.taken ++ [⟨request,s⟩] else d.taken },
    d'.service)

inductive Ran (ts : TypeSupport) (d : Registered σ) (s : σ) :
    Except Exn Unit → Registered σ → Prop where
  | idle : (∀ r ∈ d.reader.head?, d.handsOver r = false) →
      Ran ts d s (.ok ()) { d with replier.super.reader := d.reader.tail }
  | replied {r : Sample RobotControlRequest} {rest : List (Sample RobotControlRequest)}
      {reply : RobotControlReply} : d.reader = r :: rest → d.handsOver r = true →
      Taken.undeclared ts d.robotimpl ⟨r,s⟩ = false →
      Ran ts d s (.ok ())
        { d with
          replier.super.reader := rest
          replier.super.written := d.written ++ [⟨reply,r.info.identity⟩]
          taken := d.taken ++ [⟨r,s⟩] }
  | escaped {r : Sample RobotControlRequest} {rest : List (Sample RobotControlRequest)}
      {e : Exn} : d.reader = r :: rest → d.handsOver r = true →
      Taken.undeclared ts d.robotimpl ⟨r,s⟩ = true →
      Ran ts d s (.error e)
        { d with
          replier.super.reader := rest
          taken := d.taken ++ [⟨r,s⟩] }

theorem ran_runImpl (ts : TypeSupport) (d : Registered σ) (s : σ) :
    Ran ts d s (d.runImpl ts s).1 (d.runImpl ts s).2.1 := by
  unfold runImpl Dispatcher.dispatch
  rcases d.replier.receiveRequest_cases ts.requestSample with
    ⟨r,rest,hr,hsup,hrecv⟩ | ⟨hnone,s',hrecv⟩
  · have hover : d.handsOver r = true := by simp [handsOver,hsup]
    rw [hrecv]
    simp only [if_true]
    rcases h : dispatchRequest ts d.robotimpl r s with ⟨e | reply,s'⟩
    · exact .escaped hr hover (undeclared_of_dispatchRequest h)
    · simp only [ReplierImpl.sendReply,Replier.sendReply,toConnextIdentity_toRpcSampleIdentity]
      exact .replied hr hover (undeclared_of_dispatchRequest h)
  · rw [hrecv]
    refine .idle (fun r hr => ?_)
    rw [handsOver,hnone r hr]
    rfl

end Registered

/-- `ran` records the calls of `run_impl` by the place of the dispatcher. -/
structure ServerImpl (σ : Type) where
  dispatchers : List (Registered σ)
  service : σ
  ran : List Nat

namespace ServerImpl

def init (s : σ) : ServerImpl σ := ⟨[],s,[]⟩

def registerService (w : ServerImpl σ) (robotimpl : RobotControl σ)
    (replier : ReplierImpl RobotControlCall RobotControlReturn) : ServerImpl σ :=
  { w with dispatchers := w.dispatchers ++ [⟨robotimpl,replier,[]⟩] }

def runImpl (ts : TypeSupport) (w : ServerImpl σ) (i : Nat) : Except Exn Unit × ServerImpl σ :=
  match w.dispatchers[i]? with
  | some d =>
    let (out,d',s) := d.runImpl ts w.service
    (out,{ dispatchers := w.dispatchers.set i d', service := s, ran := w.ran ++ [i] })
  | none => (.ok (),w)

/-- The loop over the places `is`: nothing in it catches an exception. -/
def runLoop (ts : TypeSupport) : List Nat → ServerImpl σ → Except Exn Unit × ServerImpl σ
  | [],w => (.ok (),w)
  | i :: is,w =>
    match w.runImpl ts i with
    | (.ok (),w) => runLoop ts is w
    | (.error e,w) => (.error e,w)

/-- `run()` and `run(timeout)`, which wait for a request for 20 s or as long as told. -/
def run (ts : TypeSupport) (w : ServerImpl σ) : Except Exn Unit × ServerImpl σ :=
  runLoop ts (List.range w.dispatchers.length) w

def runs (ts : TypeSupport) : Nat → ServerImpl σ → ServerImpl σ
  | 0,w => w
  | n+1,w => runs ts n (w.run ts).2

def registered (ds : List (RobotControl σ × ReplierImpl RobotControlCall RobotControlReturn))
    (s : σ) : ServerImpl σ := ds.foldl (fun w d => w.registerService d.1 d.2) (init s)

structure Ledger (ts : TypeSupport) (d₀ : Registered σ) (k : Nat) (d : Registered σ) : Prop where
  robotimpl : d.robotimpl = d₀.robotimpl
  suppressInvalid : d.replier.suppressInvalid = d₀.replier.suppressInvalid
  reader : d.reader = d₀.reader.drop k
  taken : d.taken.map (·.request) = (d₀.reader.take k).filter d₀.handsOver
  written : d.written.map (·.relatedIdentity) = d₀.written.map (·.relatedIdentity) ++
    (d.taken.filter (fun t => !t.undeclared ts d.robotimpl)).map (·.request.info.identity)

theorem Ledger.handsOver {d₀ d : Registered σ} {k : Nat} (h : Ledger ts d₀ k d) :
    d.handsOver = d₀.handsOver := by
  funext r
  rw [Registered.handsOver,Registered.handsOver,h.suppressInvalid]

theorem Ledger.head? {d₀ d : Registered σ} {k : Nat} (h : Ledger ts d₀ k d) :
    d₀.reader[k]? = d.reader.head? := by
  rw [h.reader,List.head?_drop]

theorem Ledger.tail {d₀ d : Registered σ} {k : Nat} (h : Ledger ts d₀ k d) :
    d.reader.tail = d₀.reader.drop (k+1) := by
  rw [h.reader,List.tail_drop]

theorem ledger_ran {d₀ d d' : Registered σ} {k : Nat} {s : σ} {out : Except Exn Unit}
    (hran : Registered.Ran ts d s out d') (h : Ledger ts d₀ k d) : Ledger ts d₀ (k+1) d' := by
  have htake : (d₀.reader.take (k+1)).filter d₀.handsOver =
      d.taken.map (·.request) ++ d.reader.head?.toList.filter d₀.handsOver := by
    rw [List.take_add_one,List.filter_append,h.taken,h.head?]
  have htail := h.tail
  rw [← h.handsOver] at htake
  cases hran with
  | idle hnone =>
    refine ⟨h.robotimpl,h.suppressInvalid,htail,?_,h.written⟩
    rw [← h.handsOver,htake]
    cases hr : d.reader.head? with
    | none => simp
    | some r => simp [hnone r hr]
  | @replied r rest reply hr hover hdecl =>
    rw [hr] at htake htail
    refine ⟨h.robotimpl,h.suppressInvalid,htail,?_,?_⟩
    · rw [← h.handsOver,htake]
      simp [hover]
    · simp [Registered.written,h.written,hdecl]
  | @escaped r rest e hr hover hundecl =>
    rw [hr] at htake htail
    refine ⟨h.robotimpl,h.suppressInvalid,htail,?_,?_⟩
    · rw [← h.handsOver,htake]
      simp [hover]
    · simp [Registered.written,h.written,hundecl]

/-- Each dispatcher has had as many turns as `ran` says. -/
structure Kept (ts : TypeSupport) (w₀ w : ServerImpl σ) : Prop where
  length : w.dispatchers.length = w₀.dispatchers.length
  ledger : ∀ i d₀ d, w₀.dispatchers[i]? = some d₀ → w.dispatchers[i]? = some d →
    Ledger ts d₀ (w.ran.count i) d

theorem kept_runImpl {w₀ w : ServerImpl σ} (i : Nat) (h : Kept ts w₀ w) :
    Kept ts w₀ (w.runImpl ts i).2 := by
  unfold runImpl
  split
  · rename_i d hd
    have hran := d.ran_runImpl ts w.service
    refine ⟨by simp [h.length],fun j d₀ d' hd₀ hd' => ?_⟩
    simp only [List.getElem?_set] at hd'
    split at hd'
    · subst j
      split at hd'
      · cases hd'
        have hcount : (w.ran ++ [i]).count i = w.ran.count i+1 := by simp
        rw [hcount]
        exact ledger_ran hran (h.ledger i d₀ d hd₀ hd)
      · cases hd'
    · have hcount : (w.ran ++ [i]).count j = w.ran.count j := by
        simp [List.count_append,‹¬ i = j›]
      rw [hcount]
      exact h.ledger j d₀ d' hd₀ hd'
  · exact h

theorem kept_runLoop {w₀ w : ServerImpl σ} (is : List Nat) (h : Kept ts w₀ w) :
    Kept ts w₀ (runLoop ts is w).2 := by
  induction is generalizing w with
  | nil => exact h
  | cons i is ih =>
    have hi := kept_runImpl i h
    unfold runLoop
    split
    · rename_i w₁ hrun
      rw [hrun] at hi
      exact ih hi
    · rename_i e w₁ hrun
      rw [hrun] at hi
      exact hi

theorem kept_runs {w₀ w : ServerImpl σ} (n : Nat) (h : Kept ts w₀ w) :
    Kept ts w₀ (w.runs ts n) := by
  induction n generalizing w with
  | zero => exact h
  | succ n ih => exact ih (kept_runLoop _ h)

theorem registered_fresh
    (ds : List (RobotControl σ × ReplierImpl RobotControlCall RobotControlReturn)) (s : σ) :
    (registered ds s).dispatchers = ds.map (fun d => ⟨d.1,d.2,[]⟩) ∧
      (registered ds s).ran = [] := by
  have hfold : ∀ w : ServerImpl σ,
      (ds.foldl (fun w d => w.registerService d.1 d.2) w).dispatchers =
        w.dispatchers ++ ds.map (fun d => ⟨d.1,d.2,[]⟩) ∧
      (ds.foldl (fun w d => w.registerService d.1 d.2) w).ran = w.ran := by
    induction ds with
    | nil => simp
    | cons d ds ih =>
      intro w
      obtain ⟨hd,hr⟩ := ih (w.registerService d.1 d.2)
      exact ⟨hd.trans (by simp [registerService]),hr⟩
  exact hfold (init s)

theorem kept_registered (ts : TypeSupport)
    (ds : List (RobotControl σ × ReplierImpl RobotControlCall RobotControlReturn)) (s : σ) :
    Kept ts (registered ds s) (registered ds s) := by
  obtain ⟨hds,hran⟩ := registered_fresh ds s
  refine ⟨rfl,fun i d₀ d hd₀ hd => ?_⟩
  rw [hd₀] at hd
  cases hd
  have hnew : d₀.taken = [] := by
    rw [hds,List.getElem?_map] at hd₀
    obtain ⟨p,-,rfl⟩ := Option.map_eq_some_iff.mp hd₀
    rfl
  rw [hran]
  exact ⟨rfl,rfl,rfl,by simp [hnew],by simp [hnew]⟩

def Declared (ts : TypeSupport) (w : ServerImpl σ) : Prop :=
  ∀ d ∈ w.dispatchers, ∀ t ∈ d.taken, t.undeclared ts d.robotimpl = false

theorem runImpl_of_declared {w w' : ServerImpl σ} {i : Nat} {out : Except Exn Unit}
    (h : w.runImpl ts i = (out,w')) (hw' : Declared ts w') : out = .ok () ∧ Declared ts w := by
  unfold runImpl at h
  split at h
  · rename_i d hd
    have hran := d.ran_runImpl ts w.service
    simp only [Prod.mk.injEq] at h
    obtain ⟨hout,rfl⟩ := h
    obtain ⟨hlt,-⟩ := List.getElem?_eq_some_iff.mp hd
    have hnew : ∀ t ∈ (d.runImpl ts w.service).2.1.taken,
        t.undeclared ts (d.runImpl ts w.service).2.1.robotimpl = false :=
      hw' _ (List.mem_of_getElem? (by simp [hlt] :
        (w.dispatchers.set i (d.runImpl ts w.service).2.1)[i]? = _))
    have hself : (d.runImpl ts w.service).1 = .ok () ∧
        ∀ t ∈ d.taken, t.undeclared ts d.robotimpl = false := by
      generalize (d.runImpl ts w.service).1 = out' at hran
      generalize (d.runImpl ts w.service).2.1 = d' at hran hnew
      cases hran with
      | idle => exact ⟨rfl,hnew⟩
      | replied => exact ⟨rfl,fun t ht => hnew t (List.mem_append_left _ ht)⟩
      | escaped _ _ hundecl =>
        have hdecl := hnew _ (List.mem_append_right _ (List.mem_singleton_self _))
        rw [hundecl] at hdecl
        cases hdecl
    refine ⟨hout ▸ hself.1,fun d₂ hd₂ => ?_⟩
    obtain ⟨j,hj⟩ := List.getElem?_of_mem hd₂
    by_cases hij : i = j
    · subst j
      rw [hd] at hj
      cases hj
      exact hself.2
    · refine hw' d₂ (List.mem_of_getElem? (i := j) ?_)
      simp [hij,hj]
  · cases h
    exact ⟨rfl,hw'⟩

theorem runImpl_ran (ts : TypeSupport) {w : ServerImpl σ} {i : Nat} (h : i < w.dispatchers.length) :
    (w.runImpl ts i).2.ran = w.ran ++ [i] ∧
      (w.runImpl ts i).2.dispatchers.length = w.dispatchers.length := by
  simp [runImpl,List.getElem?_eq_getElem h]

theorem runLoop_of_declared {is : List Nat} {w : ServerImpl σ}
    (his : ∀ i ∈ is, i < w.dispatchers.length) (h : Declared ts (runLoop ts is w).2) :
    (runLoop ts is w).2.ran = w.ran ++ is ∧
      (runLoop ts is w).2.dispatchers.length = w.dispatchers.length ∧ Declared ts w := by
  induction is generalizing w with
  | nil => exact ⟨by simp [runLoop],rfl,h⟩
  | cons i is ih =>
    obtain ⟨hran,hlen⟩ := runImpl_ran ts (his i List.mem_cons_self)
    unfold runLoop at h ⊢
    rcases hi : w.runImpl ts i with ⟨e | ⟨⟩,w₁⟩
    · rw [hi] at h
      have hout := (runImpl_of_declared hi h).1
      cases hout
    · rw [hi] at h hran hlen
      dsimp only at h hran hlen ⊢
      obtain ⟨hran₁,hlen₁,hw₁⟩ := ih
        (fun j hj => by rw [hlen]; exact his j (List.mem_cons_of_mem _ hj)) h
      exact ⟨by rw [hran₁,hran]; simp,hlen₁.trans hlen,(runImpl_of_declared hi hw₁).2⟩

theorem runs_of_declared {n : Nat} {w : ServerImpl σ} (h : Declared ts (w.runs ts n)) :
    (w.runs ts n).ran =
        w.ran ++ (List.replicate n (List.range w.dispatchers.length)).flatten ∧
      Declared ts w := by
  induction n generalizing w with
  | zero => exact ⟨by simp [runs],h⟩
  | succ n ih =>
    obtain ⟨hran,hw₁⟩ := ih h
    obtain ⟨hran₁,hlen₁,hw⟩ := runLoop_of_declared (fun i hi => List.mem_range.mp hi) hw₁
    refine ⟨?_,hw⟩
    rw [runs,hran,run,hran₁,hlen₁]
    simp [List.replicate_succ]

theorem count_passes {n len i : Nat} (h : i < len) :
    (List.replicate n (List.range len)).flatten.count i = n := by
  have hone : (List.range len).count i = 1 :=
    List.count_eq_one_of_mem List.nodup_range (List.mem_range.mpr h)
  induction n with
  | zero => rfl
  | succ n ih => rw [List.replicate_succ,List.flatten_cons,List.count_append,hone,ih,Nat.add_comm]

/-- In `n` calls every dispatcher has its `n` turns, takes its first `n` requests and
answers those with data. -/
structure Isolated (ts : TypeSupport) (w : ServerImpl σ) (n : Nat) : Prop where
  inOrder : (w.runs ts n).ran =
    w.ran ++ (List.replicate n (List.range w.dispatchers.length)).flatten
  served : ∀ (i : Nat) (d d' : Registered σ), w.dispatchers[i]? = some d →
    (w.runs ts n).dispatchers[i]? = some d' →
    d'.reader = d.reader.drop n ∧
    d'.written.map (·.relatedIdentity) = d.written.map (·.relatedIdentity) ++
      ((d.reader.take n).filter d.handsOver).map (·.info.identity)

theorem count_runs {w : ServerImpl σ} {n i : Nat} {d : Registered σ}
    (hran : (w.runs ts n).ran =
      w.ran ++ (List.replicate n (List.range w.dispatchers.length)).flatten)
    (hnew : w.ran = []) (hd : w.dispatchers[i]? = some d) : (w.runs ts n).ran.count i = n := by
  rw [hran,hnew,List.nil_append]
  exact count_passes (List.getElem?_eq_some_iff.mp hd).1

/-- The services are isolated as long as no method ends with an exception that its
operation does not declare: one such exception ends the pass of all. -/
theorem isolated_iff (ts : TypeSupport)
    (ds : List (RobotControl σ × ReplierImpl RobotControlCall RobotControlReturn)) (s : σ)
    (n : Nat) : Isolated ts (registered ds s) n ↔ Declared ts ((registered ds s).runs ts n) := by
  have hkept := kept_runs n (kept_registered ts ds s)
  have hnew := (registered_fresh ds s).2
  generalize registered ds s = w at hkept hnew ⊢
  constructor
  · rintro ⟨hran,hserved⟩ d' hd' t ht
    obtain ⟨i,hi⟩ := List.getElem?_of_mem hd'
    obtain ⟨hlt,-⟩ := List.getElem?_eq_some_iff.mp hi
    rw [hkept.length] at hlt
    have hd := List.getElem?_eq_getElem hlt
    have hledger := hkept.ledger i _ d' hd hi
    have hids := (hserved i _ d' hd hi).2
    rw [count_runs hran hnew hd] at hledger
    rw [hledger.written,← hledger.taken,List.map_map] at hids
    have hlen := congrArg List.length (List.append_cancel_left hids)
    simp only [List.length_map] at hlen
    simpa using List.length_filter_eq_length_iff.mp hlen t ht
  · intro hdecl
    have hran := (runs_of_declared hdecl).1
    refine ⟨hran,fun i d d' hd hd' => ?_⟩
    have hledger := hkept.ledger i d d' hd hd'
    have hall : d'.taken.filter (fun t => !t.undeclared ts d'.robotimpl) = d'.taken :=
      List.filter_eq_self.mpr (fun t ht => by simp [hdecl d' (List.mem_of_getElem? hd') t ht])
    rw [count_runs hran hnew hd] at hledger
    refine ⟨hledger.reader,?_⟩
    rw [hledger.written,hall,← hledger.taken,List.map_map]
    rfl

def waitingReplier : ReplierImpl RobotControlCall RobotControlReturn :=
  ⟨⟨[Serving.requestOf getSpeedHash],[]⟩,true⟩

theorem isolated_fails : ¬ Isolated .zero (registered
    [(Serving.mutedRobot,waitingReplier),(Serving.echoRobot,waitingReplier)] ()) 1 := by
  intro h
  have hran : [0] = [0,1] := h.inOrder
  cases hran

end ServerImpl
end DdsRpc
