import DdsRpc.RequesterImpl
set_option autoImplicit false

/-! One `RequesterImpl` at work: the application thread that calls it, the arrivals at
its reader and the threads that run `execute`, in any order. -/

namespace DdsRpc
open Connext

inductive Completion (TRep : Type) where
  | value (reply : Sample TRep)
  | exception (what : String)
  deriving DecidableEq

/-- How far a thread has come in `execute`. Its last three are its ways to end: after
`dict.erase`, after "Request timed out", and by an exception of the wait, which stands
outside the `try`. -/
inductive ExecutePc (TRep : Type) where
  | waiting
  | woken
  | holding (c : Completion TRep)
  | completed
  | returned
  | timedOut
  | terminated
  deriving DecidableEq

structure ReplyThread (TRep : Type) where
  identity : DDS.SampleIdentity
  pc : ExecutePc TRep
  deriving DecidableEq

inductive Path where
  | sync
  | async (promise : Nat)
  | ref
  deriving DecidableEq

/-- One call of a send: `requestId` before and after it, and the identity that a send
which did not throw gave the sample. -/
structure RequestRecord where
  path : Path
  buffer : SampleIdentity
  requestId : SampleIdentity
  identity : Option DDS.SampleIdentity
  deriving DecidableEq

def RequestRecord.stamped (q : RequestRecord) : Bool := q.path ≠ .ref
def RequestRecord.sent (q : RequestRecord) : Bool := q.identity.isSome

/-- `requests` and `returned` record the sends and the calls of `receive_reply` that
returned true; the code does not read them. -/
structure Session (α TRep : Type) where
  impl : RequesterImpl α TRep
  promises : List (List (Completion TRep))
  threads : List (ReplyThread TRep)
  requests : List RequestRecord
  returned : List (SampleIdentity × Sample TRep)

namespace Session
variable {α TRep : Type}

def init (writerGuid : DDS.GUID) : Session α TRep := ⟨.init writerGuid,[],[],[],[]⟩

abbrev reader (w : Session α TRep) : List (Sample TRep) := w.impl.super.reader

def withReader (w : Session α TRep) (rs : List (Sample TRep)) : Session α TRep :=
  { w with impl := w.impl.withReader rs }

def setPc (w : Session α TRep) (k : Nat) (pc : ExecutePc TRep) : Session α TRep :=
  { w with threads := w.threads.modify k (fun t => { t with pc }) }

def arrive (w : Session α TRep) (a : Arrival TRep) : Session α TRep :=
  { w with impl := { w.impl with super := w.impl.super.arrive a } }

/-- `dict[identity].set_value(..)` or `.set_exception(..)`: with no entry for
`identity`, `operator []` makes a promise whose future nobody holds. -/
def setPromise (w : Session α TRep) (identity : DDS.SampleIdentity) (c : Completion TRep) :
    Session α TRep :=
  match w.impl.dict.find identity with
  | some p => { w with promises := w.promises.modify p (· ++ [c]) }
  | none =>
    { w with
      impl := { w.impl with dict := w.impl.dict.set identity w.promises.length }
      promises := w.promises ++ [[c]] }

def eraseDict (w : Session α TRep) (identity : DDS.SampleIdentity) : Session α TRep :=
  { w with impl := { w.impl with dict := w.impl.dict.erase identity } }

inductive ThreadStep where
  | wake | expire | waitThrows
  | take | takeThrows (what : String)
  | complete | erase
  deriving DecidableEq

def replyUnavailable : String := "RequesterImpl::execute: Reply unavailable!"

/-- The next step of the `k`-th thread in `execute`. What its timed wait comes to, and
whether `take_reply` throws, is the environment's choice. -/
def threadStep (T : TakeReply TRep) (w : Session α TRep) (k : Nat) (s : ThreadStep) :
    Option (Session α TRep) := do
  let t ← w.threads[k]?
  match s,t.pc with
  | .wake,.waiting => some (w.setPc k .woken)
  | .expire,.waiting => some (w.setPc k .timedOut)
  | .waitThrows,.waiting => some (w.setPc k .terminated)
  | .take,.woken =>
    match T.take w.reader t.identity with
    | some (r,rest) => some ((w.withReader rest).setPc k (.holding (.value r)))
    | none => some (w.setPc k (.holding (.exception replyUnavailable)))
  | .takeThrows what,.woken => some (w.setPc k (.holding (.exception what)))
  | .complete,.holding c => some ((w.setPromise t.identity c).setPc k .completed)
  | .erase,.completed => some ((w.eraseDict t.identity).setPc k .returned)
  | _,_ => none

inductive Env (TRep : Type) where
  | arrive (a : Arrival TRep)
  | thread (k : Nat) (s : ThreadStep)
  deriving DecidableEq

def envStep (T : TakeReply TRep) (w : Session α TRep) : Env TRep → Option (Session α TRep)
  | .arrive a => some (w.arrive a)
  | .thread k s => w.threadStep T k s

def environment (T : TakeReply TRep) : Machine (Session α TRep) (Env TRep) := ⟨envStep T⟩

/-- `wait_for_replies(1, timeout)`: true as soon as the reader holds any reply. `during`
is what happens before the deadline as long as the wait goes on. -/
def waitForReplies (T : TakeReply TRep) (w : Session α TRep) :
    List (Env TRep) → Option (Session α TRep × Bool)
  | [] => some (w,!w.reader.isEmpty)
  | e :: during =>
    if w.reader.isEmpty then (w.envStep T e).bind (fun w => w.waitForReplies T during)
    else some (w,true)

/-- `between` is what happens between the end of the wait and the take. -/
def receiveReply (T : TakeReply TRep) (w : Session α TRep) (reply : Sample TRep)
    (relatedRequestId : SampleIdentity) (during between : List (Env TRep)) :
    Option (Session α TRep × Bool × Sample TRep) :=
  if (w.impl.id2idMap.find relatedRequestId).isSome then do
    let (w,woke) ← w.waitForReplies T during
    if woke then
      let w ← (environment T).run w between
      let (impl,ret,reply) := w.impl.takeRelated T reply relatedRequestId
      some ({ w with impl },ret,reply)
    else some (w,false,reply)
  else some (w,false,reply)

def recordReturn (w : Session α TRep) (id : SampleIdentity) (ret : Bool)
    (reply : Sample TRep) : Session α TRep :=
  if ret then { w with returned := w.returned ++ [(id,reply)] } else w

theorem recordReturn_impl (w : Session α TRep) (id : SampleIdentity) (ret : Bool)
    (reply : Sample TRep) : (w.recordReturn id ret reply).impl = w.impl := by
  cases ret <;> rfl

def record (w : Session α TRep) (path : Path) (req : Request α) (sent : Bool) :
    RequestRecord where
  path := path
  buffer := req.header.requestId
  requestId := (if path = .ref then req else w.impl.stamp req).header.requestId
  identity := if sent then some w.impl.super.nextIdentity else none

def sendRequest (w : Session α TRep) (req : Request α) (sent : Bool) : Session α TRep :=
  { w with
    impl := (w.impl.sendRequest req sent).1
    requests := w.requests ++ [w.record .sync req sent] }

def sendRequestRef (w : Session α TRep) (req : Request α) (sent : Bool) : Session α TRep :=
  { w with
    impl := w.impl.sendRequestRef req sent
    requests := w.requests ++ [w.record .ref req sent] }

/-- A send that throws takes the promise, which nobody waits on, down with it. -/
def sendRequestAsync (w : Session α TRep) (req : Request α) (sent : Bool) : Session α TRep :=
  let p := w.promises.length
  let w' := { w with
    impl := (w.impl.sendRequestAsync req p sent).1
    requests := w.requests ++ [w.record (.async p) req sent] }
  if sent then
    { w' with
      promises := w.promises ++ [[]]
      threads := w.threads ++ [⟨w.impl.super.nextIdentity,.waiting⟩] }
  else w'

inductive Event (α TRep : Type) where
  | sendRequest (req : Request α) (sent : Bool)
  | sendRequestRef (req : Request α) (sent : Bool)
  | sendRequestAsync (req : Request α) (sent : Bool)
  | receiveNondataSamples (enable : Bool)
  | receiveReply (reply : Sample TRep) (id : SampleIdentity) (during between : List (Env TRep))
  | env (e : Env TRep)
  deriving DecidableEq

def step (T : TakeReply TRep) (w : Session α TRep) : Event α TRep → Option (Session α TRep)
  | .sendRequest req sent => some (w.sendRequest req sent)
  | .sendRequestRef req sent => some (w.sendRequestRef req sent)
  | .sendRequestAsync req sent => some (w.sendRequestAsync req sent)
  | .receiveNondataSamples enable =>
    some { w with impl := (w.impl.receiveNondataSamples enable).1 }
  | .receiveReply reply id during between =>
    (w.receiveReply T reply id during between).map (fun p => p.1.recordReturn id p.2.1 p.2.2)
  | .env e => w.envStep T e

def machine (T : TakeReply TRep) : Machine (Session α TRep) (Event α TRep) := ⟨step T⟩

inductive Executed (T : TakeReply TRep) (w : Session α TRep) (k : Nat)
    (t : ReplyThread TRep) : ThreadStep → Session α TRep → Prop where
  | wake : t.pc = .waiting → Executed T w k t .wake (w.setPc k .woken)
  | expire : t.pc = .waiting → Executed T w k t .expire (w.setPc k .timedOut)
  | waitThrows : t.pc = .waiting → Executed T w k t .waitThrows (w.setPc k .terminated)
  | take {r : Sample TRep} {rest : List (Sample TRep)} : t.pc = .woken →
      T.take w.reader t.identity = some (r,rest) →
      Executed T w k t .take ((w.withReader rest).setPc k (.holding (.value r)))
  | unavailable : t.pc = .woken → T.take w.reader t.identity = none →
      Executed T w k t .take (w.setPc k (.holding (.exception replyUnavailable)))
  | takeThrows {what : String} : t.pc = .woken →
      Executed T w k t (.takeThrows what) (w.setPc k (.holding (.exception what)))
  | complete {c : Completion TRep} : t.pc = .holding c →
      Executed T w k t .complete ((w.setPromise t.identity c).setPc k .completed)
  | erase : t.pc = .completed →
      Executed T w k t .erase ((w.eraseDict t.identity).setPc k .returned)

theorem threadStep_cases {T : TakeReply TRep} {w w' : Session α TRep} {k : Nat}
    {s : ThreadStep} (h : w.threadStep T k s = some w') :
    ∃ t, w.threads[k]? = some t ∧ Executed T w k t s w' := by
  obtain ⟨t,ht,hs⟩ := Option.bind_eq_some_iff.mp h
  clear h
  refine ⟨t,ht,?_⟩
  split at hs
  case h_4 hpc =>
    split at hs
    case h_1 htake => cases hs; exact .take hpc htake
    case h_2 htake => cases hs; exact .unavailable hpc htake
  case h_8 => cases hs
  all_goals cases hs
  case h_1 hpc => exact .wake hpc
  case h_2 hpc => exact .expire hpc
  case h_3 hpc => exact .waitThrows hpc
  case h_5 hpc => exact .takeThrows hpc
  case h_6 hpc => exact .complete hpc
  case h_7 hpc => exact .erase hpc

/-- Everything a call of `receive_reply` can come to; `fs` is what happened during it. -/
inductive Received (T : TakeReply TRep) (w : Session α TRep) (reply : Sample TRep)
    (id : SampleIdentity) (fs : List (Env TRep)) :
    Session α TRep → Bool → Sample TRep → Prop where
  | unknown : w.impl.id2idMap.find id = none → fs = [] → Received T w reply id fs w false reply
  | timedOut {w₁ : Session α TRep} : (environment T).run w fs = some w₁ →
      Received T w reply id fs w₁ false reply
  | delivered {w₁ : Session α TRep} {i : DDS.SampleIdentity} {r : Sample TRep}
      {rest : List (Sample TRep)} : (environment T).run w fs = some w₁ →
      w₁.impl.id2idMap.find id = some i → T.take w₁.reader i = some (r,rest) →
      (w₁.impl.suppressInvalid && !r.info.validData) = false →
      Received T w reply id fs
        { w₁ with
          impl := { w₁.impl.withReader rest with id2idMap := w₁.impl.id2idMap.erase id } }
        true r
  | suppressed {w₁ : Session α TRep} {i : DDS.SampleIdentity} {r : Sample TRep}
      {rest : List (Sample TRep)} : (environment T).run w fs = some w₁ →
      w₁.impl.id2idMap.find id = some i → T.take w₁.reader i = some (r,rest) →
      (w₁.impl.suppressInvalid && !r.info.validData) = true →
      Received T w reply id fs (w₁.withReader rest) false r
  | kept {w₁ : Session α TRep} {i : DDS.SampleIdentity} :
      (environment T).run w fs = some w₁ →
      w₁.impl.id2idMap.find id = some i → T.take w₁.reader i = none →
      (w₁.impl.suppressInvalid && !reply.info.validData) = true →
      Received T w reply id fs w₁ false reply
  | dropped {w₁ : Session α TRep} {i : DDS.SampleIdentity} :
      (environment T).run w fs = some w₁ →
      w₁.impl.id2idMap.find id = some i → T.take w₁.reader i = none →
      (w₁.impl.suppressInvalid && !reply.info.validData) = false →
      Received T w reply id fs
        { w₁ with impl := { w₁.impl with id2idMap := w₁.impl.id2idMap.erase id } } false reply

def waited (T : TakeReply TRep) (w : Session α TRep) : List (Env TRep) → List (Env TRep)
  | [] => []
  | e :: during =>
    if w.reader.isEmpty then
      e :: match w.envStep T e with
        | some w => w.waited T during
        | none => []
    else []

def around (T : TakeReply TRep) (w : Session α TRep) (relatedRequestId : SampleIdentity)
    (during between : List (Env TRep)) : List (Env TRep) :=
  if (w.impl.id2idMap.find relatedRequestId).isSome then
    match w.waitForReplies T during with
    | some (_,woke) => w.waited T during ++ if woke then between else []
    | none => []
  else []

theorem waited_subset (T : TakeReply TRep) (w : Session α TRep) (during : List (Env TRep)) :
    w.waited T during ⊆ during := by
  induction during generalizing w with
  | nil => simp [waited]
  | cons e during ih =>
    unfold waited
    split
    · refine List.cons_subset_cons e ?_
      split
      · exact ih _
      · simp
    · simp

theorem run_waited {T : TakeReply TRep} {w w₁ : Session α TRep} {during : List (Env TRep)}
    {woke : Bool} (h : w.waitForReplies T during = some (w₁,woke)) :
    (environment T).run w (w.waited T during) = some w₁ := by
  induction during generalizing w with
  | nil =>
    simp only [waitForReplies,Option.some.injEq,Prod.mk.injEq] at h
    exact congrArg some h.1
  | cons e during ih =>
    simp only [waitForReplies] at h
    unfold waited
    split at h
    · rename_i hempty
      obtain ⟨u,hu,hrest⟩ := Option.bind_eq_some_iff.mp h
      rw [if_pos hempty,hu]
      exact Machine.run_cons.mpr ⟨u,hu,ih hrest⟩
    · rename_i hempty
      simp only [Option.some.injEq,Prod.mk.injEq] at h
      rw [if_neg hempty]
      exact congrArg some h.1

theorem around_subset (T : TakeReply TRep) (w : Session α TRep) (id : SampleIdentity)
    (during between : List (Env TRep)) : w.around T id during between ⊆ during ++ between := by
  have hwaited := w.waited_subset T during
  unfold around
  split
  · split
    · refine List.append_subset.mpr ⟨List.subset_append_of_subset_left _ hwaited,?_⟩
      split
      · exact List.subset_append_right _ _
      · simp
    · simp
  · simp

/-- What no step around the application thread touches: all that the sends, the toggle
and `receive_reply` itself write. -/
structure AppUnchanged (w w' : Session α TRep) : Prop where
  id2idMap : w'.impl.id2idMap = w.impl.id2idMap
  suppressInvalid : w'.impl.suppressInvalid = w.impl.suppressInvalid
  sn : w'.impl.sn = w.impl.sn
  writerGuid : w'.impl.super.writerGuid = w.impl.super.writerGuid
  written : w'.impl.super.written = w.impl.super.written
  requests : w'.requests = w.requests
  returned : w'.returned = w.returned

theorem AppUnchanged.refl (w : Session α TRep) : AppUnchanged w w := ⟨rfl,rfl,rfl,rfl,rfl,rfl,rfl⟩

theorem AppUnchanged.trans {w₁ w₂ w₃ : Session α TRep} (h : AppUnchanged w₁ w₂)
    (h' : AppUnchanged w₂ w₃) : AppUnchanged w₁ w₃ :=
  ⟨h'.id2idMap.trans h.id2idMap,h'.suppressInvalid.trans h.suppressInvalid,h'.sn.trans h.sn,
    h'.writerGuid.trans h.writerGuid,h'.written.trans h.written,h'.requests.trans h.requests,
    h'.returned.trans h.returned⟩

theorem setPromise_unchanged (w : Session α TRep) (i : DDS.SampleIdentity)
    (c : Completion TRep) : AppUnchanged w (w.setPromise i c) := by
  unfold setPromise
  split <;> exact ⟨rfl,rfl,rfl,rfl,rfl,rfl,rfl⟩

@[simp] theorem setPromise_threads (w : Session α TRep) (i : DDS.SampleIdentity)
    (c : Completion TRep) : (w.setPromise i c).threads = w.threads := by
  unfold setPromise
  split <;> rfl

@[simp] theorem setPromise_super (w : Session α TRep) (i : DDS.SampleIdentity)
    (c : Completion TRep) : (w.setPromise i c).impl.super = w.impl.super := by
  unfold setPromise
  split <;> rfl

theorem envStep_unchanged {T : TakeReply TRep} {w w' : Session α TRep} {e : Env TRep}
    (h : w.envStep T e = some w') : AppUnchanged w w' := by
  cases e with
  | arrive a =>
    cases h
    exact ⟨rfl,rfl,rfl,rfl,rfl,rfl,rfl⟩
  | thread k s =>
    obtain ⟨t,-,hex⟩ := threadStep_cases h
    cases hex with
    | complete hpc =>
      exact (setPromise_unchanged w t.identity _).trans ⟨rfl,rfl,rfl,rfl,rfl,rfl,rfl⟩
    | _ => exact ⟨rfl,rfl,rfl,rfl,rfl,rfl,rfl⟩

theorem envRun_unchanged {T : TakeReply TRep} {w w' : Session α TRep} {fs : List (Env TRep)}
    (h : (environment T).run w fs = some w') : AppUnchanged w w' :=
  Machine.run_preserves (P := AppUnchanged w) (fun hs hw => hw.trans (envStep_unchanged hs)) h
    (.refl w)

theorem receiveReply_around {T : TakeReply TRep} {w w' : Session α TRep}
    {reply reply' : Sample TRep} {id : SampleIdentity} {during between : List (Env TRep)}
    {ret : Bool} (h : w.receiveReply T reply id during between = some (w',ret,reply')) :
    Received T w reply id (w.around T id during between) w' ret reply' := by
  unfold receiveReply at h
  unfold around
  cases hf : w.impl.id2idMap.find id with
  | none =>
    simp only [hf,Option.isSome_none,Bool.false_eq_true,if_false,Option.some.injEq,
      Prod.mk.injEq] at h
    obtain ⟨rfl,rfl,rfl⟩ := h
    exact .unknown hf rfl
  | some i =>
    simp only [hf,Option.isSome_some,if_true] at h ⊢
    obtain ⟨⟨w₁,woke⟩,hwait,h⟩ := Option.bind_eq_some_iff.mp h
    have hrun := run_waited hwait
    simp only [hwait]
    cases woke with
    | false =>
      simp only [Bool.false_eq_true,if_false,Option.some.injEq,Prod.mk.injEq] at h
      obtain ⟨rfl,rfl,rfl⟩ := h
      exact .timedOut (by simpa using hrun)
    | true =>
      simp only [if_true] at h ⊢
      obtain ⟨w₂,hrun₂,h⟩ := Option.bind_eq_some_iff.mp h
      have hboth : (environment T).run w (w.waited T during ++ between) = some w₂ :=
        Machine.run_append.mpr ⟨w₁,hrun,hrun₂⟩
      have hf₂ : w₂.impl.id2idMap.find id = some i := by
        rw [(envRun_unchanged hboth).id2idMap,hf]
      simp only [Option.some.injEq,Prod.mk.injEq] at h
      obtain ⟨rfl,rfl,rfl⟩ := h
      cases ht : T.take w₂.reader i with
      | none =>
        rw [RequesterImpl.takeRelated_of_not_take hf₂ ht]
        split
        · exact .kept hboth hf₂ ht ‹_›
        · exact .dropped hboth hf₂ ht (eq_false_of_ne_true ‹_›)
      | some p =>
        obtain ⟨r,rest⟩ := p
        rw [RequesterImpl.takeRelated_of_take hf₂ ht]
        split
        · exact .suppressed hboth hf₂ ht ‹_›
        · exact .delivered hboth hf₂ ht (eq_false_of_ne_true ‹_›)

end Session
end DdsRpc
