import DdsRpc.AsyncCalls
set_option autoImplicit false

namespace DdsRpc
open Connext

namespace Session
variable {α TRep : Type} {T : TakeReply TRep} {P Q : Sample TRep → Prop}

/-- Every reply that has reached the requester, wherever it is now. -/
structure Holds (P : Sample TRep → Prop) (w : Session α TRep) : Prop where
  reader : ∀ r ∈ w.reader, P r
  held : ∀ t ∈ w.threads, ∀ r, t.pc = .holding (.value r) → P r
  promised : ∀ cs ∈ w.promises, ∀ r, .value r ∈ cs → P r

theorem holds_init (guid : DDS.GUID) : Holds P (init guid : Session α TRep) where
  reader r hr := by cases hr
  held t ht := by cases ht
  promised cs hcs := by cases hcs

theorem Holds.mono (hPQ : ∀ r, P r → Q r) {w : Session α TRep} (hw : w.Holds P) : w.Holds Q where
  reader r hr := hPQ r (hw.reader r hr)
  held t ht r hr := hPQ r (hw.held t ht r hr)
  promised cs hcs r hr := hPQ r (hw.promised cs hcs r hr)

theorem holds_arrive {w : Session α TRep} (hw : w.Holds P) {a : Arrival TRep}
    (ha : ∀ n, P (a.sample n)) : (w.arrive a).Holds P where
  reader r hr := by
    rcases List.mem_append.mp hr with hr | hr
    · exact hw.reader r hr
    · rw [List.mem_singleton.mp hr]
      exact ha _
  held := hw.held
  promised := hw.promised

theorem holds_sendRequestAsync {w : Session α TRep} (hw : w.Holds P) (req : Request α)
    (sent : Bool) : (w.sendRequestAsync req sent).Holds P := by
  cases sent with
  | false => exact ⟨hw.reader,hw.held,hw.promised⟩
  | true =>
    refine ⟨hw.reader,fun t ht r hr => ?_,fun cs hcs r hr => ?_⟩
    · rcases List.mem_append.mp ht with ht | ht
      · exact hw.held t ht r hr
      · rw [List.mem_singleton.mp ht] at hr
        cases hr
    · rcases List.mem_append.mp hcs with hcs | hcs
      · exact hw.promised cs hcs r hr
      · rw [List.mem_singleton.mp hcs] at hr
        cases hr

theorem mem_modify {X : Type} {l : List X} {k : Nat} {f : X → X} {x : X}
    (h : x ∈ l.modify k f) : x ∈ l ∨ ∃ y ∈ l, x = f y := by
  obtain ⟨j,hj⟩ := List.getElem?_of_mem h
  rw [List.getElem?_modify] at hj
  obtain ⟨y,hy,rfl⟩ := Option.map_eq_some_iff.mp hj
  split
  · exact .inr ⟨y,List.mem_of_getElem? hy,rfl⟩
  · exact .inl (List.mem_of_getElem? hy)

theorem holds_setPc {w : Session α TRep} (hw : w.Holds P) {pc : ExecutePc TRep}
    (hpc : ∀ r, pc = .holding (.value r) → P r) (k : Nat) : (w.setPc k pc).Holds P where
  reader := hw.reader
  held t ht r hr := by
    rcases mem_modify ht with ht | ⟨u,-,rfl⟩
    · exact hw.held t ht r hr
    · exact hpc r hr
  promised := hw.promised

theorem holds_setPromise {w : Session α TRep} (hw : w.Holds P) (i : DDS.SampleIdentity)
    {c : Completion TRep} (hc : ∀ r, c = .value r → P r) : (w.setPromise i c).Holds P := by
  unfold setPromise
  split
  · refine ⟨hw.reader,hw.held,fun cs hcs r hr => ?_⟩
    rcases mem_modify hcs with hcs | ⟨ds,hds,rfl⟩
    · exact hw.promised cs hcs r hr
    · rcases List.mem_append.mp hr with hr | hr
      · exact hw.promised ds hds r hr
      · exact hc r (List.mem_singleton.mp hr).symm
  · refine ⟨hw.reader,hw.held,fun cs hcs r hr => ?_⟩
    rcases List.mem_append.mp hcs with hcs | hcs
    · exact hw.promised cs hcs r hr
    · rw [List.mem_singleton.mp hcs] at hr
      exact hc r (List.mem_singleton.mp hr).symm

theorem holds_threadStep {w w' : Session α TRep} {k : Nat} {s : ThreadStep}
    (h : w.threadStep T k s = some w') (hw : w.Holds P) : w'.Holds P := by
  obtain ⟨t,ht,hex⟩ := threadStep_cases h
  cases hex with
  | wake | expire | waitThrows | unavailable | takeThrows =>
    exact holds_setPc hw (fun _ hr => by cases hr) k
  | @take r rest hpc htake =>
    have hperm := (T.take_some htake).2
    have hrest : (w.withReader rest).Holds P :=
      ⟨fun x hx => hw.reader x (hperm.mem_iff.mpr (.tail _ hx)),hw.held,hw.promised⟩
    refine holds_setPc hrest (fun x hx => ?_) k
    cases hx
    exact hw.reader r (hperm.mem_iff.mpr (.head _))
  | complete hpc =>
    have hc := hw.held t (List.mem_of_getElem? ht)
    refine holds_setPc (holds_setPromise hw _ (fun r hr => hc r ?_)) (fun _ hr => by cases hr) k
    rw [hpc,hr]
  | erase =>
    exact holds_setPc (w := w.eraseDict t.identity) ⟨hw.reader,hw.held,hw.promised⟩
      (fun _ hr => by cases hr) k

theorem threadIds_envStep {w w' : Session α TRep} {e : Env TRep} (h : w.envStep T e = some w') :
    w'.threadIds = w.threadIds := by
  cases e with
  | arrive a =>
    cases h
    rfl
  | thread k s =>
    obtain ⟨t,-,hex⟩ := threadStep_cases h
    cases hex with
    | wake | expire | waitThrows | take | unavailable | takeThrows | erase =>
      exact threadIds_setPc _ k _
    | complete =>
      rw [threadIds_setPc,threadIds,setPromise_threads,threadIds]

end Session

/-- The sample came in with a reply that the server has written. -/
def Came {TRep : Type} (receive : TRep → TRep) (written : List (WriteReply TRep))
    (r : Sample TRep) : Prop :=
  ∃ x ∈ written, r.info.relatedIdentity = x.relatedIdentity ∧ r.data = receive x.data

theorem Came.mono {TRep : Type} {receive : TRep → TRep} {written written' : List (WriteReply TRep)}
    (h : written ⊆ written') {r : Sample TRep} (hr : Came receive written r) :
    Came receive written' r := by
  obtain ⟨x,hx,hrest⟩ := hr
  exact ⟨x,h hx,hrest⟩

def Completion.what {TRep : Type} : Completion TRep → Option String
  | .value _ => none
  | .exception what => some what

theorem Completion.eq_value {TRep : Type} {v : Completion TRep} (h : v.what = none) :
    ∃ reply, v = .value reply := by
  cases v with
  | value reply => exact ⟨reply,rfl⟩
  | exception => cases h

theorem Completion.eq_exception {TRep : Type} {v : Completion TRep} {what : String}
    (h : v.what = some what) : v = .exception what := by
  cases v with
  | value => cases h
  | exception => exact congrArg Completion.exception (Option.some.inj h)

/-- The text of the exception with which the promise has been completed. -/
def Session.failure {α TRep : Type} (w : Session α TRep) (n : Nat) : Option String :=
  w.promises[n]?.bind (fun cs => cs.findSome? Completion.what)

theorem Session.failure_concat {α TRep : Type} {w w' : Session α TRep} {n : Nat}
    {v : Completion TRep} {what : String} (h : w'.promises = w.promises ++ [[v]])
    (hn : w'.failure n = some what) : w.failure n = some what ∨ v.what = some what := by
  unfold failure at hn ⊢
  rw [h] at hn
  rcases Nat.lt_trichotomy n w.promises.length with hlt | rfl | hgt
  · exact .inl (by rwa [List.getElem?_append_left hlt] at hn)
  · exact .inr (by simpa using hn)
  · rw [List.getElem?_eq_none (by simpa using Nat.succ_le_of_lt hgt)] at hn
    cases hn

theorem Session.promises_update {ι α TRep : Type} [DecidableEq ι] {client : ι → Session α TRep}
    {i : ι} {c : Session α TRep} {v : Completion TRep}
    (h : c.promises = (client i).promises ++ [[v]]) {j : ι} {n : ℕ} {cs : List (Completion TRep)}
    (hn : (client j).promises[n]? = some cs) :
    (Function.update client i c j).promises[n]? = some cs := by
  rcases eq_or_ne j i with rfl | hj
  · rw [Function.update_self,h]
    exact (List.prefix_append _ _).getElem?_eq_some hn
  · rwa [Function.update_of_ne hj]

namespace ClientImpl

/-- The call that `<op>_async` asks for: whatever the command, it is the one that `create_data`
has put into the request. -/
def asked (ts : TypeSupport) : Call → Call
  | .command _ => .command ts.createRequest.data.command.com
  | op => op

abbrev Told (op : Call) : Type := Except Exn (AsyncResult op)

/-- A `TooFast` is told of as a new one, and a status without its string. -/
def retold (ts : TypeSupport) : (op : Call) → Outcome (asked ts op) → Told op
  | .command _,out => out
  | .setSpeed _,.error (.tooFast _) => .error (.tooFast ⟨0⟩)
  | .setSpeed _,out => out
  | .getSpeed,out => out
  | .getStatus,out => out.map (fun status => ⟨(CharPtr.of status.msg).released⟩)

/-- A method called directly, with the argument and the outcome that an asynchronous call
would give it. -/
def told {σ : Type} (ts : TypeSupport) (R : RobotControl σ) (op : Call) (s : σ) : Told op × σ :=
  (retold ts op (R.call ts.createStatus (asked ts op) s).1,
    (R.call ts.createStatus (asked ts op) s).2)

theorem requestAsync_asked (ts : TypeSupport) (op : Call) :
    (requestAsync ts op).data.selected = some (asked ts op) := by
  cases op <;> rfl

theorem continuation_receivedReply {ts : TypeSupport} {op : Call} {out : Outcome (asked ts op)}
    {reply : RobotControlReply} (h : replyOf ts (asked ts op) out = .ok reply)
    (id : SampleIdentity) (info : SampleInfo) :
    continuation op (.ok ⟨ts.receivedReply (ReplierImpl.outgoing reply id),info⟩) =
      retold ts op out := by
  cases op with
  | command com =>
    rcases out with e | ⟨⟩
    · cases h
    · rfl
  | setSpeed v =>
    rcases out with (e | e | _) | v
    case error.tooFast | ok =>
      cases h
      rfl
    all_goals cases h
  | getSpeed | getStatus =>
    rcases out with e | v
    · cases h
    · cases h
      rfl

/-- What `execute` completes the promise with: the exception with the text `what` is
`exn what`. -/
def completion (exn : String → Exn) : Completion RobotControlReply → ReplyFuture
  | .value reply => .ok reply
  | .exception what => .error (exn what)

def completedOutcome (P : Ppl Exn) (exn : String → Exn) (op : Call)
    (v : Completion RobotControlReply) : Told op :=
  (async op (Promise.getFuture (completion exn v) : Future P (Sample RobotControlReply))).outcome

def thrown (exn : String → Exn) (op : Call) (what : String) : Told op := .error (exn what)

theorem completedOutcome_exception (P : Ppl Exn) (exn : String → Exn) (op : Call)
    (what : String) : completedOutcome P exn op (.exception what) = thrown exn op what := by
  rw [completedOutcome,outcome_async]
  refine (congrArg (continuation op) (P.outcome_ofEvent _)).trans ?_
  cases op <;> rfl

end ClientImpl

def callIdentity (guid : DDS.GUID) (n : Nat) : DDS.SampleIdentity := ⟨guid,.nth (n+1)⟩

theorem callIdentity_inj {g g' : DDS.GUID} {m n : Nat}
    (h : callIdentity g m = callIdentity g' n) : g = g' ∧ m = n := by
  obtain ⟨hg,hn⟩ := DDS.SampleIdentity.mk.inj h
  exact ⟨hg,Nat.succ.inj (SequenceNumber.nth_injective hn)⟩

/-- A client whose `n`-th thread and `n`-th request are those of its `n`-th call: `see` is
what counts of a request, and `ask` what a call puts there. -/
structure AsyncClient {α TRep Op β : Type} (see : α → β) (ask : Op → β) (guid : DDS.GUID)
    (calls : List Op) (c : Session α TRep) : Prop where
  writer : c.impl.super.writerGuid = guid
  threads : Session.Threads c
  ids : c.threadIds = (List.range calls.length).map (callIdentity guid)
  written : c.impl.super.written.map (fun s => (s.identity,see s.data.data)) =
    calls.zipIdx.map (fun p => (callIdentity guid p.2,ask p.1))

namespace AsyncClient
variable {α TRep Op β : Type} {see : α → β} {ask : Op → β} {guid : DDS.GUID} {calls : List Op}
  {c c' : Session α TRep} {T : TakeReply TRep}

theorem init (see : α → β) (ask : Op → β) (guid : DDS.GUID) :
    AsyncClient see ask guid [] (.init guid : Session α TRep) :=
  ⟨rfl,Session.threads_init guid,rfl,rfl⟩

theorem written_length (h : AsyncClient see ask guid calls c) :
    c.impl.super.written.length = calls.length := by
  simpa using congrArg List.length h.written

theorem seen_written (h : AsyncClient see ask guid calls c) :
    c.impl.super.written.map (fun s => see s.data.data) = calls.map ask := by
  have hsnd := congrArg (List.map Prod.snd) h.written
  rw [List.map_map,List.map_map] at hsnd
  refine hsnd.trans ?_
  rw [← List.zipIdx_map_fst 0 calls,List.map_map,List.zipIdx_map_fst 0 calls]
  rfl

theorem nextIdentity (h : AsyncClient see ask guid calls c) :
    c.impl.super.nextIdentity = callIdentity guid calls.length := by
  rw [Requester.nextIdentity,h.writer,h.written_length,callIdentity]

theorem send (h : AsyncClient see ask guid calls c) {op : Op} {req : Request α}
    (hreq : see req.data = ask op) :
    AsyncClient see ask guid (calls ++ [op]) (c.sendRequestAsync req true) where
  writer := h.writer
  threads := Session.threads_sendRequestAsync h.threads _
  ids := by
    have hids : (c.sendRequestAsync req true).threadIds =
        c.threadIds ++ [c.impl.super.nextIdentity] := by
      simp [Session.threadIds,Session.sendRequestAsync]
    rw [hids,h.ids,h.nextIdentity]
    simp [List.range_succ]
  written := by
    have hid := h.nextIdentity
    have hw := h.written
    simp only [Session.sendRequestAsync,RequesterImpl.sendRequestAsync,Requester.sendRequest,
      if_true,List.map_append,List.zipIdx_append,List.map_cons,List.map_nil,
      RequesterImpl.stamp] at hw hid ⊢
    rw [hw,hreq]
    simpa [List.zipIdx] using hid

theorem sendThrows (h : AsyncClient see ask guid calls c) (req : Request α) :
    AsyncClient see ask guid calls (c.sendRequestAsync req false) :=
  ⟨h.writer,Session.threads_of_unchanged (Session.sendRequestAsync_threads_of_throw c req)
    h.threads,h.ids,h.written⟩

theorem envStep {e : Session.Env TRep} (h : AsyncClient see ask guid calls c)
    (hs : c.envStep T e = some c') : AsyncClient see ask guid calls c' := by
  have hsame := Session.envStep_unchanged hs
  refine ⟨hsame.writerGuid.trans h.writer,Session.threads_envStep hs h.threads,?_,?_⟩
  · rw [Session.threadIds_envStep hs,h.ids]
  · rw [hsame.written,h.written]

theorem written_get (h : AsyncClient see ask guid calls c) {n : Nat}
    {req : WriteSample (Request α)} (hreq : c.impl.super.written[n]? = some req) :
    ∃ op, calls[n]? = some op ∧ req.identity = callIdentity guid n ∧
      see req.data.data = ask op := by
  have hn := congrArg (fun l => l[n]?) h.written
  simp only [List.getElem?_map,List.getElem?_zipIdx,hreq,Option.map_some] at hn
  cases hop : calls[n]? with
  | none => simp [hop] at hn
  | some op =>
    simp only [hop,Option.map_some,Nat.zero_add,Option.some.injEq,Prod.mk.injEq] at hn
    exact ⟨op,rfl,hn.1,hn.2⟩

theorem promises_length (h : AsyncClient see ask guid calls c) :
    c.promises.length = calls.length := by
  have hlen := congrArg List.length h.ids
  rw [List.length_map,List.length_range,Session.threadIds,List.length_map] at hlen
  rw [h.threads.promises,hlen]

theorem related (h : AsyncClient see ask guid calls c) {n : Nat} {cs : List (Completion TRep)}
    {r : Sample TRep} (hcs : c.promises[n]? = some cs) (hr : .value r ∈ cs) :
    r.info.relatedIdentity = callIdentity guid n := by
  obtain ⟨hlt,-⟩ := List.getElem?_eq_some_iff.mp hcs
  rw [h.threads.promises] at hlt
  have ht := List.getElem?_eq_getElem hlt
  obtain ⟨cs',hcs',-,hrel⟩ := (h.threads.ok ht).promise
  obtain rfl := Option.some.inj (hcs.symm.trans hcs')
  have hid := congrArg (fun l => l[n]?) h.ids
  simp only [Session.threadIds,List.getElem?_map,ht,Option.map_some] at hid
  obtain ⟨m,hm,hmid⟩ := Option.map_eq_some_iff.mp hid.symm
  obtain ⟨hlt',rfl⟩ := List.getElem?_eq_some_iff.mp hm
  rw [List.getElem_range] at hmid
  rw [hmid]
  exact hrel _ hr

theorem completed (h : AsyncClient see ask guid calls c) {n : Nat}
    {cs : List (Completion TRep)} {v : Completion TRep} (hcs : c.promises[n]? = some cs)
    (hv : v ∈ cs) : cs = [v] := by
  obtain ⟨hlt,-⟩ := List.getElem?_eq_some_iff.mp hcs
  rw [h.threads.promises] at hlt
  obtain ⟨cs',hcs',hlen,-⟩ := (h.threads.ok (List.getElem?_eq_getElem hlt)).promise
  obtain rfl := Option.some.inj (hcs.symm.trans hcs')
  have hle : cs.length ≤ 1 := by
    rw [hlen]
    cases c.threads[n].pc <;> simp [ExecutePc.completions]
  obtain ⟨u,rfl⟩ := List.length_eq_one_iff.mp
    (Nat.le_antisymm hle (List.length_pos_of_mem hv))
  rw [List.mem_singleton.mp hv]

theorem failure_eq (h : AsyncClient see ask guid calls c) {n : Nat}
    {cs : List (Completion TRep)} {v : Completion TRep} (hcs : c.promises[n]? = some cs)
    (hv : v ∈ cs) : c.failure n = v.what := by
  obtain rfl := h.completed hcs hv
  cases v <;> simp [Session.failure,hcs,Completion.what]

end AsyncClient

namespace Session
variable {α TRep : Type} {T : TakeReply TRep} {c : Session α TRep} {k : Nat}
  {i : DDS.SampleIdentity}

def executing (T : TakeReply TRep) : Machine (Session α TRep) (Nat × ThreadStep) where
  step c f := c.threadStep T f.1 f.2

theorem threadStep_wake (h : c.threads[k]? = some ⟨i,.waiting⟩) :
    c.threadStep T k .wake = some (c.setPc k .woken) := by
  simp [threadStep,h]

theorem threadStep_take (h : c.threads[k]? = some ⟨i,.woken⟩) {r : Sample TRep}
    {rest : List (Sample TRep)} (htake : T.take c.reader i = some (r,rest)) :
    c.threadStep T k .take = some ((c.withReader rest).setPc k (.holding (.value r))) := by
  simp [threadStep,h,htake]

theorem threadStep_takeThrows (h : c.threads[k]? = some ⟨i,.woken⟩) (what : String) :
    c.threadStep T k (.takeThrows what) =
      some ((c.withReader c.reader).setPc k (.holding (.exception what))) := by
  simp [threadStep,h,withReader,RequesterImpl.withReader]

theorem threadStep_complete {v : Completion TRep} (h : c.threads[k]? = some ⟨i,.holding v⟩) :
    c.threadStep T k .complete = some ((c.setPromise i v).setPc k .completed) := by
  simp [threadStep,h]

/-- A thread that goes through `execute` before anything else happens; `s` is what its
`take_reply` comes to. -/
theorem run_execute (hthread : c.threads[k]? = some ⟨i,.waiting⟩) {p : Nat}
    (hentry : c.impl.dict.find i = some p) {s : ThreadStep} {rest : List (Sample TRep)}
    {v : Completion TRep}
    (hs : ∀ u : Session α TRep, u.reader = c.reader → u.threads[k]? = some ⟨i,.woken⟩ →
      u.threadStep T k s = some ((u.withReader rest).setPc k (.holding v))) : ∃ c',
      (executing T).run c [(k,.wake),(k,s),(k,.complete)] = some c' ∧
      c'.reader = rest ∧ c'.promises = c.promises.modify p (· ++ [v]) := by
  have hwoken : (c.setPc k .woken).threads[k]? = some ⟨i,.woken⟩ := by
    simp [threads_getElem_setPc,hthread]
  have hholding : (((c.setPc k .woken).withReader rest).setPc k (.holding v)).threads[k]? =
      some ⟨i,.holding v⟩ := by
    rw [threads_getElem_setPc,if_pos rfl]
    exact congrArg _ hwoken
  refine ⟨_,Machine.run_cons.mpr ⟨_,threadStep_wake hthread,
      Machine.run_cons.mpr ⟨_,hs _ rfl hwoken,
        Machine.run_cons.mpr ⟨_,threadStep_complete hholding,rfl⟩⟩⟩,?_,?_⟩
  all_goals simp [setPromise,setPc,withReader,RequesterImpl.withReader,reader,hentry]

theorem run_completes (T : TakeReply TRep) (c : Session α TRep) (req : Request α)
    (hc : ∀ r ∈ c.reader, r.info.relatedIdentity ≠ c.impl.super.nextIdentity)
    {a : Arrival TRep} (ha : a.relatedIdentity = c.impl.super.nextIdentity)
    (what : Option String) : ∃ fs c' v,
      (executing T).run ((c.sendRequestAsync req true).arrive a) fs = some c' ∧
      (∀ r ∈ c'.reader, r ∈ c.reader ∨ r.info.relatedIdentity = c.impl.super.nextIdentity) ∧
      c'.promises = c.promises ++ [[v]] ∧
      v.what = what ∧ ∀ r, v = .value r → r.data = a.data := by
  have hthread : ((c.sendRequestAsync req true).arrive a).threads[c.threads.length]? =
      some ⟨c.impl.super.nextIdentity,.waiting⟩ := by
    simp [sendRequestAsync,arrive]
  have hreader : ((c.sendRequestAsync req true).arrive a).reader =
      c.reader ++ [a.sample (c.impl.super.received+1)] := by
    simp [sendRequestAsync,arrive,RequesterImpl.sendRequestAsync,Requester.sendRequest,
      Requester.arrive]
  have hentry : ((c.sendRequestAsync req true).arrive a).impl.dict.find
      c.impl.super.nextIdentity = some c.promises.length := by
    simp [sendRequestAsync,arrive,RequesterImpl.sendRequestAsync]
  have hpromises : ∀ v : Completion TRep,
      ((c.sendRequestAsync req true).arrive a).promises.modify c.promises.length (· ++ [v]) =
        c.promises ++ [[v]] := by
    simp [sendRequestAsync,arrive,List.modify_eq_take_cons_drop]
  cases what with
  | some what =>
    obtain ⟨c',hrun,hrest,hown⟩ := run_execute (T := T) hthread hentry
      (fun u hu hwoken => hu ▸ threadStep_takeThrows hwoken what)
    refine ⟨_,c',_,hrun,fun r hr => ?_,hown.trans (hpromises _),rfl,fun r hr => ?_⟩
    · rw [hrest,hreader] at hr
      refine (List.mem_append.mp hr).imp_right (fun hr => ?_)
      rw [List.mem_singleton.mp hr]
      exact ha
    · cases hr
  | none =>
    have hy : a.sample (c.impl.super.received+1) ∈
        ((c.sendRequestAsync req true).arrive a).reader := by simp [hreader]
    obtain ⟨x,rest,htake⟩ := T.exists_take hy ha
    obtain ⟨hx,hperm⟩ := T.take_some htake
    rw [hreader] at hperm
    -- Nothing else in the reader is related to this request.
    obtain rfl : x = a.sample (c.impl.super.received+1) := by
      rcases List.mem_append.mp (hperm.mem_iff.mpr (.head _)) with hmem | hmem
      · exact absurd hx (hc x hmem)
      · exact List.mem_singleton.mp hmem
    have hrest := ((List.perm_append_singleton _ _).symm.trans hperm).cons_inv
    obtain ⟨c',hrun,hkept,hown⟩ := run_execute (T := T) hthread hentry
      (fun u hu hwoken => threadStep_take hwoken (hu ▸ htake))
    refine ⟨_,c',_,hrun,fun r hr => .inl ?_,hown.trans (hpromises _),rfl,?_⟩
    · rw [hkept] at hr
      exact hrest.mem_iff.mpr hr
    · rintro r ⟨⟩
      rfl

end Session

namespace AsyncClient
variable {α TRep Op β : Type} {see : α → β} {ask : Op → β} {guid : DDS.GUID} {calls : List Op}
  {c : Session α TRep}

def Stale (guid : DDS.GUID) (calls : List Op) (c : Session α TRep) : Prop :=
  ∀ r ∈ c.reader, ∃ n < calls.length, r.info.relatedIdentity = callIdentity guid n

/-- The promise of a call is completed before anything else happens. -/
theorem run_completes (T : TakeReply TRep) (h : AsyncClient see ask guid calls c)
    (hc : Stale guid calls c) {op : Op} {req : Request α} (hreq : see req.data = ask op)
    {a : Arrival TRep} (ha : a.relatedIdentity = c.impl.super.nextIdentity)
    (what : Option String) : ∃ fs c' v,
      (Session.executing T).run ((c.sendRequestAsync req true).arrive a) fs = some c' ∧
      AsyncClient see ask guid (calls ++ [op]) c' ∧ Stale guid (calls ++ [op]) c' ∧
      c'.promises = c.promises ++ [[v]] ∧
      v.what = what ∧ ∀ r, v = .value r → r.data = a.data := by
  have hnew : ∀ r ∈ c.reader, r.info.relatedIdentity ≠ c.impl.super.nextIdentity := by
    intro r hr heq
    obtain ⟨n,hn,hid⟩ := hc r hr
    obtain ⟨-,rfl⟩ := callIdentity_inj (hid.symm.trans (heq.trans h.nextIdentity))
    exact Nat.lt_irrefl _ hn
  obtain ⟨fs,c',v,hrun,hreader,hrest⟩ := Session.run_completes T c req hnew ha what
  have hsent := (h.send hreq).envStep (T := T) (e := .arrive a) rfl
  refine ⟨fs,c',v,hrun,?_,fun r hr => ?_,hrest⟩
  · exact Machine.run_preserves (P := AsyncClient see ask guid (calls ++ [op]))
      (fun {_ f _} hs hu => hu.envStep (e := .thread f.1 f.2) hs) hrun hsent
  · rw [List.length_append]
    rcases hreader r hr with hr | hr
    · obtain ⟨n,hn,hid⟩ := hc r hr
      exact ⟨n,Nat.lt_add_right _ hn,hid⟩
    · exact ⟨calls.length,Nat.lt_succ_self _,hr.trans h.nextIdentity⟩

/-- Nothing that one of the clients waits for can still come; `E` are the exceptions with
which promises have been completed. -/
structure Settled {ι : Type} (see : α → β) (ask : Op → β) (guid : ι → DDS.GUID)
    (E : String → Prop) (calls : ι → List Op) (client : ι → Session α TRep) : Prop where
  clients : ∀ i, AsyncClient see ask (guid i) (calls i) (client i)
  replies : ∀ i, Stale (guid i) (calls i) (client i)
  faults : ∀ i n what, (client i).failure n = some what → E what

theorem Settled.complete {ι : Type} [DecidableEq ι] {guid : ι → DDS.GUID} {E : String → Prop}
    {calls : ι → List Op} {client : ι → Session α TRep}
    (h : Settled see ask guid E calls client) {i : ι} {op : Op}
    (hc : AsyncClient see ask (guid i) (calls i ++ [op]) c)
    (hreplies : Stale (guid i) (calls i ++ [op]) c) {v : Completion TRep}
    (hpromises : c.promises = (client i).promises ++ [[v]])
    (hE : ∀ what, v.what = some what → E what) :
    Settled see ask guid E (Function.update calls i (calls i ++ [op]))
      (Function.update client i c) where
  clients j := by
    rcases eq_or_ne j i with rfl | hj
    · simpa using hc
    · simpa [hj] using h.clients j
  replies j := by
    rcases eq_or_ne j i with rfl | hj
    · simpa using hreplies
    · simpa [hj] using h.replies j
  faults j n what hn := by
    rcases eq_or_ne j i with rfl | hj
    · rw [Function.update_self] at hn
      exact (Session.failure_concat hpromises hn).elim (h.faults j n what) (hE what)
    · exact h.faults j n what (by rwa [Function.update_of_ne hj] at hn)

end AsyncClient

end DdsRpc
