import DdsRpc.ClientImpl
import DdsRpc.FutureAdapter
set_option autoImplicit false

namespace DdsRpc
open Connext

def Call.hash : Call → Int32
  | .command _ => commandHash
  | .setSpeed _ => setSpeedHash
  | .getSpeed => getSpeedHash
  | .getStatus => getStatusHash

def Call.resultD : Call → RobotControlReturn → Int32
  | .command _,data => data.command.d
  | .setSpeed _,data => data.setSpeed.d
  | .getSpeed,data => data.getSpeed.d
  | .getStatus,data => data.getStatus.d

theorem resultD_of_hash {op : Call} {data : RobotControlReturn} (h : data.d = op.hash) :
    data.resultD = some (op.resultD data) := by
  unfold RobotControlReturn.resultD
  rw [h]
  cases op <;> rfl

namespace ClientImpl

/-- A synchronous method from the return of `receive_reply` on: what that returned is not
looked at. -/
def complete (op : Call) (_ret : Bool) (reply_sample : Sample RobotControlReply) :
    Except Exn op.Result := result op reply_sample

/-- What a method makes of the tags of a reply, one case for each of its branches. -/
inductive Decoded (data : RobotControlReturn) : (op : Call) → Except Exn op.Result → Prop where
  | command {com : Command} : Decoded data (.command com) (.ok ())
  | setSpeed {speed : Speed} : data.d = setSpeedHash → data.setSpeed.d = remoteExOk →
      Decoded data (.setSpeed speed) (.ok data.setSpeed.result.return_)
  | tooFast {speed : Speed} : data.d = setSpeedHash → data.setSpeed.d = tooFastExHash →
      Decoded data (.setSpeed speed) (.error (.tooFast data.setSpeed.toofastEx))
  | getSpeed : data.d = getSpeedHash → data.getSpeed.d = remoteExOk →
      Decoded data .getSpeed (.ok data.getSpeed.result.return_)
  | getStatus : data.d = getStatusHash → data.getSpeed.d = remoteExOk →
      Decoded data .getStatus (.ok data.getStatus.result.status)
  | setSpeedFails {speed : Speed} {what : String} :
      ¬ (data.d = setSpeedHash ∧ (data.setSpeed.d = remoteExOk ∨ data.setSpeed.d = tooFastExHash)) →
      Decoded data (.setSpeed speed) (.error (.runtimeError what))
  | getSpeedFails {what : String} : ¬ (data.d = getSpeedHash ∧ data.getSpeed.d = remoteExOk) →
      Decoded data .getSpeed (.error (.runtimeError what))
  | getStatusFails {what : String} : ¬ (data.d = getStatusHash ∧ data.getSpeed.d = remoteExOk) →
      Decoded data .getStatus (.error (.runtimeError what))

theorem decoded_result (op : Call) (reply_sample : Sample RobotControlReply) :
    Decoded reply_sample.data.data op (result op reply_sample) := by
  cases op with
  | command com => exact .command
  | setSpeed speed =>
    simp only [result,setSpeedResult]
    split
    · rename_i hd
      split
      · exact .setSpeed hd ‹_›
      · split
        · exact .tooFast hd ‹_›
        · exact .setSpeedFails (by simp_all)
    · exact .setSpeedFails (fun h => absurd h.1 ‹_›)
  | getSpeed =>
    simp only [result,getSpeedResult]
    split
    · rename_i hd
      split
      · exact .getSpeed hd ‹_›
      · exact .getSpeedFails (fun h => absurd h.2 ‹_›)
    · exact .getSpeedFails (fun h => absurd h.1 ‹_›)
  | getStatus =>
    simp only [result,getStatusResult]
    split
    · rename_i hd
      split
      · exact .getStatus hd ‹_›
      · exact .getStatusFails (fun h => absurd h.2 ‹_›)
    · exact .getStatusFails (fun h => absurd h.1 ‹_›)

/-- `receive_reply` returned true with a reply to `op` whose result, the one that `_d`
selects, is a success. -/
def Succeeded (op : Call) (ret : Bool) (data : RobotControlReturn) : Prop :=
  ret = true ∧ data.d = op.hash ∧ data.resultD = some remoteExOk

def RepliesTooFast (op : Call) (ret : Bool) (data : RobotControlReturn) : Prop :=
  ret = true ∧ (∃ speed, op = .setSpeed speed) ∧ data.d = setSpeedHash ∧
    data.setSpeed.d = tooFastExHash

structure ReturnsOnSuccess (op : Call) (ret : Bool) (reply_sample : Sample RobotControlReply) :
    Prop where
  returns : ∀ v, complete op ret reply_sample = .ok v → Succeeded op ret reply_sample.data.data
  throws : ¬ Succeeded op ret reply_sample.data.data →
    ∃ e, complete op ret reply_sample = .error e ∧
      (RepliesTooFast op ret reply_sample.data.data →
        e = .tooFast reply_sample.data.data.setSpeed.toofastEx) ∧
      (¬ RepliesTooFast op ret reply_sample.data.data → ∃ what, e = .runtimeError what)

/-- The tags that a method does not look at are right: `command` looks at none, nobody at
what `receive_reply` returned, and `getStatus` at the result of `getSpeed`. -/
def UncheckedTags : Call → Bool → RobotControlReturn → Prop
  | .command _,ret,data => ret = true ∧ data.d = commandHash ∧ data.command.d = remoteExOk
  | .setSpeed _,ret,data => ret = true ∨ ¬ (data.d = setSpeedHash ∧
      (data.setSpeed.d = remoteExOk ∨ data.setSpeed.d = tooFastExHash))
  | .getSpeed,ret,data => ret = true ∨ ¬ (data.d = getSpeedHash ∧ data.getSpeed.d = remoteExOk)
  | .getStatus,ret,data => ret = true ∧ data.getStatus.d = remoteExOk ∨
      ¬ (data.d = getStatusHash ∧ data.getSpeed.d = remoteExOk)

theorem succeeded_iff {op : Call} {ret : Bool} {data : RobotControlReturn} :
    Succeeded op ret data ↔ ret = true ∧ data.d = op.hash ∧ op.resultD data = remoteExOk := by
  refine and_congr_right (fun _ => and_congr_right (fun hd => ?_))
  rw [resultD_of_hash hd,Option.some.injEq]

theorem uncheckedTags_of_returns {op : Call} {ret : Bool} {r : Sample RobotControlReply}
    (h : ReturnsOnSuccess op ret r) : UncheckedTags op ret r.data.data := by
  obtain ⟨hreturns,hthrows⟩ := h
  have hd := decoded_result op r
  simp only [complete] at hreturns hthrows
  generalize result op r = out at hd hreturns hthrows
  cases hd with
  | command => exact succeeded_iff.mp (hreturns () rfl)
  | setSpeed | getSpeed => exact .inl (hreturns _ rfl).1
  | tooFast =>
    refine .inl (by_contra fun hret => ?_)
    obtain ⟨e,he,-,hother⟩ := hthrows (fun hs => hret hs.1)
    obtain ⟨what,rfl⟩ := hother (fun ht => hret ht.1)
    cases he
  | getStatus =>
    obtain ⟨hret,-,hok⟩ := succeeded_iff.mp (hreturns _ rfl)
    exact .inl ⟨hret,hok⟩
  | setSpeedFails h | getSpeedFails h | getStatusFails h => exact .inr h

theorem returns_of_uncheckedTags {op : Call} {ret : Bool} {r : Sample RobotControlReply}
    (h : UncheckedTags op ret r.data.data) : ReturnsOnSuccess op ret r := by
  have hd := decoded_result op r
  have hreturned : ∀ v, Succeeded op ret r.data.data → result op r = .ok v →
      ReturnsOnSuccess op ret r := fun v hs hv => ⟨fun _ _ => hs,fun hn => absurd hs hn⟩
  have hfailed : ∀ what, ¬ RepliesTooFast op ret r.data.data →
      result op r = .error (.runtimeError what) → ReturnsOnSuccess op ret r := by
    intro what hn he
    refine ⟨fun v hv => ?_,fun _ => ⟨_,he,fun ht => absurd ht hn,fun _ => ⟨what,rfl⟩⟩⟩
    rw [complete,he] at hv
    cases hv
  generalize hout : result op r = out at hd hreturned hfailed
  cases hd with
  | command => exact hreturned () (succeeded_iff.mpr h) rfl
  | setSpeed hd hok | getSpeed hd hok =>
    have hret := h.resolve_right (fun hn => hn (by simp [hd,hok]))
    exact hreturned _ (succeeded_iff.mpr ⟨hret,hd,hok⟩) rfl
  | getStatus hd hok =>
    obtain ⟨hret,hown⟩ := h.resolve_right (fun hn => hn ⟨hd,hok⟩)
    exact hreturned _ (succeeded_iff.mpr ⟨hret,hd,hown⟩) rfl
  | @tooFast speed hd htag =>
    have hret := h.resolve_right (fun hn => hn ⟨hd,.inr htag⟩)
    refine ⟨fun v hv => ?_,fun _ => ⟨_,hout,fun _ => rfl,fun hn => ?_⟩⟩
    · rw [complete,hout] at hv
      cases hv
    · exact absurd ⟨hret,⟨speed,rfl⟩,hd,htag⟩ hn
  | setSpeedFails hn =>
    exact hfailed _ (fun ht => hn ⟨ht.2.2.1,.inr ht.2.2.2⟩) rfl
  | getSpeedFails | getStatusFails =>
    exact hfailed _ (fun ⟨_,⟨_,hop⟩,_⟩ => by cases hop) rfl

/-- Which tags have to be right for a synchronous call to report what was replied. -/
theorem returnsOnSuccess_iff (op : Call) (ret : Bool) (reply_sample : Sample RobotControlReply) :
    ReturnsOnSuccess op ret reply_sample ↔ UncheckedTags op ret reply_sample.data.data :=
  ⟨uncheckedTags_of_returns,returns_of_uncheckedTags⟩

theorem returnsOnSuccess_fails :
    ¬ ReturnsOnSuccess (.command .start) false TypeSupport.zero.replySample :=
  fun h => absurd (h.returns () rfl).1 (by decide)

inductive CharPtr where
  | null
  | to (s : String)
  | dangling
  deriving DecidableEq

namespace CharPtr

def of : Option String → CharPtr
  | none => .null
  | some s => .to s

def released : CharPtr → CharPtr
  | .null => .null
  | .to _ | .dangling => .dangling

def read : CharPtr → Option (Option String)
  | .null => some none
  | .to s => some (some s)
  | .dangling => none

end CharPtr

/-- A `RobotControl_getStatus_Out` made by copying the members of another one, so that the
string is not its own. -/
structure CopiedGetStatusOut where
  msg : CharPtr
  deriving DecidableEq

@[reducible] def AsyncResult : Call → Type
  | .command _ => Unit
  | .setSpeed _ | .getSpeed => Speed
  | .getStatus => CopiedGetStatusOut

abbrev ReplyFuture := Except Exn (Sample RobotControlReply)

def commandThen (reply : ReplyFuture) : Except Exn Unit := do
  let _ ← reply

/-- The exception thrown is a new one. -/
def setSpeedThen (reply_fut : ReplyFuture) : Except Exn Speed := do
  let reply_sample ← reply_fut
  if reply_sample.data.data.setSpeed.d = tooFastExHash then .error (.tooFast ⟨0⟩)
  else .ok reply_sample.data.data.setSpeed.result.return_

def getSpeedThen (reply : ReplyFuture) : Except Exn Speed := do
  let reply_sample ← reply
  .ok reply_sample.data.data.getSpeed.result.return_

/-- The sample is a temporary. It is destroyed, and its strings with it, once the result has
been copied out of it. -/
def getStatusThen (reply_fut : ReplyFuture) : Except Exn CopiedGetStatusOut := do
  let reply_sample ← reply_fut
  let result := reply_sample.data.data.getStatus.result
  .ok ⟨(CharPtr.of result.status.msg).released⟩

def continuation : (op : Call) → ReplyFuture → Except Exn (AsyncResult op)
  | .command _ => commandThen
  | .setSpeed _ => setSpeedThen
  | .getSpeed => getSpeedThen
  | .getStatus => getStatusThen

/-- What `<op>_async` returns, `reply` being the future of `send_request_async`. -/
def async {P : Ppl Exn} (op : Call) (reply : Future P (Sample RobotControlReply)) :
    Future P (AsyncResult op) := reply.then (.plain (AsyncResult op)) (continuation op)

theorem outcome_async {P : Ppl Exn} (op : Call) (reply : Future P (Sample RobotControlReply)) :
    (async op reply).outcome = continuation op reply.outcome := by
  refine (reply.outcome_then (.plain _) (continuation op)).trans ?_
  cases continuation op reply.outcome <;> rfl

def outValue : (op : Call) → AsyncResult op → Option op.Result
  | .command _,out | .setSpeed _,out | .getSpeed,out => some out
  | .getStatus,out => out.msg.read.map Status.mk

def SameClass : Exn → Exn → Prop
  | .tooFast _,.tooFast _ | .runtimeError _,.runtimeError _ | .other,.other => True
  | _,_ => False

def asyncOutcome (P : Ppl Exn) (op : Call) (reply_sample : Sample RobotControlReply) :
    Except Exn (AsyncResult op) :=
  (async op (Promise.getFuture (.ok reply_sample) : Future P (Sample RobotControlReply))).outcome

theorem asyncOutcome_eq (P : Ppl Exn) (op : Call) (reply_sample : Sample RobotControlReply) :
    asyncOutcome P op reply_sample = continuation op (.ok reply_sample) := by
  rw [asyncOutcome,outcome_async]
  exact congrArg (continuation op) (P.outcome_ofEvent _)

/-- The two ways to read one reply come to the same. -/
structure ReadAlike (P : Ppl Exn) (op : Call) (reply_sample : Sample RobotControlReply) :
    Prop where
  returns : (∃ out, asyncOutcome P op reply_sample = .ok out) ↔
    ∃ v, result op reply_sample = .ok v
  value : ∀ v, (∃ out, asyncOutcome P op reply_sample = .ok out ∧ outValue op out = some v) ↔
    result op reply_sample = .ok v
  tooFast : ∀ e, asyncOutcome P op reply_sample = .error (.tooFast e) ↔
    result op reply_sample = .error (.tooFast e)
  otherwise : ∀ e e', asyncOutcome P op reply_sample = .error e →
    result op reply_sample = .error e' → SameClass e e'

/-- The tags that the continuations do not look at are right, an exception has the payload
of a new one, and a status has no string. -/
def ContinuationTags : Call → RobotControlReturn → Prop
  | .command _,_ => True
  | .setSpeed _,data => data.d = setSpeedHash ∧ (data.setSpeed.d = remoteExOk ∨
      data.setSpeed.d = tooFastExHash ∧ data.setSpeed.toofastEx = ⟨0⟩)
  | .getSpeed,data => data.d = getSpeedHash ∧ data.getSpeed.d = remoteExOk
  | .getStatus,data => data.d = getStatusHash ∧ data.getSpeed.d = remoteExOk ∧
      data.getStatus.result.status.msg = none

theorem continuation_setSpeed (speed : Speed) (r : Sample RobotControlReply) :
    continuation (.setSpeed speed) (.ok r) =
      if r.data.data.setSpeed.d = tooFastExHash then .error (.tooFast ⟨0⟩)
      else .ok r.data.data.setSpeed.result.return_ := rfl

theorem continuation_getStatus (r : Sample RobotControlReply) :
    continuation .getStatus (.ok r) =
      .ok ⟨(CharPtr.of r.data.data.getStatus.result.status.msg).released⟩ := rfl

theorem null_of_outValue {msg : Option String} {status : Status}
    (h : outValue .getStatus ⟨(CharPtr.of msg).released⟩ = some status) : msg = none := by
  cases msg with
  | none => rfl
  | some s => cases h

theorem readAlike_of_ok {P : Ppl Exn} {op : Call} {r : Sample RobotControlReply}
    {out : AsyncResult op} {v : op.Result} (ha : asyncOutcome P op r = .ok out)
    (hout : outValue op out = some v) (hs : result op r = .ok v) : ReadAlike P op r := by
  constructor
  · simp [ha,hs]
  · intro v
    simp [ha,hs,hout]
  · simp [ha,hs]
  · intro e e' he
    simp [ha] at he

theorem continuationTags_of_readAlike {P : Ppl Exn} {op : Call} {r : Sample RobotControlReply}
    (h : ReadAlike P op r) : ContinuationTags op r.data.data := by
  obtain ⟨hreturns,hvalue,htooFast,-⟩ := h
  have hd := decoded_result op r
  simp only [asyncOutcome_eq] at hreturns hvalue htooFast
  generalize result op r = sync at hd hreturns hvalue htooFast
  cases hd with
  | command => trivial
  | setSpeed hd hok => exact ⟨hd,.inl hok⟩
  | getSpeed hd hok => exact ⟨hd,hok⟩
  | getStatus hd hok =>
    obtain ⟨out,hout,hread⟩ := (hvalue _).mpr rfl
    obtain rfl := Except.ok.inj ((continuation_getStatus r).symm.trans hout)
    exact ⟨hd,hok,null_of_outValue hread⟩
  | tooFast hd htag =>
    have he := (htooFast _).mpr rfl
    rw [continuation_setSpeed,if_pos htag] at he
    simp only [Except.error.injEq,Exn.tooFast.injEq] at he
    exact ⟨hd,.inr ⟨htag,he.symm⟩⟩
  | setSpeedFails =>
    by_cases htag : r.data.data.setSpeed.d = tooFastExHash
    · have he := (htooFast ⟨0⟩).mp (by rw [continuation_setSpeed,if_pos htag])
      cases he
    · obtain ⟨v,hv⟩ := hreturns.mp ⟨_,by rw [continuation_setSpeed,if_neg htag]⟩
      cases hv
  | getSpeedFails | getStatusFails =>
    obtain ⟨v,hv⟩ := hreturns.mp ⟨_,rfl⟩
    cases hv

theorem readAlike_of_continuationTags (P : Ppl Exn) {op : Call} {r : Sample RobotControlReply}
    (h : ContinuationTags op r.data.data) : ReadAlike P op r := by
  have ha := asyncOutcome_eq P op r
  cases op with
  | command com => exact readAlike_of_ok ha rfl rfl
  | setSpeed speed =>
    obtain ⟨hd,hok | ⟨htag,he⟩⟩ := h
    · have hne : r.data.data.setSpeed.d ≠ tooFastExHash := by
        rw [hok]
        decide
      rw [continuation_setSpeed,if_neg hne] at ha
      exact readAlike_of_ok ha rfl (by simp [result,setSpeedResult,hd,hok])
    · have hne : tooFastExHash ≠ remoteExOk := by decide
      have hs : result (.setSpeed speed) r = .error (.tooFast ⟨0⟩) := by
        simp [result,setSpeedResult,hd,htag,hne,he]
      rw [continuation_setSpeed,if_pos htag] at ha
      constructor
      · simp [ha,hs]
      · simp [ha,hs]
      · simp [ha,hs]
      · intro e e' h₁ h₂
        rw [ha] at h₁
        rw [hs] at h₂
        cases h₁
        cases h₂
        trivial
  | getSpeed => exact readAlike_of_ok ha rfl (by simp [result,getSpeedResult,h.1,h.2])
  | getStatus =>
    obtain ⟨hd,hok,hnull⟩ := h
    refine readAlike_of_ok (v := r.data.data.getStatus.result.status) ha ?_
      (by simp [result,getStatusResult,hd,hok])
    simp only [outValue,hnull]
    exact congrArg (fun s => some (Status.mk s)) hnull.symm

/-- The clients agree on the replies whose tags the continuations could have skipped, and on
no status that has a string. -/
theorem readAlike_iff (P : Ppl Exn) (op : Call) (reply_sample : Sample RobotControlReply) :
    ReadAlike P op reply_sample ↔ ContinuationTags op reply_sample.data.data :=
  ⟨continuationTags_of_readAlike,readAlike_of_continuationTags P⟩

def statusReply : Sample RobotControlReply :=
  { TypeSupport.zero.replySample with
    data.data.d := getStatusHash
    data.data.getStatus.result.status.msg := some "Good Status" }

theorem readAlike_fails : ¬ ReadAlike (.eager Exn) .getSpeed TypeSupport.zero.replySample ∧
    ¬ ReadAlike (.eager Exn) .getStatus statusReply := by
  refine ⟨fun h => absurd ((h.value (.finite 0)).mp ⟨_,rfl,rfl⟩) (by decide),fun h => ?_⟩
  obtain ⟨out,hout,hread⟩ := (h.value ⟨some "Good Status"⟩).mpr rfl
  cases hout
  cases hread

end ClientImpl
end DdsRpc
