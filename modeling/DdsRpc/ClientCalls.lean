import DdsRpc.ClientReplies
import DdsRpc.ReceiveReply
set_option autoImplicit false

namespace DdsRpc
open Connext

namespace RequesterImpl
variable {α TRep : Type} {T : TakeReply TRep}

def afterTake (T : TakeReply TRep) (reader : List (Sample TRep)) (i : DDS.SampleIdentity)
    (reply : Sample TRep) : Sample TRep :=
  match T.take reader i with
  | some (r,_) => r
  | none => reply

theorem takeRelated_id2idMap {impl : RequesterImpl α TRep} {id : SampleIdentity}
    {i : DDS.SampleIdentity} (hf : impl.id2idMap.find id = some i) (reply : Sample TRep) :
    (impl.takeRelated T reply id).1.id2idMap =
      if impl.suppressInvalid && !(afterTake T impl.super.reader i reply).info.validData
      then impl.id2idMap else impl.id2idMap.erase id := by
  unfold afterTake
  cases ht : T.take impl.super.reader i with
  | some p =>
    rw [takeRelated_of_take hf ht]
    split <;> rfl
  | none =>
    rw [takeRelated_of_not_take hf ht]
    split <;> rfl

end RequesterImpl

namespace ClientImpl
open Session

abbrev Requests := Session RobotControlCall RobotControlReply

variable {T : TakeReply RobotControlReply} {ts : TypeSupport}

def requestId (ts : TypeSupport) (w : Requests) (op : Call) : SampleIdentity :=
  (w.impl.stamp (request ts op)).header.requestId

/-- A synchronous method. The exception of a send that throws passes through it. -/
def invoke (T : TakeReply RobotControlReply) (ts : TypeSupport) (w : Requests) (op : Call)
    (sent : Bool) (during between : List (Env RobotControlReply)) :
    Option (Requests × Except Exn op.Result) :=
  let id := requestId ts w op
  let w := w.sendRequest (request ts op) sent
  if sent then do
    let (w,ret,reply_sample) ← w.receiveReply T ts.replySample id during between
    some (w.recordReturn id ret reply_sample,complete op ret reply_sample)
  else some (w,.error .other)

inductive Event where
  | env (e : Env RobotControlReply)
  | invoke (op : Call) (sent : Bool) (during between : List (Env RobotControlReply))
  deriving DecidableEq

def step (T : TakeReply RobotControlReply) (ts : TypeSupport) (w : Requests) :
    Event → Option Requests
  | .env e => w.envStep T e
  | .invoke op sent during between => (invoke T ts w op sent during between).map Prod.fst

def machine (T : TakeReply RobotControlReply) (ts : TypeSupport) : Machine Requests Event :=
  ⟨step T ts⟩

/-- The wait of the call ends with a reply in the reader, and the sample that it then
holds, a reply to its request or still the new one, is not suppressed. -/
def Answered (T : TakeReply RobotControlReply) (ts : TypeSupport) (w : Requests) (op : Call)
    (during between : List (Env RobotControlReply)) : Prop :=
  ∃ w₁, (w.sendRequest (request ts op) true).atTake T during between = some w₁ ∧
    (w₁.impl.suppressInvalid && !(RequesterImpl.afterTake T w₁.reader w.impl.super.nextIdentity
      ts.replySample).info.validData) = false

theorem find_requestId (ts : TypeSupport) (w : Requests) (op : Call) :
    (w.sendRequest (request ts op) true).impl.id2idMap.find (requestId ts w op) =
      some w.impl.super.nextIdentity :=
  StdMap.find_set_self _ _ _

theorem invoke_id2idMap {w w' : Requests} {op : Call} {out : Except Exn op.Result}
    {during between : List (Env RobotControlReply)}
    (h : invoke T ts w op true during between = some (w',out)) :
    (Answered T ts w op during between ∧ w'.impl.id2idMap =
      (w.sendRequest (request ts op) true).impl.id2idMap.erase (requestId ts w op)) ∨
    (¬ Answered T ts w op during between ∧
      w'.impl.id2idMap = (w.sendRequest (request ts op) true).impl.id2idMap) := by
  have hf := find_requestId ts w op
  simp only [invoke,if_true] at h
  obtain ⟨⟨w₂,ret,reply⟩,hrecv,h⟩ := Option.bind_eq_some_iff.mp h
  simp only [Option.some.injEq,Prod.mk.injEq] at h
  obtain ⟨rfl,-⟩ := h
  rw [recordReturn_impl]
  cases hat : (w.sendRequest (request ts op) true).atTake T during between with
  | none =>
    refine .inr ⟨?_,(receiveReply_of_not_atTake (fun _ _ => hat) hrecv).2⟩
    rintro ⟨w₁,hw₁,-⟩
    rw [hat] at hw₁
    cases hw₁
  | some w₁ =>
    have hsame := atTake_unchanged hat
    have hmap := RequesterImpl.takeRelated_id2idMap (T := T) (hsame.id2idMap ▸ hf) ts.replySample
    rw [receiveReply_atTake hf hat] at hrecv
    simp only [Option.some.injEq,Prod.mk.injEq] at hrecv
    obtain ⟨rfl,-⟩ := hrecv
    dsimp only
    rw [hmap]
    split
    · rename_i hsup
      refine .inr ⟨?_,hsame.id2idMap⟩
      rintro ⟨w₂,hw₂,hno⟩
      rw [hat] at hw₂
      cases hw₂
      rw [hsup] at hno
      cases hno
    · rename_i hsup
      exact .inl ⟨⟨w₁,hat,eq_false_of_ne_true hsup⟩,by rw [hsame.id2idMap]⟩

/-- The table is empty after the step, and without an entry for the request it sent. -/
def LeavesNoEntry (ts : TypeSupport) (w : Requests) : Event → Requests → Prop
  | .invoke op true _ _,w' =>
    w'.impl.id2idMap.find (requestId ts w op) = none ∧ w'.impl.id2idMap = .empty
  | _,w' => w'.impl.id2idMap = .empty

def AnsweredCall (T : TakeReply RobotControlReply) (ts : TypeSupport) (w : Requests) :
    Event → Requests → Prop
  | .invoke op true during between,_ => Answered T ts w op during between
  | _,_ => True

theorem leavesNoEntry_step {w w' : Requests} {e : Event}
    (h : (machine T ts).step w e = some w') (hw : w.impl.id2idMap = .empty) :
    LeavesNoEntry ts w e w' ↔ AnsweredCall T ts w e w' := by
  cases e with
  | env e =>
    have hsame := envStep_unchanged h
    exact iff_of_true (hsame.id2idMap.trans hw) trivial
  | invoke op sent during between =>
    obtain ⟨⟨w₁,out⟩,hcall,rfl⟩ := Option.map_eq_some_iff.mp h
    cases sent with
    | false =>
      simp only [invoke,Bool.false_eq_true,if_false,Option.some.injEq,Prod.mk.injEq] at hcall
      obtain ⟨rfl,-⟩ := hcall
      exact iff_of_true hw trivial
    | true =>
      have hset : (w.sendRequest (request ts op) true).impl.id2idMap =
          StdMap.empty.set (requestId ts w op) w.impl.super.nextIdentity :=
        congrArg (fun m => StdMap.set m _ _) hw
      rcases invoke_id2idMap hcall with ⟨hans,hmap⟩ | ⟨hans,hmap⟩
      · rw [hset,StdMap.erase_set_of_find_none rfl] at hmap
        exact iff_of_true ⟨by rw [hmap]; rfl,hmap⟩ hans
      · refine iff_of_false (fun hn => ?_) hans
        have hnone := hn.1
        rw [hmap,find_requestId] at hnone
        cases hnone

theorem empty_of_answeredCall {w w' : Requests} {e : Event}
    (h : (machine T ts).step w e = some w') (ha : AnsweredCall T ts w e w')
    (hw : w.impl.id2idMap = .empty) : w'.impl.id2idMap = .empty := by
  have hn := (leavesNoEntry_step h hw).mpr ha
  cases e with
  | env e => exact hn
  | invoke op sent during between =>
    cases sent with
    | false => exact hn
    | true => exact hn.2

/-- No call of a run leaves an entry behind exactly if every request is answered during
its call; and the table is empty as long as that is so. -/
theorem leavesNoEntry_iff (T : TakeReply RobotControlReply) (ts : TypeSupport)
    (guid : DDS.GUID) (es : List Event) :
    ((machine T ts).Along (LeavesNoEntry ts) (.init guid) es ↔
      (machine T ts).Along (AnsweredCall T ts) (.init guid) es) ∧
    ∀ w, (machine T ts).run (.init guid) es = some w →
      (machine T ts).Along (AnsweredCall T ts) (.init guid) es → w.impl.id2idMap = .empty :=
  ⟨Machine.along_congr (I := fun w : Requests => w.impl.id2idMap = .empty) leavesNoEntry_step
    empty_of_answeredCall rfl,
    fun _ h ha => Machine.run_preserves_along empty_of_answeredCall h ha rfl⟩

def replyInTime : Arrival RobotControlReply :=
  ⟨TypeSupport.zero.createReply,true,⟨⟨.zero 16⟩,.nth 9⟩,⟨⟨.zero 16⟩,.nth 1⟩⟩

theorem leavesNoEntry_answered :
    ((machine .oldest .zero).run (.init ⟨.zero 16⟩)
      [.invoke .getSpeed true [.arrive replyInTime] []]).map (·.impl.id2idMap) = some .empty := by
  have hrun : (machine .oldest .zero).run (.init ⟨.zero 16⟩)
    [.invoke .getSpeed true [.arrive replyInTime] []] = some _ := rfl
  rw [hrun]
  refine congrArg some ((leavesNoEntry_iff .oldest .zero ⟨.zero 16⟩ _).2 _ hrun ?_)
  exact fun _ _ => ⟨⟨_,rfl,rfl⟩,trivial⟩

theorem leavesNoEntry_fails : ¬ (machine .oldest .zero).Along (LeavesNoEntry .zero)
    (.init ⟨.zero 16⟩) [.invoke .getSpeed true [] []] := by
  intro h
  have hnone := (h _ rfl).1.1
  cases hnone

end ClientImpl
end DdsRpc
