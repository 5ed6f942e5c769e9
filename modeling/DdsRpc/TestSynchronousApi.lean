import DdsRpc.RequestReplyRefinement
import DdsRpc.Library.Programs
import DdsRpc.Speedup
import Mathlib.Tactic.NormNum
set_option autoImplicit false

/-! `test_synchronous_api` of robot_reqrep.cxx, run against `server_rr` beside clients that
do not set the speed. -/

namespace DdsRpc
open Connext SharedObject

def Speed.equal : Speed → Speed → Bool
  | .nan,_ => false
  | a,b => a = b

/-- Where the loop is; `request` is what it has written into its request before. -/
inductive TestSynchronousApi where
  | getSpeed (i : ℕ) (request : RobotControlCall)
  | setSpeed (i : ℕ) (request : RobotControlCall) (speed : Speed)
  | assertFails
  deriving DecidableEq

def testSynchronousApi : Program TestSynchronousApi RobotControlCall Read where
  next
    | .getSpeed i request => if i < 10 then some { request with d := getSpeedHash } else none
    | .setSpeed _ request speed =>
      some { request with d := setSpeedHash, setSpeed.speed := speed }
    | .assertFails => none
  resume
    | .getSpeed i _,request,reply =>
      let oldspeed := reply.getSpeed.result.return_
      .setSpeed i request (oldspeed.add 10)
    | .setSpeed i _ speed,request,reply =>
      if reply.setSpeed.d = tooFastExHash then .getSpeed (i+1) request
      else
        let oldspeed := reply.setSpeed.result.return_
        if oldspeed.equal (speed.add (-10)) then .getSpeed (i+1) request else .assertFails
    | .assertFails,_,_ => .assertFails

namespace TestSynchronousApi
variable {ts : TypeSupport} {status : String} {robot : Robot} {data : RobotControlCall}

def start (ts : TypeSupport) : TestSynchronousApi := .getSpeed 0 ts.createRequest.data

/-- The speed grows by 10 in every round, up to the limit and not beyond. -/
def Climbs : TestSynchronousApi → Robot → Prop
  | .getSpeed i _,robot => i ≤ 10 ∧ robot.speed = .finite (10*i)
  | .setSpeed i _ speed,robot =>
    i < 10 ∧ robot.speed = .finite (10*i) ∧ speed = .finite (10*(i+1))
  | .assertFails,_ => False

theorem answer_getSpeed (ts : TypeSupport) (status : String) (robot : Robot)
    (h : data.d = getSpeedHash) :
    (robot.answer ts status data).1.d = getSpeedHash ∧
      (robot.answer ts status data).1.getSpeed.result.return_ = robot.speed ∧
      (robot.answer ts status data).2 = robot := by
  simp [Robot.answer,Robot.processRequest,TypeSupport.receivedReply,RobotControlCall.deserialize,
    RobotControlReturn.deserialize,RobotControlGetSpeedResult.deserialize,Robot.retcodeOk,
    remoteExOk,RemoteExceptionCode.value,h,commandHash,setSpeedHash,getSpeedHash]

theorem answer_setSpeed (ts : TypeSupport) (status : String) (robot : Robot)
    (h : data.d = setSpeedHash)
    (hle : Robot.speedLimit.lt data.setSpeed.speed = false) :
    (robot.answer ts status data).1.setSpeed.d = Robot.retcodeOk ∧
      (robot.answer ts status data).1.setSpeed.result.return_ = robot.speed ∧
      (robot.answer ts status data).2.speed = data.setSpeed.speed := by
  simp [Robot.answer,Robot.processRequest,TypeSupport.receivedReply,RobotControlCall.deserialize,
    RobotControlReturn.deserialize,RobotControlSetSpeedResult.deserialize,Robot.retcodeOk,
    remoteExOk,RemoteExceptionCode.value,h,hle,commandHash,setSpeedHash]

theorem answer_of_ne (h : data.d ≠ setSpeedHash) : (robot.answer ts status data).2 = robot := by
  simp only [Robot.answer,Robot.processRequest]
  have hd : (ts.createRequest.data.deserialize data).d = data.d := by
    unfold RobotControlCall.deserialize
    split_ifs <;> rfl
  simp only [hd,if_neg h]
  split_ifs <;> rfl

theorem climbs_start (ts : TypeSupport) (h : robot.speed = .finite 0) :
    Climbs (start ts) robot := ⟨Nat.zero_le 10,by simp [h]⟩

theorem climbs_other {q : TestSynchronousApi} (h : Climbs q robot) (hdata : data.d ≠ setSpeedHash) :
    Climbs q (robot.answer ts status data).2 := by
  rwa [answer_of_ne hdata]

theorem speedLimit_lt {i : ℕ} (hi : i < 10) :
    Robot.speedLimit.lt (.finite (10*(i+1))) = false := by
  have hle : (10:ℚ)*(i+1) ≤ 100 := by
    have : (i:ℚ)+1 ≤ 10 := by exact_mod_cast hi
    linarith
  simpa [Robot.speedLimit,Speed.lt] using hle

theorem climbs_own {q : TestSynchronousApi} (h : Climbs q robot)
    (hop : testSynchronousApi.next q = some data) :
    Climbs (testSynchronousApi.resume q data (robot.answer ts status data).1)
      (robot.answer ts status data).2 := by
  cases q with
  | getSpeed i request =>
    obtain ⟨-,hspeed⟩ := h
    simp only [testSynchronousApi,Option.ite_none_right_eq_some,Option.some.injEq] at hop
    obtain ⟨hi,rfl⟩ := hop
    obtain ⟨-,hret,hrobot⟩ := answer_getSpeed ts status robot
      (show RobotControlCall.d { request with d := getSpeedHash } = _ from rfl)
    rw [hrobot]
    refine ⟨hi,hspeed,?_⟩
    rw [hret,hspeed,Speed.add]
    ring_nf
  | setSpeed i request speed =>
    obtain ⟨hi,hspeed,rfl⟩ := h
    cases hop
    obtain ⟨hd,hret,hrobot⟩ := answer_setSpeed ts status robot
      (show RobotControlCall.d { request with
        d := setSpeedHash, setSpeed.speed := .finite (10*(i+1)) } = _ from rfl) (speedLimit_lt hi)
    have heq : (robot.speed).equal ((Speed.finite (10*(i+1))).add (-10)) = true := by
      rw [hspeed]
      simp [Speed.add,Speed.equal]
      ring
    simp only [testSynchronousApi,hd,hret,heq,Robot.retcodeOk,tooFastExHash]
    refine ⟨hi,?_⟩
    rw [hrobot]
    push_cast
    rfl
  | assertFails => exact h.elim

theorem climbs_outline (ts : TypeSupport) (status : String) :
    Outline testSynchronousApi (Robot.answer ts status) (fun data => data.d ≠ setSpeedHash)
      Climbs :=
  ⟨climbs_own,climbs_other⟩

inductive Told : Sigma Read → Prop where
  | read {i : ℕ} {request : RobotControlCall} {reply : RobotControlReturn} : i < 10 →
      request.d = getSpeedHash → reply.d = getSpeedHash →
      reply.getSpeed.result.return_ = .finite (10*i) → Told ⟨request,reply⟩
  | accepted {i : ℕ} {request : RobotControlCall} {reply : RobotControlReturn} : i < 10 →
      request.d = setSpeedHash → request.setSpeed.speed = .finite (10*(i+1)) →
      reply.setSpeed.d = Robot.retcodeOk → reply.setSpeed.result.return_ = .finite (10*i) →
      Told ⟨request,reply⟩

theorem told_of_next {q : TestSynchronousApi} (h : Climbs q robot)
    (hop : testSynchronousApi.next q = some data) :
    Told ⟨data,(robot.answer ts status data).1⟩ := by
  cases q with
  | getSpeed i request =>
    obtain ⟨-,hspeed⟩ := h
    simp only [testSynchronousApi,Option.ite_none_right_eq_some,Option.some.injEq] at hop
    obtain ⟨hi,rfl⟩ := hop
    obtain ⟨hd,hret,-⟩ := answer_getSpeed ts status robot
      (show RobotControlCall.d { request with d := getSpeedHash } = _ from rfl)
    exact .read hi rfl hd (hret.trans hspeed)
  | setSpeed i request speed =>
    obtain ⟨hi,hspeed,rfl⟩ := h
    cases hop
    obtain ⟨hd,hret,-⟩ := answer_setSpeed ts status robot
      (show RobotControlCall.d { request with
        d := setSpeedHash, setSpeed.speed := .finite (10*(i+1)) } = _ from rfl) (speedLimit_lt hi)
    exact .accepted hi rfl rfl hd (hret.trans hspeed)
  | assertFails => exact h.elim

variable {ι : Type} [DecidableEq ι]

/-- Against a robot that stands still, and as long as no other client sets the speed, the
assertion of the loop holds in every round, and no request for a speed is rejected. -/
theorem testSynchronousApi_climbs (T : TakeReply RobotControlReply) (ts : TypeSupport)
    (status : String) {guid : ι → DDS.GUID} (hg : Function.Injective guid) {w : RrSystem ι}
    {es : List (RrSystem.Event ι)}
    (h : (RrSystem.machine T ts status).run (RrSystem.init ts guid .init) es = some w) {i : ι}
    (hf : testSynchronousApi.Follows (start ts) (w.issued i) (w.returned i))
    (hothers : ∀ j ≠ i, ∀ data ∈ w.issued j, data.d ≠ setSpeedHash) :
    (∀ out ∈ w.returned i, Told out) ∧
    (w.pending i = none →
      Climbs (testSynchronousApi.after (start ts) (w.returned i)) w.server.robot) := by
  obtain ⟨t,hw,ht⟩ := RrSystem.refines_run hg h
  rw [hw.issued,hw.returned] at hf
  rw [hw.issued] at hothers
  obtain ⟨hreturned,hbetween⟩ := ht.outline (climbs_outline ts status) hf hothers
    (climbs_start ts rfl)
  rw [hw.returned,hw.robot]
  refine ⟨?_,fun hp => hbetween (hw.phase_of_none hp)⟩
  rintro ⟨data,reply⟩ hout
  obtain ⟨q,robot,hq,hop,hret⟩ := hreturned _ hout
  obtain rfl : (robot.answer ts status data).1 = reply := hret
  exact told_of_next hq hop

def besideReader : List (RrSystem.Event Bool) :=
  let data := TypeSupport.zero.createRequest.data
  [.send false { data with d := getSpeedHash } true,.receive false,.deliverRequest false,
    .send true { data with d := getStatusHash } true,.deliverRequest true,.turn,.turn,
    .deliverReply false RequesterImpl.nullIdentity,.loseReply true,.receive false]

theorem testSynchronousApi_besideReader : ∃ w : RrSystem Bool,
    (RrSystem.machine .oldest .zero "Good Status").run
      (RrSystem.init .zero System.clientGuid .init) besideReader = some w ∧
    (∃ request, testSynchronousApi.after (start .zero) (w.returned false) =
      .setSpeed 0 request (.finite 10)) ∧
    ∀ out ∈ w.returned false, Told out := by
  have hsome : ((RrSystem.machine .oldest .zero "Good Status").run
      (RrSystem.init .zero System.clientGuid .init) besideReader).any
      (fun w : RrSystem Bool => w.issued false =
          [{ TypeSupport.zero.createRequest.data with d := getSpeedHash }] ∧
        w.issued true = [{ TypeSupport.zero.createRequest.data with d := getStatusHash }] ∧
        testSynchronousApi.after (start .zero) (w.returned false) =
          .setSpeed 0 { TypeSupport.zero.createRequest.data with d := getSpeedHash }
            (.finite 10)) := by
    decide +kernel
  obtain ⟨w,hw,h⟩ := (Option.any_eq_true _ _).mp hsome
  obtain ⟨hfalse,htrue,hafter⟩ := of_decide_eq_true h
  have hg : Function.Injective System.clientGuid := by
    unfold Function.Injective
    decide
  have hf : testSynchronousApi.Follows (start .zero) (w.issued false) (w.returned false) := by
    rw [hfalse]
    intro k data hk
    cases k with
    | zero =>
      cases hk
      rfl
    | succ k => cases hk
  have hothers : ∀ j ≠ false, ∀ data ∈ w.issued j, data.d ≠ setSpeedHash
    | true,_,data,hdata => by
      rw [htrue] at hdata
      rw [List.mem_singleton.mp hdata]
      decide
  exact ⟨w,hw,⟨_,hafter⟩,(testSynchronousApi_climbs .oldest .zero "Good Status" hg hw hf hothers).1⟩

end TestSynchronousApi
end DdsRpc
