import DdsRpc.Dispatcher
import Mathlib.Algebra.Order.Field.Rat
set_option autoImplicit false

namespace DdsRpc
open Connext

def Speed.le : Speed → Speed → Bool
  | .nan,_ | _,.nan => false
  | .negInf,_ | _,.posInf => true
  | .finite a,.finite b => a ≤ b
  | .posInf,_ | _,.negInf => false

def Speed.lt : Speed → Speed → Bool
  | .nan,_ | _,.nan => false
  | .finite a,.finite b => a < b
  | .negInf,.negInf | .posInf,_ => false
  | .negInf,_ | _,.posInf => true
  | _,.negInf => false

/-- The two comparisons are each other's negation except on NaN. -/
theorem Speed.lt_eq {a b : Speed} (ha : a ≠ .nan) (hb : b ≠ .nan) : a.lt b = !b.le a := by
  cases a <;> cases b <;> simp_all [lt,le,← decide_not]

@[simp] theorem Speed.lt_nan (a : Speed) : a.lt .nan = false := by
  cases a <;> rfl

@[simp] theorem Speed.nan_le (a : Speed) : Speed.nan.le a = false := by
  cases a <;> rfl

structure Robot where
  speed : Speed
  deriving DecidableEq

namespace Robot

def init : Robot := ⟨.finite 0⟩

def speedLimit : Speed := .finite 100

def retcodeOk : Int32 := 0
def retcodeError : Int32 := 1

/-- `status` is the text that the source has as a literal. It is copied into the string
that `create_data` has put into the reply. -/
def processRequest (ts : TypeSupport) (status : String) (request : Sample RobotControlRequest)
    (robot : Robot) : RobotControlReply × Robot :=
  let reply := ts.createReply
  let oldspeed := robot.speed
  let call := request.data.data
  if call.d = commandHash then
    if call.command.com = .start ∨ call.command.com = .stop then
      ({ reply with
        data.d := commandHash
        data.command.d := retcodeOk
        data.command.result.dummy := 0 },robot)
    else
      ({ reply with
        data.d := commandHash
        data.command.d := retcodeError
        data.command.unknownEx := 1 },robot)
  else if call.d = setSpeedHash then
    if speedLimit.lt call.setSpeed.speed then
      ({ reply with
        data.d := setSpeedHash
        data.setSpeed.d := tooFastExHash
        data.setSpeed.toofastEx := ⟨0⟩ },{ robot with speed := .finite 0 })
    else
      ({ reply with
        data.d := setSpeedHash
        data.setSpeed.d := retcodeOk
        data.setSpeed.result.return_ := oldspeed },{ robot with speed := call.setSpeed.speed })
  else if call.d = getSpeedHash then
    ({ reply with
      data.d := getSpeedHash
      data.getSpeed.d := retcodeOk
      data.getSpeed.result.return_ := robot.speed },robot)
  else if call.d = getStatusHash then
    ({ reply with
      data.d := getStatusHash
      data.getStatus.d := retcodeOk
      data.getStatus.result.status.msg :=
        reply.data.getStatus.result.status.msg.map (fun _ => status) },robot)
  else (reply,robot)

end Robot

structure RobotServer where
  replier : ReplierImpl RobotControlCall RobotControlReturn
  robot : Robot

def RobotServer.turn (ts : TypeSupport) (status : String) (w : RobotServer) : RobotServer :=
  let (replier,ret,request) := w.replier.receiveRequest ts.requestSample
  if ret then
    let (reply,robot) := w.robot.processRequest ts status request
    { replier := replier.sendReply reply (toRpcSampleIdentity request.info.identity), robot }
  else { w with replier }

structure MyRobot where
  speed : Speed
  status : Status
  deriving DecidableEq

namespace MyRobot

def maxSpeed : Speed := .finite 100

def init (msg : Option String) : MyRobot := ⟨.finite 10,⟨some (msg.getD "")⟩⟩

/-- Of `command` only what it prints depends on the argument. -/
def robotControl : RobotControl MyRobot where
  command _ robot := (.ok (),robot)
  setSpeed speed robot :=
    let oldspeed := robot.speed
    if speed.le maxSpeed then (.ok oldspeed,{ robot with speed })
    else (.error (.tooFast ⟨0⟩),robot)
  getSpeed robot := (.ok robot.speed,robot)
  getStatus status robot := (.ok (if status.msg.isSome then robot.status else status),robot)

end MyRobot

section
variable {ts : TypeSupport} {status : String} {r : Sample RobotControlRequest} {robot : Robot}

/-- What `process_request` does, as the methods of an interface. -/
def Robot.service (status : String) : RobotControl Robot where
  command _ robot := (.ok (),robot)
  setSpeed speed robot :=
    if speedLimit.lt speed then (.error (.tooFast ⟨0⟩),⟨.finite 0⟩)
    else (.ok robot.speed,⟨speed⟩)
  getSpeed robot := (.ok robot.speed,robot)
  getStatus created robot := (.ok ⟨created.msg.map (fun _ => status)⟩,robot)

def Call.unknownCommand : Call → Bool
  | .command com => com ≠ .start && com ≠ .stop
  | _ => false

/-- `Robot` answers as a dispatcher over its methods would, but for unknown commands. -/
theorem Robot.processRequest_selected (ts : TypeSupport) (status : String) (robot : Robot)
    {op : Call} (h : r.data.data.selected = some op) (hop : op.unknownCommand = false) :
    (.ok (robot.processRequest ts status r).1,(robot.processRequest ts status r).2) =
      dispatchRequest ts (service status) r robot := by
  rw [dispatchRequest_selected h]
  have hs := r.data.data.selects
  rw [h] at hs
  cases hs with
  | command hd =>
    have hcom : r.data.data.command.com = .start ∨ r.data.data.command.com = .stop := by
      simpa [Call.unknownCommand,or_iff_not_imp_left] using hop
    simp only [processRequest,hd,if_true,hcom]
    rfl
  | setSpeed hd =>
    have hne : setSpeedHash ≠ commandHash := by decide
    simp only [processRequest,hd,hne,if_false,if_true,RobotControl.call,service]
    split <;> rfl
  | getSpeed hd =>
    have h₁ : getSpeedHash ≠ commandHash := by decide
    have h₂ : getSpeedHash ≠ setSpeedHash := by decide
    simp only [processRequest,hd,h₁,h₂,if_false,if_true]
    rfl
  | getStatus hd =>
    have h₁ : getStatusHash ≠ commandHash := by decide
    have h₂ : getStatusHash ≠ setSpeedHash := by decide
    have h₃ : getStatusHash ≠ getSpeedHash := by decide
    simp only [processRequest,hd,h₁,h₂,h₃,if_false,if_true]
    rfl

theorem Robot.processRequest_unknownCommand {op : Call} (h : r.data.data.selected = some op)
    (hop : op.unknownCommand = true) :
    robot.processRequest ts status r =
      ({ ts.createReply with
        data.d := commandHash
        data.command.d := retcodeError
        data.command.unknownEx := 1 },robot) := by
  have hs := r.data.data.selects
  rw [h] at hs
  cases hs with
  | command hd =>
    have hcom : ¬ (r.data.data.command.com = .start ∨ r.data.data.command.com = .stop) := by
      simpa [Call.unknownCommand,not_or] using hop
    simp [processRequest,hd,hcom]
  | setSpeed | getSpeed | getStatus => cases hop

theorem Robot.processRequest_unknown (h : r.data.data.selected = none) :
    robot.processRequest ts status r = (ts.createReply,robot) := by
  have hs := r.data.data.selects
  rw [h] at hs
  cases hs with
  | none h₁ h₂ h₃ h₄ => simp [processRequest,h₁,h₂,h₃,h₄]

end

def ReplierImpl.arrive {α β : Type} (impl : ReplierImpl α β) (r : Sample (Request α)) :
    ReplierImpl α β :=
  { impl with super.reader := impl.super.reader ++ [r] }

theorem RobotServer.turn_arrive (ts : TypeSupport) (status : String) {w : RobotServer}
    {ws : List (WriteReply RobotControlReply)} (hw : w.replier = ⟨⟨[],ws⟩,true⟩)
    (r : Sample RobotControlRequest) :
    turn ts status { w with replier := w.replier.arrive r } =
      if r.info.validData then
        { replier.super.reader := []
          replier.super.written := ws ++
            [⟨ReplierImpl.outgoing (w.robot.processRequest ts status r).1
              (toRpcSampleIdentity r.info.identity),r.info.identity⟩]
          replier.suppressInvalid := true
          robot := (w.robot.processRequest ts status r).2 }
      else w := by
  obtain ⟨replier,robot⟩ := w
  cases hw
  cases hv : r.info.validData <;>
    simp [turn,ReplierImpl.arrive,ReplierImpl.receiveRequest,Replier.receiveRequest,
      ReplierImpl.sendReply,Replier.sendReply,hv]

theorem Dispatcher.dispatch_arrive {σ : Type} {ts : TypeSupport} {R : RobotControl σ}
    {d : Dispatcher σ} {ws : List (WriteReply RobotControlReply)}
    (hd : d.replier = ⟨⟨[],ws⟩,true⟩) {r : Sample RobotControlRequest}
    {reply : RobotControlReply} {s : σ} (hreq : dispatchRequest ts R r d.service = (.ok reply,s)) :
    (dispatch ts R { d with replier := d.replier.arrive r }).2 =
      if r.info.validData then
        { replier.super.reader := []
          replier.super.written := ws ++ [⟨ReplierImpl.outgoing reply
            (toRpcSampleIdentity r.info.identity),r.info.identity⟩]
          replier.suppressInvalid := true
          service := s }
      else d := by
  obtain ⟨replier,service⟩ := d
  cases hd
  cases hv : r.info.validData <;>
    simp [dispatch,ReplierImpl.arrive,ReplierImpl.receiveRequest,Replier.receiveRequest,
      ReplierImpl.sendReply,Replier.sendReply,hv,hreq]

/-- `rejected` records whether the last setSpeed was above the limit. -/
structure Servers where
  rr : RobotServer
  func : Dispatcher MyRobot
  rejected : Bool

namespace Servers

def start (robot myrobot : Speed) (status : String) : Servers :=
  ⟨⟨.init,⟨robot⟩⟩,⟨.init,⟨myrobot,⟨some status⟩⟩⟩,false⟩

def serve (ts : TypeSupport) (status : String) (w : Servers) (r : Sample RobotControlRequest) :
    Servers where
  rr := RobotServer.turn ts status { w.rr with replier := w.rr.replier.arrive r }
  func := (Dispatcher.dispatch ts MyRobot.robotControl
    { w.func with replier := w.func.replier.arrive r }).2
  rejected :=
    match r.info.validData,r.data.data.selected with
    | true,some (.setSpeed speed) => !speed.le MyRobot.maxSpeed
    | _,_ => w.rejected

def machine (ts : TypeSupport) (status : String) : Machine Servers (Sample RobotControlRequest) :=
  ⟨fun w r => some (w.serve ts status r)⟩

abbrev rrReplies (w : Servers) : List (WriteReply RobotControlReply) := w.rr.replier.super.written

abbrev funcReplies (w : Servers) : List (WriteReply RobotControlReply) :=
  w.func.replier.super.written

structure Idle (status : String) (w : Servers) : Prop where
  rr : w.rr.replier = ⟨⟨[],w.rrReplies⟩,true⟩
  func : w.func.replier = ⟨⟨[],w.funcReplies⟩,true⟩
  status : w.func.service.status = ⟨some status⟩

variable {ts : TypeSupport} {status : String} {w : Servers} {r : Sample RobotControlRequest}

theorem idle_start (robot myrobot : Speed) (status : String) :
    Idle status (start robot myrobot status) := ⟨rfl,rfl,rfl⟩

theorem myRobot_answers (ts : TypeSupport) (r : Sample RobotControlRequest) (m : MyRobot) :
    ∃ reply m', dispatchRequest ts MyRobot.robotControl r m = (.ok reply,m') ∧
      m'.status = m.status := by
  cases hsel : r.data.data.selected with
  | none => exact ⟨_,_,dispatchRequest_unknown hsel m,rfl⟩
  | some op =>
    rw [dispatchRequest_selected hsel]
    cases op with
    | setSpeed speed =>
      simp only [RobotControl.call,MyRobot.robotControl]
      split <;> exact ⟨_,_,rfl,rfl⟩
    | command | getSpeed | getStatus => exact ⟨_,_,rfl,rfl⟩

/-- What each server sends for a request, and its state afterwards. -/
structure Served (ts : TypeSupport) (status : String) (w : Servers)
    (r : Sample RobotControlRequest) (w' : Servers) : Prop where
  robot : w'.rr.robot = (w.rr.robot.processRequest ts status r).2
  rrReplies : w'.rrReplies = w.rrReplies ++
    [⟨ReplierImpl.outgoing (w.rr.robot.processRequest ts status r).1
      (toRpcSampleIdentity r.info.identity),r.info.identity⟩]
  func : ∃ reply, dispatchRequest ts MyRobot.robotControl r w.func.service =
      (.ok reply,w'.func.service) ∧
    w'.funcReplies = w.funcReplies ++
      [⟨ReplierImpl.outgoing reply (toRpcSampleIdentity r.info.identity),r.info.identity⟩]

theorem serve_cases (ts : TypeSupport) (hw : Idle status w) (r : Sample RobotControlRequest) :
    Idle status (w.serve ts status r) ∧
      if r.info.validData then Served ts status w r (w.serve ts status r)
      else w.serve ts status r = w := by
  obtain ⟨reply,m',hm,hkeep⟩ := myRobot_answers ts r w.func.service
  have hrr := RobotServer.turn_arrive ts status hw.rr r
  have hfunc := Dispatcher.dispatch_arrive hw.func hm
  cases hv : r.info.validData with
  | false =>
    rw [if_neg (by simp [hv])] at hrr hfunc
    have hsame : w.serve ts status r = w := by simp [serve,hrr,hfunc,hv]
    rw [hsame]
    exact ⟨hw,by simp⟩
  | true =>
    rw [if_pos hv] at hrr hfunc
    simp only [if_true]
    refine ⟨⟨?_,?_,?_⟩,?_,?_,reply,?_,?_⟩
    all_goals simp only [serve,rrReplies,funcReplies,hrr,hfunc]
    · exact hkeep.trans hw.status
    · exact hm

end Servers
end DdsRpc
