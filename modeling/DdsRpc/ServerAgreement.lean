import DdsRpc.RobotServers
set_option autoImplicit false

namespace DdsRpc
open Connext

namespace Servers

variable {ts : TypeSupport} {status : String}

/-- The replies `a` of `Robot`, at the speed `robot`, and `b` of `MyRobot` to one request. -/
def DataAgrees (ts : TypeSupport) (robot myrobot : Speed) (a b : RobotControlReturn) :
    Option Call → Prop
  | some (.command com) =>
    if com = .start ∨ com = .stop then a = b
    else a.d = commandHash ∧ a.command.d = Robot.retcodeError ∧ a.command.unknownEx = 1 ∧
      b.d = commandHash ∧ b.command.d = remoteExOk
  | some (.setSpeed speed) =>
    if speed.le MyRobot.maxSpeed then
      a = { b with setSpeed.result.return_ := robot } ∧ b.setSpeed.result.return_ = myrobot
    else a = b ∧ a.d = setSpeedHash ∧ a.setSpeed.d = tooFastExHash
  | some .getSpeed =>
    a = { b with getSpeed.result.return_ := robot } ∧ b.getSpeed.result.return_ = myrobot
  | some .getStatus => a = b
  | none => a = ts.createReply.data ∧ b = { ts.createReply.data with d := 0 }

/-- What the two servers know of each other: a setSpeed above the limit stops `Robot`
and leaves `MyRobot` as it was. -/
def SpeedsAgree (w : Servers) : Prop :=
  if w.rejected then w.rr.robot.speed = .finite 0
  else w.rr.robot.speed = w.func.service.speed

def lastAccepted (myrobot : Speed) : Option Call → Speed
  | some (.setSpeed speed) => if speed.le MyRobot.maxSpeed then speed else myrobot
  | _ => myrobot

/-- One request to both servers. -/
structure Agree (ts : TypeSupport) (w : Servers) (r : Sample RobotControlRequest)
    (w' : Servers) : Prop where
  replied : r.info.validData = true → ∃ a b, w'.rrReplies = w.rrReplies ++ [a] ∧
    w'.funcReplies = w.funcReplies ++ [b] ∧ a.relatedIdentity = b.relatedIdentity ∧
    DataAgrees ts w.rr.robot.speed w.func.service.speed a.data.data b.data.data
      r.data.data.selected
  ignored : r.info.validData = false →
    w'.rrReplies = w.rrReplies ∧ w'.funcReplies = w.funcReplies
  speeds : SpeedsAgree w'
  accepted : w'.func.service.speed =
    if r.info.validData then lastAccepted w.func.service.speed r.data.data.selected
    else w.func.service.speed

def IsNumber (r : Sample RobotControlRequest) : Prop :=
  r.data.data.selected ≠ some (.setSpeed .nan)

variable {r : Sample RobotControlRequest} {robot robot' : Robot} {m m' : MyRobot}
  {a b : RobotControlReply}

theorem answers_selected {op : Call} (hsel : r.data.data.selected = some op)
    (hop : op.unknownCommand = false)
    (ha : robot.processRequest ts status r = (a,robot'))
    (hb : dispatchRequest ts MyRobot.robotControl r m = (.ok b,m')) :
    (replyOf ts op ((Robot.service status).call ts.createStatus op robot).1 = .ok a ∧
      ((Robot.service status).call ts.createStatus op robot).2 = robot') ∧
    replyOf ts op (MyRobot.robotControl.call ts.createStatus op m).1 = .ok b ∧
      (MyRobot.robotControl.call ts.createStatus op m).2 = m' := by
  have hrobot := Robot.processRequest_selected ts status robot hsel hop
  rw [ha,dispatchRequest_selected hsel] at hrobot
  rw [dispatchRequest_selected hsel] at hb
  exact ⟨Prod.mk.inj hrobot.symm,Prod.mk.inj hb⟩

theorem lt_limit (speed : Speed) (h : speed ≠ .nan) :
    Robot.speedLimit.lt speed = !speed.le MyRobot.maxSpeed :=
  Speed.lt_eq (by simp [Robot.speedLimit]) h

theorem dataAgrees (hnan : IsNumber r) (hstatus : m.status = ⟨some status⟩)
    (ha : robot.processRequest ts status r = (a,robot'))
    (hb : dispatchRequest ts MyRobot.robotControl r m = (.ok b,m')) :
    DataAgrees ts robot.speed m.speed a.data b.data r.data.data.selected := by
  cases hsel : r.data.data.selected with
  | none =>
    rw [Robot.processRequest_unknown hsel] at ha
    rw [dispatchRequest_unknown hsel] at hb
    cases ha
    cases hb
    exact ⟨rfl,rfl⟩
  | some op =>
    cases hop : op.unknownCommand with
    | true =>
      cases op with
      | command com =>
        have hcom : ¬ (com = .start ∨ com = .stop) := by
          simpa [Call.unknownCommand,not_or] using hop
        rw [Robot.processRequest_unknownCommand hsel hop] at ha
        rw [dispatchRequest_selected hsel] at hb
        cases ha
        cases hb
        rw [DataAgrees,if_neg hcom]
        exact ⟨rfl,rfl,rfl,rfl,rfl⟩
      | setSpeed | getSpeed | getStatus => cases hop
    | false =>
      obtain ⟨⟨hra,-⟩,hrb,-⟩ := answers_selected hsel hop ha hb
      cases op with
      | command com =>
        have hcom : com = .start ∨ com = .stop := by
          simpa [Call.unknownCommand,or_iff_not_imp_left] using hop
        cases hra
        cases hrb
        rw [DataAgrees,if_pos hcom]
      | setSpeed speed =>
        have hlt := lt_limit speed (fun h => hnan (by rw [hsel,h]))
        simp only [RobotControl.call,Robot.service,MyRobot.robotControl,hlt] at hra hrb
        simp only [DataAgrees]
        split at hrb
        · rename_i hle
          simp only [hle,Bool.not_true,Bool.false_eq_true,if_false] at hra
          cases hra
          cases hrb
          simp [hle]
        · rename_i hle
          simp only [hle,Bool.not_false,if_true] at hra
          cases hra
          cases hrb
          simp [hle]
      | getSpeed =>
        cases hra
        cases hrb
        exact ⟨rfl,rfl⟩
      | getStatus =>
        have hcopy : (if ts.createStatus.msg.isSome then m.status else ts.createStatus) =
            ⟨ts.createStatus.msg.map (fun _ => status)⟩ := by
          rw [hstatus]
          generalize ts.createStatus = created
          obtain ⟨_ | _⟩ := created <;> rfl
        simp only [RobotControl.call,Robot.service,MyRobot.robotControl,hcopy] at hra hrb
        cases hra
        cases hrb
        rfl

theorem speeds_next (hnan : IsNumber r) (ha : robot.processRequest ts status r = (a,robot'))
    (hb : dispatchRequest ts MyRobot.robotControl r m = (.ok b,m')) :
    (∀ speed, r.data.data.selected = some (.setSpeed speed) →
      robot'.speed = (if speed.le MyRobot.maxSpeed then speed else .finite 0) ∧
      m'.speed = if speed.le MyRobot.maxSpeed then speed else m.speed) ∧
    ((∀ speed, r.data.data.selected ≠ some (.setSpeed speed)) → robot' = robot ∧ m' = m) := by
  cases hsel : r.data.data.selected with
  | none =>
    rw [Robot.processRequest_unknown hsel] at ha
    rw [dispatchRequest_unknown hsel] at hb
    cases ha
    cases hb
    exact ⟨by simp,fun _ => ⟨rfl,rfl⟩⟩
  | some op =>
    cases hop : op.unknownCommand with
    | true =>
      rw [Robot.processRequest_unknownCommand hsel hop] at ha
      rw [dispatchRequest_selected hsel] at hb
      cases op with
      | command com =>
        cases ha
        cases hb
        exact ⟨by simp,fun _ => ⟨rfl,rfl⟩⟩
      | setSpeed | getSpeed | getStatus => cases hop
    | false =>
      obtain ⟨⟨-,rfl⟩,-,rfl⟩ := answers_selected hsel hop ha hb
      cases op with
      | command | getSpeed | getStatus => exact ⟨by simp,fun _ => ⟨rfl,rfl⟩⟩
      | setSpeed speed =>
        have hlt := lt_limit speed (fun h => hnan (by rw [hsel,h]))
        refine ⟨?_,fun h => absurd rfl (h speed)⟩
        rintro _ ⟨⟩
        simp only [RobotControl.call,Robot.service,MyRobot.robotControl,hlt]
        cases hle : speed.le MyRobot.maxSpeed <;> simp

variable {w : Servers}

theorem agree_serve (ts : TypeSupport) (hnan : IsNumber r) (hw : Idle status w)
    (hs : SpeedsAgree w) :
    Agree ts w r (w.serve ts status r) ∧ Idle status (w.serve ts status r) := by
  obtain ⟨hidle,hserved⟩ := serve_cases ts hw r
  refine ⟨?_,hidle⟩
  cases hv : r.info.validData with
  | false =>
    rw [hv,if_neg (by simp)] at hserved
    rw [hserved]
    exact ⟨fun h => (by cases hv.symm.trans h),fun _ => ⟨rfl,rfl⟩,hs,by simp [hv]⟩
  | true =>
    rw [if_pos hv] at hserved
    obtain ⟨reply,hm,hfunc⟩ := hserved.func
    have ha : w.rr.robot.processRequest ts status r = (_,(w.serve ts status r).rr.robot) :=
      Prod.ext rfl hserved.robot.symm
    have hdata := dataAgrees hnan hw.status ha hm
    have hspeeds : SpeedsAgree (w.serve ts status r) ∧ (w.serve ts status r).func.service.speed =
        lastAccepted w.func.service.speed r.data.data.selected := by
      obtain ⟨hset,hother⟩ := speeds_next hnan ha hm
      unfold SpeedsAgree
      by_cases hsets : ∃ speed, r.data.data.selected = some (.setSpeed speed)
      · obtain ⟨speed,hsel⟩ := hsets
        have hrejected : (w.serve ts status r).rejected = !speed.le MyRobot.maxSpeed := by
          simp [serve,hv,hsel]
        obtain ⟨h₁,h₂⟩ := hset speed hsel
        rw [hrejected,h₁,h₂,hsel]
        refine ⟨?_,rfl⟩
        by_cases hle : speed.le MyRobot.maxSpeed = true <;> simp [hle]
      · have hne := not_exists.mp hsets
        have hrejected : (w.serve ts status r).rejected = w.rejected := by
          simp only [serve]
          split
          · exact absurd ‹_› (hne _)
          · rfl
        have hkept : lastAccepted w.func.service.speed r.data.data.selected =
            w.func.service.speed := by
          unfold lastAccepted
          split
          · exact absurd ‹_› (hne _)
          · rfl
        obtain ⟨h₁,h₂⟩ := hother hne
        rw [hrejected,hkept,h₁,h₂]
        exact ⟨hs,rfl⟩
    exact ⟨fun _ => ⟨_,_,hserved.rrReplies,hfunc,rfl,hdata⟩,fun h => (by cases hv.symm.trans h),
      hspeeds.1,by rw [if_pos hv]; exact hspeeds.2⟩

def Accepted (r : Sample RobotControlRequest) : Prop :=
  ∃ op, r.data.data.selected = some op ∧ op.unknownCommand = false ∧
    ∀ speed, op = .setSpeed speed → speed.le MyRobot.maxSpeed = true

/-- The same replies, as their receivers see them, and the same speed at the end. -/
structure Interchangeable (ts : TypeSupport) (status : String) (speed : Speed)
    (rs : List (Sample RobotControlRequest)) : Prop where
  replies : ∀ w, (machine ts status).run (start speed speed status) rs = some w →
    w.rrReplies.map (fun out => ts.createReply.data.deserialize out.data.data) =
      w.funcReplies.map (fun out => ts.createReply.data.deserialize out.data.data)
  speed : ∀ w, (machine ts status).run (start speed speed status) rs = some w →
    w.rr.robot.speed = w.func.service.speed

theorem DataAgrees.eq {speed : Speed} {a b : RobotControlReturn} (hr : Accepted r)
    (h : DataAgrees ts speed speed a b r.data.data.selected) : a = b := by
  obtain ⟨op,hsel,hcom,hset⟩ := hr
  rw [hsel] at h
  cases op with
  | command com =>
    have hknown : com = .start ∨ com = .stop := by
      simpa [Call.unknownCommand,or_iff_not_imp_left] using hcom
    rwa [DataAgrees,if_pos hknown] at h
  | setSpeed v =>
    rw [DataAgrees,if_pos (hset v rfl)] at h
    obtain ⟨rfl,hb⟩ := h
    rw [← hb]
  | getSpeed =>
    obtain ⟨rfl,hb⟩ := h
    rw [← hb]
  | getStatus => exact h

theorem isNumber_of_accepted (hr : Accepted r) : IsNumber r := by
  obtain ⟨op,hsel,-,hset⟩ := hr
  intro hnan
  rw [hsel,Option.some.injEq] at hnan
  have hle := hset .nan hnan
  rw [Speed.nan_le] at hle
  cases hle

structure Same (status : String) (w : Servers) : Prop where
  idle : Idle status w
  speed : w.rr.robot.speed = w.func.service.speed
  rejected : w.rejected = false
  replies : w.rrReplies.map (·.data.data) = w.funcReplies.map (·.data.data)

theorem same_serve (hr : Accepted r) (hw : Same status w) : Same status (w.serve ts status r) := by
  have hs : SpeedsAgree w := by simp [SpeedsAgree,hw.rejected,hw.speed]
  obtain ⟨hagree,hidle⟩ := agree_serve ts (isNumber_of_accepted hr) hw.idle hs
  have hrejected : (w.serve ts status r).rejected = false := by
    obtain ⟨op,hsel,-,hset⟩ := hr
    simp only [serve,hsel]
    split
    · rename_i heq
      simp [hset _ (Option.some.inj heq)]
    · exact hw.rejected
  have hspeeds := hagree.speeds
  rw [SpeedsAgree,hrejected,if_neg (by simp)] at hspeeds
  refine ⟨hidle,hspeeds,hrejected,?_⟩
  cases hv : r.info.validData with
  | false =>
    obtain ⟨h₁,h₂⟩ := hagree.ignored hv
    rw [h₁,h₂,hw.replies]
  | true =>
    obtain ⟨a,b,h₁,h₂,-,hdata⟩ := hagree.replied hv
    rw [hw.speed] at hdata
    rw [h₁,h₂,List.map_append,List.map_append,hw.replies]
    simp [hdata.eq hr]

/-- The servers agree, request by request, as far as `Agree` says; on requests that both
accept they cannot be told apart. -/
theorem servers_agree (ts : TypeSupport) (status : String) (speed : Speed)
    {rs : List (Sample RobotControlRequest)} (hrs : ∀ r ∈ rs, IsNumber r) :
    (machine ts status).Along (Agree ts) (start speed speed status) rs ∧
    ((∀ r ∈ rs, Accepted r) → Interchangeable ts status speed rs) := by
  constructor
  · refine Machine.along_of_invariant (I := fun w => Idle status w ∧ SpeedsAgree w) ?_ hrs
      ⟨idle_start _ _ _,by simp [SpeedsAgree,start]⟩
    rintro w r _ hnan ⟨⟩ ⟨hw,hs⟩
    obtain ⟨hagree,hidle⟩ := agree_serve ts hnan hw hs
    exact ⟨hagree,hidle,hagree.speeds⟩
  · intro hacc
    have hsame : ∀ w, (machine ts status).run (start speed speed status) rs = some w →
        Same status w := by
      intro w h
      refine Machine.run_preserves_of (P := Same status) (Q := Accepted) ?_ hacc h
        ⟨idle_start _ _ _,rfl,rfl,rfl⟩
      rintro w r _ hr ⟨⟩ hw
      exact same_serve hr hw
    refine ⟨fun w h => ?_,fun w h => (hsame w h).speed⟩
    have hdata := congrArg (List.map ts.createReply.data.deserialize) (hsame w h).replies
    simpa only [List.map_map,Function.comp_def] using hdata

def setSpeedRequest (speed : Speed) : Sample RobotControlRequest :=
  { TypeSupport.zero.requestSample with
    data.data.d := setSpeedHash
    data.data.setSpeed.speed := speed
    info.validData := true }

def receivedRequest (call : RobotControlCall) : Sample RobotControlRequest :=
  { TypeSupport.zero.requestSample with
    data.data := call
    info.validData := true }

def mixedRequests : List (Sample RobotControlRequest) :=
  [setSpeedRequest (.finite 20),setSpeedRequest (.finite 200),
    receivedRequest { TypeSupport.zero.createRequest.data with d := getSpeedHash },
    receivedRequest { TypeSupport.zero.createRequest.data with d := commandHash, command := ⟨⟨7⟩⟩ },
    receivedRequest { TypeSupport.zero.createRequest.data with d := 99 }]

theorem servers_agree_mixed :
    (machine .zero "Good Status").Along (Agree .zero)
      (start (.finite 10) (.finite 10) "Good Status") mixedRequests ∧
    ((machine .zero "Good Status").run (start (.finite 10) (.finite 10) "Good Status")
      mixedRequests).map (fun w => (w.rr.robot.speed,w.func.service.speed)) =
        some (.finite 0,.finite 20) ∧
    Interchangeable .zero "Good Status" (.finite 10) [setSpeedRequest (.finite 20)] := by
  refine ⟨(servers_agree .zero "Good Status" (.finite 10) ?_).1,by decide,
    (servers_agree .zero "Good Status" (.finite 10) ?_).2 ?_⟩
  · simp only [IsNumber]
    decide
  · rintro r hr
    obtain rfl := List.mem_singleton.mp hr
    exact fun h => absurd h (by decide)
  · rintro r hr
    obtain rfl := List.mem_singleton.mp hr
    refine ⟨.setSpeed (.finite 20),rfl,rfl,?_⟩
    rintro _ ⟨⟩
    decide

/-- A speed of 200 stops the one robot and not the other. -/
theorem interchangeable_fails : ¬ Interchangeable .zero "Good Status" (.finite 10)
    [setSpeedRequest (.finite 200)] := by
  intro h
  have hspeed := h.speed _ rfl
  exact absurd hspeed (by decide)

end Servers
end DdsRpc
