import DdsRpc.ServerAgreement
set_option autoImplicit false

namespace DdsRpc
open Connext

namespace Servers

variable {σ : Type} {ts : TypeSupport} {status : String} {r : Sample RobotControlRequest}

/-- A service that keeps its speed below the limit, asked for speeds in `Q` only. -/
structure RespectsLimit (R : RobotControl σ) (speed : σ → Speed) (Q : Speed → Prop) : Prop where
  command : ∀ com s, (speed s).le MyRobot.maxSpeed = true →
    (speed (R.command com s).2).le MyRobot.maxSpeed = true
  accepts : ∀ v s, Q v → (speed s).le MyRobot.maxSpeed = true → v.le MyRobot.maxSpeed = true →
    ∃ old s', R.setSpeed v s = (.ok old,s') ∧ old.le MyRobot.maxSpeed = true ∧
      (speed s').le MyRobot.maxSpeed = true
  rejects : ∀ v s, Q v → (speed s).le MyRobot.maxSpeed = true → v.le MyRobot.maxSpeed = false →
    ∃ e s', R.setSpeed v s = (.error (.tooFast e),s') ∧ (speed s').le MyRobot.maxSpeed = true
  getSpeed : ∀ s, (speed s).le MyRobot.maxSpeed = true →
    ∃ v s', R.getSpeed s = (.ok v,s') ∧ v.le MyRobot.maxSpeed = true ∧
      (speed s').le MyRobot.maxSpeed = true
  getStatus : ∀ st s, (speed s).le MyRobot.maxSpeed = true →
    (speed (R.getStatus st s).2).le MyRobot.maxSpeed = true

theorem myRobot_respectsLimit :
    RespectsLimit MyRobot.robotControl MyRobot.speed (fun _ => True) where
  command _ _ h := h
  accepts v m _ h hv := ⟨m.speed,{ m with speed := v },by simp [MyRobot.robotControl,hv],h,hv⟩
  rejects v m _ h hv := ⟨⟨0⟩,m,by simp [MyRobot.robotControl,hv],h⟩
  getSpeed m h := ⟨m.speed,m,rfl,h,h⟩
  getStatus _ _ h := h

theorem robot_respectsLimit (status : String) :
    RespectsLimit (Robot.service status) Robot.speed (fun v => v ≠ .nan) where
  command _ _ h := h
  accepts v robot hnan h hv :=
    ⟨robot.speed,⟨v⟩,by simp [Robot.service,lt_limit _ hnan,hv],h,hv⟩
  rejects v robot hnan _ hv :=
    ⟨⟨0⟩,⟨.finite 0⟩,by simp [Robot.service,lt_limit _ hnan,hv],by decide⟩
  getSpeed robot h := ⟨robot.speed,robot,rfl,h,h⟩
  getStatus _ _ h := h

/-- The speeds in a reply are below the limit, and a request for more is refused. -/
structure ReplyWithin (r : Sample RobotControlRequest) (data : RobotControlReturn) : Prop where
  getSpeed : r.data.data.selected = some .getSpeed →
    data.getSpeed.result.return_.le MyRobot.maxSpeed = true
  setSpeed : ∀ v, r.data.data.selected = some (.setSpeed v) → data.setSpeed.d ≠ tooFastExHash →
    data.setSpeed.result.return_.le MyRobot.maxSpeed = true
  refused : ∀ v, r.data.data.selected = some (.setSpeed v) → v.le MyRobot.maxSpeed = false →
    data.d = setSpeedHash ∧ data.setSpeed.d = tooFastExHash

theorem replyWithin_of_other {data : RobotControlReturn}
    (hget : r.data.data.selected ≠ some .getSpeed)
    (hset : ∀ v, r.data.data.selected ≠ some (.setSpeed v)) : ReplyWithin r data :=
  ⟨fun h => absurd h hget,fun v h => absurd h (hset v),fun v h => absurd h (hset v)⟩

theorem dispatchRequest_within {R : RobotControl σ} {speed : σ → Speed} {Q : Speed → Prop}
    (hR : RespectsLimit R speed Q) {s s' : σ} (hs : (speed s).le MyRobot.maxSpeed = true)
    (hQ : ∀ v, r.data.data.selected = some (.setSpeed v) → Q v) {reply : RobotControlReply}
    (h : dispatchRequest ts R r s = (.ok reply,s')) :
    ReplyWithin r reply.data ∧ (speed s').le MyRobot.maxSpeed = true := by
  cases hsel : r.data.data.selected with
  | none =>
    rw [dispatchRequest_unknown hsel] at h
    cases h
    exact ⟨replyWithin_of_other (by simp [hsel]) (by simp [hsel]),hs⟩
  | some op =>
    rw [dispatchRequest_selected hsel] at h
    obtain ⟨hreply,rfl⟩ := Prod.mk.inj h
    cases op with
    | command com =>
      exact ⟨replyWithin_of_other (by simp [hsel]) (by simp [hsel]),hR.command com s hs⟩
    | getStatus =>
      exact ⟨replyWithin_of_other (by simp [hsel]) (by simp [hsel]),hR.getStatus _ s hs⟩
    | getSpeed =>
      obtain ⟨v,s₁,hcall,hv,hs₁⟩ := hR.getSpeed s hs
      simp only [RobotControl.call,hcall] at hreply ⊢
      cases hreply
      exact ⟨⟨fun _ => hv,by simp [hsel],by simp [hsel]⟩,hs₁⟩
    | setSpeed v =>
      cases hv : v.le MyRobot.maxSpeed with
      | true =>
        obtain ⟨old,s₁,hcall,hold,hs₁⟩ := hR.accepts v s (hQ v hsel) hs hv
        simp only [RobotControl.call,hcall] at hreply ⊢
        cases hreply
        refine ⟨⟨by simp [hsel],fun _ _ _ => hold,fun v' hv' hle => ?_⟩,hs₁⟩
        rw [hsel] at hv'
        cases hv'
        rw [hv] at hle
        cases hle
      | false =>
        obtain ⟨e,s₁,hcall,hs₁⟩ := hR.rejects v s (hQ v hsel) hs hv
        simp only [RobotControl.call,hcall] at hreply ⊢
        cases hreply
        exact ⟨⟨by simp [hsel],fun _ _ h => absurd rfl h,fun _ _ _ => ⟨rfl,rfl⟩⟩,hs₁⟩

theorem processRequest_within (ts : TypeSupport) (status : String) {robot : Robot}
    (hs : robot.speed.le MyRobot.maxSpeed = true) (hnan : IsNumber r) :
    ReplyWithin r (robot.processRequest ts status r).1.data ∧
      (robot.processRequest ts status r).2.speed.le MyRobot.maxSpeed = true := by
  cases hsel : r.data.data.selected with
  | none =>
    rw [Robot.processRequest_unknown hsel]
    exact ⟨replyWithin_of_other (by simp [hsel]) (by simp [hsel]),hs⟩
  | some op =>
    cases hop : op.unknownCommand with
    | true =>
      cases op with
      | command com =>
        rw [Robot.processRequest_unknownCommand hsel hop]
        exact ⟨replyWithin_of_other (by simp [hsel]) (by simp [hsel]),hs⟩
      | setSpeed | getSpeed | getStatus => cases hop
    | false =>
      refine dispatchRequest_within (robot_respectsLimit status) hs (fun v hv => ?_)
        (Robot.processRequest_selected ts status robot hsel hop).symm
      rintro rfl
      exact hnan hv

/-- NaN is not above the limit, so it is accepted, though it is not below it either. -/
theorem not_replyWithin_nan {robot : Robot} (hsel : r.data.data.selected = some (.setSpeed .nan)) :
    ¬ ReplyWithin r (robot.processRequest ts status r).1.data := by
  intro h
  have hrobot := Robot.processRequest_selected ts status robot
    hsel rfl
  rw [dispatchRequest_selected hsel] at hrobot
  simp only [RobotControl.call,Robot.service,Speed.lt_nan,Bool.false_eq_true,if_false] at hrobot
  obtain ⟨hreply,-⟩ := Prod.mk.inj hrobot
  have hrefused := (h.refused .nan hsel (Speed.nan_le _)).2
  rw [Except.ok.inj hreply] at hrefused
  have hne : remoteExOk ≠ tooFastExHash := by decide
  exact hne hrefused

/-- The replies that one server adds to `before` when it gets `r`: a request with data is
answered, and within the limit. -/
def RepliesWithin (r : Sample RobotControlRequest)
    (before after : List (WriteReply RobotControlReply)) : Prop :=
  ∃ outs, after = before ++ outs ∧ (r.info.validData = true → outs ≠ []) ∧
    ∀ out ∈ outs, ReplyWithin r out.data.data

theorem repliesWithin_refl (hv : r.info.validData = false)
    (outs : List (WriteReply RobotControlReply)) : RepliesWithin r outs outs :=
  ⟨[],by simp,fun h => by simp [hv] at h,by simp⟩

theorem repliesWithin_append_iff {before : List (WriteReply RobotControlReply)}
    {out : WriteReply RobotControlReply} :
    RepliesWithin r before (before ++ [out]) ↔ ReplyWithin r out.data.data := by
  constructor
  · rintro ⟨outs,houts,-,hwithin⟩
    exact hwithin out (by simp [← List.append_cancel_left houts])
  · exact fun h => ⟨[out],rfl,fun _ => by simp,by simpa using h⟩

def RrWithin (w : Servers) (r : Sample RobotControlRequest) (w' : Servers) : Prop :=
  w'.rr.robot.speed.le MyRobot.maxSpeed = true ∧ RepliesWithin r w.rrReplies w'.rrReplies

def FuncWithin (w : Servers) (r : Sample RobotControlRequest) (w' : Servers) : Prop :=
  w'.func.service.speed.le MyRobot.maxSpeed = true ∧
    RepliesWithin r w.funcReplies w'.funcReplies

variable {w : Servers}

theorem rrWithin_iff (hw : Idle status w) (hs : w.rr.robot.speed.le MyRobot.maxSpeed = true) :
    RrWithin w r (w.serve ts status r) ↔ (r.info.validData = true → IsNumber r) := by
  obtain ⟨-,hserved⟩ := serve_cases ts hw r
  cases hv : r.info.validData with
  | false =>
    rw [hv,if_neg (by simp)] at hserved
    rw [hserved]
    exact iff_of_true ⟨hs,repliesWithin_refl hv _⟩ (by simp)
  | true =>
    rw [if_pos hv] at hserved
    rw [RrWithin,hserved.rrReplies,repliesWithin_append_iff]
    constructor
    · intro h _ hnan
      exact not_replyWithin_nan hnan h.2
    · intro h
      obtain ⟨hreply,hspeed⟩ := processRequest_within ts status hs (h rfl)
      exact ⟨by rwa [hserved.robot],hreply⟩

theorem funcWithin_serve (ts : TypeSupport) (r : Sample RobotControlRequest)
    (hw : Idle status w) (hs : w.func.service.speed.le MyRobot.maxSpeed = true) :
    FuncWithin w r (w.serve ts status r) := by
  obtain ⟨-,hserved⟩ := serve_cases ts hw r
  cases hv : r.info.validData with
  | false =>
    rw [hv,if_neg (by simp)] at hserved
    rw [hserved]
    exact ⟨hs,repliesWithin_refl hv _⟩
  | true =>
    rw [if_pos hv] at hserved
    obtain ⟨reply,hm,hfunc⟩ := hserved.func
    obtain ⟨hreply,hspeed⟩ :=
      dispatchRequest_within myRobot_respectsLimit hs (fun _ _ => trivial) hm
    rw [FuncWithin,hfunc,repliesWithin_append_iff]
    exact ⟨hspeed,hreply⟩

def new (status : String) : Servers :=
  start Robot.init.speed (MyRobot.init (some status)).speed status

theorem exists_run (ts : TypeSupport) (status : String) (w : Servers)
    (rs : List (Sample RobotControlRequest)) : ∃ w', (machine ts status).run w rs = some w' := by
  induction rs generalizing w with
  | nil => exact ⟨w,rfl⟩
  | cons r rs ih =>
    obtain ⟨w',hw'⟩ := ih (w.serve ts status r)
    exact ⟨w',Machine.run_cons.mpr ⟨_,rfl,hw'⟩⟩

/-- `Robot` keeps to its limit exactly as long as nobody sets its speed to NaN; `MyRobot`
always does. -/
theorem speedLimit_iff (ts : TypeSupport) (status : String)
    (rs : List (Sample RobotControlRequest)) :
    ((machine ts status).Along RrWithin (new status) rs ↔
      ∀ r ∈ rs, r.info.validData = true → IsNumber r) ∧
    (machine ts status).Along FuncWithin (new status) rs := by
  have hrobot : (new status).rr.robot.speed.le MyRobot.maxSpeed = true := by
    change Speed.le (.finite 0) MyRobot.maxSpeed = true
    decide
  have hmyrobot : (new status).func.service.speed.le MyRobot.maxSpeed = true := by
    change Speed.le (.finite 10) MyRobot.maxSpeed = true
    decide
  constructor
  · obtain ⟨w,hrun⟩ := exists_run ts status (new status) rs
    refine Iff.trans ?_ (Machine.along_event hrun)
    refine Machine.along_congr (I := fun w => Idle status w ∧
      w.rr.robot.speed.le MyRobot.maxSpeed = true) ?_ ?_ ⟨idle_start _ _ _,hrobot⟩
    · rintro w r _ ⟨⟩ ⟨hw,hs⟩
      exact rrWithin_iff hw hs
    · rintro w r _ ⟨⟩ hnan ⟨hw,hs⟩
      exact ⟨(serve_cases ts hw r).1,((rrWithin_iff hw hs).mpr hnan).1⟩
  · refine Machine.along_of_invariant (Q := fun _ => True) (I := fun w => Idle status w ∧
      w.func.service.speed.le MyRobot.maxSpeed = true) ?_ (fun _ _ => trivial)
      ⟨idle_start _ _ _,hmyrobot⟩
    rintro w r _ - ⟨⟩ ⟨hw,hs⟩
    have hwithin := funcWithin_serve ts r hw hs
    exact ⟨hwithin,(serve_cases ts hw r).1,hwithin.1⟩

theorem speedLimit_fails :
    ¬ (machine .zero "Good Status").Along RrWithin (new "Good Status") [setSpeedRequest .nan] := by
  intro h
  have hspeed := (h _ rfl).1.1
  exact absurd hspeed (by decide)

end Servers
end DdsRpc
