import DdsRpc.AsyncRequestSchedules
import DdsRpc.TestSynchronousApi
set_option autoImplicit false

/-! `test_synchronous_future` of robot_reqrep.cxx, which finds the robot at the limit when
`test_synchronous_api` has left it there: the speed goes round. -/

namespace DdsRpc
open Connext SharedObject

def Robot.stored (speed : Speed) : Speed := if speedLimit.lt speed then .finite 0 else speed

theorem Robot.answer_stored (ts : TypeSupport) (status : String) (robot : Robot)
    {data : RobotControlCall} (h : data.d = setSpeedHash) :
    (robot.answer ts status data).2.speed = stored data.setSpeed.speed ∧
      (robot.answer ts status data).1.setSpeed.d =
        if speedLimit.lt data.setSpeed.speed then tooFastExHash else retcodeOk := by
  cases hlt : speedLimit.lt data.setSpeed.speed with
  | false =>
    obtain ⟨hd,-,hspeed⟩ := TestSynchronousApi.answer_setSpeed ts status robot h hlt
    simp [stored,hlt,hd,hspeed]
  | true =>
    simp [answer,processRequest,TypeSupport.receivedReply,RobotControlCall.deserialize,
      RobotControlReturn.deserialize,RobotControlSetSpeedResult.deserialize,stored,remoteExOk,
      RemoteExceptionCode.value,h,hlt,commandHash,setSpeedHash,tooFastExHash]

/-- 0, 10, 20, and so on up to 100, and then 0 again. -/
def cycle (n : ℕ) : Speed := .finite (10*(n%11 : ℕ))

theorem limit_lt_cycle (n : ℕ) :
    Robot.speedLimit.lt ((cycle n).add 10) = decide ((n+1)%11 = 0) := by
  have hlt : (100:ℚ) < 10*(n%11 : ℕ)+10 ↔ (n+1)%11 = 0 := by
    constructor
    · intro h
      have hn : ((9 : ℕ) : ℚ) < (n%11 : ℕ) := by push_cast; linarith
      have hn : 9 < n%11 := by exact_mod_cast hn
      omega
    · intro h
      rw [show n%11 = 10 by omega]
      norm_num
  exact decide_eq_decide.mpr hlt

theorem stored_cycle (n : ℕ) : Robot.stored ((cycle n).add 10) = cycle (n+1) := by
  rw [Robot.stored,limit_lt_cycle]
  rcases Decidable.em ((n+1)%11 = 0) with h | h
  · simp [h,cycle]
  · have hnext : (n+1)%11 = n%11+1 := by omega
    rw [if_neg (by simpa using h),cycle,cycle,Speed.add,hnext]
    push_cast
    ring_nf

/-- Where the loop is; `request` is what it has written into its request before. An exception
that it does not catch makes it leave the function. -/
inductive TestSynchronousFuture where
  | getSpeed (i : ℕ) (request : RobotControlCall)
  | setSpeed (i : ℕ) (request : RobotControlCall) (speed : Speed)
  | assertFails
  | left (e : Exn)
  deriving DecidableEq

def TestSynchronousFuture.caught (i : ℕ) (request : RobotControlCall) :
    Exn → TestSynchronousFuture
  | .runtimeError _ => .getSpeed (i+1) request
  | e => .left e

def testSynchronousFuture :
    Program TestSynchronousFuture RobotControlCall AsyncRrSystem.Told where
  next
    | .getSpeed i request => if i < 10 then some { request with d := getSpeedHash } else none
    | .setSpeed _ request speed =>
      some { request with d := setSpeedHash, setSpeed.speed := speed }
    | .assertFails | .left _ => none
  resume
    | .getSpeed i _,request,.ok reply =>
      let oldspeed := reply.getSpeed.result.return_
      .setSpeed i request (oldspeed.add 10)
    | .setSpeed i _ speed,request,.ok reply =>
      if reply.setSpeed.d = tooFastExHash then .getSpeed (i+1) request
      else
        let oldspeed := reply.setSpeed.result.return_
        if oldspeed.equal (speed.add (-10)) then .getSpeed (i+1) request else .assertFails
    | .getSpeed i _,request,.error e | .setSpeed i _ _,request,.error e => .caught i request e
    | q,_,_ => q

namespace TestSynchronousFuture
open AsyncRrSystem (told thrown)
variable {ts : TypeSupport} {status : String} {exn : String → Exn} {G : String → Prop}
  {robot : Robot} {data : RobotControlCall} {m : ℕ}

def start (ts : TypeSupport) : TestSynchronousFuture := .getSpeed 0 ts.createRequest.data

/-- In `i` rounds the robot has come `j` steps further, one in each of them if there are no
exceptions `G`. -/
structure Reached (G : String → Prop) (m i j : ℕ) (robot : Robot) : Prop where
  le : j ≤ i
  speed : robot.speed = cycle (m+j)
  every : (∀ what, ¬ G what) → j = i

def Cycles (exn : String → Exn) (G : String → Prop) (m : ℕ) :
    TestSynchronousFuture → Robot → Prop
  | .getSpeed i _,robot => i ≤ 10 ∧ ∃ j, Reached G m i j robot
  | .setSpeed i _ speed,robot =>
    i < 10 ∧ ∃ j, Reached G m i j robot ∧ speed = (cycle (m+j)).add 10
  | .left e,robot => (∃ j ≤ 10, robot.speed = cycle (m+j)) ∧ ∃ what, G what ∧ e = exn what
  | .assertFails,_ => False

theorem cycles_caught {i j : ℕ} (hi : i < 10) (hj : j ≤ i+1)
    (hspeed : robot.speed = cycle (m+j)) {what : String} (hG : G what)
    (request : RobotControlCall) : Cycles exn G m (caught i request (exn what)) robot := by
  cases he : exn what with
  | runtimeError => exact ⟨hi,j,hj,hspeed,fun hnone => absurd hG (hnone what)⟩
  | tooFast | other => exact ⟨⟨j,Nat.le_trans hj hi,hspeed⟩,what,hG,he.symm⟩

theorem Reached.set {i j : ℕ} (h : Reached G m i j robot) (ts : TypeSupport) (status : String)
    (request : RobotControlCall) :
    Reached G m (i+1) (j+1) (robot.answer ts status { request with
      d := setSpeedHash, setSpeed.speed := (cycle (m+j)).add 10 }).2 where
  le := Nat.succ_le_succ h.le
  speed := ((robot.answer_stored ts status rfl).1).trans (stored_cycle (m+j))
  every hnone := congrArg Nat.succ (h.every hnone)

theorem cycles_own {q : TestSynchronousFuture} (h : Cycles exn G m q robot)
    (hop : testSynchronousFuture.next q = some data) :
    Cycles exn G m (testSynchronousFuture.resume q data (told ts status data robot).1)
      (told ts status data robot).2 := by
  cases q with
  | getSpeed i request =>
    obtain ⟨-,j,hj⟩ := h
    simp only [testSynchronousFuture,Option.ite_none_right_eq_some,Option.some.injEq] at hop
    obtain ⟨hi,rfl⟩ := hop
    obtain ⟨-,hret,hrobot⟩ := TestSynchronousApi.answer_getSpeed ts status robot
      (show RobotControlCall.d { request with d := getSpeedHash } = _ from rfl)
    simp only [told,hrobot]
    exact ⟨hi,j,hj,by rw [hret,hj.speed]⟩
  | setSpeed i request speed =>
    obtain ⟨hi,j,hj,rfl⟩ := h
    cases hop
    have hnext := hj.set ts status request
    have hd := (robot.answer_stored ts status
      (show RobotControlCall.d { request with
        d := setSpeedHash, setSpeed.speed := (cycle (m+j)).add 10 } = _ from rfl)).2
    cases hlt : Robot.speedLimit.lt ((cycle (m+j)).add 10) with
    | true =>
      rw [hlt] at hd
      simp only [testSynchronousFuture,told,hd,if_true]
      exact ⟨hi,_,hnext⟩
    | false =>
      rw [hlt] at hd
      obtain ⟨-,hret,-⟩ := TestSynchronousApi.answer_setSpeed ts status robot
        (show RobotControlCall.d { request with
          d := setSpeedHash, setSpeed.speed := (cycle (m+j)).add 10 } = _ from rfl) hlt
      have heq : (cycle (m+j)).equal (((cycle (m+j)).add 10).add (-10)) = true := by
        simp only [cycle,Speed.add,Speed.equal,decide_eq_true_eq,Speed.finite.injEq]
        ring
      simp only [testSynchronousFuture,told,hd,hret,hj.speed,heq,Robot.retcodeOk,tooFastExHash]
      exact ⟨hi,_,hnext⟩
  | assertFails => exact h.elim
  | left => cases hop

theorem cycles_lost {q : TestSynchronousFuture} {what : String} (hG : G what)
    (h : Cycles exn G m q robot) (hop : testSynchronousFuture.next q = some data) :
    Cycles exn G m (testSynchronousFuture.resume q data (thrown exn data what)) robot := by
  cases q with
  | getSpeed i request =>
    obtain ⟨-,j,hj⟩ := h
    simp only [testSynchronousFuture,Option.ite_none_right_eq_some,Option.some.injEq] at hop
    exact cycles_caught hop.1 (Nat.le_succ_of_le hj.le) hj.speed hG data
  | setSpeed i request speed =>
    obtain ⟨hi,j,hj,-⟩ := h
    exact cycles_caught hi (Nat.le_succ_of_le hj.le) hj.speed hG data
  | assertFails | left => cases hop

theorem cycles_failed {q : TestSynchronousFuture} {what : String} (hG : G what)
    (h : Cycles exn G m q robot) (hop : testSynchronousFuture.next q = some data) :
    Cycles exn G m (testSynchronousFuture.resume q data (thrown exn data what))
      (told ts status data robot).2 := by
  cases q with
  | getSpeed i request =>
    have hd : data.d ≠ setSpeedHash := by
      simp only [testSynchronousFuture,Option.ite_none_right_eq_some,Option.some.injEq] at hop
      rw [← hop.2]
      exact (by decide : getSpeedHash ≠ setSpeedHash)
    simp only [told,TestSynchronousApi.answer_of_ne hd]
    exact cycles_lost hG h hop
  | setSpeed i request speed =>
    obtain ⟨hi,j,hj,rfl⟩ := h
    cases hop
    have hnext := hj.set ts status request
    exact cycles_caught hi hnext.le hnext.speed hG _
  | assertFails | left => cases hop

theorem cycles_outline (ts : TypeSupport) (status : String) (exn : String → Exn)
    (G : String → Prop) (m : ℕ) :
    Faults.FaultyOutline testSynchronousFuture (told ts status) (thrown exn) G
      (fun data => data.d ≠ setSpeedHash) (Cycles exn G m) where
  own := cycles_own
  other {q s op} h hdata := by
    simpa only [told,TestSynchronousApi.answer_of_ne hdata] using h
  lost := cycles_lost
  failed := cycles_failed

inductive Told (exn : String → Exn) (G : String → Prop) (m : ℕ) :
    Sigma AsyncRrSystem.Told → Prop where
  | read {j : ℕ} {request : RobotControlCall} {reply : RobotControlReturn} : j < 10 →
      request.d = getSpeedHash → reply.d = getSpeedHash →
      reply.getSpeed.result.return_ = cycle (m+j) → Told exn G m ⟨request,.ok reply⟩
  | set {j : ℕ} {request : RobotControlCall} {reply : RobotControlReturn} : j < 10 →
      request.d = setSpeedHash → request.setSpeed.speed = (cycle (m+j)).add 10 →
      reply.setSpeed.d = (if (m+j+1)%11 = 0 then tooFastExHash else Robot.retcodeOk) →
      Told exn G m ⟨request,.ok reply⟩
  | failed {request : RobotControlCall} {what : String} : G what →
      Told exn G m ⟨request,.error (exn what)⟩

theorem told_of_next {q : TestSynchronousFuture} (h : Cycles exn G m q robot)
    (hop : testSynchronousFuture.next q = some data) {f : Faults.Fate String}
    (hf : f.Throws G) :
    Told exn G m ⟨data,(Faults.faulty (told ts status) (thrown exn) f data robot).1⟩ := by
  cases f with
  | lost what | failed what => exact .failed (hf what rfl)
  | answered =>
    cases q with
    | getSpeed i request =>
      obtain ⟨-,j,hj⟩ := h
      simp only [testSynchronousFuture,Option.ite_none_right_eq_some,Option.some.injEq] at hop
      obtain ⟨hi,rfl⟩ := hop
      obtain ⟨hd,hret,-⟩ := TestSynchronousApi.answer_getSpeed ts status robot
        (show RobotControlCall.d { request with d := getSpeedHash } = _ from rfl)
      exact .read (Nat.lt_of_le_of_lt hj.le hi) rfl hd (hret.trans hj.speed)
    | setSpeed i request speed =>
      obtain ⟨hi,j,hj,rfl⟩ := h
      cases hop
      obtain ⟨-,hd⟩ := robot.answer_stored ts status
        (show RobotControlCall.d { request with
          d := setSpeedHash, setSpeed.speed := (cycle (m+j)).add 10 } = _ from rfl)
      refine .set (Nat.lt_of_le_of_lt hj.le hi) rfl rfl (hd.trans ?_)
      simp only [limit_lt_cycle,decide_eq_true_eq]
    | assertFails => exact h.elim
    | left => cases hop

variable {ι κ : Type} [DecidableEq ι] [DecidableEq κ]

def Failed (w : AsyncRrSystem ι) (owner : ι → ℕ → κ) (x : ι × κ) (what : String) : Prop :=
  ∃ n, owner x.1 n = x.2 ∧ w.failure x.1 n = some what

/-- From any multiple of 10 up to the limit, and as long as nobody else sets the speed, the
assertion of the loop never fails. Each of its rounds takes the speed one step further round
as long as none of its futures has failed, and one step at most after that; a request at the
limit is answered `TooFast`. -/
theorem testSynchronousFuture_cycles (exn : String → Exn) (T : TakeReply RobotControlReply)
    (ts : TypeSupport) (status : String) {guid : ι → DDS.GUID}
    (hg : Function.Injective guid) (m : ℕ) {w : AsyncRrSystem ι}
    {es : List (AsyncRrSystem.Event ι)}
    (h : (AsyncRrSystem.machine T ts status).run (AsyncRrSystem.init guid ⟨cycle m⟩) es = some w)
    {owner : ι → ℕ → κ} {x : ι × κ} {outs : List (Sigma AsyncRrSystem.Told)}
    (hr : AsyncRrSystem.Runs exn testSynchronousFuture (start ts) w owner x outs)
    (hothers : ∀ i n data, (w.requests i)[n]? = some data → (i,owner i n) ≠ x →
      data.d ≠ setSpeedHash) :
    (∀ out ∈ outs, Told exn (Failed w owner x) m out) ∧
    testSynchronousFuture.after (start ts) outs ≠ .assertFails ∧
    (∀ i request, testSynchronousFuture.after (start ts) outs = .getSpeed i request →
      (Chains.chainCalls w.requests owner x).length ≤ outs.length →
      ∃ j, Reached (Failed w owner x) m i j w.server.robot) ∧
    (testSynchronousFuture.next (testSynchronousFuture.after (start ts) outs) = none →
      ∃ j ≤ 10, w.server.robot.speed = cycle (m+j) ∧
        ((∀ what, ¬ Failed w owner x what) → j = 10 ∧
          ∃ request, testSynchronousFuture.after (start ts) outs = .getSpeed 10 request)) := by
  obtain ⟨order,made,hw,hmade⟩ := AsyncRrSystem.exists_asDirect exn hg h
  have hstart : Cycles exn (Failed w owner x) m (start ts) ⟨cycle m⟩ :=
    ⟨Nat.zero_le 10,0,Nat.le_refl 0,rfl,fun _ => rfl⟩
  obtain ⟨htold,hstate⟩ := (cycles_outline ts status exn (Failed w owner x) m).chain
    hw.explains_told hmade hw.telling hr (fun n what hn hf => ⟨n,hn,hf⟩) hothers hstart
  rw [← hw.robot_told] at hstate
  refine ⟨?_,fun hfails => ?_,fun i request hround hlen => ?_,fun hend => ?_⟩
  · rintro ⟨data,out⟩ hout
    obtain ⟨q,robot,f,hq,hop,hf,hret⟩ := htold _ hout
    obtain rfl : (Faults.faulty (told ts status) (thrown exn) f data robot).1 = out := hret
    exact told_of_next hq hop hf
  · have hended := hstate (hr.length_le (by rw [hfails]; rfl))
    rw [hfails] at hended
    exact hended
  · have hloop := hstate hlen
    rw [hround] at hloop
    exact hloop.2
  · have hlast := hstate (hr.length_le hend)
    generalize testSynchronousFuture.after (start ts) outs = q at hend hlast ⊢
    cases q with
    | getSpeed i request =>
      obtain ⟨hi,j,hj⟩ := hlast
      obtain rfl : i = 10 := by
        simp only [testSynchronousFuture,ite_eq_right_iff,reduceCtorEq,imp_false] at hend
        omega
      exact ⟨j,hj.le,hj.speed,fun hnone => ⟨hj.every hnone,request,rfl⟩⟩
    | left e =>
      obtain ⟨⟨j,hj,hspeed⟩,what,hG,-⟩ := hlast
      exact ⟨j,hj,hspeed,fun hnone => absurd hG (hnone what)⟩
    | setSpeed => cases hend
    | assertFails => exact hlast.elim

theorem testSynchronousFuture_seventy : ∃ es w, ∃ (owner : Unit → ℕ → Unit)
      (outs : Unit × Unit → List (Sigma AsyncRrSystem.Told)),
    (AsyncRrSystem.machine .oldest .zero "Good Status").run
      (AsyncRrSystem.init (fun _ => System.clientGuid false) ⟨cycle 7⟩) es = some w ∧
    AsyncRrSystem.Runs .runtimeError testSynchronousFuture (start .zero) w owner ((),())
      (outs ((),())) ∧
    (∃ request, testSynchronousFuture.after (start .zero) (outs ((),())) =
      .getSpeed 10 request) ∧
    w.server.robot.speed = .finite 60 := by
  have hsome : ((programs (fun _ : Unit × Unit => testSynchronousFuture)
      (told .zero "Good Status")).run (⟨cycle 7⟩,fun _ => start .zero)
        (List.replicate 20 ((),()))).any
      (fun v => testSynchronousFuture.next (v.2 ((),())) = none) := by decide +kernel
  obtain ⟨v,hv,hend⟩ := (Option.any_eq_true _ _).mp hsome
  obtain ⟨es,w,owner,outs,hw,-,hfaults,hr⟩ := AsyncRrSystem.programs_asRequests .runtimeError
    .oldest .zero "Good Status" (fun _ : Unit => System.clientGuid false)
    Faults.answered_served (Faults.run_answered (thrown .runtimeError) hv)
  obtain ⟨hruns,hafter⟩ := hr ((),())
  have hnone : ∀ what, ¬ Failed w owner ((),()) what := by
    rintro what ⟨n,-,hf⟩
    rw [Faults.none_of_answered (hfaults () n)] at hf
    cases hf
  obtain ⟨j,-,hspeed,hlast⟩ := (testSynchronousFuture_cycles .runtimeError .oldest .zero
    "Good Status" (Function.injective_of_subsingleton _) 7 hw hruns
    (fun _ _ _ _ hne => absurd rfl hne)).2.2.2 (by rw [hafter]; exact of_decide_eq_true hend)
  obtain ⟨rfl,hrequest⟩ := hlast hnone
  exact ⟨es,w,owner,outs,hw,hruns,hrequest,hspeed.trans (by decide +kernel)⟩

end TestSynchronousFuture
end DdsRpc
