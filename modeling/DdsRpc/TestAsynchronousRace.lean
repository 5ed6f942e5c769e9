import DdsRpc.TestSynchronousFuture
import DdsRpc.Library.Updates
set_option autoImplicit false

/-! `test_asynchronous_race` of robot_reqrep.cxx: each of its chains reads the speed and asks
for 10 more, and the chains overlap. -/

namespace DdsRpc
open Connext SharedObject ReadModifyWrite

inductive TestAsynchronousRace where
  | getSpeed
  | setSpeed (speed : Speed)
  | ended

def testAsynchronousRace (ts : TypeSupport) :
    Program TestAsynchronousRace RobotControlCall AsyncRrSystem.Told where
  next
    | .getSpeed => some { ts.createRequest.data with d := getSpeedHash }
    | .setSpeed speed =>
      some { ts.createRequest.data with d := setSpeedHash, setSpeed.speed := speed }
    | .ended => none
  resume
    | .getSpeed,_,.ok reply =>
      let speed := reply.getSpeed.result.return_
      .setSpeed (speed.add 10)
    | _,_,_ => .ended

namespace TestAsynchronousRace
open AsyncRrSystem (told thrown)

/-- The server writes what it makes of the speed that it is asked for. -/
def turn : TestAsynchronousRace → Turn Speed
  | .getSpeed => .read
  | .setSpeed speed => .write (Robot.stored speed)
  | .ended => .done

theorem turn_getSpeed : turn .getSpeed = .read := rfl

def next10 (speed : Speed) : Speed := Robot.stored (speed.add 10)

theorem takesTurns (ts : TypeSupport) (status : String) (exn : String → Exn) :
    TakesTurns (testAsynchronousRace ts) (told ts status) (thrown exn) Robot.speed turn next10
      (fun _ => true) where
  ended {q} := by cases q <;> simp [testAsynchronousRace,turn]
  read {q data} robot ht hop := by
    cases q with
    | getSpeed =>
      cases hop
      obtain ⟨-,hret,hrobot⟩ := TestSynchronousApi.answer_getSpeed ts status robot
        (show RobotControlCall.d { ts.createRequest.data with d := getSpeedHash } = _ from rfl)
      refine ⟨hrobot,?_⟩
      simp only [told,testAsynchronousRace,hret,turn,next10]
    | setSpeed | ended => cases ht
  write {q data a} robot ht hop := by
    cases q with
    | setSpeed speed =>
      cases hop
      cases ht
      exact ⟨(robot.answer_stored ts status rfl).1,fun _ => rfl⟩
    | getSpeed | ended => cases ht
  caught {q data what} hop := by
    cases q with
    | getSpeed | setSpeed =>
      cases hop
      rfl
    | ended => cases hop

theorem next10_iterate (m k : ℕ) : next10^[k] (cycle m) = cycle (m+k) := by
  induction k with
  | zero => rfl
  | succ k ih => rw [Function.iterate_succ_apply',ih,next10,stored_cycle,Nat.add_assoc]

variable {ι κ : Type} [DecidableEq ι] [DecidableEq κ] [Fintype ι] [Fintype κ] [Nonempty ι]
  [Nonempty κ]

def Ended (exn : String → Exn) (ts : TypeSupport) (w : AsyncRrSystem ι) (owner : ι → ℕ → κ)
    (outs : ι × κ → List (Sigma AsyncRrSystem.Told)) : Prop :=
  ∀ x, AsyncRrSystem.Runs exn (testAsynchronousRace ts) .getSpeed w owner x (outs x) ∧
    (testAsynchronousRace ts).next ((testAsynchronousRace ts).after .getSpeed (outs x)) = none

section
variable {exn : String → Exn} {T : TakeReply RobotControlReply} {ts : TypeSupport}
  {status : String} {guid : ι → DDS.GUID} {m : ℕ} {es : List (AsyncRrSystem.Event ι)}
  {w : AsyncRrSystem ι} {owner : ι → ℕ → κ} {outs : ι × κ → List (Sigma AsyncRrSystem.Told)}

omit [Nonempty ι] [Nonempty κ] in
theorem speed_of_ended (hg : Function.Injective guid)
    (hrun : (AsyncRrSystem.machine T ts status).run (AsyncRrSystem.init guid ⟨cycle m⟩) es =
      some w) (hr : Ended exn ts w owner outs) :
    ∃ k ≤ Fintype.card (ι × κ), w.server.robot.speed = cycle (m+k) := by
  obtain ⟨schedule,q',hs⟩ :=
    AsyncRrSystem.requests_asDirect exn T ts status hg hrun (fun x => (hr x).1)
  obtain ⟨k,hk,hspeed,-⟩ := (takesTurns ts status exn).faulty_run turn_getSpeed hs.run
  exact ⟨k,hk,hspeed.trans (next10_iterate m k)⟩

theorem speed_of_noFailure (hg : Function.Injective guid)
    (hrun : (AsyncRrSystem.machine T ts status).run (AsyncRrSystem.init guid ⟨cycle m⟩) es =
      some w) (hr : Ended exn ts w owner outs) (hf : ∀ i n, w.failure i n = none) :
    ∃ k ≤ Fintype.card (ι × κ), 0 < k ∧ w.server.robot.speed = cycle (m+k) := by
  obtain ⟨schedule,q',hs⟩ :=
    AsyncRrSystem.requests_asDirect exn T ts status hg hrun (fun x => (hr x).1)
  obtain ⟨k,hk,hspeed,-,hzero⟩ := (takesTurns ts status exn).final turn_getSpeed
    (hs.run_of_noFailure hf) (fun x =>
      (congrArg (testAsynchronousRace ts).next (hs.ended x (hr x).2)).trans (hr x).2)
  exact ⟨k,hk,Nat.pos_of_ne_zero (fun h => absurd (hzero h) Bool.noConfusion),
    hspeed.trans (next10_iterate m k)⟩

omit [Fintype ι] [Fintype κ] [Nonempty ι] in
theorem exists_ended (exn : String → Exn) (T : TakeReply RobotControlReply) (ts : TypeSupport)
    (status : String) (guid : ι → DDS.GUID) {robot : Robot}
    {schedule : List ((ι × κ) × Faults.Fate String)}
    (hserved : ∀ e ∈ schedule, e.2.served = true)
    {v : Robot × (ι × κ → TestAsynchronousRace)}
    (h : (Faults.faultyPrograms (fun _ => testAsynchronousRace ts) (told ts status)
      (thrown exn)).run (robot,fun _ => .getSpeed) schedule = some v)
    (hv : ∀ x, (testAsynchronousRace ts).next (v.2 x) = none) :
    ∃ es w, ∃ (owner : ι → ℕ → κ) (outs : ι × κ → List (Sigma AsyncRrSystem.Told)),
      (AsyncRrSystem.machine T ts status).run (AsyncRrSystem.init guid robot) es = some w ∧
      Ended exn ts w owner outs ∧
      (∀ i n what, w.failure i n = some what → ∃ e ∈ schedule, e.2.exception = some what) ∧
      w.server.robot = v.1 := by
  obtain ⟨es,w,owner,outs,hrun,hserver,hfaults,hr⟩ :=
    AsyncRrSystem.programs_asRequests exn T ts status guid hserved h
  exact ⟨es,w,owner,outs,hrun,fun x => ⟨(hr x).1,by rw [(hr x).2]; exact hv x⟩,hfaults,hserver⟩

theorem exists_noFailure (exn : String → Exn) (T : TakeReply RobotControlReply)
    (ts : TypeSupport) (status : String) (guid : ι → DDS.GUID) (m : ℕ) {k : ℕ}
    (hk : k ≤ Fintype.card (ι × κ)) (hpos : 0 < k) :
    ∃ es w, ∃ (owner : ι → ℕ → κ) (outs : ι × κ → List (Sigma AsyncRrSystem.Told)),
      (AsyncRrSystem.machine T ts status).run (AsyncRrSystem.init guid ⟨cycle m⟩) es = some w ∧
      Ended exn ts w owner outs ∧ (∀ i n, w.failure i n = none) ∧
      w.server.robot.speed = cycle (m+k) := by
  have hshared : ∃ schedule v,
      (programs (fun _ : ι × κ => testAsynchronousRace ts) (told ts status)).run
        (⟨cycle m⟩,fun _ => .getSpeed) schedule = some v ∧
      (∀ x, (testAsynchronousRace ts).next (v.2 x) = none) ∧
      v.1.speed = next10^[k] (cycle m) :=
    (takesTurns ts status exn).exists_run turn_getSpeed hk (fun _ _ => rfl)
      (fun h => absurd h (Nat.ne_of_gt hpos))
  obtain ⟨schedule,v,hv,hend,hspeed⟩ := hshared
  obtain ⟨es,w,owner,outs,hrun,hr,hfaults,hserver⟩ := exists_ended exn T ts status guid
    Faults.answered_served (Faults.run_answered (thrown exn) hv) hend
  refine ⟨es,w,owner,outs,hrun,hr,fun i n => Faults.none_of_answered (hfaults i n),?_⟩
  rw [hserver,hspeed]
  exact next10_iterate m k

end

/-- With what speeds the chains can leave the robot when all of them have ended, from any
multiple of 10 up to the limit: each of them takes it one step further round at most. If
`execute` throws nothing, it has gone one step at least. -/
theorem testAsynchronousRace_speeds (exn : String → Exn) (T : TakeReply RobotControlReply)
    (ts : TypeSupport) (status : String) {guid : ι → DDS.GUID}
    (hg : Function.Injective guid) (m : ℕ) (speed : Speed) :
    ((∃ es w, ∃ (owner : ι → ℕ → κ) (outs : ι × κ → List (Sigma AsyncRrSystem.Told)),
      (AsyncRrSystem.machine T ts status).run (AsyncRrSystem.init guid ⟨cycle m⟩) es = some w ∧
      Ended exn ts w owner outs ∧ w.server.robot.speed = speed) ↔
    ∃ k ≤ Fintype.card (ι × κ), speed = cycle (m+k)) ∧
    ((∃ es w, ∃ (owner : ι → ℕ → κ) (outs : ι × κ → List (Sigma AsyncRrSystem.Told)),
      (AsyncRrSystem.machine T ts status).run (AsyncRrSystem.init guid ⟨cycle m⟩) es = some w ∧
      Ended exn ts w owner outs ∧ (∀ i n, w.failure i n = none) ∧
      w.server.robot.speed = speed) ↔
    ∃ k ≤ Fintype.card (ι × κ), 0 < k ∧ speed = cycle (m+k)) := by
  refine ⟨⟨?_,?_⟩,?_,?_⟩
  · rintro ⟨es,w,owner,outs,hrun,hr,rfl⟩
    exact speed_of_ended hg hrun hr
  · rintro ⟨k,hk,rfl⟩
    rcases Nat.eq_zero_or_pos k with rfl | hpos
    · obtain ⟨schedule,v,hserved,hv,hend,hrobot⟩ := (takesTurns ts status exn).exists_unread
        (κ := ι × κ) turn_getSpeed ⟨cycle m⟩ Session.replyUnavailable
      obtain ⟨es,w,owner,outs,hrun,hr,-,hserver⟩ :=
        exists_ended exn T ts status guid hserved hv hend
      exact ⟨es,w,owner,outs,hrun,hr,congrArg Robot.speed (hserver.trans hrobot)⟩
    · obtain ⟨es,w,owner,outs,hrun,hr,-,hspeed⟩ :=
        exists_noFailure (κ := κ) exn T ts status guid m hk hpos
      exact ⟨es,w,owner,outs,hrun,hr,hspeed⟩
  · rintro ⟨es,w,owner,outs,hrun,hr,hf,rfl⟩
    exact speed_of_noFailure hg hrun hr hf
  · rintro ⟨k,hk,hpos,rfl⟩
    exact exists_noFailure exn T ts status guid m hk hpos

/-- The ten chains of the test, which starts at 100: none or all of them may lose their
updates. -/
theorem testAsynchronousRace_speeds_ten : (∃ es w, ∃ (owner : Unit → ℕ → Fin 10)
      (outs : Unit × Fin 10 → List (Sigma AsyncRrSystem.Told)),
    (AsyncRrSystem.machine .oldest .zero "Good Status").run
      (AsyncRrSystem.init (fun _ => System.clientGuid false) ⟨cycle 10⟩) es = some w ∧
    Ended .runtimeError .zero w owner outs ∧ (∀ i n, w.failure i n = none) ∧
    w.server.robot.speed = .finite 90) ∧
    ∃ es w, ∃ (owner : Unit → ℕ → Fin 10)
      (outs : Unit × Fin 10 → List (Sigma AsyncRrSystem.Told)),
    (AsyncRrSystem.machine .oldest .zero "Good Status").run
      (AsyncRrSystem.init (fun _ => System.clientGuid false) ⟨cycle 10⟩) es = some w ∧
    Ended .runtimeError .zero w owner outs ∧ w.server.robot.speed = .finite 100 := by
  have hg : Function.Injective (fun _ : Unit => System.clientGuid false) :=
    Function.injective_of_subsingleton _
  have hboth := testAsynchronousRace_speeds (κ := Fin 10) .runtimeError .oldest .zero
    "Good Status" hg 10
  exact ⟨(hboth _).2.mpr ⟨10,by decide,by decide,by decide +kernel⟩,
    (hboth _).1.mpr ⟨0,by decide,by decide +kernel⟩⟩

end TestAsynchronousRace
end DdsRpc
