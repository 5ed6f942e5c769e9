import DdsRpc.AsyncSchedules
import DdsRpc.TestSynchronous
import DdsRpc.Library.Updates
set_option autoImplicit false

/-! `test_asynchronous` of robot_func.cxx: each of its chains reads the speed and writes
twice of it, and the chains overlap. -/

namespace DdsRpc
open Connext SharedObject ClientImpl ReadModifyWrite

inductive TestAsynchronous where
  | getSpeed
  | setSpeed (speed : Speed)
  | ended (out : Except Exn Unit)

def TestAsynchronous.second : Except Exn Speed → Except Exn Unit
  | .ok _ | .error (.tooFast _) => .ok ()
  | .error e => .error e

def testAsynchronous : Program TestAsynchronous Call Told where
  next
    | .getSpeed => some .getSpeed
    | .setSpeed speed => some (.setSpeed speed)
    | .ended _ => none
  resume
    | .getSpeed,.getSpeed,.ok speed => .setSpeed speed.twice
    | .getSpeed,.getSpeed,.error e => .ended (TestAsynchronous.second (.error e))
    | .setSpeed _,.setSpeed _,out => .ended (TestAsynchronous.second out)
    | q,_,_ => q

namespace TestAsynchronous

def accepted (speed : Speed) : Bool := speed.le MyRobot.maxSpeed

def turn : TestAsynchronous → Turn Speed
  | .getSpeed => .read
  | .setSpeed speed => .write speed
  | .ended _ => .done

theorem turn_getSpeed : turn .getSpeed = .read := rfl

theorem told_setSpeed (ts : TypeSupport) (speed : Speed) (robot : MyRobot) :
    told ts MyRobot.robotControl (.setSpeed speed) robot =
      if accepted speed then (.ok robot.speed,{ robot with speed })
      else (.error (.tooFast ⟨0⟩),robot) := by
  unfold told asked RobotControl.call MyRobot.robotControl accepted
  cases h : speed.le MyRobot.maxSpeed <;> simp [h,retold]

/-- The robot's speed is the cell that the chains read and write. A chain ends with the first
exception that it is told of, but the speed that it has asked for may have been set. -/
theorem takesTurns (ts : TypeSupport) (exn : String → Exn) :
    TakesTurns testAsynchronous (told ts MyRobot.robotControl) (thrown exn) MyRobot.speed turn
      Speed.twice accepted where
  ended {q} := by cases q <;> simp [testAsynchronous,turn]
  read {q op} robot ht hop := by
    cases q with
    | getSpeed =>
      cases hop
      exact ⟨rfl,rfl⟩
    | setSpeed | ended => cases ht
  write {q op a} robot ht hop := by
    cases q with
    | setSpeed speed =>
      cases hop
      cases ht
      rw [told_setSpeed]
      exact ⟨by split <;> rfl,fun _ => rfl⟩
    | getSpeed | ended => cases ht
  caught {q op what} hop := by
    cases q with
    | getSpeed | setSpeed =>
      cases hop
      rfl
    | ended => cases hop

variable {ι κ : Type} [DecidableEq ι] [DecidableEq κ] [Fintype ι] [Fintype κ] [Nonempty ι]
  [Nonempty κ]

def Ended (P : Ppl Exn) (exn : String → Exn) (w : AsyncSystem ι MyRobot) (owner : ι → ℕ → κ)
    (outs : ι × κ → List (Sigma Told)) : Prop :=
  ∀ x, AsyncSystem.Runs P exn testAsynchronous .getSpeed w owner x (outs x) ∧
    testAsynchronous.next (testAsynchronous.after .getSpeed (outs x)) = none

section
variable {P : Ppl Exn} {exn : String → Exn} {T : TakeReply RobotControlReply} {ts : TypeSupport}
  {guid : ι → DDS.GUID} {robot : MyRobot} {es : List (AsyncSystem.Event ι)}
  {w : AsyncSystem ι MyRobot} {owner : ι → ℕ → κ} {outs : ι × κ → List (Sigma Told)}

omit [Nonempty ι] [Nonempty κ] in
theorem speed_of_ended (hg : Function.Injective guid)
    (hrun : (AsyncSystem.machine T ts MyRobot.robotControl).run
      (AsyncSystem.init guid robot) es = some w) (hr : Ended P exn w owner outs) :
    ∃ k ≤ Fintype.card (ι × κ),
      w.server.dispatcher.service.1.speed = Speed.twice^[k] robot.speed ∧
      ∀ j < k, accepted (Speed.twice^[j+1] robot.speed) = true := by
  obtain ⟨order,made,hw,hmade⟩ := AsyncSystem.exists_asLocal P exn hg hrun
  obtain ⟨schedule,q',hs⟩ := hw.scheduled hmade (fun x => (hr x).1)
  exact (takesTurns ts exn).faulty_run rfl hs.run

theorem speed_of_noFailure (hg : Function.Injective guid)
    (hrun : (AsyncSystem.machine T ts MyRobot.robotControl).run
      (AsyncSystem.init guid robot) es = some w) (hr : Ended P exn w owner outs)
    (hf : ∀ i n, w.failure i n = none) :
    ∃ k ≤ Fintype.card (ι × κ),
      w.server.dispatcher.service.1.speed = Speed.twice^[k] robot.speed ∧
      (∀ j < k, accepted (Speed.twice^[j+1] robot.speed) = true) ∧
      (k = 0 → accepted robot.speed.twice = false) := by
  obtain ⟨order,made,hw,hmade⟩ := AsyncSystem.exists_asLocal P exn hg hrun
  obtain ⟨schedule,q',hs⟩ := hw.scheduled hmade (fun x => (hr x).1)
  refine (takesTurns ts exn).final rfl (hs.run_of_noFailure hf) (fun x => ?_)
  exact (congrArg testAsynchronous.next (hs.ended x (hr x).2)).trans (hr x).2

omit [Fintype ι] [Fintype κ] [Nonempty ι] in
theorem exists_ended (P : Ppl Exn) (exn : String → Exn) (T : TakeReply RobotControlReply)
    (ts : TypeSupport) (guid : ι → DDS.GUID) {schedule : List ((ι × κ) × Faults.Fate String)}
    (hserved : ∀ e ∈ schedule, e.2.served = true)
    {v : MyRobot × (ι × κ → TestAsynchronous)}
    (h : (Faults.faultyPrograms (fun _ => testAsynchronous) (told ts MyRobot.robotControl)
      (thrown exn)).run (robot,fun _ => .getSpeed) schedule = some v)
    (hv : ∀ x, testAsynchronous.next (v.2 x) = none) :
    ∃ es w, ∃ (owner : ι → ℕ → κ) (outs : ι × κ → List (Sigma Told)),
      (AsyncSystem.machine T ts MyRobot.robotControl).run (AsyncSystem.init guid robot) es =
        some w ∧
      Ended P exn w owner outs ∧
      (∀ i n what, w.failure i n = some what → ∃ e ∈ schedule, e.2.exception = some what) ∧
      w.server.dispatcher.service.1 = v.1 := by
  obtain ⟨es,w,owner,hrun,hw⟩ := AsyncSystem.exists_realizes P exn T ts
    TestSynchronous.declared_robotControl guid hserved h
  obtain ⟨outs,houts⟩ := Classical.skolem.mp hw.runs
  refine ⟨es,w,owner,outs,hrun,fun x => ?_,hw.quiet.faults,hw.served⟩
  obtain ⟨hr,-,hafter⟩ := houts x
  exact ⟨hr,by rw [hafter]; exact hv x⟩

theorem exists_noFailure (P : Ppl Exn) (exn : String → Exn) (T : TakeReply RobotControlReply)
    (ts : TypeSupport) (guid : ι → DDS.GUID) {k : ℕ} (hk : k ≤ Fintype.card (ι × κ))
    (hacc : ∀ j < k, accepted (Speed.twice^[j+1] robot.speed) = true)
    (hzero : k = 0 → accepted robot.speed.twice = false) :
    ∃ es w, ∃ (owner : ι → ℕ → κ) (outs : ι × κ → List (Sigma Told)),
      (AsyncSystem.machine T ts MyRobot.robotControl).run (AsyncSystem.init guid robot) es =
        some w ∧
      Ended P exn w owner outs ∧ (∀ i n, w.failure i n = none) ∧
      w.server.dispatcher.service.1.speed = Speed.twice^[k] robot.speed := by
  obtain ⟨schedule,v,hv,hend,hspeed⟩ := (takesTurns ts exn).exists_run turn_getSpeed hk hacc hzero
  obtain ⟨es,w,owner,outs,hrun,hr,hfaults,hserver⟩ := exists_ended P exn T ts guid
    Faults.answered_served (Faults.run_answered (thrown exn) hv) hend
  refine ⟨es,w,owner,outs,hrun,hr,fun i n => ?_,(congrArg MyRobot.speed hserver).trans hspeed⟩
  exact Faults.none_of_answered (hfaults i n)

end

/-- With what speeds the chains can leave the robot when all of them have ended, over all
that the network and the schedulers can do: with as many doublings as there are chains at
most. If `execute` throws nothing, there is at least one, unless the first one is refused. -/
theorem testAsynchronous_speeds (P : Ppl Exn) (exn : String → Exn)
    (T : TakeReply RobotControlReply) (ts : TypeSupport) {guid : ι → DDS.GUID}
    (hg : Function.Injective guid) (robot : MyRobot) (speed : Speed) :
    ((∃ es w, ∃ (owner : ι → ℕ → κ) (outs : ι × κ → List (Sigma Told)),
      (AsyncSystem.machine T ts MyRobot.robotControl).run (AsyncSystem.init guid robot) es =
        some w ∧
      Ended P exn w owner outs ∧ w.server.dispatcher.service.1.speed = speed) ↔
    ∃ k ≤ Fintype.card (ι × κ), speed = Speed.twice^[k] robot.speed ∧
      ∀ j < k, accepted (Speed.twice^[j+1] robot.speed) = true) ∧
    ((∃ es w, ∃ (owner : ι → ℕ → κ) (outs : ι × κ → List (Sigma Told)),
      (AsyncSystem.machine T ts MyRobot.robotControl).run (AsyncSystem.init guid robot) es =
        some w ∧
      Ended P exn w owner outs ∧ (∀ i n, w.failure i n = none) ∧
      w.server.dispatcher.service.1.speed = speed) ↔
    ∃ k ≤ Fintype.card (ι × κ), speed = Speed.twice^[k] robot.speed ∧
      (∀ j < k, accepted (Speed.twice^[j+1] robot.speed) = true) ∧
      (k = 0 → accepted robot.speed.twice = false)) := by
  refine ⟨⟨?_,?_⟩,?_,?_⟩
  · rintro ⟨es,w,owner,outs,hrun,hr,rfl⟩
    exact speed_of_ended hg hrun hr
  · rintro ⟨k,hk,rfl,hacc⟩
    rcases Nat.eq_zero_or_pos k with rfl | hpos
    · obtain ⟨schedule,v,hserved,hv,hend,rfl⟩ := (takesTurns ts exn).exists_unread (κ := ι × κ)
        turn_getSpeed robot Session.replyUnavailable
      obtain ⟨es,w,owner,outs,hrun,hr,-,hserver⟩ := exists_ended P exn T ts guid hserved hv hend
      exact ⟨es,w,owner,outs,hrun,hr,congrArg MyRobot.speed hserver⟩
    · obtain ⟨es,w,owner,outs,hrun,hr,-,hspeed⟩ := exists_noFailure P exn T ts guid hk hacc
        (fun h => absurd h (Nat.ne_of_gt hpos))
      exact ⟨es,w,owner,outs,hrun,hr,hspeed⟩
  · rintro ⟨es,w,owner,outs,hrun,hr,hf,rfl⟩
    exact speed_of_noFailure hg hrun hr hf
  · rintro ⟨k,hk,rfl,hacc,hzero⟩
    exact exists_noFailure P exn T ts guid hk hacc hzero

/-- Ten chains of one client: seven lose their updates, or else all of them an exception. -/
theorem testAsynchronous_speeds_eight : (∃ es w, ∃ (owner : Unit → ℕ → Fin 10)
      (outs : Unit × Fin 10 → List (Sigma Told)),
    (AsyncSystem.machine .oldest .zero MyRobot.robotControl).run
      (AsyncSystem.init (fun _ => System.clientGuid false) ⟨.finite 1,⟨none⟩⟩) es = some w ∧
    Ended (.eager Exn) .runtimeError w owner outs ∧ (∀ i n, w.failure i n = none) ∧
    w.server.dispatcher.service.1.speed = .finite 8) ∧
    ∃ es w, ∃ (owner : Unit → ℕ → Fin 10) (outs : Unit × Fin 10 → List (Sigma Told)),
    (AsyncSystem.machine .oldest .zero MyRobot.robotControl).run
      (AsyncSystem.init (fun _ => System.clientGuid false) ⟨.finite 1,⟨none⟩⟩) es = some w ∧
    Ended (.eager Exn) .runtimeError w owner outs ∧
    w.server.dispatcher.service.1.speed = .finite 1 := by
  have hg : Function.Injective (fun _ : Unit => System.clientGuid false) :=
    Function.injective_of_subsingleton _
  have hboth := testAsynchronous_speeds (κ := Fin 10) (.eager Exn) .runtimeError .oldest .zero hg
    ⟨.finite 1,⟨none⟩⟩
  exact ⟨(hboth _).2.mpr ⟨3,by decide,by decide +kernel,by decide +kernel,nofun⟩,
    (hboth _).1.mpr ⟨0,by decide,rfl,nofun⟩⟩

end TestAsynchronous
end DdsRpc
