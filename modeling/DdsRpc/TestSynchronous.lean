import DdsRpc.RemotePrograms
import DdsRpc.RobotServers
import Mathlib.Tactic.NormNum
set_option autoImplicit false

/-! `test_synchronous` of robot_func.cxx, run beside clients that do not set the speed. -/

namespace DdsRpc
open Connext SharedObject

def Speed.fltMax : ℚ := (2^24-1)*2^104

/-- `speed *= 2`, which is exact unless it overflows. -/
def Speed.twice : Speed → Speed
  | .finite q =>
    if fltMax < q*2 then .posInf
    else if q*2 < -fltMax then .negInf
    else .finite (q*2)
  | speed => speed

/-- Where a client is in the loop; `failed` stands outside, with what the outer `catch`
has caught. -/
inductive TestSynchronous where
  | setSpeed (i : ℕ) (speed : Speed)
  | getSpeed (i : ℕ)
  | failed (e : Exn)
  deriving DecidableEq

def TestSynchronous.caught (i : ℕ) : Exn → TestSynchronous
  | .tooFast _ => .setSpeed (i+1) (.finite 1)
  | e => .failed e

def testSynchronous : Program TestSynchronous Call Outcome where
  next
    | .setSpeed i speed => if i < 10 then some (.setSpeed speed) else none
    | .getSpeed _ => some .getSpeed
    | .failed _ => none
  resume
    | .setSpeed i _,.setSpeed _,.ok _ => .getSpeed i
    | .setSpeed i _,.setSpeed _,.error e => .caught i e
    | .getSpeed i,.getSpeed,.ok speed => .setSpeed (i+1) speed.twice
    | .getSpeed i,.getSpeed,.error e => .caught i e
    | q,_,_ => q

namespace TestSynchronous

def start : TestSynchronous := .setSpeed 0 (.finite 1)

/-- The speed doubles from 1 on; after 64 comes the one call that is too fast. -/
def Doubles : TestSynchronous → MyRobot → Prop
  | .setSpeed i speed,robot => i ≤ 10 ∧ speed = .finite (2^(i%8)) ∧
      (0 < i → robot.speed = .finite (2^((i%8+6)%7)))
  | .getSpeed i,robot => i < 10 ∧ i%8 < 7 ∧ robot.speed = .finite (2^(i%8))
  | .failed _,_ => False

def KeepsSpeed (op : Call) : Prop := ∀ speed, op ≠ .setSpeed speed

variable {created : Status} {robot : MyRobot} {op : Call}

theorem speed_call (h : KeepsSpeed op) :
    (MyRobot.robotControl.call created op robot).2.speed = robot.speed := by
  cases op with
  | setSpeed speed => exact absurd rfl (h speed)
  | command | getSpeed | getStatus => rfl

theorem call_setSpeed {k : ℕ} (hk : k < 8) :
    MyRobot.robotControl.call created (.setSpeed (.finite (2^k))) robot =
      if k < 7 then (.ok robot.speed,{ robot with speed := .finite (2^k) })
      else (.error (.tooFast ⟨0⟩),robot) := by
  have hle : (Speed.finite (2^k)).le MyRobot.maxSpeed = decide (k < 7) := by
    have : ∀ j < 8, (Speed.finite (2^j)).le MyRobot.maxSpeed = decide (j < 7) := by
      decide +kernel
    exact this k hk
  simp only [RobotControl.call,MyRobot.robotControl,hle,decide_eq_true_eq]

theorem twice_pow {k : ℕ} (hk : k < 8) :
    (Speed.finite (2^k)).twice = .finite (2^(k+1)) := by
  have : ∀ j < 8, (Speed.finite (2^j)).twice = .finite (2^(j+1)) := by
    decide +kernel
  exact this k hk

theorem doubles_start (robot : MyRobot) : Doubles start robot :=
  ⟨by omega,by norm_num,fun h => absurd h (Nat.lt_irrefl 0)⟩

theorem doubles_other {q : TestSynchronous} (h : Doubles q robot) (hop : KeepsSpeed op) :
    Doubles q (MyRobot.robotControl.call created op robot).2 := by
  cases q with
  | setSpeed i speed => exact ⟨h.1,h.2.1,by rw [speed_call hop]; exact h.2.2⟩
  | getSpeed i => exact ⟨h.1,h.2.1,by rw [speed_call hop]; exact h.2.2⟩
  | failed => exact h

theorem doubles_own {q : TestSynchronous} (h : Doubles q robot)
    (hop : testSynchronous.next q = some op) :
    Doubles (testSynchronous.resume q op (MyRobot.robotControl.call created op robot).1)
      (MyRobot.robotControl.call created op robot).2 := by
  cases q with
  | setSpeed i speed =>
    obtain ⟨-,rfl,hlast⟩ := h
    simp only [testSynchronous,Option.ite_none_right_eq_some,Option.some.injEq] at hop
    obtain ⟨hi,rfl⟩ := hop
    rw [call_setSpeed (Nat.mod_lt i (by omega))]
    by_cases hk : i%8 < 7
    · simp only [if_pos hk]
      exact ⟨hi,hk,rfl⟩
    · simp only [if_neg hk]
      have h7 : i%8 = 7 := by omega
      have h0 : (i+1)%8 = 0 := by omega
      refine ⟨hi,by rw [h0,pow_zero],fun _ => ?_⟩
      rw [hlast (by omega),h7,h0]
  | getSpeed i =>
    cases hop
    obtain ⟨hi,hk,hspeed⟩ := h
    have hsucc : (i+1)%8 = i%8+1 := by omega
    have hmod : (i%8+1+6)%7 = i%8 := by omega
    change Doubles (.setSpeed (i+1) robot.speed.twice) robot
    refine ⟨hi,?_,fun _ => ?_⟩
    · rw [hspeed,hsucc,twice_pow (Nat.lt_succ_of_lt hk)]
    · rw [hspeed,hsucc,hmod]
  | failed => exact h.elim

theorem declared_robotControl : MyRobot.robotControl.Declared := by
  intro created op robot
  cases op with
  | setSpeed speed =>
    simp only [RobotControl.call,MyRobot.robotControl]
    split <;> rfl
  | command | getSpeed | getStatus => rfl

theorem doubles_outline (created : Status) :
    Outline testSynchronous (MyRobot.robotControl.call created) KeepsSpeed Doubles :=
  ⟨doubles_own,doubles_other⟩

inductive Told : Sigma Outcome → Prop where
  | accepted {k : ℕ} {old : Speed} : k < 7 → Told ⟨.setSpeed (.finite (2^k)),.ok old⟩
  | tooFast : Told ⟨.setSpeed (.finite (2^7)),.error (.tooFast ⟨0⟩)⟩
  | read {k : ℕ} : k < 7 → Told ⟨.getSpeed,.ok (.finite (2^k))⟩

theorem told_of_next {q : TestSynchronous} (h : Doubles q robot)
    (hop : testSynchronous.next q = some op) :
    Told ⟨op,(MyRobot.robotControl.call created op robot).1⟩ := by
  cases q with
  | setSpeed i speed =>
    obtain ⟨-,rfl,-⟩ := h
    simp only [testSynchronous,Option.ite_none_right_eq_some,Option.some.injEq] at hop
    obtain ⟨-,rfl⟩ := hop
    rw [call_setSpeed (Nat.mod_lt i (by omega))]
    by_cases hk : i%8 < 7
    · rw [if_pos hk]
      exact .accepted hk
    · have h7 : i%8 = 7 := by omega
      rw [if_neg hk,h7]
      exact .tooFast
  | getSpeed i =>
    cases hop
    change Told ⟨.getSpeed,.ok robot.speed⟩
    rw [h.2.2]
    exact .read h.2.1
  | failed => exact h.elim

variable {ι : Type} [DecidableEq ι]

/-- The loop goes on as if its client were alone, as long as no other one sets the speed:
nothing but `TooFast` is thrown at it, and that for the speed 128 only. -/
theorem testSynchronous_doubles (T : TakeReply RobotControlReply) {ts : TypeSupport}
    {guid : ι → DDS.GUID} (hg : Function.Injective guid)
    (hts : ts.createReply.data.getSpeed.d = remoteExOk) {robot : MyRobot}
    {w : System ι MyRobot} {es : List (System.Event ι)}
    (h : (System.machine T ts MyRobot.robotControl).run (System.init guid robot) es = some w)
    {i : ι} (hf : testSynchronous.Follows start (w.issued i) (w.returned i))
    (hothers : ∀ j ≠ i, ∀ op ∈ w.issued j, KeepsSpeed op) :
    (∀ out ∈ w.returned i, Told out) ∧
    (w.pending i = none →
      Doubles (testSynchronous.after start (w.returned i)) w.server.dispatcher.service.1) := by
  obtain ⟨hreturned,hbetween⟩ := System.remoteOutline T hg hts declared_robotControl h
    (doubles_outline ts.createStatus) (doubles_start robot) hf hothers
  refine ⟨?_,hbetween⟩
  rintro ⟨op,out⟩ hout
  obtain ⟨q,s,hq,hop,hret⟩ := hreturned _ hout
  obtain rfl : (MyRobot.robotControl.call ts.createStatus op s).1 = out := hret
  exact told_of_next hq hop

def besideReader : List (System.Event Bool) :=
  [.call false (.setSpeed (.finite 1)),.deliverRequest false,.call true .getSpeed,
    .deliverRequest true,.dispatch,.dispatch,.deliverReply false RequesterImpl.nullIdentity,
    .ret false]

theorem testSynchronous_besideReader : ∃ w,
    (System.machine .oldest .zero MyRobot.robotControl).run
      (System.init System.clientGuid ⟨.finite 50,⟨none⟩⟩) besideReader = some w ∧
    testSynchronous.after start (w.returned false) = .getSpeed 0 ∧
    Doubles (testSynchronous.after start (w.returned false))
      w.server.dispatcher.service.1 := by
  have hsome : ((System.machine .oldest .zero MyRobot.robotControl).run
      (System.init System.clientGuid ⟨.finite 50,⟨none⟩⟩) besideReader).any
      (fun w : System Bool MyRobot => w.issued false = [.setSpeed (.finite 1)] ∧
        w.issued true = [.getSpeed] ∧ w.pending false = none ∧
        (w.returned false).length = 1 ∧
        testSynchronous.after start (w.returned false) = .getSpeed 0) := by
    decide +kernel
  obtain ⟨w,hw,h⟩ := (Option.any_eq_true _ _).mp hsome
  obtain ⟨hfalse,htrue,hp,hlen,hafter⟩ := of_decide_eq_true h
  obtain ⟨out,hout⟩ := List.length_eq_one_iff.mp hlen
  have hg : Function.Injective System.clientGuid := by
    unfold Function.Injective
    decide
  have hf : testSynchronous.Follows start (w.issued false) (w.returned false) := by
    rw [hfalse,hout]
    exact Program.follows_cons.mpr ⟨rfl,Program.follows_nil _ _⟩
  have hothers : ∀ j ≠ false, ∀ op ∈ w.issued j, KeepsSpeed op
    | true,_,op,hop => by
      rw [htrue] at hop
      rw [List.mem_singleton.mp hop]
      exact nofun
  exact ⟨w,hw,hafter,(testSynchronous_doubles .oldest hg rfl hw hf hothers).2 hp⟩

end TestSynchronous
end DdsRpc
