import DdsRpc.AsyncPrograms
import DdsRpc.Speedup
set_option autoImplicit false

/-! `test_recursive` of robot_func.cxx, run by any number of clients at a time. -/

namespace DdsRpc
open Connext SharedObject ClientImpl

namespace Speedup

def Next.call : Next → Option Call
  | .getSpeed => some .getSpeed
  | .setSpeed speed => some (.setSpeed speed)
  | .complete _ => none

def Next.resume : Next → (op : Call) → Told op → Next
  | _,.getSpeed,out => afterFirst out
  | _,.setSpeed _,out => afterSecond out
  | next,.command _,_ | next,.getStatus,_ => next

/-- Where a client is in `test_recursive`, which resets the speed before the chain. -/
inductive Recursive where
  | reset
  | chain (next : Next)
  deriving DecidableEq

def testRecursive : Program Recursive Call Told where
  next
    | .reset => some (.setSpeed (.finite 0))
    | .chain next => next.call
  resume
    | .reset,.setSpeed _,.ok _ => .chain .getSpeed
    | .reset,.setSpeed _,.error e => .chain (.complete (.error e))
    | .reset,_,_ => .reset
    | .chain next,op,out => .chain (next.resume op out)

def Slow (speed : Speed) : Prop := ∃ q : ℚ, speed = .finite q ∧ q ≤ 100

def CallsSlow (op : Call) : Prop := ∀ speed, op = .setSpeed speed → Slow speed

/-- A chain that has come to its end has a speed from which it cannot go on, or one of the
exceptions `E`. -/
def Next.Fits (E : Exn → Prop) : Next → Prop
  | .getSpeed => True
  | .setSpeed speed => Slow speed
  | .complete (.ok speed) => ∃ q : ℚ, speed = .finite q ∧ 100 < q+increment ∧ q ≤ 100
  | .complete (.error e) => E e

def Recursive.Fits (E : Exn → Prop) : Recursive → Prop
  | .reset => True
  | .chain next => next.Fits E

def Climbing (E : Exn → Prop) (q : Recursive) (robot : MyRobot) : Prop :=
  Slow robot.speed ∧ q.Fits E

variable {ts : TypeSupport} {robot : MyRobot} {E : Exn → Prop}

theorem told_getSpeed (ts : TypeSupport) (robot : MyRobot) :
    told ts MyRobot.robotControl .getSpeed robot = (.ok robot.speed,robot) := rfl

theorem told_setSpeed (ts : TypeSupport) {speed : Speed} (h : Slow speed) (robot : MyRobot) :
    told ts MyRobot.robotControl (.setSpeed speed) robot =
      (.ok robot.speed,{ robot with speed }) := by
  obtain ⟨q,rfl,hq⟩ := h
  have hle : (Speed.finite q).le MyRobot.maxSpeed = true := decide_eq_true hq
  simp [told,asked,RobotControl.call,MyRobot.robotControl,hle,retold]

theorem slow_told {op : Call} (hop : CallsSlow op) (h : Slow robot.speed) :
    Slow (told ts MyRobot.robotControl op robot).2.speed := by
  cases op with
  | setSpeed speed =>
    rw [told_setSpeed ts (hop speed rfl)]
    exact hop speed rfl
  | command | getSpeed | getStatus => exact h

theorem slow_zero : Slow (.finite 0) := ⟨0,rfl,by norm_num⟩

theorem afterSecond_finite (q : ℚ) : afterSecond (.ok (.finite q)) =
    if q+increment ≤ 100 then .getSpeed else .complete (.ok (.finite q)) := by
  simp [afterSecond,canGrow_finite]

theorem afterFirst_finite (q : ℚ) : afterFirst (.ok (.finite q)) =
    if q+increment ≤ 100 then .setSpeed (.finite (q+increment))
    else .complete (.ok (.finite q)) := by
  by_cases hgrow : q+increment ≤ 100 <;>
    simp [afterFirst,afterSecond,canGrow_finite,hgrow,Speed.add]

theorem fits_afterSecond {speed : Speed} (h : Slow speed) :
    (afterSecond (.ok speed)).Fits E := by
  obtain ⟨q,rfl,hq⟩ := h
  rw [afterSecond_finite]
  split
  · trivial
  · exact ⟨q,rfl,not_le.mp ‹_›,hq⟩

theorem fits_afterFirst {speed : Speed} (h : Slow speed) : (afterFirst (.ok speed)).Fits E := by
  obtain ⟨q,rfl,hq⟩ := h
  rw [afterFirst_finite]
  split
  · exact ⟨q+increment,rfl,‹_›⟩
  · exact ⟨q,rfl,not_le.mp ‹_›,hq⟩

inductive Calls : Recursive → Call → Prop where
  | reset : Calls .reset (.setSpeed (.finite 0))
  | getSpeed : Calls (.chain .getSpeed) .getSpeed
  | setSpeed {speed : Speed} : Calls (.chain (.setSpeed speed)) (.setSpeed speed)

theorem calls_of_next {q : Recursive} {op : Call} (h : testRecursive.next q = some op) :
    Calls q op := by
  cases q with
  | reset =>
    cases h
    exact .reset
  | chain next =>
    cases next with
    | getSpeed =>
      cases h
      exact .getSpeed
    | setSpeed speed =>
      cases h
      exact .setSpeed
    | complete => cases h

theorem resume_thrown {q : Recursive} {op : Call} (h : testRecursive.next q = some op)
    (exn : String → Exn) (what : String) :
    testRecursive.resume q op (thrown exn op what) = .chain (.complete (.error (exn what))) := by
  cases calls_of_next h <;> rfl

theorem callsSlow_of_next {q : Recursive} {op : Call} (hq : q.Fits E)
    (h : testRecursive.next q = some op) : CallsSlow op := by
  rintro speed rfl
  cases calls_of_next h with
  | reset => exact slow_zero
  | setSpeed => exact hq

/-- The client `i` can be told of the exceptions `G i`. -/
theorem climbing_outlines {ι : Type} (ts : TypeSupport) (exn : String → Exn)
    (G : ι → String → Prop) :
    Faults.FaultyOutlines (fun _ : ι => testRecursive) (told ts MyRobot.robotControl)
      (thrown exn) G CallsSlow
      (fun i => Climbing (fun e => ∃ what, G i what ∧ e = exn what)) where
  outline _ :=
    { own := by
        intro q robot op hA hop
        refine ⟨slow_told (callsSlow_of_next hA.2 hop) hA.1,?_⟩
        cases calls_of_next hop with
        | reset =>
          rw [told_setSpeed ts slow_zero]
          trivial
        | getSpeed => exact fits_afterFirst hA.1
        | setSpeed =>
          rw [told_setSpeed ts hA.2]
          exact fits_afterSecond hA.1
      other := fun hA hop => ⟨slow_told hop hA.1,hA.2⟩ }
  calls hA hop := callsSlow_of_next hA.2 hop
  caught {i q robot op what} hG hA hop := by
    rw [resume_thrown hop]
    exact ⟨hA.1,what,hG,rfl⟩

/-- What it takes, with `k` clients, to end a chain that can grow `r` more times. A stale speed
that one client writes sets all the others back, so a call has to cost more than all that it
can make the others repeat. -/
def weight (k : ℕ) : ℕ → ℕ
  | 0 => 1
  | r+1 => k*weight k r+2

theorem weight_pos (k r : ℕ) : 0 < weight k r := by
  cases r <;> simp [weight]

def speedWeight (k : ℕ) : Speed → ℕ
  | .finite q => weight k (rounds q)
  | _ => 0

def cost (k : ℕ) (robot : MyRobot) : Recursive → ℕ
  | .reset => k*speedWeight k (.finite 0)+1
  | .chain .getSpeed => speedWeight k robot.speed
  | .chain (.setSpeed speed) => k*speedWeight k speed+1
  | .chain (.complete _) => 0

theorem cost_complete (k : ℕ) (robot : MyRobot) (out : Except Exn Speed) :
    cost k robot (.chain (.complete out)) = 0 := rfl

/-- Another speed matters only to those that are about to read it. -/
theorem cost_raise (k : ℕ) (robot robot' : MyRobot) (q : Recursive) :
    cost k robot' q ≤ cost k robot q+speedWeight k robot'.speed := by
  cases q with
  | reset => simp [cost]
  | chain next => cases next <;> simp [cost]

theorem cost_afterSecond (k : ℕ) (robot : MyRobot) {speed : Speed} (h : Slow speed) :
    cost k robot (.chain (afterSecond (.ok speed))) ≤ speedWeight k robot.speed := by
  obtain ⟨q,rfl,-⟩ := h
  rw [afterSecond_finite]
  split <;> simp [cost]

theorem cost_afterFirst (k : ℕ) {robot : MyRobot} (h : Slow robot.speed) :
    cost k robot (.chain (afterFirst (.ok robot.speed)))+1 ≤ speedWeight k robot.speed := by
  obtain ⟨q,hq,-⟩ := h
  rw [hq,afterFirst_finite]
  split
  · simp only [cost,speedWeight,rounds_of_grow ‹_›,weight]
    omega
  · exact weight_pos k _

theorem cost_write {k : ℕ} (hk : 0 < k) {n : ℕ} {speed : Speed} (h : n ≤ speedWeight k speed) :
    n+(k-1)*speedWeight k speed+1 ≤ k*speedWeight k speed+1 := by
  obtain ⟨j,rfl⟩ := Nat.exists_eq_succ_of_ne_zero (Nat.ne_of_gt hk)
  rw [Nat.succ_sub_one,Nat.succ_mul]
  omega

theorem cost_paid {k : ℕ} (hk : 0 < k) (ts : TypeSupport) {q : Recursive} {op : Call}
    (hA : Climbing E q robot) (hop : testRecursive.next q = some op) : ∃ raise,
      (∀ q', cost k (told ts MyRobot.robotControl op robot).2 q' ≤ cost k robot q'+raise) ∧
      cost k (told ts MyRobot.robotControl op robot).2
        (testRecursive.resume q op (told ts MyRobot.robotControl op robot).1)+(k-1)*raise+1 ≤
          cost k robot q := by
  cases calls_of_next hop with
  | reset =>
    rw [told_setSpeed ts slow_zero]
    exact ⟨_,cost_raise k robot _,cost_write hk (Nat.le_refl _)⟩
  | getSpeed =>
    rw [told_getSpeed]
    exact ⟨0,fun _ => Nat.le_refl _,by rw [Nat.mul_zero]; exact cost_afterFirst k hA.1⟩
  | setSpeed =>
    rw [told_setSpeed ts hA.2]
    exact ⟨_,cost_raise k robot _,cost_write hk (cost_afterSecond k _ hA.1)⟩

theorem cost_faulty {k : ℕ} (hk : 0 < k) (ts : TypeSupport) (exn : String → Exn)
    {q : Recursive} {op : Call} (hA : Climbing E q robot) (hop : testRecursive.next q = some op)
    (f : Faults.Fate String) : ∃ raise,
      (∀ q', cost k (Faults.faulty (told ts MyRobot.robotControl) (thrown exn) f op robot).2 q' ≤
        cost k robot q'+raise) ∧
      cost k (Faults.faulty (told ts MyRobot.robotControl) (thrown exn) f op robot).2
        (testRecursive.resume q op
          (Faults.faulty (told ts MyRobot.robotControl) (thrown exn) f op robot).1)+
            (k-1)*raise+1 ≤ cost k robot q := by
  obtain ⟨raise,hraise,hpay⟩ := cost_paid hk ts hA hop
  cases f with
  | answered => exact ⟨raise,hraise,hpay⟩
  | failed what =>
    refine ⟨raise,hraise,?_⟩
    simp only [Faults.faulty,resume_thrown hop,cost_complete]
    omega
  | lost what =>
    refine ⟨0,fun _ => Nat.le_refl _,?_⟩
    simp only [Faults.faulty,resume_thrown hop,cost_complete]
    omega

section
variable {ι : Type} [DecidableEq ι]

def clients (ι : Type) [DecidableEq ι] (ts : TypeSupport) :
    Machine (MyRobot × (ι → Recursive)) ι :=
  programs (fun _ => testRecursive) (told ts MyRobot.robotControl)

def Recursive.complete : Recursive → Bool
  | .chain (.complete _) => true
  | _ => false

theorem exists_step_clients (ts : TypeSupport) {w : MyRobot × (ι → Recursive)} {i : ι}
    (h : (w.2 i).complete = false) : ∃ w', (clients ι ts).step w i = some w' := by
  have hnext : ∃ op, testRecursive.next (w.2 i) = some op := by
    cases hq : w.2 i with
    | reset => exact ⟨_,rfl⟩
    | chain next =>
      cases next with
      | getSpeed | setSpeed => exact ⟨_,rfl⟩
      | complete =>
        rw [hq] at h
        cases h
  obtain ⟨op,hop⟩ := hnext
  exact ⟨_,step_programs.mpr ⟨op,hop,rfl⟩⟩

variable [Fintype ι]

theorem faultyClients_length_le (ts : TypeSupport) (exn : String → Exn)
    {w w' : MyRobot × (ι → Recursive)} {schedule : List (ι × Faults.Fate String)}
    (h : (Faults.faultyPrograms (fun _ => testRecursive) (told ts MyRobot.robotControl)
      (thrown exn)).run w schedule = some w') (hw : ∀ E i, Climbing E (w.2 i) w.1) :
    schedule.length ≤ ∑ i, cost (Fintype.card ι) w.1 (w.2 i) := by
  have hlen := (climbing_outlines ts exn (fun _ _ => True)).length_le
    (fun _ => cost (Fintype.card ι)) (fun {i f} q robot op hA hop => by
      have hk : 0 < Fintype.card ι := Fintype.card_pos_iff.mpr ⟨i⟩
      obtain ⟨raise,hraise,hpay⟩ := cost_faulty hk ts exn hA hop f
      exact ⟨raise,fun _ => hraise,hpay⟩) h (hw _)
  exact Nat.le_trans (Nat.le_add_right _ _) hlen

theorem clients_length_le (ts : TypeSupport) {w w' : MyRobot × (ι → Recursive)}
    {schedule : List ι} (h : (clients ι ts).run w schedule = some w')
    (hw : ∀ E i, Climbing E (w.2 i) w.1) :
    schedule.length ≤ ∑ i, cost (Fintype.card ι) w.1 (w.2 i) := by
  have hlen := faultyClients_length_le ts .runtimeError (Faults.run_answered _ h) hw
  rwa [List.length_map] at hlen

theorem Climbing.complete {q : Recursive} {robot : MyRobot} (h : Climbing E q robot)
    {out : Except Exn Speed} (hq : q = .chain (.complete out)) :
    (∃ v : ℚ, out = .ok (.finite v) ∧ 90 < v ∧ v ≤ 100) ∨ ∃ e, out = .error e ∧ E e := by
  subst hq
  cases out with
  | ok speed =>
    obtain ⟨v,rfl,hfull,hle⟩ := h.2
    refine .inl ⟨v,rfl,?_,hle⟩
    unfold increment at hfull
    linarith
  | error e => exact .inr ⟨e,rfl,h.2⟩

/-- Clients that speed up one robot together end, in whatever order their calls are
served, although each can set the others back; and each ends with a top speed. -/
theorem testRecursive_ends (ts : TypeSupport) {s₀ : ℚ} (h : s₀ ≤ 100) (status : Status)
    {schedule : List ι} {w : MyRobot × (ι → Recursive)}
    (hrun : (clients ι ts).run (⟨.finite s₀,status⟩,fun _ => .reset) schedule = some w) :
    schedule.length ≤ Fintype.card ι*(Fintype.card ι*weight (Fintype.card ι) 10+1) ∧
    (∀ i out, w.2 i = .chain (.complete out) →
      ∃ v : ℚ, out = .ok (.finite v) ∧ 90 < v ∧ v ≤ 100) ∧
    ((∀ i, (w.2 i).complete = true) ∨ ∃ i w', (clients ι ts).step w i = some w') := by
  have hstart : ∀ E (_ : ι), Climbing E .reset ⟨.finite s₀,status⟩ :=
    fun _ _ => ⟨⟨s₀,rfl,h⟩,trivial⟩
  refine ⟨?_,fun i out hi => ?_,?_⟩
  · have hzero : rounds 0 = 10 := by norm_num [rounds,increment]
    simpa [cost,speedWeight,hzero] using clients_length_le ts hrun hstart
  · -- Here no client is told of an exception.
    have hclimb := (climbing_outlines ts .runtimeError (fun (_ : ι) _ => False)).toOutlines.run
      hrun (hstart _) i
    rcases hclimb.complete hi with hv | ⟨e,-,what,hfalse,-⟩
    · exact hv
    · exact hfalse.elim
  · by_cases hall : ∀ i, (w.2 i).complete = true
    · exact .inl hall
    · obtain ⟨i,hi⟩ := not_forall.mp hall
      exact .inr ⟨i,exists_step_clients ts (eq_false_of_ne_true hi)⟩

def setBack : List Bool :=
  List.replicate 7 false ++ true :: (List.replicate 20 [true,false]).flatten ++ [true]

theorem testRecursive_ends_setBack : ∃ w,
    (clients Bool .zero).run (⟨.finite 0,⟨none⟩⟩,fun _ => .reset) setBack = some w ∧
    ∀ i, ∃ v : ℚ, w.2 i = .chain (.complete (.ok (.finite v))) ∧ 90 < v ∧ v ≤ 100 := by
  have hsome : ((clients Bool .zero).run (⟨.finite 0,⟨none⟩⟩,fun _ => .reset) setBack).any
      (fun w => w.2 false = .chain (.complete (.ok (.finite 100))) ∧
        w.2 true = .chain (.complete (.ok (.finite 100)))) = true := by
    decide +kernel
  obtain ⟨w,hrun,hw⟩ := (Option.any_eq_true _ _).mp hsome
  obtain ⟨hfalse,htrue⟩ := of_decide_eq_true hw
  have htop := (testRecursive_ends .zero (show (0:ℚ) ≤ 100 by norm_num) ⟨none⟩ hrun).2.1
  refine ⟨w,hrun,fun i => ?_⟩
  obtain ⟨out,hi⟩ : ∃ out, w.2 i = .chain (.complete out) := by
    cases i
    · exact ⟨_,hfalse⟩
    · exact ⟨_,htrue⟩
  obtain ⟨v,rfl,hv⟩ := htop i out hi
  exact ⟨v,hi,hv⟩

/-- Chains of asynchronous calls that climb together over the network, any number of them on
a client, make no more than so many calls, whatever is lost, late or repeated; one that ends
does so at a top speed or with the exception of one of its own promises. -/
theorem speedup_overNetwork {κ : Type} [DecidableEq κ] [Fintype κ] (P : Ppl Exn)
    (exn : String → Exn) (T : TakeReply RobotControlReply) (ts : TypeSupport)
    {guid : ι → DDS.GUID} (hg : Function.Injective guid) {s₀ : ℚ} (h : s₀ ≤ 100)
    (status : Status) {es : List (AsyncSystem.Event ι)} {w : AsyncSystem ι MyRobot}
    (hrun : (AsyncSystem.machine T ts MyRobot.robotControl).run
      (AsyncSystem.init guid ⟨.finite s₀,status⟩) es = some w)
    {owner : ι → ℕ → κ} {outs : ι × κ → List (Sigma Told)}
    (hr : ∀ x, AsyncSystem.Runs P exn testRecursive (.chain .getSpeed) w owner x (outs x)) :
    ∑ i, (w.calls i).length ≤
      Fintype.card (ι × κ)*weight (Fintype.card (ι × κ)) (rounds s₀)+Fintype.card (ι × κ) ∧
    ∀ x out, testRecursive.after (.chain .getSpeed) (outs x) = .chain (.complete out) →
      (∃ v : ℚ, out = .ok (.finite v) ∧ 90 < v ∧ v ≤ 100) ∨
      ∃ n what, owner x.1 n = x.2 ∧ w.failure x.1 n = some what ∧ out = .error (exn what) := by
  have hstart : ∀ E (_ : ι × κ), Climbing E (.chain .getSpeed) ⟨.finite s₀,status⟩ :=
    fun _ _ => ⟨⟨s₀,rfl,h⟩,trivial⟩
  obtain ⟨order,made,hw,hmade⟩ := AsyncSystem.exists_asLocal P exn hg hrun
  obtain ⟨schedule,q',hs⟩ := hw.scheduled hmade hr
  constructor
  · have hlen := faultyClients_length_le ts exn hs.run hstart
    have hcount : ∑ x, (schedule.map Prod.fst).count x = schedule.length := by
      have hcard := Multiset.sum_count_eq_card (s := Finset.univ)
        (m := (schedule.map Prod.fst : Multiset (ι × κ))) (fun x _ => Finset.mem_univ x)
      simpa [List.count_eq_countP,beq_eq_decide] using hcard
    calc ∑ i, (w.calls i).length
        = ∑ x, (Chains.chainCalls w.calls owner x).length :=
          (Chains.sum_chainCalls w.calls owner).symm
      _ ≤ ∑ x, ((schedule.map Prod.fst).count x+1) := Finset.sum_le_sum (fun x _ =>
          Nat.le_trans (hr x).waits (Nat.succ_le_succ (hs.length_le x)))
      _ = schedule.length+Fintype.card (ι × κ) := by
        rw [Finset.sum_add_distrib,hcount,Finset.sum_const,smul_eq_mul,mul_one,Finset.card_univ]
      _ ≤ _ := Nat.add_le_add_right (by simpa [cost,speedWeight] using hlen) _
  · intro x out hx
    have hclimb := (climbing_outlines ts exn (fun (x : ι × κ) what =>
      ∃ n, owner x.1 n = x.2 ∧ w.failure x.1 n = some what)).run hs.faults hs.run
        (fun y => hstart _ y) x
    refine (hclimb.complete ((hs.ended x (by rw [hx]; rfl)).trans hx)).imp_right ?_
    rintro ⟨_,rfl,what,⟨n,howner,hf⟩,rfl⟩
    exact ⟨n,what,howner,hf,rfl⟩

end

def toldOfTop (c : Bool) : Except Exn Speed :=
  if c then .ok (.finite 95) else .error (.runtimeError "no resources")

theorem bothRead_run : ∃ w,
    (AsyncSystem.machine .oldest .zero MyRobot.robotControl).run
      (AsyncSystem.init (fun _ => System.clientGuid false) ⟨.finite 95,⟨none⟩⟩)
      AsyncSystem.bothRead = some w ∧
    ∀ c, ∃ n v, Chains.chainCalls w.calls AsyncSystem.oneEach ((),c) = [(.getSpeed,n)] ∧
      (w.client ()).promises[n]? = some [v] ∧
      completedOutcome (.eager Exn) .runtimeError .getSpeed v = toldOfTop c :=
  ⟨_,rfl,fun c => by cases c <;> exact ⟨_,_,rfl,rfl,rfl⟩⟩

theorem speedup_overNetwork_bothRead : ∃ w,
    (AsyncSystem.machine .oldest .zero MyRobot.robotControl).run
      (AsyncSystem.init (fun _ => System.clientGuid false) ⟨.finite 95,⟨none⟩⟩)
      AsyncSystem.bothRead = some w ∧
    (∀ c, testRecursive.after (.chain .getSpeed) [⟨.getSpeed,toldOfTop c⟩] =
      .chain (.complete (toldOfTop c))) ∧
    (90:ℚ) < 95 ∧ ∃ n what, AsyncSystem.oneEach () n = false ∧ w.failure () n = some what ∧
      Exn.runtimeError "no resources" = .runtimeError what := by
  obtain ⟨w,hrun,hw⟩ := bothRead_run
  have hend : ∀ c, testRecursive.after (.chain .getSpeed) [⟨.getSpeed,toldOfTop c⟩] =
      .chain (.complete (toldOfTop c)) := by
    decide +kernel
  have hr : ∀ x, AsyncSystem.Runs (.eager Exn) .runtimeError testRecursive (.chain .getSpeed) w
      AsyncSystem.oneEach x [⟨.getSpeed,toldOfTop x.2⟩] := by
    rintro ⟨⟨⟩,c⟩
    obtain ⟨n,v,hcalls,hpromise,hout⟩ := hw c
    exact Chains.runs_once hcalls ⟨_,v,hpromise,List.mem_singleton.mpr rfl,hout⟩ rfl
  have hall := (speedup_overNetwork (.eager Exn) .runtimeError .oldest .zero
    (Function.injective_of_subsingleton _) (show (95:ℚ) ≤ 100 by norm_num) ⟨none⟩ hrun hr).2
  refine ⟨w,hrun,hend,?_,?_⟩
  · rcases hall ((),true) _ (hend true) with ⟨v,hv,hlt,-⟩ | ⟨_,_,-,-,he⟩
    · cases hv
      exact hlt
    · cases he
  · rcases hall ((),false) _ (hend false) with ⟨_,hv,-⟩ | ⟨n,what,howner,hf,he⟩
    · cases hv
    · exact ⟨n,what,howner,hf,Except.error.inj he⟩

end Speedup
end DdsRpc
