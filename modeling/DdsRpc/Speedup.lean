import DdsRpc.ClientReplies
import DdsRpc.RobotServers
import Mathlib.Data.Rat.Floor
import Mathlib.Tactic.Linarith
set_option autoImplicit false

/-! `speedup_until_maxspeed` of robot_func.cxx. -/

namespace DdsRpc
open Connext

def increment : ℚ := 10

def Speed.add : Speed → ℚ → Speed
  | .finite q,k => .finite (q+k)
  | speed,_ => speed

/-- The test of both lambdas, `speed + increment <= MAX_SPEED`. -/
def Speed.canGrow (speed : Speed) : Bool := (speed.add increment).le MyRobot.maxSpeed

def Call.isSetSpeed : Call → Bool
  | .setSpeed _ => true
  | _ => false

namespace Speedup

section
variable {P : Ppl Exn}

def firstThen (setSpeedAsync : Speed → Future P Speed) (speed_fut : Except Exn Speed) :
    Except Exn (Future P Speed) := do
  let speed ← speed_fut
  if speed.canGrow then .ok (setSpeedAsync (speed.add increment)) else .ok (makeReadyFuture speed)

def secondThen (again : Future P Speed) (speed_fut : Except Exn Speed) :
    Except Exn (Future P Speed) := do
  let speed ← speed_fut
  if speed.canGrow then .ok again else .ok (makeReadyFuture speed)

/-- One call, given the futures that the client returns and the one that the call of
itself returns. -/
def speedupUntilMaxspeed (getSpeedAsync : Future P Speed) (setSpeedAsync : Speed → Future P Speed)
    (again : Future P Speed) : Future P Speed :=
  (getSpeedAsync.then (.future (.plain Speed)) (firstThen setSpeedAsync)).then
    (.future (.plain Speed)) (secondThen again)

inductive Next where
  | getSpeed
  | setSpeed (speed : Speed)
  | complete (out : Except Exn Speed)
  deriving DecidableEq

def afterSecond : Except Exn Speed → Next
  | .ok speed => if speed.canGrow then .getSpeed else .complete (.ok speed)
  | .error e => .complete (.error e)

def afterFirst : Except Exn Speed → Next
  | .ok speed => if speed.canGrow then .setSpeed (speed.add increment) else afterSecond (.ok speed)
  | .error e => afterSecond (.error e)

theorem outcome_firstThen (t : Future P Speed) (setSpeedAsync : Speed → Future P Speed) :
    (t.then (.future (.plain Speed)) (firstThen setSpeedAsync) : Future P Speed).outcome =
      t.outcome.bind (fun speed =>
        if speed.canGrow then (setSpeedAsync (speed.add increment)).outcome else .ok speed) := by
  refine (t.outcome_then (.future (.plain Speed)) (firstThen setSpeedAsync)).trans ?_
  cases t.outcome with
  | error e => rfl
  | ok speed =>
    cases hgrow : speed.canGrow
    · simp [firstThen,bind,Except.bind,hgrow,RetType.settle]
    · simp [firstThen,bind,Except.bind,hgrow,RetType.settle]

theorem outcome_secondThen (t again : Future P Speed) :
    (t.then (.future (.plain Speed)) (secondThen again) : Future P Speed).outcome =
      match afterSecond t.outcome with
      | .complete out => out
      | _ => again.outcome := by
  refine (t.outcome_then (.future (.plain Speed)) (secondThen again)).trans ?_
  cases t.outcome with
  | error e => rfl
  | ok speed =>
    cases hgrow : speed.canGrow
    · simp [secondThen,afterSecond,bind,Except.bind,hgrow,RetType.settle]
    · simp [secondThen,afterSecond,bind,Except.bind,hgrow,RetType.settle]

/-- The steps of the chain are those that `then` makes of its two lambdas. -/
theorem outcome_speedup (getSpeedAsync : Future P Speed) (setSpeedAsync : Speed → Future P Speed)
    (again : Future P Speed) :
    (speedupUntilMaxspeed getSpeedAsync setSpeedAsync again).outcome =
      match afterFirst getSpeedAsync.outcome with
      | .getSpeed => again.outcome
      | .setSpeed speed =>
        (match afterSecond (setSpeedAsync speed).outcome with
          | .complete out => out
          | _ => again.outcome)
      | .complete out => out := by
  refine (outcome_secondThen _ again).trans ?_
  rw [outcome_firstThen]
  cases getSpeedAsync.outcome with
  | error e => rfl
  | ok speed =>
    cases hgrow : speed.canGrow <;> simp [afterFirst,afterSecond,Except.bind,hgrow]

end

inductive Chain where
  | getting (reply : Option RobotControlReply)
  | setting (speed : Speed) (reply : Option RobotControlReply)
  | complete (out : Except Exn Speed)
  deriving DecidableEq

end Speedup

/-- `requests` and `answers` record what the chain asks and how the server answers it. -/
structure Speedup where
  robot : MyRobot
  chain : Speedup.Chain
  requests : List Call
  answers : List (Call × RobotControlReply)

namespace Speedup

def start (robot : MyRobot) : Speedup := ⟨robot,.getting none,[.getSpeed],[]⟩

def arrived (ts : TypeSupport) (op : Call) : Sample RobotControlRequest :=
  ⟨ts.receivedRequest (ClientImpl.requestAsync ts op),{ ts.createInfo with validData := true }⟩

def received (ts : TypeSupport) (reply : RobotControlReply) : Sample RobotControlReply :=
  ⟨ts.receivedReply (ReplierImpl.outgoing reply (toRpcSampleIdentity ts.createInfo.identity)),
    { ts.createInfo with validData := true }⟩

def next (w : Speedup) : Next → Speedup
  | .getSpeed => { w with chain := .getting none, requests := w.requests ++ [.getSpeed] }
  | .setSpeed speed =>
    { w with chain := .setting speed none, requests := w.requests ++ [.setSpeed speed] }
  | .complete out => { w with chain := .complete out }

def serve (ts : TypeSupport) (w : Speedup) (op : Call) (chain : Option RobotControlReply → Chain) :
    Option Speedup :=
  match dispatchRequest ts MyRobot.robotControl (arrived ts op) w.robot with
  | (.ok reply,robot) =>
    some { w with robot, chain := chain (some reply), answers := w.answers ++ [(op,reply)] }
  | (.error _,_) => none

inductive Event where
  | dispatch
  | deliver
  | other (request_sample : Sample RobotControlRequest)
  deriving DecidableEq

def Event.own : Event → Bool
  | .other _ => false
  | _ => true

def step (ts : TypeSupport) (w : Speedup) : Event → Option Speedup
  | .dispatch =>
    match w.chain with
    | .getting none => w.serve ts .getSpeed .getting
    | .setting speed none => w.serve ts (.setSpeed speed) (.setting speed)
    | _ => none
  | .deliver =>
    match w.chain with
    | .getting (some reply) =>
      some (w.next (afterFirst (ClientImpl.getSpeedThen (.ok (received ts reply)))))
    | .setting _ (some reply) =>
      some (w.next (afterSecond (ClientImpl.setSpeedThen (.ok (received ts reply)))))
    | _ => none
  | .other r => some { w with robot := (dispatchRequest ts MyRobot.robotControl r w.robot).2 }

def machine (ts : TypeSupport) : Machine Speedup Event := ⟨step ts⟩

variable {ts : TypeSupport} {w w' : Speedup}

theorem arrived_selected (ts : TypeSupport) {op : Call} (h : ∀ com, op ≠ .command com) :
    (arrived ts op).data.data.selected = some op := by
  simp only [arrived,TypeSupport.receivedRequest,RobotControlCall.selected_deserialize,
    ClientImpl.requestAsync_selected]

theorem serve_getSpeed (ts : TypeSupport) (w : Speedup) : ∃ reply,
    w.serve ts .getSpeed .getting = some { w with
      chain := .getting (some reply)
      answers := w.answers ++ [(.getSpeed,reply)] } ∧
    ClientImpl.getSpeedThen (.ok (received ts reply)) = .ok w.robot.speed := by
  have hreq : dispatchRequest ts MyRobot.robotControl (arrived ts .getSpeed) w.robot =
      (.ok { ts.createReply with
        data.d := getSpeedHash
        data.getSpeed.d := remoteExOk
        data.getSpeed.result.return_ := w.robot.speed },w.robot) :=
    dispatchRequest_selected (arrived_selected ts (by simp)) w.robot
  exact ⟨_,by rw [serve,hreq],rfl⟩

theorem serve_setSpeed (ts : TypeSupport) (w : Speedup) {speed : Speed}
    (h : speed.le MyRobot.maxSpeed = true) : ∃ reply,
    w.serve ts (.setSpeed speed) (.setting speed) = some { w with
      robot.speed := speed
      robot.status := w.robot.status
      chain := .setting speed (some reply)
      answers := w.answers ++ [(.setSpeed speed,reply)] } ∧
    ClientImpl.setSpeedThen (.ok (received ts reply)) = .ok w.robot.speed ∧
    reply.data.setSpeed.d ≠ tooFastExHash := by
  have hcall : MyRobot.robotControl.setSpeed speed w.robot =
      (.ok w.robot.speed,{ w.robot with speed }) := by simp [MyRobot.robotControl,h]
  have hreq : dispatchRequest ts MyRobot.robotControl (arrived ts (.setSpeed speed)) w.robot =
      (.ok { ts.createReply with
        data.d := setSpeedHash
        data.setSpeed.d := remoteExOk
        data.setSpeed.result.return_ := w.robot.speed },{ w.robot with speed }) := by
    rw [dispatchRequest_selected (arrived_selected ts (by simp)),RobotControl.call,hcall]
    rfl
  have hne : remoteExOk ≠ tooFastExHash := by decide
  exact ⟨_,by rw [serve,hreq],rfl,hne⟩

/-- How often a speed below the limit can still grow. -/
def rounds (q : ℚ) : ℕ := ⌊(100-q)/increment⌋₊

theorem rounds_of_grow {q : ℚ} (h : q+increment ≤ 100) : rounds q = rounds (q+increment)+1 := by
  have hsplit : (100-q)/increment = (100-(q+increment))/increment+1 := by
    unfold increment
    ring
  have hnonneg : 0 ≤ (100-(q+increment))/increment :=
    div_nonneg (by linarith) (by norm_num [increment])
  rw [rounds,hsplit,Nat.floor_add_one hnonneg,rounds]

theorem rounds_of_full {q : ℚ} (h : 100 < q+increment) : rounds q = 0 := by
  refine Nat.floor_eq_zero.mpr ((div_lt_one (by norm_num [increment])).mpr ?_)
  linarith

theorem canGrow_finite (q : ℚ) : (Speed.finite q).canGrow = decide (q+increment ≤ 100) := rfl

def sets (w : Speedup) : ℕ := w.requests.countP Call.isSetSpeed

structure Grown (s₀ : ℚ) (w : Speedup) (q : ℚ) (k : ℕ) : Prop where
  speed : w.robot.speed = .finite q
  grown : q = s₀+increment*k
  limit : q ≤ 100
  answers : ∀ p ∈ w.answers, ∀ speed, p.1 = .setSpeed speed → p.2.data.setSpeed.d ≠ tooFastExHash

inductive Left (ts : TypeSupport) (s₀ : ℚ) : ℕ → Speedup → Prop where
  | asks {w : Speedup} {q : ℚ} {k : ℕ} : Grown s₀ w q k → w.sets = k →
      w.chain = .getting none → Left ts s₀ (4*rounds q+2) w
  | told {w : Speedup} {q : ℚ} {k : ℕ} {reply : RobotControlReply} : Grown s₀ w q k →
      w.sets = k → w.chain = .getting (some reply) →
      ClientImpl.getSpeedThen (.ok (received ts reply)) = .ok (.finite q) →
      Left ts s₀ (4*rounds q+1) w
  | grows {w : Speedup} {q : ℚ} {k : ℕ} : Grown s₀ w q k → w.sets = k+1 →
      w.chain = .setting (.finite (q+increment)) none → q+increment ≤ 100 →
      Left ts s₀ (4*rounds (q+increment)+4) w
  | grown {w : Speedup} {q : ℚ} {k : ℕ} {speed : Speed} {reply : RobotControlReply} :
      Grown s₀ w (q+increment) (k+1) → w.sets = k+1 → w.chain = .setting speed (some reply) →
      ClientImpl.setSpeedThen (.ok (received ts reply)) = .ok (.finite q) →
      Left ts s₀ (4*rounds (q+increment)+3) w
  | complete {w : Speedup} {q : ℚ} {k : ℕ} : Grown s₀ w q k → w.sets = k →
      w.chain = .complete (.ok (.finite q)) → 100 < q+increment → Left ts s₀ 0 w

theorem left_start (ts : TypeSupport) {s₀ : ℚ} (h : s₀ ≤ 100) (status : Status) :
    Left ts s₀ (4*rounds s₀+2) (start ⟨.finite s₀,status⟩) :=
  .asks (k := 0) ⟨rfl,by simp,h,by simp [start]⟩ rfl rfl

theorem left_dispatch {s₀ : ℚ} {n : ℕ} (h : w.step ts .dispatch = some w')
    (hw : Left ts s₀ n w) : ∃ j, n = j+1 ∧ Left ts s₀ j w' := by
  cases hw with
  | asks hg hsets hchain =>
    obtain ⟨reply,hserve,hthen⟩ := serve_getSpeed ts w
    simp only [step,hchain,hserve,Option.some.injEq] at h
    subst h
    refine ⟨_,rfl,.told ⟨hg.speed,hg.grown,hg.limit,?_⟩ hsets rfl (hg.speed ▸ hthen)⟩
    intro p hp speed hop
    rcases List.mem_append.mp hp with hp | hp
    · exact hg.answers p hp speed hop
    · rw [List.mem_singleton.mp hp] at hop
      cases hop
  | @grows _ q k hg hsets hchain hle =>
    have hmax : (Speed.finite (q+increment)).le MyRobot.maxSpeed = true := decide_eq_true hle
    obtain ⟨reply,hserve,hthen,hne⟩ := serve_setSpeed ts w hmax
    simp only [step,hchain,hserve,Option.some.injEq] at h
    subst h
    refine ⟨_,rfl,.grown (q := q) (k := k) ⟨rfl,?_,hle,?_⟩ hsets rfl (hg.speed ▸ hthen)⟩
    · rw [hg.grown]
      push_cast
      ring
    · intro p hp speed hop
      rcases List.mem_append.mp hp with hp | hp
      · exact hg.answers p hp speed hop
      · rw [List.mem_singleton.mp hp]
        exact hne
  | told _ _ hchain | grown _ _ hchain | complete _ _ hchain => simp [step,hchain] at h

theorem left_deliver {s₀ : ℚ} {n : ℕ} (h : w.step ts .deliver = some w')
    (hw : Left ts s₀ n w) : ∃ j, n = j+1 ∧ Left ts s₀ j w' := by
  cases hw with
  | @told _ q k reply hg hsets hchain hthen =>
    simp only [step,hchain,hthen,afterFirst,afterSecond,canGrow_finite,Option.some.injEq] at h
    by_cases hgrow : q+increment ≤ 100
    · simp only [hgrow,decide_true,if_true] at h
      subst h
      refine ⟨4*rounds (q+increment)+4,by rw [rounds_of_grow hgrow]; ring,
        .grows ⟨hg.speed,hg.grown,hg.limit,hg.answers⟩ ?_ rfl hgrow⟩
      have hcount : (w.requests ++ [Call.setSpeed (.finite (q+increment))]).countP
          Call.isSetSpeed = w.sets+1 := by simp [sets,Call.isSetSpeed]
      exact hcount.trans (by rw [hsets])
    · simp only [hgrow,decide_false,Bool.false_eq_true,if_false] at h
      subst h
      refine ⟨0,by rw [rounds_of_full (not_le.mp hgrow)],?_⟩
      exact .complete ⟨hg.speed,hg.grown,hg.limit,hg.answers⟩ hsets rfl (not_le.mp hgrow)
  | @grown _ q k speed reply hg hsets hchain hthen =>
    have hgrow : q+increment ≤ 100 := hg.limit
    simp only [step,hchain,hthen,afterSecond,canGrow_finite,hgrow,decide_true,if_true,
      Option.some.injEq] at h
    subst h
    refine ⟨_,rfl,.asks ⟨hg.speed,hg.grown,hg.limit,hg.answers⟩ ?_ rfl⟩
    have hcount : (w.requests ++ [Call.getSpeed]).countP Call.isSetSpeed = w.sets := by
      simp [sets,Call.isSetSpeed]
    exact hcount.trans hsets
  | asks _ _ hchain | grows _ _ hchain | complete _ _ hchain => simp [step,hchain] at h

theorem left_step {s₀ : ℚ} {n : ℕ} {e : Event} (he : e.own = true)
    (h : (machine ts).step w e = some w') (hw : Left ts s₀ n w) :
    ∃ j, n = j+1 ∧ Left ts s₀ j w' := by
  cases e with
  | dispatch => exact left_dispatch h hw
  | deliver => exact left_deliver h hw
  | other => cases he

theorem left_next {s₀ : ℚ} {n : ℕ} (hw : Left ts s₀ (n+1) w) :
    ∃ e w', e.own = true ∧ (machine ts).step w e = some w' ∧ Left ts s₀ n w' := by
  have henabled : ∃ e, e.own = true ∧ ((machine ts).step w e).isSome = true := by
    generalize hn : n+1 = m at hw
    cases hw with
    | asks _ _ hchain =>
      obtain ⟨reply,hserve,-⟩ := serve_getSpeed ts w
      exact ⟨.dispatch,rfl,by simp [machine,step,hchain,hserve]⟩
    | @grows _ q _ _ _ hchain hle =>
      have hmax : (Speed.finite (q+increment)).le MyRobot.maxSpeed = true := decide_eq_true hle
      obtain ⟨reply,hserve,-⟩ := serve_setSpeed ts w hmax
      exact ⟨.dispatch,rfl,by simp [machine,step,hchain,hserve]⟩
    | told _ _ hchain | grown _ _ hchain => exact ⟨.deliver,rfl,by simp [machine,step,hchain]⟩
    | complete => cases hn
  obtain ⟨e,he,hsome⟩ := henabled
  obtain ⟨w',hstep⟩ := Option.isSome_iff_exists.mp hsome
  obtain ⟨j,hj,hleft⟩ := left_step he hstep hw
  obtain rfl : n = j := by omega
  exact ⟨e,w',he,hstep,hleft⟩

structure Arrived (s₀ : ℚ) (w : Speedup) : Prop where
  speed : ∃ v, w.chain = .complete (.ok (.finite v)) ∧ w.robot.speed = .finite v ∧
    90 < v ∧ v ≤ 100 ∧ ∃ k : ℕ, v-s₀ = 10*k
  sets : (w.sets : ℤ) = ⌊(100-s₀)/10⌋
  answers : ∀ p ∈ w.answers, ∀ speed, p.1 = .setSpeed speed → p.2.data.setSpeed.d ≠ tooFastExHash

theorem arrived_of_left {s₀ : ℚ} (hw : Left ts s₀ 0 w) : Arrived s₀ w := by
  generalize hn : 0 = n at hw
  cases hw with
  | @complete _ q k hg hsets hchain hfull =>
    obtain ⟨hspeed,hgrown,hlimit,hanswers⟩ := hg
    simp only [increment] at hgrown hfull
    refine ⟨⟨q,hchain,hspeed,by linarith,hlimit,k,by linarith⟩,?_,hanswers⟩
    symm
    rw [hsets,Int.floor_eq_iff]
    push_cast
    constructor
    · rw [le_div_iff₀ (by norm_num)]
      linarith
    · rw [div_lt_iff₀ (by norm_num)]
      linarith
  | asks | told | grows | grown => omega

theorem arrived_of_complete {s₀ : ℚ} {n : ℕ} {out : Except Exn Speed} (hw : Left ts s₀ n w)
    (h : w.chain = .complete out) : Arrived s₀ w := by
  cases hw with
  | complete hg hsets hchain hfull =>
    exact arrived_of_left (@Left.complete ts _ _ _ _ hg hsets hchain hfull)
  | asks _ _ hchain | told _ _ hchain | grows _ _ hchain | grown _ _ hchain =>
    rw [hchain] at h
    cases h

theorem le_of_afterFirst {speed_fut : Except Exn Speed} {speed : Speed}
    (h : afterFirst speed_fut = .setSpeed speed) : speed.le MyRobot.maxSpeed = true := by
  cases speed_fut with
  | error e => cases h
  | ok old =>
    cases hgrow : old.canGrow with
    | true =>
      simp only [afterFirst,hgrow,if_true,Next.setSpeed.injEq] at h
      exact h ▸ hgrow
    | false => simp [afterFirst,afterSecond,hgrow] at h

theorem afterSecond_ne_setSpeed (speed_fut : Except Exn Speed) (speed : Speed) :
    afterSecond speed_fut ≠ .setSpeed speed := by
  cases speed_fut with
  | error e => simp [afterSecond]
  | ok old => cases hgrow : old.canGrow <;> simp [afterSecond,hgrow]

def RequestsWithin (w : Speedup) : Prop :=
  ∀ speed, .setSpeed speed ∈ w.requests → speed.le MyRobot.maxSpeed = true

theorem requestsWithin_next {n : Next} (hw : RequestsWithin w)
    (hn : ∀ speed, n = .setSpeed speed → speed.le MyRobot.maxSpeed = true) :
    RequestsWithin (w.next n) := by
  cases n with
  | complete out => exact hw
  | getSpeed =>
    intro speed hmem
    exact hw speed (by simpa [next] using hmem)
  | setSpeed v =>
    intro speed hmem
    rcases List.mem_append.mp hmem with hmem | hmem
    · exact hw speed hmem
    · cases List.mem_singleton.mp hmem
      exact hn v rfl

theorem serve_requests {op : Call} {chain : Option RobotControlReply → Chain}
    (h : w.serve ts op chain = some w') : w'.requests = w.requests := by
  unfold serve at h
  split at h
  · cases h
    rfl
  · cases h

theorem requestsWithin_step {e : Event} (h : (machine ts).step w e = some w')
    (hw : RequestsWithin w) : RequestsWithin w' := by
  cases e with
  | other r =>
    cases h
    exact hw
  | dispatch =>
    have hsame : w'.requests = w.requests := by
      simp only [machine,step] at h
      split at h
      · exact serve_requests h
      · exact serve_requests h
      · cases h
    intro speed hmem
    exact hw speed (hsame ▸ hmem)
  | deliver =>
    simp only [machine,step] at h
    split at h
    · cases h
      exact requestsWithin_next hw (fun _ => le_of_afterFirst)
    · cases h
      exact requestsWithin_next hw (fun speed hn => absurd hn (afterSecond_ne_setSpeed _ speed))
    · cases h

/-- A run of the chain and the server alone: it cannot go on for ever, nor stop before
the chain is complete. -/
structure SpeedsUp (ts : TypeSupport) (s₀ : ℚ) (es : List Event) (w : Speedup) : Prop where
  bounded : es.length ≤ 4*rounds s₀+2
  goesOn : (∃ out, w.chain = .complete out) ∨
    ∃ e w', e.own = true ∧ (machine ts).step w e = some w'
  arrived : ∀ out, w.chain = .complete out → Arrived s₀ w

/-- Alone with the server the chain ends, with as many requests for more speed as there is
room for; among others it still asks for no speed above the limit. -/
theorem speedup_ends (ts : TypeSupport) {s₀ : ℚ} (h : s₀ ≤ 100) (status : Status) :
    (∀ es w, (∀ e ∈ es, e.own = true) →
      (machine ts).run (start ⟨.finite s₀,status⟩) es = some w → SpeedsUp ts s₀ es w) ∧
    (∃ es w, (∀ e ∈ es, e.own = true) ∧
      (machine ts).run (start ⟨.finite s₀,status⟩) es = some w ∧ Arrived s₀ w) ∧
    ∀ robot es w, (machine ts).run (start robot) es = some w → RequestsWithin w := by
  have hstart := left_start ts h status
  refine ⟨fun es w hes hrun => ?_,?_,fun robot es w hrun => ?_⟩
  · obtain ⟨j,hj,hleft⟩ := Machine.run_countdown (I := Left ts s₀) left_step hes hrun hstart
    refine ⟨by omega,?_,fun out => arrived_of_complete hleft⟩
    cases j with
    | zero =>
      obtain ⟨v,hchain,-⟩ := (arrived_of_left hleft).speed
      exact .inl ⟨_,hchain⟩
    | succ j =>
      obtain ⟨e,w',he,hstep,-⟩ := left_next hleft
      exact .inr ⟨e,w',he,hstep⟩
  · obtain ⟨es,w,hes,hrun,hleft⟩ := Machine.exists_run_countdown (I := Left ts s₀)
      (Q := fun e : Event => e.own = true) left_next hstart
    exact ⟨es,w,hes,hrun,arrived_of_left hleft⟩
  · exact Machine.run_preserves (P := RequestsWithin) requestsWithin_step hrun
      (by simp [RequestsWithin,start])

theorem speedup_ends_once : ∃ w,
    (machine .zero).run (start ⟨.finite 85,⟨none⟩⟩)
      [.dispatch,.deliver,.dispatch,.deliver,.dispatch,.deliver] = some w ∧
    w.robot.speed = .finite 95 ∧ Arrived 85 w := by
  have hsome : ((machine .zero).run (start ⟨.finite 85,⟨none⟩⟩)
      [.dispatch,.deliver,.dispatch,.deliver,.dispatch,.deliver]).any (fun w =>
        w.chain = .complete (.ok (.finite 95)) ∧ w.robot.speed = .finite 95) = true := by
    decide +kernel
  obtain ⟨w,hrun,hw⟩ := (Option.any_eq_true _ _).mp hsome
  obtain ⟨hchain,hspeed⟩ := of_decide_eq_true hw
  have h := (speedup_ends .zero (show (85:ℚ) ≤ 100 by norm_num) ⟨none⟩).1 _ w (by decide) hrun
  exact ⟨w,hrun,hspeed,h.arrived _ hchain⟩

end Speedup
end DdsRpc
