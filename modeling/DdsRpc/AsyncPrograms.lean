import DdsRpc.AsyncRefinement
set_option autoImplicit false

namespace DdsRpc
open Connext SharedObject ClientImpl

namespace AsyncSystem
variable {ι κ σ : Type} [DecidableEq ι] [DecidableEq κ] {P : Ppl Exn} {exn : String → Exn}
  {ts : TypeSupport} {R : RobotControl σ} {guid : ι → DDS.GUID} {s₀ : σ} {w : AsyncSystem ι σ}
  {owner : ι → ℕ → κ}

/-- The chain runs a program, and `outs` is what its futures have told so far. -/
abbrev Runs (P : Ppl Exn) (exn : String → Exn) {Q : Type} (p : Program Q Call Told) (q : Q)
    (w : AsyncSystem ι σ) (owner : ι → ℕ → κ) (x : ι × κ) (outs : List (Sigma Told)) : Prop :=
  Chains.Runs w.calls (w.Tells P exn) p q owner x outs

abbrev Scheduled (exn : String → Exn) (ts : TypeSupport) (R : RobotControl σ)
    {Q : ι × κ → Type} (p : (x : ι × κ) → Program (Q x) Call Told) (s₀ : σ)
    (q : (x : ι × κ) → Q x) (w : AsyncSystem ι σ) (owner : ι → ℕ → κ)
    (outs : ι × κ → List (Sigma Told)) (schedule : List ((ι × κ) × Faults.Fate String))
    (q' : (x : ι × κ) → Q x) : Prop :=
  Faults.Scheduled (told ts R) (thrown exn) p s₀ q owner w.failure outs
    w.server.dispatcher.service.1 schedule q'

theorem AsLocal.scheduled {order made : List (Ticket ι)}
    (h : AsLocal P exn ts R guid s₀ w order)
    (hmade : ∀ i n op, (w.calls i)[n]? = some op ↔ ((i,n),op) ∈ made) {Q : ι × κ → Type}
    {p : (x : ι × κ) → Program (Q x) Call Told} {q : (x : ι × κ) → Q x}
    {outs : ι × κ → List (Sigma Told)}
    (hr : ∀ x, Runs P exn (p x) (q x) w owner x (outs x)) :
    ∃ schedule q', Scheduled exn ts R p s₀ q w owner outs schedule q' := by
  obtain ⟨schedule,q',hs⟩ := Faults.exists_scheduled h.explains hmade h.telling hr
  refine ⟨schedule,q',?_⟩
  rw [Scheduled,h.invoked]
  exact hs

/-- Chains over the network are programs that call the service, one call at a time, and are
told of an exception where `execute` has completed a promise with one: the state of the
service and of every chain that has come to its end is that of such a run. -/
theorem asyncPrograms_asLocal (P : Ppl Exn) (exn : String → Exn)
    (T : TakeReply RobotControlReply) (ts : TypeSupport) (R : RobotControl σ)
    (hg : Function.Injective guid) {Q : ι × κ → Type}
    {p : (x : ι × κ) → Program (Q x) Call Told} {q : (x : ι × κ) → Q x} {es : List (Event ι)}
    (h : (machine T ts R).run (init guid s₀) es = some w) {outs : ι × κ → List (Sigma Told)}
    (hr : ∀ x, Runs P exn (p x) (q x) w owner x (outs x)) :
    ∃ schedule q', Scheduled exn ts R p s₀ q w owner outs schedule q' := by
  obtain ⟨order,made,hw,hmade⟩ := exists_asLocal P exn hg h
  exact hw.scheduled hmade hr

/-- Two chains of one client read at the same time, and the replies come in the other
order; the first one cannot be taken. -/
def bothRead : List (Event Unit) :=
  [.call () .getSpeed true,.call () .getSpeed true,.deliverRequest (),.deliverRequest (),
    .dispatch,.dispatch,.deliverReply () 1 RequesterImpl.nullIdentity,
    .deliverReply () 0 RequesterImpl.nullIdentity,
    .thread () 0 .wake,.thread () 0 (.takeThrows "no resources"),.thread () 0 .complete,
    .thread () 1 .wake,.thread () 1 .take,.thread () 1 .complete]

def oneEach (_ : Unit) (n : ℕ) : Bool := n = 1

def readOnce : Program (Option (Except Exn Speed)) Call Told where
  next
    | none => some .getSpeed
    | some _ => none
  resume
    | _,.getSpeed,out => some out
    | q,_,_ => q

def toldOfSpeed (c : Bool) : Except Exn Speed :=
  if c then .ok (.finite 0) else .error (.runtimeError "no resources")

theorem asyncPrograms_asLocal_bothRead :
    ∃ (schedule : List ((Unit × Bool) × Faults.Fate String))
      (q' : Unit × Bool → Option (Except Exn Speed)),
      (Faults.faultyPrograms (fun _ => readOnce) (told .zero Serving.echoRobot)
        (thrown .runtimeError)).run ((),fun _ => none) schedule = some ((),q') ∧
      q' = fun x => some (toldOfSpeed x.2) := by
  obtain ⟨w,hrun,hw⟩ : ∃ w, (machine .oldest .zero Serving.echoRobot).run
        (init (fun _ => System.clientGuid false) ()) bothRead = some w ∧
      ∀ c, ∃ n v, Chains.chainCalls w.calls oneEach ((),c) = [(.getSpeed,n)] ∧
        (w.client ()).promises[n]? = some [v] ∧
        completedOutcome (.eager Exn) .runtimeError .getSpeed v = toldOfSpeed c :=
    ⟨_,rfl,fun c => by cases c <;> exact ⟨_,_,rfl,rfl,rfl⟩⟩
  have hr : ∀ x, Runs (.eager Exn) .runtimeError readOnce none w oneEach x
      [⟨.getSpeed,toldOfSpeed x.2⟩] := by
    rintro ⟨⟨⟩,c⟩
    obtain ⟨n,v,hcalls,hpromise,hout⟩ := hw c
    exact Chains.runs_once hcalls ⟨_,v,hpromise,List.mem_singleton.mpr rfl,hout⟩ rfl
  obtain ⟨schedule,q',hs⟩ := asyncPrograms_asLocal (.eager Exn) .runtimeError .oldest .zero
    Serving.echoRobot (Function.injective_of_subsingleton _) hrun hr
  exact ⟨schedule,q',hs.run,funext (fun x => hs.ended x rfl)⟩

end AsyncSystem
end DdsRpc
