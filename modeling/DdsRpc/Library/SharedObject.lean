import DdsRpc.Library.Machine
set_option autoImplicit false

/-! Clients of one sequential object. A call takes effect at one instant between its
invocation and its return; made one after another in the order of these instants, the
same calls have the same outcomes. -/

namespace SharedObject
variable {ι σ Op : Type} {Out : Op → Type}

inductive Phase (Op : Type) (Out : Op → Type) where
  | idle
  | called (op : Op)
  | served (op : Op) (out : Out op)

def Phase.ops : Phase Op Out → List Op
  | .idle => []
  | .called op | .served op _ => [op]

def Phase.outcomes : Phase Op Out → List (Sigma Out)
  | .served op out => [⟨op,out⟩]
  | _ => []

structure State (ι σ Op : Type) (Out : Op → Type) where
  object : σ
  phase : ι → Phase Op Out
  order : List (ι × Op)
  issued : ι → List Op
  returned : ι → List (Sigma Out)

def init (s : σ) : State ι σ Op Out := ⟨s,fun _ => .idle,[],fun _ => [],fun _ => []⟩

inductive Event (ι Op : Type) where
  | call (i : ι) (op : Op)
  | serve (i : ι)
  | ret (i : ι)

variable [DecidableEq ι]

def machine (apply : (op : Op) → σ → Out op × σ) : Machine (State ι σ Op Out) (Event ι Op) where
  step w
    | .call i op =>
      match w.phase i with
      | .idle =>
        some { w with
          phase := Function.update w.phase i (.called op)
          issued := Function.update w.issued i (w.issued i ++ [op]) }
      | _ => none
    | .serve i =>
      match w.phase i with
      | .called op =>
        some { w with
          object := (apply op w.object).2
          phase := Function.update w.phase i (.served op (apply op w.object).1)
          order := w.order ++ [(i,op)] }
      | _ => none
    | .ret i =>
      match w.phase i with
      | .served op out =>
        some { w with
          phase := Function.update w.phase i .idle
          returned := Function.update w.returned i (w.returned i ++ [⟨op,out⟩]) }
      | _ => none

variable {apply : (op : Op) → σ → Out op × σ}

theorem step_call {w : State ι σ Op Out} {i : ι} (h : w.phase i = .idle) (op : Op) :
    (machine apply).step w (.call i op) = some { w with
      phase := Function.update w.phase i (.called op)
      issued := Function.update w.issued i (w.issued i ++ [op]) } := by
  simp only [machine,h]

theorem step_serve {w : State ι σ Op Out} {i : ι} {op : Op} (h : w.phase i = .called op) :
    (machine apply).step w (.serve i) = some { w with
      object := (apply op w.object).2
      phase := Function.update w.phase i (.served op (apply op w.object).1)
      order := w.order ++ [(i,op)] } := by
  simp only [machine,h]

theorem step_ret {w : State ι σ Op Out} {i : ι} {op : Op} {out : Out op}
    (h : w.phase i = .served op out) :
    (machine apply).step w (.ret i) = some { w with
      phase := Function.update w.phase i .idle
      returned := Function.update w.returned i (w.returned i ++ [⟨op,out⟩]) } := by
  simp only [machine,h]

/-- The calls of `order` made one after another by a single caller. -/
def direct (apply : (op : Op) → σ → Out op × σ) : σ → List (ι × Op) → List (ι × Sigma Out) × σ
  | s,[] => ([],s)
  | s,(i,op) :: order =>
    let rest := direct apply (apply op s).2 order
    ((i,⟨op,(apply op s).1⟩) :: rest.1,rest.2)

omit [DecidableEq ι] in
theorem direct_append (s : σ) (order : List (ι × Op)) (i : ι) (op : Op) :
    direct apply s (order ++ [(i,op)]) =
      ((direct apply s order).1 ++ [(i,⟨op,(apply op (direct apply s order).2).1⟩)],
        (apply op (direct apply s order).2).2) := by
  induction order generalizing s with
  | nil => rfl
  | cons p order ih => simp only [List.cons_append,direct,ih]

omit [DecidableEq ι] in
theorem map_direct (s : σ) (order : List (ι × Op)) :
    (direct apply s order).1.map (fun p => (p.1,p.2.1)) = order := by
  induction order generalizing s with
  | nil => rfl
  | cons p order ih => simp [direct,ih]

omit [DecidableEq ι] in
theorem direct_relabel {κ : Type} (f : ι → κ) (s : σ) (order : List (ι × Op)) :
    direct apply s (order.map (Prod.map f id)) =
      ((direct apply s order).1.map (Prod.map f id),(direct apply s order).2) := by
  induction order generalizing s with
  | nil => rfl
  | cons p order ih => simp [direct,ih]

omit [DecidableEq ι] in
theorem direct_mapOut {Out' : Op → Type} (g : (op : Op) → Out op → Out' op) (s : σ)
    (order : List (ι × Op)) :
    direct (fun op s => (g op (apply op s).1,(apply op s).2)) s order =
      ((direct apply s order).1.map (fun o => (o.1,⟨o.2.1,g o.2.1 o.2.2⟩)),
        (direct apply s order).2) := by
  induction order generalizing s with
  | nil => rfl
  | cons p order ih => simp [direct,ih]

omit [DecidableEq ι] in
theorem mem_of_mem_direct {s : σ} {order : List (ι × Op)} {i : ι} {out : Sigma Out}
    (h : (i,out) ∈ (direct apply s order).1) : (i,out.1) ∈ order := by
  have hmem := List.mem_map_of_mem (f := fun p => (p.1,p.2.1)) h
  rwa [map_direct] at hmem

def ofClient {β : Type} (i : ι) (l : List (ι × β)) : List β :=
  (l.filter (fun p => p.1 = i)).map Prod.snd

theorem mem_ofClient {β : Type} {i : ι} {b : β} {l : List (ι × β)} :
    b ∈ ofClient i l ↔ (i,b) ∈ l := by
  simp [ofClient]

theorem ofClient_relabel {κ β : Type} (f : κ → ι) (i : ι) (l : List (κ × β)) :
    ofClient i (l.map (Prod.map f id)) = (l.filter (fun p => f p.1 = i)).map Prod.snd := by
  simp [ofClient,List.filter_map,Function.comp_def]

theorem ofClient_append {β : Type} (i j : ι) (l : List (ι × β)) (b : β) :
    ofClient i (l ++ [(j,b)]) = ofClient i l ++ if j = i then [b] else [] := by
  by_cases h : j = i <;> simp [ofClient,List.filter_append,h]

theorem ofClient_direct (apply : (op : Op) → σ → Out op × σ) (i : ι) (s : σ)
    (order : List (ι × Op)) :
    (ofClient i (direct apply s order).1).map Sigma.fst = ofClient i order := by
  induction order generalizing s with
  | nil => rfl
  | cons p order ih =>
    have := ih (apply p.2 s).2
    by_cases h : p.1 = i <;> simp_all [ofClient,direct]

structure Linearized (apply : (op : Op) → σ → Out op × σ) (s₀ : σ)
    (w : State ι σ Op Out) : Prop where
  object : w.object = (direct apply s₀ w.order).2
  issued : ∀ i, w.issued i = (w.returned i).map Sigma.fst ++ (w.phase i).ops
  outcomes : ∀ i, ofClient i (direct apply s₀ w.order).1 = w.returned i ++ (w.phase i).outcomes

theorem linearized_init (s₀ : σ) :
    Linearized apply s₀ (init s₀ : State ι σ Op Out) := ⟨rfl,fun _ => rfl,fun _ => rfl⟩

theorem linearized_step {s₀ : σ} {w w' : State ι σ Op Out} {e : Event ι Op}
    (h : (machine apply).step w e = some w') (hw : Linearized apply s₀ w) :
    Linearized apply s₀ w' := by
  cases e with
  | call i op =>
    cases hp : w.phase i with
    | called | served => simp [machine,hp] at h
    | idle =>
      rw [step_call hp,Option.some.injEq] at h
      subst h
      refine ⟨hw.object,fun j => ?_,fun j => ?_⟩
      · have := hw.issued j
        rcases eq_or_ne j i with rfl | hj <;> simp_all [Phase.ops]
      · have := hw.outcomes j
        rcases eq_or_ne j i with rfl | hj <;> simp_all [Phase.outcomes]
  | serve i =>
    cases hp : w.phase i with
    | idle | served => simp [machine,hp] at h
    | called op =>
      rw [step_serve hp,Option.some.injEq] at h
      subst h
      refine ⟨?_,fun j => ?_,fun j => ?_⟩
      · rw [direct_append,← hw.object]
      · have := hw.issued j
        rcases eq_or_ne j i with rfl | hj <;> simp_all [Phase.ops]
      · have := hw.outcomes j
        rw [direct_append,ofClient_append,this,← hw.object]
        rcases eq_or_ne j i with rfl | hj
        · simp [hp,Phase.outcomes]
        · simp [hj,Ne.symm hj]
  | ret i =>
    cases hp : w.phase i with
    | idle | called => simp [machine,hp] at h
    | served op out =>
      rw [step_ret hp,Option.some.injEq] at h
      subst h
      refine ⟨hw.object,fun j => ?_,fun j => ?_⟩
      · have := hw.issued j
        rcases eq_or_ne j i with rfl | hj <;> simp_all [Phase.ops]
      · have := hw.outcomes j
        rcases eq_or_ne j i with rfl | hj <;> simp_all [Phase.outcomes]

theorem linearized_run {s₀ : σ} {w : State ι σ Op Out} {es : List (Event ι Op)}
    (h : (machine apply).run (init s₀) es = some w) : Linearized apply s₀ w :=
  Machine.run_preserves (P := Linearized apply s₀) linearized_step h (linearized_init s₀)

/-- A client's calls take effect in its own order, none before it is made. -/
theorem Linearized.own_order {s₀ : σ} {w : State ι σ Op Out} (hw : Linearized apply s₀ w) (i : ι) :
    ofClient i w.order <+: w.issued i := by
  rw [← ofClient_direct apply i s₀,hw.outcomes,hw.issued,List.map_append]
  refine (List.prefix_append_right_inj _).mpr ?_
  cases w.phase i with
  | served op out => exact List.prefix_refl _
  | idle | called => exact List.nil_prefix

end SharedObject
