import DdsRpc.Library.SharedObject
set_option autoImplicit false

/-! Clients of one sequential object that can have any number of calls under way. A client
numbers its calls. The object receives some of them, each client's in the order of their
numbers, and serves or drops what it has received, first come first served. -/

namespace NumberedCalls
open SharedObject
variable {ι σ Op : Type} {Out : Op → Type}

/-- A call is named by its client and its number. -/
abbrev Ticket (ι Op : Type) : Type := (ι × ℕ) × Op

/-- The calls of a client below `next` have been received or are lost. -/
structure State (ι σ Op : Type) where
  object : σ
  calls : ι → List Op
  next : ι → ℕ
  queued : List (Ticket ι Op)
  order : List (Ticket ι Op)

def init (s : σ) : State ι σ Op := ⟨s,fun _ => [],fun _ => 0,[],[]⟩

inductive Event (ι Op : Type) where
  | call (i : ι) (op : Op)
  | receive (i : ι)
  | lose (i : ι)
  | serve
  | drop

variable [DecidableEq ι]

def machine (apply : (op : Op) → σ → Out op × σ) : Machine (State ι σ Op) (Event ι Op) where
  step w
    | .call i op => some { w with calls := Function.update w.calls i (w.calls i ++ [op]) }
    | .receive i => (w.calls i)[w.next i]?.map (fun op => { w with
        next := Function.update w.next i (w.next i+1)
        queued := w.queued ++ [((i,w.next i),op)] })
    | .lose i => (w.calls i)[w.next i]?.map (fun _ => { w with
        next := Function.update w.next i (w.next i+1) })
    | .serve =>
      match w.queued with
      | [] => none
      | p :: queued => some { w with
          object := (apply p.2 w.object).2
          queued
          order := w.order ++ [p] }
    | .drop => some { w with queued := w.queued.tail }

variable {apply : (op : Op) → σ → Out op × σ} {s₀ : σ} {w w' : State ι σ Op}

theorem step_receive {i : ι} {op : Op} (h : (w.calls i)[w.next i]? = some op) :
    (machine apply).step w (.receive i) = some { w with
      next := Function.update w.next i (w.next i+1)
      queued := w.queued ++ [((i,w.next i),op)] } := by
  simp only [machine,h,Option.map_some]

theorem step_lose {i : ι} {op : Op} (h : (w.calls i)[w.next i]? = some op) :
    (machine apply).step w (.lose i) = some { w with
      next := Function.update w.next i (w.next i+1) } := by
  simp only [machine,h,Option.map_some]

theorem step_serve {p : Ticket ι Op} {queued : List (Ticket ι Op)}
    (h : w.queued = p :: queued) :
    (machine apply).step w .serve = some { w with
      object := (apply p.2 w.object).2
      queued
      order := w.order ++ [p] } := by
  simp only [machine,h]

structure Numbered (apply : (op : Op) → σ → Out op × σ) (s₀ : σ) (w : State ι σ Op) :
    Prop where
  object : w.object = (direct apply s₀ w.order).2
  increasing : ∀ i, (ofClient i ((w.order ++ w.queued).map Prod.fst)).Pairwise (· < ·)
  received : ∀ p ∈ w.order ++ w.queued, p.1.2 < w.next p.1.1
  calls : ∀ p ∈ w.order ++ w.queued, (w.calls p.1.1)[p.1.2]? = some p.2

theorem numbered_init (s₀ : σ) : Numbered apply s₀ (init s₀ : State ι σ Op) where
  object := rfl
  increasing _ := .nil
  received p hp := by cases hp
  calls p hp := by cases hp

theorem Numbered.call (hw : Numbered apply s₀ w) (i : ι) (op : Op) :
    Numbered apply s₀ { w with calls := Function.update w.calls i (w.calls i ++ [op]) } where
  object := hw.object
  increasing := hw.increasing
  received := hw.received
  calls p hp := by
    have hop := hw.calls p hp
    rcases eq_or_ne p.1.1 i with hi | hi
    · obtain ⟨hlt,-⟩ := List.getElem?_eq_some_iff.mp hop
      rw [hi] at hop hlt
      simp only [hi,Function.update_self]
      rw [List.getElem?_append_left hlt,hop]
    · simp only [Function.update_of_ne hi,hop]

theorem Numbered.lose (hw : Numbered apply s₀ w) (i : ι) :
    Numbered apply s₀ { w with next := Function.update w.next i (w.next i+1) } where
  object := hw.object
  increasing := hw.increasing
  received p hp := by
    have hlt := hw.received p hp
    rcases eq_or_ne p.1.1 i with hi | hi
    · rw [hi] at hlt
      simp only [hi,Function.update_self]
      omega
    · simpa only [Function.update_of_ne hi] using hlt
  calls := hw.calls

theorem Numbered.receive (hw : Numbered apply s₀ w) {i : ι} {op : Op}
    (hop : (w.calls i)[w.next i]? = some op) :
    Numbered apply s₀ { w with
      next := Function.update w.next i (w.next i+1)
      queued := w.queued ++ [((i,w.next i),op)] } where
  object := hw.object
  increasing j := by
    rw [← List.append_assoc,List.map_append,List.map_singleton,ofClient_append]
    refine List.pairwise_append.mpr ⟨hw.increasing j,?_,fun m hm n hn => ?_⟩
    · split
      · exact List.pairwise_singleton _ _
      · exact .nil
    · split at hn
      case isFalse => cases hn
      subst j
      rw [List.mem_singleton.mp hn]
      obtain ⟨q,hq,rfl⟩ := List.mem_map.mp hm
      obtain ⟨hq,hqi⟩ := List.mem_filter.mp hq
      obtain ⟨p,hp,rfl⟩ := List.mem_map.mp hq
      have hlt := hw.received p hp
      rwa [of_decide_eq_true hqi] at hlt
  received p hp := by
    rw [← List.append_assoc] at hp
    rcases List.mem_append.mp hp with hp | hp
    · exact (hw.lose i).received p hp
    · rw [List.mem_singleton.mp hp]
      simp
  calls p hp := by
    rw [← List.append_assoc] at hp
    rcases List.mem_append.mp hp with hp | hp
    · exact hw.calls p hp
    · rw [List.mem_singleton.mp hp]
      exact hop

theorem Numbered.serve (hw : Numbered apply s₀ w) {p : Ticket ι Op}
    {queued : List (Ticket ι Op)} (hq : w.queued = p :: queued) :
    Numbered apply s₀ { w with
      object := (apply p.2 w.object).2
      queued
      order := w.order ++ [p] } where
  object := by rw [direct_append,← hw.object]
  increasing := by simpa [hq] using hw.increasing
  received := by simpa [hq] using hw.received
  calls := by simpa [hq] using hw.calls

theorem Numbered.drop (hw : Numbered apply s₀ w) :
    Numbered apply s₀ { w with queued := w.queued.tail } := by
  have hsub : (w.order ++ w.queued.tail).Sublist (w.order ++ w.queued) :=
    (List.Sublist.refl w.order).append (List.tail_sublist w.queued)
  exact ⟨hw.object,fun i => (hw.increasing i).sublist (((hsub.map Prod.fst).filter _).map Prod.snd),
    fun p hp => hw.received p (hsub.subset hp),fun p hp => hw.calls p (hsub.subset hp)⟩

theorem numbered_step {e : Event ι Op} (h : (machine apply).step w e = some w')
    (hw : Numbered apply s₀ w) : Numbered apply s₀ w' := by
  cases e with
  | call i op =>
    cases h
    exact hw.call i op
  | receive i =>
    obtain ⟨op,hop,rfl⟩ := Option.map_eq_some_iff.mp h
    exact hw.receive hop
  | lose i =>
    obtain ⟨op,-,rfl⟩ := Option.map_eq_some_iff.mp h
    exact hw.lose i
  | serve =>
    simp only [machine] at h
    split at h
    · cases h
    · cases h
      exact hw.serve ‹_›
  | drop =>
    cases h
    exact hw.drop

theorem numbered_run {es : List (Event ι Op)} (h : (machine apply).run w es = some w')
    (hw : Numbered apply s₀ w) : Numbered apply s₀ w' :=
  Machine.run_preserves numbered_step h hw

theorem order_step {e : Event ι Op} (h : (machine apply).step w e = some w') :
    w.order <+: w'.order := by
  cases e with
  | call | drop =>
    cases h
    exact List.prefix_rfl
  | receive | lose =>
    obtain ⟨op,-,rfl⟩ := Option.map_eq_some_iff.mp h
    exact List.prefix_rfl
  | serve =>
    simp only [machine] at h
    split at h
    · cases h
    · cases h
      exact List.prefix_append _ _

theorem order_run {es : List (Event ι Op)} (h : (machine apply).run w es = some w') :
    w.order <+: w'.order :=
  Machine.run_preserves (P := fun v => w.order <+: v.order)
    (fun hs hv => hv.trans (order_step hs)) h List.prefix_rfl

theorem step_calls {e : Event ι Op} (h : (machine apply).step w e = some w') :
    w'.calls = w.calls ∨
      ∃ i op, w'.calls = Function.update w.calls i (w.calls i ++ [op]) := by
  cases e with
  | call i op =>
    cases h
    exact .inr ⟨i,op,rfl⟩
  | receive | lose =>
    obtain ⟨op,-,rfl⟩ := Option.map_eq_some_iff.mp h
    exact .inl rfl
  | serve =>
    simp only [machine] at h
    split at h
    · cases h
    · cases h
      exact .inl rfl
  | drop =>
    cases h
    exact .inl rfl

theorem made_run {es : List (Event ι Op)} (h : (machine apply).run (init s₀) es = some w) :
    ∃ made : List (Ticket ι Op), ∀ i n op, (w.calls i)[n]? = some op ↔ ((i,n),op) ∈ made := by
  refine Machine.run_preserves (P := fun w : State ι σ Op => ∃ made : List (Ticket ι Op),
    ∀ i n op, (w.calls i)[n]? = some op ↔ ((i,n),op) ∈ made) ?_ h ⟨[],by simp [init]⟩
  rintro u e v hs ⟨made,hmade⟩
  rcases step_calls hs with hc | ⟨i,op,hc⟩
  · exact ⟨made,by rwa [hc]⟩
  refine ⟨made ++ [((i,(u.calls i).length),op)],fun j n op' => ?_⟩
  rw [hc,List.mem_append,← hmade j n op',List.mem_singleton]
  rcases eq_or_ne j i with rfl | hj
  · rw [Function.update_self]
    rcases Nat.lt_trichotomy n (u.calls j).length with hlt | rfl | hgt
    · simp [List.getElem?_append_left hlt,Nat.ne_of_lt hlt]
    · simp [eq_comm]
    · have hnone : (u.calls j ++ [op])[n]? = none :=
        List.getElem?_eq_none (by rw [List.length_append]; exact hgt)
      simp [hnone,Nat.le_of_lt hgt,Nat.ne_of_gt hgt]
  · simp [hj]

/-- The calls of `order`, made directly one after another, explain whatever the clients
have been told: `tells i n op out` if `i` has been told `out` of its call `n`, an `op`. -/
structure Explains (apply : (op : Op) → σ → Out op × σ) (s₀ : σ) (calls : ι → List Op)
    (tells : ι → ℕ → (op : Op) → Out op → Prop) (order : List (Ticket ι Op)) : Prop where
  made : ∀ p ∈ order, (calls p.1.1)[p.1.2]? = some p.2
  ownOrder : ∀ i, (ofClient i (order.map Prod.fst)).Pairwise (· < ·)
  told : ∀ {i n op} {out : Out op}, (calls i)[n]? = some op → tells i n op out →
    ((i,n),⟨op,out⟩) ∈ (direct apply s₀ order).1

theorem Numbered.explains (hw : Numbered apply s₀ w)
    {tells : ι → ℕ → (op : Op) → Out op → Prop}
    (htold : ∀ {i n op} {out : Out op}, (w.calls i)[n]? = some op → tells i n op out →
      ((i,n),⟨op,out⟩) ∈ (direct apply s₀ w.order).1) :
    Explains apply s₀ w.calls tells w.order where
  made p hp := hw.calls p (List.mem_append_left _ hp)
  ownOrder i := by
    have hall := hw.increasing i
    rw [List.map_append,ofClient,List.filter_append,List.map_append] at hall
    exact (List.pairwise_append.mp hall).1
  told := htold

theorem Explains.mapOut {tells : ι → ℕ → (op : Op) → Out op → Prop}
    {calls : ι → List Op} {order : List (Ticket ι Op)} {Out' : Op → Type}
    (h : Explains apply s₀ calls tells order) (g : (op : Op) → Out op → Out' op) :
    Explains (fun op s => (g op (apply op s).1,(apply op s).2)) s₀ calls
      (fun i n op out' => ∃ out, tells i n op out ∧ g op out = out') order where
  made := h.made
  ownOrder := h.ownOrder
  told := by
    rintro i n op _ hop ⟨out,hout,rfl⟩
    rw [direct_mapOut]
    exact List.mem_map.mpr ⟨_,h.told hop hout,rfl⟩

end NumberedCalls
