import DdsRpc.Library.Chains
set_option autoImplicit false

/-! Calls that can fail: the client is told of an exception, and not whether the object has
served the call. -/

namespace Faults
open SharedObject NumberedCalls
variable {ι κ σ Op ε : Type} {Out : Op → Type}

/-- A call that has failed has been served all the same, and one that is lost has not. -/
inductive Fate (ε : Type) where
  | answered
  | failed (e : ε)
  | lost (e : ε)

namespace Fate

def served : Fate ε → Bool
  | .lost _ => false
  | _ => true

def exception : Fate ε → Option ε
  | .answered => none
  | .failed e | .lost e => some e

theorem eq_answered {f : Fate ε} (h : f.exception = none) : f = .answered := by
  cases f with
  | answered => rfl
  | failed | lost => cases h

end Fate

/-- What a call with this fate does and tells: `thrown` is what it tells of an exception. -/
def faulty (apply : (op : Op) → σ → Out op × σ) (thrown : (op : Op) → ε → Out op) :
    Fate ε → (op : Op) → σ → Out op × σ
  | .answered,op,s => apply op s
  | .failed e,op,s => (thrown op e,(apply op s).2)
  | .lost e,op,s => (thrown op e,s)

variable {apply : (op : Op) → σ → Out op × σ} {thrown : (op : Op) → ε → Out op}

theorem faulty_of_exception {f : Fate ε} {e : ε} (h : f.exception = some e) (op : Op) (s : σ) :
    faulty apply thrown f op s = (thrown op e,if f.served then (apply op s).2 else s) := by
  cases f with
  | answered => cases h
  | failed | lost =>
    cases h
    rfl

theorem faulty_of_served {f : Fate ε} (h : f.served = true) (op : Op) (s : σ) :
    (faulty apply thrown f op s).2 = (apply op s).2 := by
  cases f with
  | answered | failed => rfl
  | lost => cases h

section
variable {Q : ι → Type} [DecidableEq ι] {p : (i : ι) → Program (Q i) Op Out}
  {w w' : σ × ((i : ι) → Q i)}

def faultyPrograms (p : (i : ι) → Program (Q i) Op Out) (apply : (op : Op) → σ → Out op × σ)
    (thrown : (op : Op) → ε → Out op) : Machine (σ × ((i : ι) → Q i)) (ι × Fate ε) where
  step w e := (programs p (faulty apply thrown e.2)).step w e.1

theorem step_faultyPrograms {e : ι × Fate ε} :
    (faultyPrograms p apply thrown).step w e = some w' ↔ ∃ op,
      (p e.1).next (w.2 e.1) = some op ∧
      ((faulty apply thrown e.2 op w.1).2,Function.update w.2 e.1
        ((p e.1).resume (w.2 e.1) op (faulty apply thrown e.2 op w.1).1)) = w' :=
  step_programs

/-- Programs that know what to do about the exceptions of `G`: `A` holds again once the
program has caught one. -/
structure FaultyOutlines (p : (i : ι) → Program (Q i) Op Out)
    (apply : (op : Op) → σ → Out op × σ) (thrown : (op : Op) → ε → Out op) (G : ι → ε → Prop)
    (H : Op → Prop) (A : (i : ι) → Q i → σ → Prop) : Prop extends Outlines p apply H A where
  caught : ∀ {i q s op e}, G i e → A i q s → (p i).next q = some op →
    A i ((p i).resume q op (thrown op e)) s

theorem run_answered (thrown : (op : Op) → ε → Out op) {schedule : List ι}
    (h : (programs p apply).run w schedule = some w') :
    (faultyPrograms p apply thrown).run w (schedule.map (fun i => (i,.answered))) = some w' :=
  Machine.run_embed (A := faultyPrograms p apply thrown) id (fun i => (i,Fate.answered))
    (fun hs => hs) h

omit [DecidableEq ι] in
theorem answered_served {schedule : List ι} : ∀ e ∈ schedule.map (fun i =>
    (i,(.answered : Fate ε))), e.2.served = true :=
  List.forall_mem_map.mpr (fun _ _ => rfl)

omit [DecidableEq ι] in
theorem none_of_answered {schedule : List ι} {failure : Option ε} (h : ∀ x, failure = some x →
    ∃ e ∈ schedule.map (fun i => (i,(.answered : Fate ε))), e.2.exception = some x) :
    failure = none := by
  cases failure with
  | none => rfl
  | some x =>
    obtain ⟨e,he,hx⟩ := h x rfl
    obtain ⟨i,-,rfl⟩ := List.mem_map.mp he
    cases hx

theorem run_of_answered {schedule : List (ι × Fate ε)}
    (hs : ∀ e ∈ schedule, e.2.exception = none)
    (h : (faultyPrograms p apply thrown).run w schedule = some w') :
    (programs p apply).run w (schedule.map Prod.fst) = some w' := by
  induction schedule generalizing w with
  | nil =>
    cases h
    rfl
  | cons e schedule ih =>
    obtain ⟨i,f⟩ := e
    obtain ⟨hf,hrest⟩ := List.forall_mem_cons.mp hs
    obtain rfl : f = .answered := Fate.eq_answered hf
    obtain ⟨u,hu,hrun⟩ := Machine.run_cons.mp h
    exact Machine.run_cons.mpr ⟨u,hu,ih hrest hrun⟩

variable {G : ι → ε → Prop} {H : Op → Prop} {A : (i : ι) → Q i → σ → Prop}

theorem FaultyOutlines.step (hA : FaultyOutlines p apply thrown G H A) {e : ι × Fate ε}
    (he : ∀ x, e.2.exception = some x → G e.1 x)
    (h : (faultyPrograms p apply thrown).step w e = some w') (hw : ∀ j, A j (w.2 j) w.1) :
    ∀ j, A j (w'.2 j) w'.1 := by
  cases hf : e.2.exception with
  | none =>
    obtain ⟨i,f⟩ := e
    cases f with
    | answered => exact hA.toOutlines.step h hw
    | failed | lost => cases hf
  | some x =>
    obtain ⟨op,hop,rfl⟩ := step_faultyPrograms.mp h
    rw [faulty_of_exception hf]
    -- The object may have served the call: for the assertions it is another's.
    have hserved : ∀ j q, A j q w.1 → A j q (if e.2.served then (apply op w.1).2 else w.1) := by
      intro j q hq
      split
      · exact (hA.outline j).other hq (hA.calls (hw e.1) hop)
      · exact hq
    intro j
    rcases eq_or_ne j e.1 with rfl | hne
    · simpa using hserved _ _ (hA.caught (he x hf) (hw e.1) hop)
    · simpa [hne] using hserved j _ (hw j)

theorem FaultyOutlines.run (hA : FaultyOutlines p apply thrown G H A)
    {schedule : List (ι × Fate ε)} (hs : ∀ e ∈ schedule, ∀ x, e.2.exception = some x → G e.1 x)
    (h : (faultyPrograms p apply thrown).run w schedule = some w') (hw : ∀ j, A j (w.2 j) w.1) :
    ∀ j, A j (w'.2 j) w'.1 :=
  Machine.run_preserves_of (P := fun u : σ × ((i : ι) → Q i) => ∀ j, A j (u.2 j) u.1)
    (fun he hstep hu => hA.step he hstep hu) hs h hw

/-- A call costs its program more than it can raise the costs of all the others, whatever
becomes of it. -/
theorem FaultyOutlines.length_le [Fintype ι]
    (hA : FaultyOutlines p apply thrown (fun _ _ => True) H A) (cost : (i : ι) → σ → Q i → ℕ)
    (hpaid : ∀ {i f q s op}, A i q s → (p i).next q = some op → ∃ raise,
      (∀ j q', cost j (faulty apply thrown f op s).2 q' ≤ cost j s q'+raise) ∧
      cost i (faulty apply thrown f op s).2 ((p i).resume q op (faulty apply thrown f op s).1)+
        (Fintype.card ι-1)*raise+1 ≤ cost i s q)
    {schedule : List (ι × Fate ε)} (h : (faultyPrograms p apply thrown).run w schedule = some w')
    (hw : ∀ i, A i (w.2 i) w.1) :
    schedule.length+∑ i, cost i w'.1 (w'.2 i) ≤ ∑ i, cost i w.1 (w.2 i) := by
  have hrun := Machine.run_amortized (I := fun u : σ × ((i : ι) → Q i) => ∀ i, A i (u.2 i) u.1)
    (Φ := fun u => ∑ i, cost i u.1 (u.2 i)) (c := fun _ => 1) (d := fun _ => 0)
    (fun hs hu => ⟨hA.step (fun _ _ => trivial) hs hu,by
      rw [Nat.zero_add]
      exact sum_cost_lt hs (fun _ => hpaid (hu _))⟩) h hw
  simpa using hrun

end

def scripted (apply : (op : Op) → σ → Out op × σ) (thrown : (op : Op) → ε → Out op) (op : Op)
    (w : σ × List (Fate ε)) : Out op × (σ × List (Fate ε)) :=
  ((faulty apply thrown (w.2.headD .answered) op w.1).1,
    ((faulty apply thrown (w.2.headD .answered) op w.1).2,w.2.tail))

theorem run_scripted {Q : ι → Type} [DecidableEq ι] {p : (i : ι) → Program (Q i) Op Out}
    {schedule : List ι} {fates : List (Fate ε)} (hlen : schedule.length = fates.length) {s : σ}
    {q q' : (i : ι) → Q i} {v : σ × List (Fate ε)}
    (h : (programs p (scripted apply thrown)).run ((s,fates),q) schedule = some (v,q')) :
    (faultyPrograms p apply thrown).run (s,q) (schedule.zip fates) = some (v.1,q') := by
  induction schedule generalizing fates s q with
  | nil =>
    cases h
    rfl
  | cons i schedule ih =>
    cases fates with
    | nil => cases hlen
    | cons f fates =>
      obtain ⟨u,hu,hrun⟩ := Machine.run_cons.mp h
      obtain ⟨op,hop,rfl⟩ := step_programs.mp hu
      exact Machine.run_cons.mpr ⟨_,step_programs.mpr ⟨op,hop,rfl⟩,
        ih (Nat.succ.inj hlen) hrun⟩

theorem direct_scripted (fate : ι → Fate ε) (s : σ) (order : List (ι × Op)) :
    (direct (scripted apply thrown) (s,order.map (fun p => fate p.1)) order).2 =
      ((direct apply s (order.filter (fun p => (fate p.1).served))).2,[]) := by
  induction order generalizing s with
  | nil => rfl
  | cons p order ih =>
    obtain ⟨i,op⟩ := p
    cases hf : fate i <;> simp [hf,direct,scripted,ih,Fate.served,faulty]

theorem mem_direct_scripted {fate : ι → Fate ε} {i : ι} {out : Sigma Out} {s : σ}
    {order : List (ι × Op)} (hf : fate i = .answered)
    (h : (i,out) ∈ (direct apply s (order.filter (fun p => (fate p.1).served))).1) :
    (i,out) ∈ (direct (scripted apply thrown) (s,order.map (fun p => fate p.1)) order).1 := by
  induction order generalizing s with
  | nil => cases h
  | cons p order ih =>
    obtain ⟨j,op⟩ := p
    cases hj : fate j with
    | answered =>
      simp only [List.filter_cons,hj,Fate.served,if_true,direct] at h
      simp only [List.map_cons,hj,direct,scripted,List.headD_cons,List.tail_cons,faulty]
      exact (List.mem_cons.mp h).elim (fun h => h ▸ .head _) (fun h => .tail _ (ih h))
    | failed =>
      simp only [List.filter_cons,hj,Fate.served,if_true,direct] at h
      simp only [List.map_cons,hj,direct,scripted,List.headD_cons,List.tail_cons,faulty]
      rcases List.mem_cons.mp h with h | h
      · obtain rfl := congrArg Prod.fst h
        cases hf.symm.trans hj
      · exact .tail _ (ih h)
    | lost =>
      simp only [List.filter_cons,hj,Fate.served] at h
      simp only [List.map_cons,hj,direct,scripted,List.headD_cons,List.tail_cons,faulty]
      exact .tail _ (ih h)

theorem thrown_mem_direct_scripted {fate : ι → Fate ε} {p : ι × Op} {e : ε} {s : σ}
    {order : List (ι × Op)} (hf : (fate p.1).exception = some e) (h : p ∈ order) :
    (p.1,⟨p.2,thrown p.2 e⟩) ∈
      (direct (scripted apply thrown) (s,order.map (fun p => fate p.1)) order).1 := by
  induction order generalizing s with
  | nil => cases h
  | cons q order ih =>
    simp only [List.map_cons,direct,scripted,List.headD_cons,List.tail_cons]
    rcases List.mem_cons.mp h with rfl | h
    · rw [faulty_of_exception hf]
      exact .head _
    · exact .tail _ (ih h)

variable [DecidableEq ι] [DecidableEq κ]

abbrev OwnOrder (order : List (Ticket ι Op)) : Prop :=
  ∀ i, (ofClient i (order.map Prod.fst)).Pairwise (· < ·)

theorem lt_of_ownOrder {p q : Ticket ι Op} {order : List (Ticket ι Op)}
    (h : OwnOrder (q :: order)) (hp : p ∈ order) (hi : p.1.1 = q.1.1) : q.1.2 < p.1.2 := by
  have hq := h q.1.1
  rw [List.map_cons,ofClient_cons,if_pos rfl] at hq
  refine List.rel_of_pairwise_cons hq (mem_ofClient.mpr ?_)
  rw [← hi]
  exact List.mem_map_of_mem hp

theorem ownOrder_cons {q : Ticket ι Op} {order : List (Ticket ι Op)} :
    OwnOrder (q :: order) ↔ OwnOrder order ∧ ∀ p ∈ order, p.1.1 = q.1.1 → q.1.2 < p.1.2 := by
  constructor
  · intro h
    refine ⟨fun i => ?_,fun p hp hi => lt_of_ownOrder h hp hi⟩
    have hi := h i
    rw [List.map_cons,ofClient_cons] at hi
    split at hi
    · exact hi.of_cons
    · exact hi
  · rintro ⟨h,hlt⟩ i
    rw [List.map_cons,ofClient_cons]
    split
    · refine List.pairwise_cons.mpr ⟨fun n hn => ?_,h i⟩
      obtain ⟨p,hp,hpn⟩ := List.mem_map.mp (mem_ofClient.mp hn)
      have hfirst := hlt p hp (by rw [hpn]; exact Eq.symm ‹_›)
      rwa [hpn] at hfirst
    · exact h i

theorem exists_insert {order : List (Ticket ι Op)} (h : OwnOrder order) {p : Ticket ι Op}
    (hp : p.1 ∉ order.map Prod.fst) :
    ∃ before after, order = before ++ after ∧ OwnOrder (before ++ p :: after) := by
  induction order with
  | nil => exact ⟨[],[],rfl,ownOrder_cons.mpr ⟨h,nofun⟩⟩
  | cons q order ih =>
    rw [List.map_cons,List.mem_cons,not_or] at hp
    obtain ⟨horder,hlt⟩ := ownOrder_cons.mp h
    by_cases hfirst : p.1.1 = q.1.1 ∧ p.1.2 < q.1.2
    · obtain ⟨hi,hpq⟩ := hfirst
      refine ⟨[],q :: order,rfl,ownOrder_cons.mpr ⟨h,fun r hr hri => ?_⟩⟩
      rcases List.mem_cons.mp hr with rfl | hr
      · exact hpq
      · exact Nat.lt_trans hpq (hlt r hr (hri.trans hi))
    · obtain ⟨before,after,rfl,hown⟩ := ih horder hp.2
      refine ⟨q :: before,after,rfl,ownOrder_cons.mpr ⟨hown,fun r hr hri => ?_⟩⟩
      have hr : r = p ∨ r ∈ before ++ after := by
        simpa [or_left_comm] using hr
      rcases hr with rfl | hr
      · have hne : r.1.2 ≠ q.1.2 := fun hn => hp.1 (Prod.ext hri hn)
        have hnot := not_and.mp hfirst hri
        omega
      · exact hlt r hr hri

/-- The calls of `lost` find their places among those of `order`. -/
theorem exists_order {calls : ι → List Op} {order : List (Ticket ι Op)} (h : OwnOrder order)
    (lost : List (Ticket ι Op)) (hcalls : ∀ p ∈ order ++ lost, (calls p.1.1)[p.1.2]? = some p.2)
    {s : Ticket ι Op → Bool} (hs : ∀ p ∈ order, s p = true) (hl : ∀ p ∈ lost, s p = false) :
    ∃ all,
      OwnOrder all ∧ (∀ p, p ∈ all ↔ p ∈ order ∨ p ∈ lost) ∧ all.filter s = order := by
  induction lost with
  | nil => exact ⟨order,h,by simp,List.filter_eq_self.mpr hs⟩
  | cons p lost ih =>
    obtain ⟨hp,hl⟩ := List.forall_mem_cons.mp hl
    obtain ⟨all,hown,hmem,hfilter⟩ := ih (fun q hq => hcalls q (by
      rcases List.mem_append.mp hq with hq | hq <;> simp [hq])) hl
    by_cases hin : p.1 ∈ all.map Prod.fst
    · obtain ⟨q,hq,hqp⟩ := List.mem_map.mp hin
      have hcall : ∀ r ∈ all, (calls r.1.1)[r.1.2]? = some r.2 := fun r hr =>
        hcalls r (by rcases (hmem r).mp hr with hr | hr <;> simp [hr])
      have hpq : some q.2 = some p.2 :=
        (hcall q hq).symm.trans (by rw [hqp]; exact hcalls p (by simp))
      obtain rfl : q = p := Prod.ext hqp (Option.some.inj hpq)
      refine ⟨all,hown,fun r => (hmem r).trans ?_,hfilter⟩
      constructor
      · exact Or.imp_right (List.mem_cons_of_mem _)
      · rintro (hr | hr)
        · exact .inl hr
        · rcases List.mem_cons.mp hr with rfl | hr
          · exact (hmem r).mp hq
          · exact .inr hr
    · obtain ⟨before,after,rfl,hown'⟩ := exists_insert hown hin
      refine ⟨before ++ p :: after,hown',fun r => ?_,?_⟩
      · have hr := hmem r
        simp only [List.mem_append] at hr
        simp only [List.mem_append,List.mem_cons]
        tauto
      · rw [List.filter_append] at hfilter
        rwa [List.filter_append,List.filter_cons_of_neg (by simp [hp])]

section
variable {s₀ : σ} {calls : ι → List Op} {tells replied : ι → ℕ → (op : Op) → Out op → Prop}
  {failure : ι → ℕ → Option ε} {order made : List (Ticket ι Op)}

/-- A call with an exception has failed, if it has been served, or is lost. -/
def fateOf (order : List (Ticket ι Op)) (failure : ι → ℕ → Option ε) (t : ι × ℕ) : Fate ε :=
  match failure t.1 t.2 with
  | none => .answered
  | some e => if t ∈ order.map Prod.fst then .failed e else .lost e

theorem exception_fateOf (order : List (Ticket ι Op)) (failure : ι → ℕ → Option ε) (t : ι × ℕ) :
    (fateOf order failure t).exception = failure t.1 t.2 := by
  unfold fateOf
  cases failure t.1 t.2 with
  | none => rfl
  | some e =>
    dsimp only
    split <;> rfl

theorem fateOf_served {t : ι × ℕ} (h : t ∈ order.map Prod.fst) (failure : ι → ℕ → Option ε) :
    (fateOf order failure t).served = true := by
  unfold fateOf
  cases failure t.1 t.2 with
  | none => rfl
  | some e => simp only [h,if_true,Fate.served]

theorem fateOf_lost {t : ι × ℕ} (h : t ∉ order.map Prod.fst) {e : ε}
    (he : failure t.1 t.2 = some e) : (fateOf order failure t).served = false := by
  simp only [fateOf,he,h,if_false,Fate.served]

/-- Of a call with an exception the client is told that, and else what has been replied. -/
structure Telling (thrown : (op : Op) → ε → Out op) (failure : ι → ℕ → Option ε)
    (replied tells : ι → ℕ → (op : Op) → Out op → Prop) : Prop where
  replied : ∀ {i n op} {out : Out op}, tells i n op out → failure i n = none →
    replied i n op out
  thrown : ∀ {i n op} {out : Out op} {e}, tells i n op out → failure i n = some e →
    out = thrown op e

/-- If the calls served explain the replies, these and the calls that are lost explain the
exceptions too. -/
theorem exists_explains (h : Explains apply s₀ calls replied order)
    (hmade : ∀ i n op, (calls i)[n]? = some op ↔ ((i,n),op) ∈ made)
    (ht : Telling thrown failure replied tells) : ∃ all,
      all.filter (fun p => (fateOf order failure p.1).served) = order ∧
      Explains (scripted apply thrown) (s₀,all.map (fun p => fateOf order failure p.1)) calls
        tells all := by
  have hcalls : ∀ p ∈ made, (calls p.1.1)[p.1.2]? = some p.2 := fun p hp => (hmade _ _ _).mpr hp
  obtain ⟨all,hown,hmem,hfilter⟩ := exists_order h.ownOrder
    (made.filter (fun p => !(fateOf order failure p.1).served))
    (s := fun p => (fateOf order failure p.1).served)
    (fun p hp => (List.mem_append.mp hp).elim (h.made p) fun hp =>
      hcalls p (List.mem_filter.mp hp).1)
    (fun p hp => fateOf_served (List.mem_map_of_mem hp) failure)
    (fun p hp => by simpa using (List.mem_filter.mp hp).2)
  refine ⟨all,hfilter,fun p hp => ?_,hown,fun {i n op out} hop htold => ?_⟩
  · rcases (hmem p).mp hp with hp | hp
    · exact h.made p hp
    · exact hcalls p (List.mem_filter.mp hp).1
  have hexception := exception_fateOf order failure (i,n)
  cases hf : failure i n with
  | none =>
    refine mem_direct_scripted ?_ ?_
    · simp only [fateOf,hf]
    · rw [hfilter]
      exact h.told hop (ht.replied htold hf)
  | some e =>
    obtain rfl := ht.thrown htold hf
    refine thrown_mem_direct_scripted (p := ((i,n),op)) (hexception.trans hf) ((hmem _).mpr ?_)
    by_cases hin : (i,n) ∈ order.map Prod.fst
    · obtain ⟨⟨_,op'⟩,hp,rfl⟩ := List.mem_map.mp hin
      obtain rfl := Option.some.inj (hop.symm.trans (h.made _ hp))
      exact .inl hp
    · exact .inr (List.mem_filter.mpr ⟨(hmade _ _ _).mp hop,by rw [fateOf_lost hin hf]; rfl⟩)

variable {Q : ι × κ → Type} {ps : (x : ι × κ) → Program (Q x) Op Out} {qs : (x : ι × κ) → Q x}
  {owner : ι → ℕ → κ} {outs : ι × κ → List (Sigma Out)} {s : σ}

/-- The chains behave as their programs do when a call is one step and fails where a promise
has: the programs leave the object in the state `s`. What they have been told begins with what
the chains have, and those that have come to their end are where the chains are. -/
structure Scheduled (apply : (op : Op) → σ → Out op × σ) (thrown : (op : Op) → ε → Out op)
    (ps : (x : ι × κ) → Program (Q x) Op Out) (s₀ : σ) (qs : (x : ι × κ) → Q x)
    (owner : ι → ℕ → κ) (failure : ι → ℕ → Option ε) (outs : ι × κ → List (Sigma Out)) (s : σ)
    (schedule : List ((ι × κ) × Fate ε)) (q' : (x : ι × κ) → Q x) : Prop where
  run : (faultyPrograms ps apply thrown).run (s₀,qs) schedule = some (s,q')
  told : ∀ x, ∃ served, outs x <+: served ∧ q' x = (ps x).after (qs x) served ∧
    (ps x).Follows (qs x) (served.map Sigma.fst) served ∧
    served.length = (schedule.map Prod.fst).count x
  faults : ∀ e ∈ schedule, ∀ x, e.2.exception = some x →
    ∃ n, owner e.1.1 n = e.1.2 ∧ failure e.1.1 n = some x
  ended : ∀ x, (ps x).next ((ps x).after (qs x) (outs x)) = none →
    q' x = (ps x).after (qs x) (outs x)

theorem Scheduled.length_le {schedule : List ((ι × κ) × Fate ε)} {q' : (x : ι × κ) → Q x}
    (h : Scheduled apply thrown ps s₀ qs owner failure outs s schedule q') (x : ι × κ) :
    (outs x).length ≤ (schedule.map Prod.fst).count x := by
  obtain ⟨served,hfirst,-,-,hlen⟩ := h.told x
  exact hlen ▸ hfirst.length_le

theorem Scheduled.run_of_noFailure {schedule : List ((ι × κ) × Fate ε)}
    {q' : (x : ι × κ) → Q x}
    (h : Scheduled apply thrown ps s₀ qs owner failure outs s schedule q')
    (hf : ∀ i n, failure i n = none) :
    (programs ps apply).run (s₀,qs) (schedule.map Prod.fst) = some (s,q') := by
  refine run_of_answered (fun e he => Option.eq_none_iff_forall_ne_some.mpr fun x hx => ?_) h.run
  obtain ⟨n,-,hn⟩ := h.faults e he x hx
  rw [hf] at hn
  cases hn

theorem exists_scheduled (h : Explains apply s₀ calls replied order)
    (hmade : ∀ i n op, (calls i)[n]? = some op ↔ ((i,n),op) ∈ made)
    (ht : Telling thrown failure replied tells)
    (hr : ∀ x, Chains.Runs calls tells (ps x) (qs x) owner x (outs x)) :
    ∃ schedule q', Scheduled apply thrown ps s₀ qs owner failure outs (direct apply s₀ order).2
      schedule q' := by
  obtain ⟨all,hfilter,hall⟩ := exists_explains h hmade ht
  obtain ⟨served,hrun,hserved⟩ := Chains.programs_run hall hr
  have hrun := run_scripted (by simp) hrun
  rw [direct_scripted,hfilter,List.zip_map'] at hrun
  refine ⟨_,_,hrun,fun x => ?_,fun e he x hx => ?_,fun x hend => ?_⟩
  · obtain ⟨hfirst,hfollows,hlen⟩ := hserved x
    exact ⟨served x,hfirst,rfl,hfollows,by rw [List.map_map]; exact hlen⟩
  · obtain ⟨t,-,rfl⟩ := List.mem_map.mp he
    exact ⟨t.1.2,rfl,(exception_fateOf order failure t.1).symm.trans hx⟩
  · obtain ⟨hfirst,hfollows,-⟩ := hserved x
    rw [hfollows.eq_of_ended hfirst hend]

end

section
variable {Q : Type} {p : Program Q Op Out} {q : Q} {G : ε → Prop} {H : Op → Prop}
  {A : Q → σ → Prop} {s₀ : σ} {calls : ι → List Op}
  {tells replied : ι → ℕ → (op : Op) → Out op → Prop} {failure : ι → ℕ → Option ε}
  {order made : List (Ticket ι Op)} {owner : ι → ℕ → κ} {x : ι × κ} {outs : List (Sigma Out)}

/-- An outline that holds again once the program has caught one of the exceptions `G`,
whether its call has been served or not. -/
structure FaultyOutline (p : Program Q Op Out) (apply : (op : Op) → σ → Out op × σ)
    (thrown : (op : Op) → ε → Out op) (G : ε → Prop) (H : Op → Prop) (A : Q → σ → Prop) : Prop
    extends Outline p apply H A where
  lost : ∀ {q s op e}, G e → A q s → p.next q = some op → A (p.resume q op (thrown op e)) s
  failed : ∀ {q s op e}, G e → A q s → p.next q = some op →
    A (p.resume q op (thrown op e)) (apply op s).2

def Fate.Throws (G : ε → Prop) (f : Fate ε) : Prop := ∀ e, f.exception = some e → G e

theorem Fate.throws_headD {fates : List (Fate ε)} (h : ∀ f ∈ fates, f.Throws G) :
    (fates.headD .answered).Throws G := by
  cases fates with
  | nil => exact nofun
  | cons f fates => exact h f (.head _)

theorem FaultyOutline.scripted (hA : FaultyOutline p apply thrown G H A) :
    Outline p (scripted apply thrown) H (fun q w => A q w.1 ∧ ∀ f ∈ w.2, f.Throws G) where
  own {q w op} h hop := by
    refine ⟨?_,fun f hf => h.2 f (List.mem_of_mem_tail hf)⟩
    have hG := Fate.throws_headD h.2
    unfold Faults.scripted
    cases hf : w.2.headD .answered with
    | answered => exact hA.own h.1 hop
    | failed e => exact hA.failed (hG e (by rw [hf]; rfl)) h.1 hop
    | lost e => exact hA.lost (hG e (by rw [hf]; rfl)) h.1 hop
  other {q w op} h hH := by
    refine ⟨?_,fun f hf => h.2 f (List.mem_of_mem_tail hf)⟩
    unfold Faults.scripted
    cases w.2.headD .answered with
    | answered | failed => exact hA.other h.1 hH
    | lost => exact h.1

omit [DecidableEq ι] in
theorem runs_own (hr : Chains.Runs calls tells p q owner x outs) :
    Chains.Runs calls (fun i n op out => (i,owner i n) = x ∧ tells i n op out) p q owner x
      outs where
  outcomes k out hk := by
    obtain ⟨n,hn,htold⟩ := hr.outcomes k out hk
    exact ⟨n,hn,Prod.ext rfl (Chains.chainCalls_get hn).2,htold⟩
  follows := hr.follows
  waits := hr.waits

theorem telling_own (ht : Telling thrown failure replied tells) :
    Telling thrown (fun i n => if (i,owner i n) = x then failure i n else none) replied
      (fun i n op out => (i,owner i n) = x ∧ tells i n op out) where
  replied := by
    rintro i n op out ⟨hx,htold⟩ hf
    exact ht.replied htold (by rwa [if_pos hx] at hf)
  thrown := by
    rintro i n op out e ⟨hx,htold⟩ hf
    exact ht.thrown htold (by rwa [if_pos hx] at hf)

theorem FaultyOutline.chain (hA : FaultyOutline p apply thrown G H A)
    (h : Explains apply s₀ calls replied order)
    (hmade : ∀ i n op, (calls i)[n]? = some op ↔ ((i,n),op) ∈ made)
    (ht : Telling thrown failure replied tells) (hr : Chains.Runs calls tells p q owner x outs)
    (hG : ∀ n e, owner x.1 n = x.2 → failure x.1 n = some e → G e)
    (hothers : ∀ i n op, (calls i)[n]? = some op → (i,owner i n) ≠ x → H op) (hq : A q s₀) :
    (∀ out ∈ outs, ∃ q' s f, A q' s ∧ p.next q' = some out.1 ∧ Fate.Throws G f ∧
      (faulty apply thrown f out.1 s).1 = out.2) ∧
    ((Chains.chainCalls calls owner x).length ≤ outs.length →
      A (p.after q outs) (direct apply s₀ order).2) := by
  have hown : Telling thrown (fun i n => if (i,owner i n) = x then failure i n else none) replied
      (fun i n op out => (i,owner i n) = x ∧ tells i n op out) := telling_own ht
  obtain ⟨all,hfilter,hall⟩ := exists_explains h hmade hown
  have hthrows : ∀ f ∈ all.map (fun p => fateOf order
      (fun i n => if (i,owner i n) = x then failure i n else none) p.1), f.Throws G := by
    intro f hf e he
    obtain ⟨p,-,rfl⟩ := List.mem_map.mp hf
    rw [exception_fateOf,Option.ite_none_right_eq_some] at he
    obtain ⟨rfl,he⟩ := he
    exact hG _ e rfl he
  obtain ⟨htold,hstate⟩ := Chains.outline hA.scripted hall (runs_own hr) hothers ⟨hq,hthrows⟩
  rw [direct_scripted,hfilter] at hstate
  refine ⟨fun out hout => ?_,fun hlen => (hstate hlen).1⟩
  obtain ⟨q',w,⟨hq',hw⟩,hnext,hout⟩ := htold out hout
  exact ⟨q',w.1,_,hq',hnext,Fate.throws_headD hw,hout⟩

end

/-- The call is served whatever becomes of its reply; `E` are the exceptions there can be. -/
def Fate.Allowed (E : ε → Prop) (f : Fate ε) : Prop := f.served = true ∧ f.Throws E

omit [DecidableEq ι] [DecidableEq κ] in
theorem allowed_of_served {schedule : List ((ι × κ) × Fate ε)}
    (h : ∀ e ∈ schedule, e.2.served = true) :
    ∀ e ∈ schedule, e.2.Allowed (fun x => ∃ e ∈ schedule, e.2.exception = some x) :=
  fun e he => ⟨h e he,fun _ hx => ⟨e,he,hx⟩⟩

section
variable {W E : Type} {M : Machine W E} {callsOf : W → ι → List Op}
  {tellsOf : W → ι → ℕ → (op : Op) → Out op → Prop} {object : W → σ} {Quiet : W → Prop} {w : W}
  {Q : ι × κ → Type} {ps : (x : ι × κ) → Program (Q x) Op Out} {qs : (x : ι × κ) → Q x}
  {v v' : σ × ((x : ι × κ) → Q x)} {schedule : List ((ι × κ) × Fate ε)} {G : Fate ε → Prop}

theorem run_realizes
    (hcall : ∀ {w}, Quiet w → ∀ i op f, G f → ∃ es w', M.run w es = some w' ∧
      Chains.Answered (faulty apply thrown f) callsOf tellsOf object Quiet w w' i op)
    (hG : ∀ e ∈ schedule, G e.2) (h : (faultyPrograms ps apply thrown).run v schedule = some v')
    {owner : ι → ℕ → κ} (hw : Chains.Realizes callsOf tellsOf object Quiet ps qs v w owner) :
    ∃ es w' owner', M.run w es = some w' ∧
      Chains.Realizes callsOf tellsOf object Quiet ps qs v' w' owner' := by
  induction schedule generalizing v w owner with
  | nil =>
    cases h
    exact ⟨[],w,owner,rfl,hw⟩
  | cons e schedule ih =>
    obtain ⟨he,hG⟩ := List.forall_mem_cons.mp hG
    obtain ⟨u,hu,hrun⟩ := Machine.run_cons.mp h
    obtain ⟨es,w₁,hes,owner₁,hw₁⟩ :=
      Chains.realizes_step (fun hw i op => hcall hw i op e.2 he) hu hw
    obtain ⟨fs,w₂,owner₂,hfs,hw₂⟩ := ih hG hrun hw₁
    exact ⟨es ++ fs,w₂,owner₂,Machine.run_append.mpr ⟨w₁,hes,hfs⟩,hw₂⟩

/-- If every call can be brought to its fate before the next one is made, then every run of
programs that call the object is one of chains. -/
theorem exists_realizes [Nonempty κ]
    (hcall : ∀ {w}, Quiet w → ∀ i op f, G f → ∃ es w', M.run w es = some w' ∧
      Chains.Answered (faulty apply thrown f) callsOf tellsOf object Quiet w w' i op)
    (hw : Quiet w) (hcalls : callsOf w = fun _ => []) (hG : ∀ e ∈ schedule, G e.2)
    (h : (faultyPrograms ps apply thrown).run (object w,qs) schedule = some v) :
    ∃ es w' owner, M.run w es = some w' ∧
      Chains.Realizes callsOf tellsOf object Quiet ps qs v w' owner := by
  obtain ⟨owner,hinit⟩ : ∃ owner : ι → ℕ → κ,
      Chains.Realizes callsOf tellsOf object Quiet ps qs (object w,qs) w owner :=
    Chains.realizes_init hw hcalls
  exact run_realizes hcall hG h hinit

end

end Faults
