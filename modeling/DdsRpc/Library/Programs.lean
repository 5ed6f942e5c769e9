import DdsRpc.Library.SharedObject
import Mathlib.Algebra.Group.Action.Defs
import Mathlib.Algebra.BigOperators.Group.Finset.Basic
import Mathlib.Algebra.Order.BigOperators.Group.Finset
set_option autoImplicit false

namespace SharedObject
variable {ι σ Op : Type} {Out : Op → Type}

/-- `next` is `none` where the program has come to its end. -/
structure Program (Q Op : Type) (Out : Op → Type) where
  next : Q → Option Op
  resume : Q → (op : Op) → Out op → Q

namespace Program
variable {Q : Type} {p : Program Q Op Out}

def after (p : Program Q Op Out) : Q → List (Sigma Out) → Q
  | q,[] => q
  | q,out :: outs => p.after (p.resume q out.1 out.2) outs

@[simp] theorem after_nil (q : Q) : p.after q [] = q := rfl

@[simp] theorem after_cons (q : Q) (out : Sigma Out) (outs : List (Sigma Out)) :
    p.after q (out :: outs) = p.after (p.resume q out.1 out.2) outs := rfl

/-- The calls are those of the program, each made when those before it have returned. -/
def Follows (p : Program Q Op Out) (q : Q) (issued : List Op) (returned : List (Sigma Out)) :
    Prop :=
  ∀ k op, issued[k]? = some op → p.next (p.after q (returned.take k)) = some op

theorem follows_nil (q : Q) (returned : List (Sigma Out)) : p.Follows q [] returned := by
  intro k op h
  simp at h

theorem follows_cons {q : Q} {op : Op} {issued : List Op} {out : Sigma Out}
    {returned : List (Sigma Out)} : p.Follows q (op :: issued) (out :: returned) ↔
      p.next q = some op ∧ p.Follows (p.resume q out.1 out.2) issued returned := by
  constructor
  · intro h
    exact ⟨h 0 op rfl,fun k op' hk => h (k+1) op' hk⟩
  · rintro ⟨hop,hrest⟩ k op' hk
    cases k with
    | zero =>
      cases hk
      exact hop
    | succ k => exact hrest k op' hk

theorem after_append (q : Q) (outs : List (Sigma Out)) (out : Sigma Out) :
    p.after q (outs ++ [out]) = p.resume (p.after q outs) out.1 out.2 := by
  induction outs generalizing q with
  | nil => rfl
  | cons o outs ih => exact ih (p.resume q o.1 o.2)

theorem Follows.append {q : Q} {issued : List Op} {outs : List (Sigma Out)}
    (h : p.Follows q issued outs) (hlen : issued.length = outs.length) (out : Sigma Out)
    (hop : p.next (p.after q outs) = some out.1) :
    p.Follows q (issued ++ [out.1]) (outs ++ [out]) := by
  intro k op hk
  rcases Nat.lt_or_ge k issued.length with hlt | hge
  · rw [List.getElem?_append_left hlt] at hk
    rw [List.take_append_of_le_length (by omega)]
    exact h k op hk
  · rw [List.getElem?_append_right hge,List.getElem?_singleton] at hk
    split at hk
    case isFalse => cases hk
    cases hk
    rw [show k = outs.length by omega,List.take_left,hop]

theorem Follows.of_isPrefix {q : Q} {issued issued' : List Op} {returned outs : List (Sigma Out)}
    (h : p.Follows q issued returned) (hi : issued' <+: issued) (ho : returned <+: outs)
    (hlen : issued'.length ≤ returned.length+1) : p.Follows q issued' outs := by
  intro k op hk
  obtain ⟨hlt,-⟩ := List.getElem?_eq_some_iff.mp hk
  obtain ⟨rest,rfl⟩ := ho
  obtain ⟨more,rfl⟩ := hi
  rw [List.take_append_of_le_length (by omega)]
  exact h k op (by rw [List.getElem?_append_left hlt,hk])

theorem Follows.eq_of_ended {q : Q} {outs all : List (Sigma Out)}
    (h : p.Follows q (all.map Sigma.fst) all) (ho : outs <+: all)
    (hend : p.next (p.after q outs) = none) : all = outs := by
  obtain ⟨rest,rfl⟩ := ho
  cases rest with
  | nil => rw [List.append_nil]
  | cons out rest =>
    have hnext := h outs.length out.1 (by simp)
    rw [List.take_left,hend] at hnext
    cases hnext

end Program

variable {Q : ι → Type} [DecidableEq ι]

def programs (p : (i : ι) → Program (Q i) Op Out) (apply : (op : Op) → σ → Out op × σ) :
    Machine (σ × ((i : ι) → Q i)) ι where
  step w i := ((p i).next (w.2 i)).map (fun op =>
    ((apply op w.1).2,Function.update w.2 i ((p i).resume (w.2 i) op (apply op w.1).1)))

variable {p : (i : ι) → Program (Q i) Op Out} {apply : (op : Op) → σ → Out op × σ}

theorem step_programs {w w' : σ × ((i : ι) → Q i)} {i : ι} :
    (programs p apply).step w i = some w' ↔ ∃ op, (p i).next (w.2 i) = some op ∧
      ((apply op w.1).2,Function.update w.2 i ((p i).resume (w.2 i) op (apply op w.1).1)) = w' :=
  Option.map_eq_some_iff

theorem ofClient_cons {β : Type} (i j : ι) (b : β) (l : List (ι × β)) :
    ofClient i ((j,b) :: l) = if j = i then b :: ofClient i l else ofClient i l := by
  by_cases h : j = i <;> simp [ofClient,h]

/-- Calls made directly one after another, if each client's are those of its program, are
a run of the programs. -/
theorem programs_direct {order : List (ι × Op)} {s : σ} {q : (i : ι) → Q i}
    (h : ∀ i, (p i).Follows (q i) (ofClient i order) (ofClient i (direct apply s order).1)) :
    (programs p apply).run (s,q) (order.map Prod.fst) =
      some ((direct apply s order).2,
        fun i => (p i).after (q i) (ofClient i (direct apply s order).1)) := by
  induction order generalizing s q with
  | nil => rfl
  | cons x order ih =>
    obtain ⟨i,op⟩ := x
    have hi := h i
    simp only [direct,ofClient_cons,if_true] at hi
    obtain ⟨hnext,-⟩ := Program.follows_cons.mp hi
    refine Machine.run_cons.mpr ⟨_,step_programs.mpr ⟨op,hnext,rfl⟩,(ih (fun j => ?_)).trans ?_⟩
    · have hj := h j
      rcases eq_or_ne j i with rfl | hne
      · simp only [direct,ofClient_cons,if_true] at hj
        simpa using (Program.follows_cons.mp hj).2
      · simpa [direct,ofClient_cons,Ne.symm hne,Function.update_of_ne hne] using hj
    · refine congrArg some (Prod.ext rfl (funext (fun j => ?_)))
      rcases eq_or_ne j i with rfl | hne
      · simp [direct,ofClient_cons]
      · simp [direct,ofClient_cons,Ne.symm hne,Function.update_of_ne hne]

theorem Linearized.follows {P : Type} {p : Program P Op Out} {q : P} {s₀ : σ}
    {w : State ι σ Op Out} (hw : Linearized apply s₀ w) {i : ι}
    (h : p.Follows q (w.issued i) (w.returned i)) :
    p.Follows q (ofClient i w.order) (ofClient i (direct apply s₀ w.order).1) := by
  refine h.of_isPrefix (hw.own_order i) (by rw [hw.outcomes]; exact List.prefix_append _ _) ?_
  have hlen := (hw.own_order i).length_le
  rw [hw.issued,List.length_append,List.length_map] at hlen
  have : (w.phase i).ops.length ≤ 1 := by cases w.phase i <;> simp [Phase.ops]
  omega

/-- Clients of a shared object that run programs behave as if every call of a program
were one step. -/
theorem Linearized.programs_run {s₀ : σ} {w : State ι σ Op Out} {q : (i : ι) → Q i}
    (hw : Linearized apply s₀ w)
    (h : ∀ i, (p i).Follows (q i) (w.issued i) (w.returned i)) :
    (programs p apply).run (s₀,q) (w.order.map Prod.fst) =
      some (w.object,fun i => (p i).after (q i) (w.returned i ++ (w.phase i).outcomes)) := by
  rw [programs_direct (fun i => hw.follows (h i)),hw.object]
  simp only [hw.outcomes]

/-- What a program asserts of the object in each of its states. Its own calls establish the
next assertion, and the calls of others, where `H` allows them, leave it alone. -/
structure Outline {Q : Type} (p : Program Q Op Out) (apply : (op : Op) → σ → Out op × σ)
    (H : Op → Prop) (A : Q → σ → Prop) : Prop where
  own : ∀ {q s op}, A q s → p.next q = some op →
    A (p.resume q op (apply op s).1) (apply op s).2
  other : ∀ {q s op}, A q s → H op → A q (apply op s).2

theorem Outline.direct {P : Type} {p : Program P Op Out} {H : Op → Prop} {A : P → σ → Prop}
    (hA : Outline p apply H A) {i : ι} {order : List (ι × Op)} {q : P} {s : σ}
    (hf : p.Follows q (ofClient i order) (ofClient i (direct apply s order).1))
    (hH : ∀ x ∈ order, x.1 ≠ i → H x.2) (h : A q s) :
    A (p.after q (ofClient i (SharedObject.direct apply s order).1))
      (SharedObject.direct apply s order).2 := by
  induction order generalizing s q with
  | nil => exact h
  | cons x order ih =>
    obtain ⟨j,op⟩ := x
    obtain ⟨hx,hH⟩ := List.forall_mem_cons.mp hH
    simp only [SharedObject.direct,ofClient_cons] at hf ⊢
    split at hf
    · obtain ⟨hnext,hf⟩ := Program.follows_cons.mp hf
      rw [if_pos ‹_›]
      exact ih hf hH (hA.own h hnext)
    · rw [if_neg ‹_›]
      exact ih hf hH (hA.other h (hx ‹_›))

theorem Outline.exists_of_mem_direct {P : Type} {p : Program P Op Out} {H : Op → Prop}
    {A : P → σ → Prop} (hA : Outline p apply H A) {i : ι} {order : List (ι × Op)} {q : P} {s : σ}
    (hf : p.Follows q (ofClient i order) (ofClient i (SharedObject.direct apply s order).1))
    (hH : ∀ x ∈ order, x.1 ≠ i → H x.2) (h : A q s) {out : Sigma Out}
    (hout : out ∈ ofClient i (SharedObject.direct apply s order).1) :
    ∃ q' s', A q' s' ∧ p.next q' = some out.1 ∧ (apply out.1 s').1 = out.2 := by
  induction order generalizing s q with
  | nil => cases hout
  | cons x order ih =>
    obtain ⟨j,op⟩ := x
    obtain ⟨hx,hH⟩ := List.forall_mem_cons.mp hH
    simp only [SharedObject.direct,ofClient_cons] at hf hout
    split at hf
    · obtain ⟨hnext,hf⟩ := Program.follows_cons.mp hf
      rw [if_pos ‹_›] at hout
      rcases List.mem_cons.mp hout with rfl | hout
      · exact ⟨q,s,h,hnext,rfl⟩
      · exact ih hf hH (hA.own h hnext) hout
    · rw [if_neg ‹_›] at hout
      exact ih hf hH (hA.other h (hx ‹_›)) hout

/-- A client of a shared object keeps the outline of its program, whatever the others have
called so far. -/
theorem Linearized.outline {P : Type} {p : Program P Op Out} {H : Op → Prop} {A : P → σ → Prop}
    (hA : Outline p apply H A) {s₀ : σ} {w : State ι σ Op Out} (hw : Linearized apply s₀ w) {i : ι}
    {q : P} (hf : p.Follows q (w.issued i) (w.returned i))
    (hothers : ∀ j ≠ i, ∀ op ∈ w.issued j, H op) (hq : A q s₀) :
    (∀ out ∈ w.returned i, ∃ q' s, A q' s ∧ p.next q' = some out.1 ∧ (apply out.1 s).1 = out.2) ∧
    ((w.phase i).outcomes = [] → A (p.after q (w.returned i)) w.object) := by
  have hfollows := hw.follows hf
  have horder : ∀ x ∈ w.order, x.1 ≠ i → H x.2 := by
    rintro ⟨j,op⟩ hx hj
    have hmem : op ∈ ofClient j w.order :=
      List.mem_map.mpr ⟨(j,op),List.mem_filter.mpr ⟨hx,by simp⟩,rfl⟩
    exact hothers j hj op ((hw.own_order j).subset hmem)
  constructor
  · intro out hout
    refine hA.exists_of_mem_direct hfollows horder hq ?_
    rw [hw.outcomes]
    exact List.mem_append_left _ hout
  · intro hnone
    have hdirect := hA.direct hfollows horder hq
    rwa [hw.outcomes,hnone,List.append_nil,← hw.object] at hdirect

structure Outlines (p : (i : ι) → Program (Q i) Op Out) (apply : (op : Op) → σ → Out op × σ)
    (H : Op → Prop) (A : (i : ι) → Q i → σ → Prop) : Prop where
  outline : ∀ i, Outline (p i) apply H (A i)
  calls : ∀ {i q s op}, A i q s → (p i).next q = some op → H op

theorem Outlines.step {H : Op → Prop} {A : (i : ι) → Q i → σ → Prop}
    (hA : Outlines p apply H A) {w w' : σ × ((i : ι) → Q i)} {i : ι}
    (h : (programs p apply).step w i = some w') (hw : ∀ j, A j (w.2 j) w.1) :
    ∀ j, A j (w'.2 j) w'.1 := by
  obtain ⟨op,hop,rfl⟩ := step_programs.mp h
  intro j
  rcases eq_or_ne j i with rfl | hne
  · simpa using (hA.outline j).own (hw j) hop
  · simpa [hne] using (hA.outline j).other (hw j) (hA.calls (hw i) hop)

theorem Outlines.run {H : Op → Prop} {A : (i : ι) → Q i → σ → Prop}
    (hA : Outlines p apply H A) {w w' : σ × ((i : ι) → Q i)} {schedule : List ι}
    (h : (programs p apply).run w schedule = some w') (hw : ∀ i, A i (w.2 i) w.1) :
    ∀ i, A i (w'.2 i) w'.1 :=
  Machine.run_preserves (P := fun u => ∀ i, A i (u.2 i) u.1) (fun hs hu => hA.step hs hu) h hw

/-- A call that costs its program more than it can raise the costs of all the others. -/
theorem sum_cost_lt [Fintype ι] {cost : (i : ι) → σ → Q i → ℕ}
    {w w' : σ × ((i : ι) → Q i)} {i : ι} (h : (programs p apply).step w i = some w')
    (hpaid : ∀ op, (p i).next (w.2 i) = some op → ∃ raise,
      (∀ j q', cost j (apply op w.1).2 q' ≤ cost j w.1 q'+raise) ∧
      cost i (apply op w.1).2 ((p i).resume (w.2 i) op (apply op w.1).1)+
        (Fintype.card ι-1)*raise+1 ≤ cost i w.1 (w.2 i)) :
    1+∑ j, cost j w'.1 (w'.2 j) ≤ ∑ j, cost j w.1 (w.2 j) := by
  obtain ⟨op,hop,rfl⟩ := step_programs.mp h
  obtain ⟨raise,hraise,hpay⟩ := hpaid op hop
  have hothers : ∑ j ∈ Finset.univ.erase i, cost j (apply op w.1).2 (Function.update w.2 i
        ((p i).resume (w.2 i) op (apply op w.1).1) j) ≤
      ∑ j ∈ Finset.univ.erase i, cost j w.1 (w.2 j)+(Fintype.card ι-1)*raise := by
    rw [← Finset.card_univ,← Finset.card_erase_of_mem (Finset.mem_univ i),← smul_eq_mul,
      ← Finset.sum_const,← Finset.sum_add_distrib]
    refine Finset.sum_le_sum (fun j hj => ?_)
    rw [Function.update_of_ne (Finset.ne_of_mem_erase hj)]
    exact hraise j (w.2 j)
  simp only
  rw [← Finset.add_sum_erase _ _ (Finset.mem_univ i),
    ← Finset.add_sum_erase Finset.univ (fun j => cost j w.1 (w.2 j)) (Finset.mem_univ i),
    Function.update_self]
  omega

end SharedObject
