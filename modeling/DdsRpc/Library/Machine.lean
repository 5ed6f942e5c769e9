import DdsRpc.Library.OptionRel
import Mathlib.Algebra.GroupWithZero.Nat
import Mathlib.Data.List.Basic
import Mathlib.Logic.Function.Basic
set_option autoImplicit false

/-! Machines given by a partial step function: `none` is an event that the state
does not allow. A run is a list of events every one of which was allowed. -/

theorem List.IsPrefix.getElem?_eq_some {α : Type} {l l' : List α} (h : l <+: l') {n : ℕ} {a : α}
    (ha : l[n]? = some a) : l'[n]? = some a := by
  obtain ⟨hn,rfl⟩ := List.getElem?_eq_some_iff.mp ha
  exact List.prefix_iff_getElem?.mp h n hn

structure Machine (σ ε : Type) where
  step : σ → ε → Option σ

namespace Machine
variable {σ τ ε δ : Type}

def run (M : Machine σ ε) (s : σ) : List ε → Option σ
  | [] => some s
  | e :: es => (M.step s e).bind (fun t => M.run t es)

variable {M : Machine σ ε}

@[simp] theorem run_nil (s : σ) : M.run s [] = some s := rfl

theorem run_cons {s u : σ} {e : ε} {es : List ε} :
    M.run s (e :: es) = some u ↔ ∃ t, M.step s e = some t ∧ M.run t es = some u := by
  simp [run,Option.bind_eq_some_iff]

theorem run_singleton {s : σ} {e : ε} : M.run s [e] = M.step s e := by
  simp [run]

theorem run_append {s u : σ} {es fs : List ε} :
    M.run s (es ++ fs) = some u ↔ ∃ t, M.run s es = some t ∧ M.run t fs = some u := by
  induction es generalizing s with
  | nil => simp
  | cons e es ih =>
    simp only [List.cons_append,run_cons,ih]
    constructor
    · rintro ⟨t,ht,v,hv,hu⟩
      exact ⟨v,⟨t,ht,hv⟩,hu⟩
    · rintro ⟨v,⟨t,ht,hv⟩,hu⟩
      exact ⟨t,ht,v,hv,hu⟩

theorem run_preserves_of {P : σ → Prop} {Q : ε → Prop}
    (hstep : ∀ {s e t}, Q e → M.step s e = some t → P s → P t)
    {s t : σ} {es : List ε} (hQ : ∀ e ∈ es, Q e) (h : M.run s es = some t) (hs : P s) :
    P t := by
  induction es generalizing s with
  | nil =>
    cases h
    exact hs
  | cons e es ih =>
    obtain ⟨u,hu,hrun⟩ := run_cons.mp h
    exact ih (fun e he => hQ e (List.mem_cons_of_mem _ he)) hrun
      (hstep (hQ e List.mem_cons_self) hu hs)

theorem run_preserves {P : σ → Prop}
    (hstep : ∀ {s e t}, M.step s e = some t → P s → P t)
    {s t : σ} {es : List ε} (h : M.run s es = some t) (hs : P s) : P t :=
  run_preserves_of (Q := fun _ => True) (fun _ => hstep) (fun _ _ => trivial) h hs

/-- Every step of the run is one that `P` allows. -/
def Along (M : Machine σ ε) (P : σ → ε → σ → Prop) : σ → List ε → Prop
  | _,[] => True
  | s,e :: es => ∀ t, M.step s e = some t → P s e t ∧ M.Along P t es

theorem along_cons {P : σ → ε → σ → Prop} {s t : σ} {e : ε} {es : List ε}
    (h : M.step s e = some t) : M.Along P s (e :: es) ↔ P s e t ∧ M.Along P t es := by
  simp [Along,h]

theorem along_imp {I : σ → Prop} {P Q : σ → ε → σ → Prop}
    (hstep : ∀ {s e t}, M.step s e = some t → P s e t → I s → Q s e t ∧ I t)
    {s : σ} {es : List ε} (h : M.Along P s es) (hs : I s) : M.Along Q s es := by
  induction es generalizing s with
  | nil => trivial
  | cons e es ih =>
    intro t ht
    obtain ⟨hP,hrest⟩ := h t ht
    obtain ⟨hQ,hI⟩ := hstep ht hP hs
    exact ⟨hQ,ih hrest hI⟩

theorem along_mono {P Q : σ → ε → σ → Prop} (hPQ : ∀ {s e t}, P s e t → Q s e t) {s : σ}
    {es : List ε} (h : M.Along P s es) : M.Along Q s es :=
  along_imp (I := fun _ => True) (fun _ hP _ => ⟨hPQ hP,trivial⟩) h trivial

theorem along_of_forall {Q : ε → Prop} {s : σ} {es : List ε} (h : ∀ e ∈ es, Q e) :
    M.Along (fun _ e _ => Q e) s es := by
  induction es generalizing s with
  | nil => trivial
  | cons e es ih =>
    obtain ⟨he,hes⟩ := List.forall_mem_cons.mp h
    exact fun t _ => ⟨he,ih hes⟩

theorem run_preserves_along {I : σ → Prop} {P : σ → ε → σ → Prop}
    (hstep : ∀ {s e t}, M.step s e = some t → P s e t → I s → I t)
    {s t : σ} {es : List ε} (h : M.run s es = some t) (hP : M.Along P s es) (hs : I s) : I t := by
  induction es generalizing s with
  | nil =>
    cases h
    exact hs
  | cons e es ih =>
    obtain ⟨u,hu,hrun⟩ := run_cons.mp h
    obtain ⟨hPu,hrest⟩ := hP u hu
    exact ih hrun hrest (hstep hu hPu hs)

theorem along_event {Q : ε → Prop} {s t : σ} {es : List ε} (h : M.run s es = some t) :
    M.Along (fun _ e _ => Q e) s es ↔ ∀ e ∈ es, Q e := by
  induction es generalizing s with
  | nil => simp [Along]
  | cons e es ih =>
    obtain ⟨u,hu,hrun⟩ := run_cons.mp h
    rw [List.forall_mem_cons,← ih hrun,along_cons hu]

theorem along_of_invariant {I : σ → Prop} {Q : ε → Prop} {P : σ → ε → σ → Prop}
    (hstep : ∀ {s e t}, Q e → M.step s e = some t → I s → P s e t ∧ I t)
    {s : σ} {es : List ε} (hQ : ∀ e ∈ es, Q e) (hs : I s) : M.Along P s es :=
  along_imp (P := fun _ e _ => Q e) (Q := P) (I := I) (fun ht hq hI => hstep hq ht hI)
    (along_of_forall hQ) hs

theorem along_congr {I : σ → Prop} {P Q : σ → ε → σ → Prop}
    (hiff : ∀ {s e t}, M.step s e = some t → I s → (P s e t ↔ Q s e t))
    (hkeep : ∀ {s e t}, M.step s e = some t → Q s e t → I s → I t)
    {s : σ} {es : List ε} (hs : I s) : M.Along P s es ↔ M.Along Q s es := by
  induction es generalizing s with
  | nil => exact Iff.rfl
  | cons e es ih =>
    refine forall_congr' (fun t => imp_congr_right (fun ht => ?_))
    constructor
    · rintro ⟨hP,hrest⟩
      have hQ := (hiff ht hs).mp hP
      exact ⟨hQ,(ih (hkeep ht hQ hs)).mp hrest⟩
    · rintro ⟨hQ,hrest⟩
      exact ⟨(hiff ht hs).mpr hQ,(ih (hkeep ht hQ hs)).mpr hrest⟩

/-- `I k` says that `k` steps are left: every step of the kind `Q` uses one of them up. -/
theorem run_countdown {I : Nat → σ → Prop} {Q : ε → Prop}
    (hstep : ∀ {k s e t}, Q e → M.step s e = some t → I k s → ∃ j, k = j+1 ∧ I j t)
    {k : Nat} {s t : σ} {es : List ε} (hQ : ∀ e ∈ es, Q e) (h : M.run s es = some t)
    (hs : I k s) : ∃ j, k = es.length+j ∧ I j t := by
  induction es generalizing k s with
  | nil =>
    cases h
    exact ⟨k,by simp,hs⟩
  | cons e es ih =>
    obtain ⟨u,hu,hrun⟩ := run_cons.mp h
    obtain ⟨i,rfl,hi⟩ := hstep (hQ e List.mem_cons_self) hu hs
    obtain ⟨j,rfl,hj⟩ := ih (fun e he => hQ e (List.mem_cons_of_mem _ he)) hrun hi
    exact ⟨j,by rw [List.length_cons]; omega,hj⟩

theorem exists_run_countdown {I : Nat → σ → Prop} {Q : ε → Prop}
    (hnext : ∀ {k s}, I (k+1) s → ∃ e t, Q e ∧ M.step s e = some t ∧ I k t)
    {k : Nat} {s : σ} (hs : I k s) :
    ∃ es t, (∀ e ∈ es, Q e) ∧ M.run s es = some t ∧ I 0 t := by
  induction k generalizing s with
  | zero => exact ⟨[],s,by simp,rfl,hs⟩
  | succ k ih =>
    obtain ⟨e,u,he,hu,hI⟩ := hnext hs
    obtain ⟨es,t,hes,hrun,ht⟩ := ih hI
    exact ⟨e :: es,t,List.forall_mem_cons.mpr ⟨he,hes⟩,run_cons.mpr ⟨u,hu,hrun⟩,ht⟩

/-- Amortized cost: a step pays for its cost `c` out of its credit `d` and of the
potential `Φ`. -/
theorem run_amortized {I : σ → Prop} {Φ : σ → ℕ} {c d : ε → ℕ}
    (hstep : ∀ {s e t}, M.step s e = some t → I s → I t ∧ c e+Φ t ≤ d e+Φ s)
    {s t : σ} {es : List ε} (h : M.run s es = some t) (hs : I s) :
    (es.map c).sum+Φ t ≤ (es.map d).sum+Φ s := by
  induction es generalizing s with
  | nil =>
    cases h
    simp
  | cons e es ih =>
    obtain ⟨u,hu,hrun⟩ := run_cons.mp h
    obtain ⟨hI,hle⟩ := hstep hu hs
    have := ih hrun hI
    simp only [List.map_cons,List.sum_cons]
    omega

theorem exists_first {Q : σ → Prop} {s t : σ} {es : List ε} (h : M.run s es = some t)
    (hs : ¬ Q s) (ht : Q t) : ∃ as u e v bs, es = as ++ e :: bs ∧ M.run s as = some u ∧
      ¬ Q u ∧ M.step u e = some v ∧ Q v ∧ M.run v bs = some t := by
  induction es generalizing s with
  | nil =>
    cases h
    exact absurd ht hs
  | cons e es ih =>
    obtain ⟨u,hu,hrun⟩ := run_cons.mp h
    by_cases hQ : Q u
    · exact ⟨[],s,e,u,es,rfl,rfl,hs,hu,hQ,hrun⟩
    · obtain ⟨as,v,f,v',bs,rfl,has,hrest⟩ := ih hrun hQ
      exact ⟨e :: as,v,f,v',bs,rfl,run_cons.mpr ⟨u,hu,has⟩,hrest⟩

/-- Not more than `n` steps on events of the kind `Q` are enough to make `P` true. -/
def Within (M : Machine σ ε) (Q : ε → Prop) (P : σ → Prop) (s : σ) (n : ℕ) : Prop :=
  ∃ es t, es.length ≤ n ∧ (∀ e ∈ es, Q e) ∧ M.run s es = some t ∧ P t

section
variable {Q : ε → Prop} {P : σ → Prop} {s t : σ} {m n : ℕ}

theorem Within.now (h : P s) : M.Within Q P s n := ⟨[],s,Nat.zero_le n,nofun,rfl,h⟩

theorem Within.cons {e : ε} (he : Q e) (hs : M.step s e = some t) (h : M.Within Q P t n) :
    M.Within Q P s (n+1) := by
  obtain ⟨es,u,hn,hes,hrun,hu⟩ := h
  exact ⟨e :: es,u,Nat.succ_le_succ hn,List.forall_mem_cons.mpr ⟨he,hes⟩,
    run_cons.mpr ⟨t,hs,hrun⟩,hu⟩

theorem Within.mono (hmn : m ≤ n) (h : M.Within Q P s m) : M.Within Q P s n := by
  obtain ⟨es,u,hm,hes⟩ := h
  exact ⟨es,u,Nat.le_trans hm hmn,hes⟩

end

theorem run_filter {p : ε → Bool} (hidle : ∀ {s e t}, p e = false → M.step s e = some t → t = s)
    {s t : σ} {es : List ε} (h : M.run s es = some t) : M.run s (es.filter p) = some t := by
  induction es generalizing s with
  | nil => exact h
  | cons e es ih =>
    obtain ⟨u,hu,hrun⟩ := run_cons.mp h
    cases hp : p e with
    | true =>
      rw [List.filter_cons_of_pos hp]
      exact run_cons.mpr ⟨u,hu,ih hrun⟩
    | false =>
      obtain rfl := hidle hp hu
      rw [List.filter_cons_of_neg (by simp [hp])]
      exact ih hrun

def restrict (M : Machine σ ε) (G : σ → ε → Prop) [∀ s e, Decidable (G s e)] :
    Machine σ ε where
  step s e := if G s e then M.step s e else none

theorem step_restrict {G : σ → ε → Prop} [∀ s e, Decidable (G s e)] {s t : σ} {e : ε} :
    (M.restrict G).step s e = some t ↔ G s e ∧ M.step s e = some t := by
  simp [restrict]

theorem run_of_restrict {G : σ → ε → Prop} [∀ s e, Decidable (G s e)] {s t : σ}
    {es : List ε} (h : (M.restrict G).run s es = some t) : M.run s es = some t := by
  induction es generalizing s with
  | nil => exact h
  | cons e es ih =>
    obtain ⟨u,hu,hrun⟩ := run_cons.mp h
    exact run_cons.mpr ⟨u,(step_restrict.mp hu).2,ih hrun⟩

def family (M : Machine σ ε) (ι : Type) [DecidableEq ι] : Machine (ι → σ) (ι × ε) where
  step s e := (M.step (s e.1) e.2).map (Function.update s e.1)

theorem run_family {ι : Type} [DecidableEq ι] {s t : ι → σ} {es : List (ι × ε)}
    (h : (M.family ι).run s es = some t) (i : ι) :
    M.run (s i) ((es.filter (fun e => e.1 = i)).map Prod.snd) = some (t i) := by
  induction es generalizing s with
  | nil =>
    cases h
    rfl
  | cons e es ih =>
    obtain ⟨u,hu,hrun⟩ := run_cons.mp h
    obtain ⟨x,hx,rfl⟩ := Option.map_eq_some_iff.mp hu
    have hi := ih hrun
    by_cases he : e.1 = i
    · subst he
      simp only [decide_true,List.filter_cons_of_pos,List.map_cons]
      exact run_cons.mpr ⟨x,hx,by simpa using hi⟩
    · simpa [List.filter_cons,he,Function.update_of_ne (Ne.symm he)] using hi

/-- Forward simulation: each step of the concrete machine is answered by a run,
possibly empty, of the abstract one. -/
theorem run_simulation {C : Machine σ ε} {A : Machine τ δ} {R : σ → τ → Prop}
    (hstep : ∀ {s e s' t}, C.step s e = some s' → R s t →
      ∃ ds t', A.run t ds = some t' ∧ R s' t')
    {s s' : σ} {t : τ} {es : List ε} (h : C.run s es = some s') (hR : R s t) :
    ∃ ds t', A.run t ds = some t' ∧ R s' t' := by
  induction es generalizing s t with
  | nil =>
    cases h
    exact ⟨[],t,rfl,hR⟩
  | cons e es ih =>
    obtain ⟨u,hu,hrun⟩ := run_cons.mp h
    obtain ⟨ds,v,hv,hRv⟩ := hstep hu hR
    obtain ⟨ds',t',ht',hR'⟩ := ih hrun hRv
    exact ⟨ds ++ ds',t',run_append.mpr ⟨v,hv,ht'⟩,hR'⟩

theorem run_map {C : Machine σ ε} {A : Machine τ ε} (f : σ → τ)
    (hstep : ∀ s e, A.step (f s) e = (C.step s e).map f) (s : σ) (es : List ε) :
    A.run (f s) es = (C.run s es).map f := by
  induction es generalizing s with
  | nil => rfl
  | cons e es ih =>
    simp only [run,hstep]
    cases C.step s e with
    | none => rfl
    | some t => exact ih t

theorem run_embed {C : Machine σ ε} {A : Machine τ δ} (f : σ → τ) (g : ε → δ)
    (hstep : ∀ {s e s'}, C.step s e = some s' → A.step (f s) (g e) = some (f s')) {s s' : σ}
    {es : List ε} (h : C.run s es = some s') : A.run (f s) (es.map g) = some (f s') := by
  induction es generalizing s with
  | nil =>
    cases h
    rfl
  | cons e es ih =>
    obtain ⟨u,hu,hrun⟩ := run_cons.mp h
    exact run_cons.mpr ⟨f u,hstep hu,ih hrun⟩

theorem run_lockstep {C : Machine σ ε} {A : Machine τ ε} {R : σ → τ → Prop}
    (hstep : ∀ {s t}, R s t → ∀ e, Option.Rel R (C.step s e) (A.step t e)) {s : σ} {t : τ}
    (hR : R s t) (es : List ε) : Option.Rel R (C.run s es) (A.run t es) := by
  induction es generalizing s t with
  | nil => exact .some hR
  | cons e es ih => exact (hstep hR e).bind (fun _ _ => ih)

end Machine
