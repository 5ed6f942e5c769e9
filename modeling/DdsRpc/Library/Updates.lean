import DdsRpc.Library.Faults
import DdsRpc.Library.ReadModifyWrite
set_option autoImplicit false

namespace ReadModifyWrite
open SharedObject Faults
variable {κ σ α Op Q ε : Type} {Out : Op → Type}

/-- The program takes the turns of a client. The object keeps the value in `cell`. -/
structure TakesTurns (p : Program Q Op Out) (apply : (op : Op) → σ → Out op × σ)
    (thrown : (op : Op) → ε → Out op) (cell : σ → α) (turn : Q → Turn α) (f : α → α)
    (accept : α → Bool) : Prop where
  ended : ∀ {q}, p.next q = none ↔ turn q = .done
  read : ∀ {q op} s, turn q = .read → p.next q = some op →
    (apply op s).2 = s ∧ turn (p.resume q op (apply op s).1) = .write (f (cell s))
  write : ∀ {q op a} s, turn q = .write a → p.next q = some op →
    cell (apply op s).2 = (if accept a then a else cell s) ∧
      ∀ out, turn (p.resume q op out) = .done
  caught : ∀ {q op e}, p.next q = some op → turn (p.resume q op (thrown op e)) = .done

variable {p : Program Q Op Out} {apply : (op : Op) → σ → Out op × σ}
  {thrown : (op : Op) → ε → Out op} {cell : σ → α} {turn : Q → Turn α} {f : α → α}
  {accept : α → Bool} {q₀ : Q} {s₀ : σ} {v v' : σ × (κ → Q)}

def cells (cell : σ → α) (turn : Q → Turn α) (v : σ × (κ → Q)) : α × (κ → Turn α) :=
  (cell v.1,turn ∘ v.2)

variable [DecidableEq κ]

theorem TakesTurns.step (h : TakesTurns p apply thrown cell turn f accept) (v : σ × (κ → Q))
    (c : κ) : (machine κ f accept).step (cells cell turn v) c =
      ((programs (fun _ => p) apply).step v c).map (cells cell turn) := by
  obtain ⟨s,q⟩ := v
  cases hop : p.next (q c) with
  | none =>
    have hnone : (programs (fun _ => p) apply).step (s,q) c = none := by
      simp only [programs,hop,Option.map_none]
    rw [hnone]
    exact step_done (h.ended.mp hop)
  | some op =>
    rw [step_programs.mpr ⟨op,hop,rfl⟩,Option.map_some,cells,cells,Function.comp_update]
    cases ht : turn (q c) with
    | read =>
      obtain ⟨hs,hnext⟩ := h.read s ht hop
      rw [step_read (show (turn ∘ q) c = .read from ht),hs,hnext]
    | write a =>
      obtain ⟨hs,hnext⟩ := h.write s ht hop
      rw [step_write (show (turn ∘ q) c = .write a from ht),hs,hnext]
    | done =>
      rw [h.ended.mpr ht] at hop
      cases hop

theorem TakesTurns.step_fails (h : TakesTurns p apply thrown cell turn f accept) (s : σ)
    (q : κ → Q) {c : κ} {op : Op} (hop : p.next (q c) = some op) (e : ε) :
    (faulty κ f accept).step (cells cell turn (s,q)) (c,false) =
      some (cells cell turn (s,Function.update q c (p.resume (q c) op (thrown op e)))) := by
  have hne : (turn ∘ q) c ≠ .done := fun hdone => by
    rw [h.ended.mpr hdone] at hop
    cases hop
  rw [cells,faulty_fails hne,cells,Function.comp_update,h.caught hop]

/-- A program that is told of an exception may have written all the same. -/
theorem TakesTurns.step_faulty (h : TakesTurns p apply thrown cell turn f accept)
    {e : κ × Fate ε} (hstep : (faultyPrograms (fun _ => p) apply thrown).step v e = some v') :
    ∃ b, (faulty κ f accept).step (cells cell turn v) (e.1,b) = some (cells cell turn v') := by
  obtain ⟨c,fate⟩ := e
  obtain ⟨s,q⟩ := v
  obtain ⟨op,hop,rfl⟩ := step_faultyPrograms.mp hstep
  have hop : p.next (q c) = some op := hop
  cases fate with
  | answered => exact ⟨true,(h.step (s,q) c).trans (congrArg (Option.map _) hstep)⟩
  | lost e => exact ⟨false,h.step_fails s q hop e⟩
  | failed e =>
    cases ht : turn (q c) with
    | read =>
      refine ⟨false,(h.step_fails s q hop e).trans ?_⟩
      simp only [Faults.faulty,(h.read s ht hop).1]
    | write a =>
      obtain ⟨hs,hnext⟩ := h.write s ht hop
      refine ⟨true,(step_write (show (turn ∘ q) c = .write a from ht)).trans ?_⟩
      simp only [Faults.faulty,cells,hs,Function.comp_update,hnext]
    | done =>
      rw [h.ended.mpr ht] at hop
      cases hop

theorem TakesTurns.faulty_run [Fintype κ] (h : TakesTurns p apply thrown cell turn f accept)
    (hq : turn q₀ = .read) {schedule : List (κ × Fate ε)}
    (hrun : (faultyPrograms (fun _ => p) apply thrown).run (s₀,fun _ => q₀) schedule = some v) :
    ∃ k ≤ Fintype.card κ, cell v.1 = f^[k] (cell s₀) ∧
      ∀ j < k, accept (f^[j+1] (cell s₀)) = true := by
  have hstart : cells cell turn (s₀,fun _ : κ => q₀) = (cell s₀,fun _ => .read) :=
    Prod.ext rfl (funext fun _ => hq)
  obtain ⟨ds,_,hcell,rfl⟩ := Machine.run_simulation (A := faulty κ f accept)
    (R := fun v u => u = cells cell turn v) (fun hstep hu => by
      obtain ⟨b,hb⟩ := h.step_faulty hstep
      exact ⟨_,_,Machine.run_singleton.trans (hu ▸ hb),rfl⟩) hrun hstart.symm
  exact ReadModifyWrite.faulty_run hcell

theorem TakesTurns.final [Fintype κ] [Nonempty κ]
    (h : TakesTurns p apply thrown cell turn f accept) (hq : turn q₀ = .read)
    {schedule : List κ}
    (hrun : (programs (fun _ => p) apply).run (s₀,fun _ => q₀) schedule = some v)
    (hv : ∀ c, p.next (v.2 c) = none) :
    ∃ k ≤ Fintype.card κ, cell v.1 = f^[k] (cell s₀) ∧
      (∀ j < k, accept (f^[j+1] (cell s₀)) = true) ∧
      (k = 0 → accept (f (cell s₀)) = false) := by
  have hstart : cells cell turn (s₀,fun _ : κ => q₀) = (cell s₀,fun _ => .read) :=
    Prod.ext rfl (funext fun _ => hq)
  have hcell := Machine.run_map (cells cell turn) h.step (s₀,fun _ => q₀) schedule
  rw [hrun,hstart] at hcell
  exact final_iff.mp ⟨_,_,hcell,fun c => h.ended.mp (hv c),rfl⟩

theorem TakesTurns.exists_run [Fintype κ] [Nonempty κ]
    (h : TakesTurns p apply thrown cell turn f accept) (hq : turn q₀ = .read) {k : ℕ}
    (hk : k ≤ Fintype.card κ) (hacc : ∀ j < k, accept (f^[j+1] (cell s₀)) = true)
    (hzero : k = 0 → accept (f (cell s₀)) = false) : ∃ schedule v,
      (programs (fun _ : κ => p) apply).run (s₀,fun _ => q₀) schedule = some v ∧
      (∀ c, p.next (v.2 c) = none) ∧ cell v.1 = f^[k] (cell s₀) := by
  have hstart : cells cell turn (s₀,fun _ : κ => q₀) = (cell s₀,fun _ => .read) :=
    Prod.ext rfl (funext fun _ => hq)
  obtain ⟨schedule,u,hrun,hdone,hu⟩ := final_iff.mpr ⟨k,hk,rfl,hacc,hzero⟩
  have hcell := Machine.run_map (cells cell turn) h.step (s₀,fun _ => q₀) schedule
  rw [hstart,hrun] at hcell
  obtain ⟨v,hv,rfl⟩ := Option.map_eq_some_iff.mp hcell.symm
  exact ⟨schedule,v,hv,fun c => h.ended.mpr (hdone c),hu⟩

theorem TakesTurns.exists_unread [Fintype κ] (h : TakesTurns p apply thrown cell turn f accept)
    (hq : turn q₀ = .read) (s₀ : σ) (e : ε) : ∃ (schedule : List (κ × Fate ε)) (v : _),
      (∀ x ∈ schedule, x.2.served = true) ∧
      (faultyPrograms (fun _ : κ => p) apply thrown).run (s₀,fun _ => q₀) schedule = some v ∧
      (∀ c, p.next (v.2 c) = none) ∧ v.1 = s₀ := by
  have hop : ∃ op, p.next q₀ = some op := by
    cases hop : p.next q₀ with
    | none =>
      rw [h.ended.mp hop] at hq
      cases hq
    | some op => exact ⟨op,rfl⟩
  obtain ⟨op,hop⟩ := hop
  have hstep : ∀ (t : κ → Q) c, t c = q₀ →
      (faultyPrograms (fun _ => p) apply thrown).step (s₀,t) (c,.failed e) =
        some (s₀,Function.update t c (p.resume q₀ op (thrown op e))) := by
    intro t c hc
    have hread := (h.read s₀ hq hop).1
    subst hc
    exact step_faultyPrograms.mpr ⟨op,hop,Prod.ext hread rfl⟩
  obtain ⟨t,hrun,hended,-⟩ := run_turns (g := fun c => (c,Fate.failed e)) hstep hstep
    (Finset.nodup_toList (Finset.univ : Finset κ)) (t := fun _ => q₀) (fun _ _ => rfl)
  rw [ite_self] at hrun
  refine ⟨_,_,List.forall_mem_map.mpr (fun _ _ => rfl),hrun,fun c => h.ended.mpr ?_,rfl⟩
  change turn (t c) = .done
  rw [hended c (by simp)]
  exact h.caught hop

end ReadModifyWrite
