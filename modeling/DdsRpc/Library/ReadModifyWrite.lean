import DdsRpc.Library.Machine
import Mathlib.Data.Fintype.Card
import Mathlib.Logic.Function.Iterate
set_option autoImplicit false

/-! Clients that read a cell and then write back `f` of what they have read. Reads and
writes of different clients alternate in any order, so that updates can get lost. -/

namespace ReadModifyWrite
variable {κ α : Type}

inductive Turn (α : Type) where
  | read
  | write (a : α)
  | done
  deriving DecidableEq

variable [DecidableEq κ] {f : α → α} {accept : α → Bool} {v u : α}

/-- A write that is not accepted leaves the cell alone. -/
def machine (κ : Type) [DecidableEq κ] (f : α → α) (accept : α → Bool) :
    Machine (α × (κ → Turn α)) κ where
  step w c :=
    match w.2 c with
    | .read => some (w.1,Function.update w.2 c (.write (f w.1)))
    | .write a => some (if accept a then a else w.1,Function.update w.2 c .done)
    | .done => none

theorem step_read {a : α} {t : κ → Turn α} {c : κ} (h : t c = .read) :
    (machine κ f accept).step (a,t) c = some (a,Function.update t c (.write (f a))) := by
  simp only [machine,h]

theorem step_write {a b : α} {t : κ → Turn α} {c : κ} (h : t c = .write b) :
    (machine κ f accept).step (a,t) c =
      some (if accept b then b else a,Function.update t c .done) := by
  simp only [machine,h]

theorem step_done {a : α} {t : κ → Turn α} {c : κ} (h : t c = .done) :
    (machine κ f accept).step (a,t) c = none := by
  simp only [machine,h]

/-- A client can end in place of a turn. -/
def faulty (κ : Type) [DecidableEq κ] (f : α → α) (accept : α → Bool) :
    Machine (α × (κ → Turn α)) (κ × Bool) where
  step w
    | (c,true) => (machine κ f accept).step w c
    | (c,false) =>
      match w.2 c with
      | .done => none
      | _ => some (w.1,Function.update w.2 c .done)

theorem faulty_fails {a : α} {t : κ → Turn α} {c : κ} (h : t c ≠ .done) :
    (faulty κ f accept).step (a,t) (c,false) = some (a,Function.update t c .done) := by
  simp only [faulty]

/-- The clients of `s` are done; the cell has been updated `k` times one after another.
Nobody ends before its turns if `calm`. -/
structure Updated (calm : Prop) (f : α → α) (accept : α → Bool) (v : α) (w : α × (κ → Turn α))
    (s : Finset κ) (k : ℕ) : Prop where
  cell : w.1 = f^[k] v
  done : ∀ c, w.2 c = .done ↔ c ∈ s
  le : k ≤ s.card
  accepted : ∀ j < k, accept (f^[j+1] v) = true
  refused : calm → k = 0 → s.Nonempty → accept (f v) = false
  pending : ∀ c a, w.2 c = .write a → ∃ j ≤ s.card, a = f^[j+1] v ∧
    (∀ i < j, accept (f^[i+1] v) = true) ∧ (k = 0 → j = 0)

variable {calm : Prop} {w w' : α × (κ → Turn α)} {c : κ} {s : Finset κ} {k : ℕ}

omit [DecidableEq κ] in
theorem updated_init (calm : Prop) (f : α → α) (accept : α → Bool) (v : α) :
    Updated calm f accept v (v,fun _ : κ => .read) ∅ 0 where
  cell := rfl
  done := by simp
  le := Nat.le_refl _
  accepted := by simp
  refused := by simp
  pending := by simp

theorem Updated.done_insert (hw : Updated calm f accept v w s k) (c d : κ) :
    Function.update w.2 c .done d = .done ↔ d ∈ insert c s := by
  rcases eq_or_ne d c with rfl | hne
  · simp
  · simpa [hne] using hw.done d

theorem Updated.pending_insert (hw : Updated calm f accept v w s k) (c : κ) {m : ℕ}
    (hm : m = 0 → k = 0) (d : κ) (a : α) (hd : Function.update w.2 c .done d = .write a) :
    ∃ j ≤ (insert c s).card, a = f^[j+1] v ∧ (∀ i < j, accept (f^[i+1] v) = true) ∧
      (m = 0 → j = 0) := by
  rcases eq_or_ne d c with rfl | hne
  · simp at hd
  · rw [Function.update_of_ne hne] at hd
    obtain ⟨j,hj,ha,hacc,hzero⟩ := hw.pending d a hd
    exact ⟨j,Nat.le_trans hj (Finset.card_le_card (Finset.subset_insert c s)),ha,hacc,
      fun h => hzero (hm h)⟩

theorem updated_step (h : (machine κ f accept).step w c = some w')
    (hw : Updated calm f accept v w s k) : ∃ s' k', Updated calm f accept v w' s' k' := by
  cases hc : w.2 c with
  | read =>
    rw [step_read hc,Option.some.injEq] at h
    subst h
    have hnot : c ∉ s := fun hs => by simpa [hc] using (hw.done c).mpr hs
    refine ⟨s,k,hw.cell,fun d => ?_,hw.le,hw.accepted,hw.refused,fun d a hd => ?_⟩
    · rcases eq_or_ne d c with rfl | hne
      · simp [hnot]
      · simpa [hne] using hw.done d
    · rcases eq_or_ne d c with rfl | hne
      · simp only [Function.update_self,Turn.write.injEq] at hd
        refine ⟨k,hw.le,?_,hw.accepted,id⟩
        rw [← hd,hw.cell,Function.iterate_succ_apply']
      · exact hw.pending d a (by simpa [hne] using hd)
  | write a =>
    rw [step_write hc,Option.some.injEq] at h
    subst h
    obtain ⟨j,hj,rfl,hbelow,hfirst⟩ := hw.pending c a hc
    have hnot : c ∉ s := fun hs => by simpa [hc] using (hw.done c).mpr hs
    have hcard : (insert c s).card = s.card+1 := Finset.card_insert_of_notMem hnot
    cases ha : accept (f^[j+1] v) with
    | true =>
      refine ⟨insert c s,j+1,rfl,hw.done_insert c,by omega,fun i hi => ?_,nofun,
        hw.pending_insert c nofun⟩
      rcases Nat.lt_succ_iff_lt_or_eq.mp hi with hi | rfl
      · exact hbelow i hi
      · exact ha
    | false =>
      refine ⟨insert c s,k,hw.cell,hw.done_insert c,by have := hw.le; omega,hw.accepted,
        fun _ hk _ => ?_,hw.pending_insert c id⟩
      rwa [hfirst hk] at ha
  | done =>
    rw [step_done hc] at h
    cases h

theorem updated_run {schedule : List κ}
    (h : (machine κ f accept).run (v,fun _ => .read) schedule = some w) :
    ∃ s k, Updated True f accept v w s k :=
  Machine.run_preserves (P := fun w => ∃ s k, Updated True f accept v w s k)
    (fun hs ⟨_,_,hw⟩ => updated_step hs hw) h ⟨∅,0,updated_init True f accept v⟩

theorem updated_faulty {e : κ × Bool} (h : (faulty κ f accept).step w e = some w')
    (hw : Updated False f accept v w s k) : ∃ s' k', Updated False f accept v w' s' k' := by
  obtain ⟨c,_ | _⟩ := e
  · simp only [faulty] at h
    split at h
    · cases h
    · cases h
      exact ⟨insert c s,k,hw.cell,hw.done_insert c,
        Nat.le_trans hw.le (Finset.card_le_card (Finset.subset_insert c s)),hw.accepted,
        False.elim,hw.pending_insert c id⟩
  · exact updated_step h hw

theorem faulty_run [Fintype κ] {schedule : List (κ × Bool)}
    (h : (faulty κ f accept).run (v,fun _ => .read) schedule = some w) :
    ∃ k ≤ Fintype.card κ, w.1 = f^[k] v ∧ ∀ j < k, accept (f^[j+1] v) = true := by
  obtain ⟨s,k,hw⟩ := Machine.run_preserves (P := fun w => ∃ s k, Updated False f accept v w s k)
    (fun hs ⟨_,_,hw⟩ => updated_faulty hs hw) h ⟨∅,0,updated_init False f accept v⟩
  exact ⟨k,Nat.le_trans hw.le (Finset.card_le_univ s),hw.cell,hw.accepted⟩

theorem run_turns {S Q E : Type} {M : Machine (S × (κ → Q)) E} {g : κ → E} {x y : Q} {a b : S}
    (ha : ∀ t c, t c = x → M.step (a,t) (g c) = some (b,Function.update t c y))
    (hb : ∀ t c, t c = x → M.step (b,t) (g c) = some (b,Function.update t c y))
    {l : List κ} (hl : l.Nodup) {t : κ → Q} (h : ∀ c ∈ l, t c = x) : ∃ t',
      M.run (a,t) (l.map g) = some (if l = [] then a else b,t') ∧
      (∀ c ∈ l, t' c = y) ∧ ∀ c ∉ l, t' c = t c := by
  induction l generalizing a t with
  | nil => exact ⟨t,rfl,by simp,fun _ _ => rfl⟩
  | cons c l ih =>
    obtain ⟨hc,hl⟩ := List.nodup_cons.mp hl
    obtain ⟨hx,hrest⟩ := List.forall_mem_cons.mp h
    have hne : ∀ d ∈ l, d ≠ c := fun d hd hdc => hc (hdc ▸ hd)
    obtain ⟨t',hrun,hy,hsame⟩ := ih hb hl (t := Function.update t c y)
      (fun d hd => by simpa [hne d hd] using hrest d hd)
    refine ⟨t',Machine.run_cons.mpr ⟨_,ha t c hx,by simpa using hrun⟩,
      List.forall_mem_cons.mpr ⟨by simpa using hsame c hc,hy⟩,fun d hd => ?_⟩
    obtain ⟨hdc,hdl⟩ := List.ne_and_not_mem_of_not_mem_cons hd
    simpa [hdc] using hsame d hdl

/-- The clients of `l` all read before any of them writes: all updates but one are lost. -/
theorem run_together (f : α → α) (accept : α → Bool) (v : α) {l : List κ} (hl : l.Nodup)
    (hne : l ≠ []) : ∃ t, (machine κ f accept).run (v,fun _ => .read) (l ++ l) =
        some (if accept (f v) then f v else v,t) ∧
      (∀ c ∈ l, t c = .done) ∧ ∀ c ∉ l, t c = .read := by
  have hread : ∀ t c, t c = .read → (machine κ f accept).step (v,t) c =
      some (v,Function.update t c (.write (f v))) := fun _ _ => step_read
  have hwrite : ∀ a, a = v ∨ a = (if accept (f v) then f v else v) → ∀ t c,
      t c = .write (f v) → (machine κ f accept).step (a,t) c =
        some (if accept (f v) then f v else v,Function.update t c .done) := by
    intro a ha t c hc
    rw [step_write hc]
    rcases ha with rfl | rfl
    · rfl
    · cases accept (f v) <;> rfl
  obtain ⟨t,hreads,hwriting,hsame⟩ := run_turns (g := id) hread hread hl (t := fun _ => .read)
    (fun _ _ => rfl)
  obtain ⟨t',hwrites,hdone,hsame'⟩ := run_turns (g := id) (hwrite v (.inl rfl))
    (hwrite _ (.inr rfl)) hl hwriting
  rw [if_neg hne,List.map_id] at hreads hwrites
  exact ⟨t',Machine.run_append.mpr ⟨_,hreads,hwrites⟩,hdone,
    fun c hc => (hsame' c hc).trans (hsame c hc)⟩

theorem run_oneByOne (f : α → α) (accept : α → Bool) (v : α) {l : List κ} (hl : l.Nodup)
    {m : ℕ} {w : α × (κ → Turn α)} (h : ∀ c ∈ l, w.2 c = .read) (hw : w.1 = f^[m] v)
    (ha : ∀ j < m+l.length, accept (f^[j+1] v) = true) : ∃ schedule t,
      (machine κ f accept).run w schedule = some (f^[m+l.length] v,t) ∧
      (∀ c ∈ l, t c = .done) ∧ ∀ c ∉ l, t c = w.2 c := by
  induction l generalizing w m with
  | nil =>
    obtain ⟨a,t⟩ := w
    obtain rfl : a = _ := hw
    exact ⟨[],t,rfl,by simp,fun _ _ => rfl⟩
  | cons c l ih =>
    obtain ⟨hc,hl⟩ := List.nodup_cons.mp hl
    obtain ⟨hread,hrest⟩ := List.forall_mem_cons.mp h
    have hne : ∀ d ∈ l, d ≠ c := fun d hd hdc => hc (hdc ▸ hd)
    have hlen : m+(c :: l).length = m+1+l.length := by rw [List.length_cons]; omega
    rw [hlen] at ha ⊢
    have hf : f w.1 = f^[m+1] v := by rw [hw,Function.iterate_succ_apply']
    have hacc : accept (f w.1) = true := by rw [hf]; exact ha m (by omega)
    obtain ⟨schedule,t,hrun,hdone,hsame⟩ := ih hl (m := m+1)
      (w := (f w.1,Function.update (Function.update w.2 c (.write (f w.1))) c .done))
      (fun d hd => by simpa [hne d hd] using hrest d hd) hf ha
    refine ⟨c :: c :: schedule,t,Machine.run_cons.mpr ⟨_,step_read hread,
      Machine.run_cons.mpr ⟨_,step_write (Function.update_self ..),?_⟩⟩,
      List.forall_mem_cons.mpr ⟨by simpa using hsame c hc,hdone⟩,fun d hd => ?_⟩
    · rwa [if_pos hacc]
    · obtain ⟨hdc,hdl⟩ := List.ne_and_not_mem_of_not_mem_cons hd
      simpa [hdc] using hsame d hdl

omit [DecidableEq κ] in
theorem exists_split [Fintype κ] {k : ℕ} (hk : k < Fintype.card κ) : ∃ late early : List κ,
    late.Nodup ∧ early.Nodup ∧ late.Disjoint early ∧ (∀ c, c ∈ late ∨ c ∈ early) ∧
      late.length = k ∧ early ≠ [] := by
  have hlen : (Finset.univ : Finset κ).toList.length = Fintype.card κ := Finset.length_toList _
  have hnodup := Finset.nodup_toList (Finset.univ : Finset κ)
  rw [← List.take_append_drop k Finset.univ.toList] at hnodup
  obtain ⟨htake,hdrop,hapart⟩ := List.nodup_append'.mp hnodup
  refine ⟨_,_,htake,hdrop,hapart,fun c => ?_,?_,List.ne_nil_of_length_pos ?_⟩
  · rw [← List.mem_append,List.take_append_drop]
    simp
  · rw [List.length_take]
    omega
  · rw [List.length_drop]
    omega

/-- What the cell holds when all clients are done: anything from one update, if the first
is accepted, to as many as there are clients. -/
theorem final_iff [Fintype κ] [Nonempty κ] : (∃ schedule w,
    (machine κ f accept).run (v,fun _ => .read) schedule = some w ∧
      (∀ c, w.2 c = .done) ∧ w.1 = u) ↔
    ∃ k ≤ Fintype.card κ, u = f^[k] v ∧ (∀ j < k, accept (f^[j+1] v) = true) ∧
      (k = 0 → accept (f v) = false) := by
  constructor
  · rintro ⟨schedule,w,hrun,hall,rfl⟩
    obtain ⟨s,k,hw⟩ := updated_run hrun
    obtain rfl : s = Finset.univ := Finset.eq_univ_of_forall (fun c => (hw.done c).mp (hall c))
    exact ⟨k,hw.le,hw.cell,hw.accepted,fun hk => hw.refused trivial hk Finset.univ_nonempty⟩
  · rintro ⟨k,hk,rfl,hacc,href⟩
    -- All but `k-1` clients lose their updates to one another.
    have hpos : 0 < Fintype.card κ := Fintype.card_pos
    obtain ⟨late,early,hlate,hearly,hapart,hmem,hlen,hne⟩ :=
      exists_split (κ := κ) (show k-1 < Fintype.card κ by omega)
    obtain ⟨t,htogether,hdone,hstill⟩ := run_together f accept v hearly hne
    cases k with
    | zero =>
      rw [href rfl] at htogether
      refine ⟨_,_,htogether,fun c => hdone c ((hmem c).resolve_left ?_),rfl⟩
      rw [List.length_eq_zero_iff.mp hlen]
      exact List.not_mem_nil
    | succ k =>
      rw [if_pos (show accept (f v) = true from hacc 0 (Nat.succ_pos k))] at htogether
      have hcount : 1+late.length = k+1 := by omega
      obtain ⟨schedule,t',hrun,hlast,hkept⟩ := run_oneByOne f accept v hlate (m := 1)
        (w := (f v,t)) (fun c hc => hstill c (hapart hc)) rfl (by rwa [hcount])
      rw [hcount] at hrun
      refine ⟨_,_,Machine.run_append.mpr ⟨_,htogether,hrun⟩,fun c => ?_,rfl⟩
      by_cases hc : c ∈ late
      · exact hlast c hc
      · exact (hkept c hc).trans (hdone c ((hmem c).resolve_left hc))

end ReadModifyWrite
