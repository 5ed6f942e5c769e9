import DdsRpc.Library.NumberedCalls
import DdsRpc.Library.Programs
import Mathlib.Data.Fintype.BigOperators
import Mathlib.Data.List.Sort
set_option autoImplicit false

/-! Chains of calls, any number of them on a client: a chain makes its next call when it
has been told the outcome of the one before. -/

theorem List.isPrefix_of_increasing {β : Type} (key : β → ℕ) {l l' : List β}
    (hl : l.Pairwise (fun a b => key a < key b)) (hl' : l'.Pairwise (fun a b => key a < key b))
    (hsub : l ⊆ l') (hmost : ∀ k b, l'[k]? = some b → k+1 < l'.length → b ∈ l) : l <+: l' := by
  have : Std.Irrefl (fun a b : β => key a < key b) := ⟨fun _ => Nat.lt_irrefl _⟩
  have : Std.Antisymm (fun a b : β => key a < key b) :=
    ⟨fun _ _ h h' => absurd h (Nat.lt_asymm h')⟩
  rcases l'.eq_nil_or_concat' with rfl | ⟨first,last,rfl⟩
  · rw [List.subset_nil.mp hsub]
  have hfirst : first ⊆ l := by
    intro b hb
    obtain ⟨k,hk⟩ := List.getElem?_of_mem hb
    obtain ⟨hlt,-⟩ := List.getElem?_eq_some_iff.mp hk
    exact hmost k b (by rw [List.getElem?_append_left hlt,hk]) (by simpa using hlt)
  by_cases hlast : last ∈ l
  · rw [List.Subset.antisymm_of_pairwise hl hl' hsub
      (List.append_subset.mpr ⟨hfirst,List.cons_subset.mpr ⟨hlast,List.nil_subset _⟩⟩)]
  · rw [List.Subset.antisymm_of_pairwise hl (List.pairwise_append.mp hl').1 (fun b hb => ?_)
      hfirst]
    · exact List.prefix_append _ _
    · refine (List.mem_append.mp (hsub hb)).resolve_right (fun h => hlast ?_)
      rwa [List.mem_singleton.mp h] at hb

namespace Chains
open SharedObject NumberedCalls
variable {ι κ σ Op Q : Type} {Out : Op → Type} [DecidableEq κ]

/-- The calls of one chain of a client, with their numbers: `owner i n` is the chain that
has made the `n`-th call of the client `i`. -/
def chainCalls (calls : ι → List Op) (owner : ι → ℕ → κ) (x : ι × κ) : List (Op × ℕ) :=
  (calls x.1).zipIdx.filter (fun a => owner x.1 a.2 = x.2)

/-- The chain runs a program: `outs` is what it has been told so far, and every call is the
one that the program makes then. -/
structure Runs (calls : ι → List Op) (tells : ι → ℕ → (op : Op) → Out op → Prop)
    (p : Program Q Op Out) (q : Q) (owner : ι → ℕ → κ) (x : ι × κ) (outs : List (Sigma Out)) :
    Prop where
  outcomes : ∀ (k : ℕ) (out : Sigma Out), outs[k]? = some out → ∃ n,
    (chainCalls calls owner x)[k]? = some (out.1,n) ∧ tells x.1 n out.1 out.2
  follows : p.Follows q ((chainCalls calls owner x).map Prod.fst) outs
  waits : (chainCalls calls owner x).length ≤ outs.length+1

variable {calls calls' : ι → List Op} {tells tells' : ι → ℕ → (op : Op) → Out op → Prop}
  {owner owner' : ι → ℕ → κ} {x : ι × κ} {p : Program Q Op Out} {q : Q}
  {outs : List (Sigma Out)}

theorem chainCalls_get {k : ℕ} {a : Op × ℕ} (h : (chainCalls calls owner x)[k]? = some a) :
    (calls x.1)[a.2]? = some a.1 ∧ owner x.1 a.2 = x.2 := by
  obtain ⟨hmem,howner⟩ := List.mem_filter.mp (List.mem_of_getElem? h)
  exact ⟨List.mem_zipIdx_iff_getElem?.mp hmem,of_decide_eq_true howner⟩

theorem mem_chainCalls {op : Op} {n : ℕ} (h : (calls x.1)[n]? = some op)
    (howner : owner x.1 n = x.2) : (op,n) ∈ chainCalls calls owner x :=
  List.mem_filter.mpr ⟨List.mem_zipIdx_iff_getElem?.mpr h,decide_eq_true howner⟩

theorem chainCalls_increasing (calls : ι → List Op) (owner : ι → ℕ → κ) (x : ι × κ) :
    (chainCalls calls owner x).Pairwise (fun a b => a.2 < b.2) := by
  refine List.Pairwise.filter _ (List.pairwise_map.mp ?_)
  rw [List.zipIdx_map_snd]
  exact List.pairwise_lt_range'

theorem sum_chainCalls [Fintype ι] [Fintype κ] (calls : ι → List Op) (owner : ι → ℕ → κ) :
    ∑ x, (chainCalls calls owner x).length = ∑ i, (calls i).length := by
  rw [Fintype.sum_prod_type]
  refine Finset.sum_congr rfl (fun i _ => ?_)
  have hcount := Multiset.sum_count_eq_card (s := Finset.univ)
    (m := (((calls i).zipIdx.map (fun a => owner i a.2) : List κ) : Multiset κ))
    (fun c _ => Finset.mem_univ c)
  simpa [chainCalls,List.count_eq_countP,List.countP_eq_length_filter,List.filter_map,
    Function.comp_def,beq_eq_decide] using hcount

theorem runs_once {op : Op} {n : ℕ} {out : Out op}
    (hcalls : chainCalls calls owner x = [(op,n)]) (htold : tells x.1 n op out)
    (hop : p.next q = some op) : Runs calls tells p q owner x [⟨op,out⟩] where
  outcomes k out' hk := by
    cases k with
    | zero =>
      cases hk
      exact ⟨n,by rw [hcalls]; rfl,htold⟩
    | succ k => cases hk
  follows := by
    rw [hcalls]
    exact Program.follows_cons.mpr ⟨hop,Program.follows_nil _ _⟩
  waits := by simp [hcalls]

variable [DecidableEq ι] {apply : (op : Op) → σ → Out op × σ} {s₀ : σ}
  {order : List (Ticket ι Op)}

def own (owner : ι → ℕ → κ) (x : ι × κ) (outs : List ((ι × ℕ) × Sigma Out)) :
    List ((ι × ℕ) × Sigma Out) :=
  outs.filter (fun o => (o.1.1,owner o.1.1 o.1.2) = x)

theorem mem_own {outs : List ((ι × ℕ) × Sigma Out)} {o : (ι × ℕ) × Sigma Out} :
    o ∈ own owner x outs ↔ o ∈ outs ∧ o.1.1 = x.1 ∧ owner x.1 o.1.2 = x.2 := by
  rw [own,List.mem_filter,decide_eq_true_eq,Prod.ext_iff]
  refine and_congr_right (fun _ => and_congr_right (fun h => ?_))
  rw [← h]

/-- The calls of a chain are received one by one, as each waits for the one before. -/
theorem own_isPrefix (h : Explains apply s₀ calls tells order)
    (hr : Runs calls tells p q owner x outs) :
    (own owner x (direct apply s₀ order).1).map (fun o => (o.2.1,o.1.2)) <+:
      chainCalls calls owner x := by
  have hcalls : (direct apply s₀ order).1.map (fun p => (p.1,p.2.1)) = order :=
    map_direct s₀ order
  refine List.isPrefix_of_increasing Prod.snd (List.pairwise_map.mpr ?_)
    (chainCalls_increasing calls owner x) ?_ (fun k a ha hk => ?_)
  · have hinc := h.ownOrder x.1
    rw [← hcalls,ofClient,List.map_map,List.filter_map,List.map_map,List.pairwise_map] at hinc
    have hown : own owner x (direct apply s₀ order).1 =
        ((direct apply s₀ order).1.filter (fun o => o.1.1 = x.1)).filter
          (fun o => owner o.1.1 o.1.2 = x.2) := by
      simp [own,List.filter_filter,Prod.ext_iff,Bool.and_comm]
    rw [hown]
    exact List.Pairwise.filter _ hinc
  · intro a ha
    obtain ⟨o,ho,rfl⟩ := List.mem_map.mp ha
    obtain ⟨hmem,hi,howner⟩ := mem_own.mp ho
    have hcall := h.made _ (mem_of_mem_direct (show (o.1,o.2) ∈ _ from hmem))
    rw [hi] at hcall
    exact mem_chainCalls hcall howner
  · have hwaits := hr.waits
    have hout := List.getElem?_eq_getElem (show k < outs.length by omega)
    obtain ⟨n,hn,htold⟩ := hr.outcomes k _ hout
    obtain rfl := Option.some.inj (hn.symm.trans ha)
    obtain ⟨hop,howner⟩ := chainCalls_get hn
    exact List.mem_map.mpr ⟨_,mem_own.mpr ⟨h.told hop htold,rfl,howner⟩,rfl⟩

theorem outs_isPrefix (h : Explains apply s₀ calls tells order)
    (hr : Runs calls tells p q owner x outs) :
    outs <+: (own owner x (direct apply s₀ order).1).map Prod.snd := by
  refine List.prefix_iff_getElem?.mpr (fun k hk => ?_)
  obtain ⟨n,hn,htold⟩ := hr.outcomes k _ (List.getElem?_eq_getElem hk)
  obtain ⟨hop,howner⟩ := chainCalls_get hn
  obtain ⟨j,hj⟩ := List.getElem?_of_mem
    (show _ ∈ own owner x _ from mem_own.mpr ⟨h.told hop htold,rfl,howner⟩)
  -- Its place among the calls received is its place in the chain.
  have hjk : (chainCalls calls owner x)[j]? = some (outs[k].1,n) :=
    (own_isPrefix h hr).getElem?_eq_some (by rw [List.getElem?_map,hj]; rfl)
  have hnodup : (chainCalls calls owner x).Nodup :=
    (chainCalls_increasing calls owner x).imp
      (fun hlt heq => absurd (heq ▸ hlt) (Nat.lt_irrefl _))
  obtain rfl : j = k :=
    (List.getElem?_inj (List.getElem?_eq_some_iff.mp hjk).1 hnodup).mp (hjk.trans hn.symm)
  rw [List.getElem?_map,hj]
  rfl

theorem own_follows (h : Explains apply s₀ calls tells order)
    (hr : Runs calls tells p q owner x outs) :
    p.Follows q (((own owner x (direct apply s₀ order).1).map Prod.snd).map Sigma.fst)
      ((own owner x (direct apply s₀ order).1).map Prod.snd) := by
  have hcalls := (own_isPrefix h hr).map Prod.fst
  rw [List.map_map] at hcalls
  rw [List.map_map]
  refine hr.follows.of_isPrefix hcalls (outs_isPrefix h hr) ?_
  have hlen := hcalls.length_le
  have hwaits := hr.waits
  simp only [List.length_map] at hlen ⊢
  omega

theorem ofClient_own (owner : ι → ℕ → κ) (x : ι × κ) (s₀ : σ) (order : List (Ticket ι Op)) :
    ofClient x (direct apply s₀ (order.map (Prod.map (fun t => (t.1,owner t.1 t.2)) id))).1 =
      (own owner x (direct apply s₀ order).1).map Prod.snd := by
  rw [direct_relabel,ofClient_relabel,own]

variable {R : ι × κ → Type} {ps : (x : ι × κ) → Program (R x) Op Out} {qs : (x : ι × κ) → R x}
  {all : ι × κ → List (Sigma Out)}

/-- Chains that run programs behave as if every call were one step. Each of them has been
served `served`, of which it has been told `all`. -/
theorem programs_run (h : Explains apply s₀ calls tells order)
    (hr : ∀ x, Runs calls tells (ps x) (qs x) owner x (all x)) :
    ∃ served : ι × κ → List (Sigma Out),
      (programs ps apply).run (s₀,qs) (order.map (fun t => (t.1.1,owner t.1.1 t.1.2))) =
        some ((direct apply s₀ order).2,fun x => (ps x).after (qs x) (served x)) ∧
      ∀ x, all x <+: served x ∧
        (ps x).Follows (qs x) ((served x).map Sigma.fst) (served x) ∧
        (served x).length = (order.map (fun t => (t.1.1,owner t.1.1 t.1.2))).count x := by
  have hrun : (programs ps apply).run (s₀,qs)
      ((order.map (Prod.map (fun t => (t.1,owner t.1 t.2)) id)).map Prod.fst) =
        some ((direct apply s₀ (order.map (Prod.map (fun t => (t.1,owner t.1 t.2)) id))).2,_) :=
    programs_direct (fun x => by
      rw [← ofClient_direct apply x s₀,ofClient_own]
      exact own_follows h (hr x))
  refine ⟨fun x => (own owner x (direct apply s₀ order).1).map Prod.snd,?_,
    fun x => ⟨outs_isPrefix h (hr x),own_follows h (hr x),?_⟩⟩
  · simp only [ofClient_own] at hrun
    rw [direct_relabel,List.map_map] at hrun
    exact hrun
  · have hcalls : (direct apply s₀ order).1.map (fun p => (p.1,p.2.1)) = order :=
      map_direct s₀ order
    rw [← congrArg (fun l => (l.map (fun t : Ticket ι Op => (t.1.1,owner t.1.1 t.1.2))).count x)
      hcalls]
    simp [own,List.count_eq_countP,List.countP_eq_length_filter,List.filter_map,
      Function.comp_def,beq_eq_decide]

omit [DecidableEq ι] in
theorem Runs.length_le (hr : Runs calls tells p q owner x outs)
    (hend : p.next (p.after q outs) = none) : (chainCalls calls owner x).length ≤ outs.length := by
  rcases Nat.lt_or_ge outs.length (chainCalls calls owner x).length with hlt | hge
  · have hnext := hr.follows outs.length _
      (List.getElem?_eq_getElem (by rwa [List.length_map]))
    rw [List.take_length,hend] at hnext
    cases hnext
  · exact hge

theorem outline {A : Q → σ → Prop} {H : Op → Prop} (hA : Outline p apply H A)
    (h : Explains apply s₀ calls tells order) (hr : Runs calls tells p q owner x outs)
    (hothers : ∀ i n op, (calls i)[n]? = some op → (i,owner i n) ≠ x → H op) (hq : A q s₀) :
    (∀ out ∈ outs, ∃ q' s, A q' s ∧ p.next q' = some out.1 ∧ (apply out.1 s).1 = out.2) ∧
    ((chainCalls calls owner x).length ≤ outs.length →
      A (p.after q outs) (direct apply s₀ order).2) := by
  have hfollows := own_follows h hr
  rw [← ofClient_own,ofClient_direct] at hfollows
  have hH : ∀ y ∈ order.map (Prod.map (fun t => (t.1,owner t.1 t.2)) id), y.1 ≠ x → H y.2 := by
    rintro _ hy hne
    obtain ⟨t,ht,rfl⟩ := List.mem_map.mp hy
    exact hothers _ _ _ (h.made t ht) hne
  have hfirst := outs_isPrefix h hr
  constructor
  · intro out hout
    refine hA.exists_of_mem_direct hfollows hH hq ?_
    rw [ofClient_own]
    exact hfirst.subset hout
  · intro hall
    have hlen := (own_isPrefix h hr).length_le
    rw [List.length_map] at hlen
    have hdirect := hA.direct hfollows hH hq
    rwa [ofClient_own,direct_relabel,← hfirst.eq_of_length_le (by rw [List.length_map]; omega)]
      at hdirect

omit [DecidableEq ι] in
theorem Runs.outcomes_kept (hr : Runs calls tells p q owner x outs)
    (hcalls : chainCalls calls owner x <+: chainCalls calls' owner' x)
    (hkept : ∀ {n op} {out : Out op}, tells x.1 n op out → tells' x.1 n op out) (k : ℕ)
    (out : Sigma Out) (hk : outs[k]? = some out) : ∃ n,
      (chainCalls calls' owner' x)[k]? = some (out.1,n) ∧ tells' x.1 n out.1 out.2 := by
  obtain ⟨n,hn,htold⟩ := hr.outcomes k out hk
  exact ⟨n,hcalls.getElem?_eq_some hn,hkept htold⟩

omit [DecidableEq ι] in
theorem Runs.snoc (hr : Runs calls tells p q owner x outs)
    (hlen : (chainCalls calls owner x).length = outs.length) {op : Op} {n : ℕ} {out : Out op}
    (hop : p.next (p.after q outs) = some op)
    (hcalls : chainCalls calls' owner' x = chainCalls calls owner x ++ [(op,n)])
    (hkept : ∀ {n op} {out : Out op}, tells x.1 n op out → tells' x.1 n op out)
    (htold : tells' x.1 n op out) : Runs calls' tells' p q owner' x (outs ++ [⟨op,out⟩]) where
  outcomes k out' hk := by
    rcases Nat.lt_or_ge k outs.length with hlt | hge
    · rw [List.getElem?_append_left hlt] at hk
      exact hr.outcomes_kept (hcalls ▸ List.prefix_append _ _) hkept k out' hk
    · rw [List.getElem?_append_right hge,List.getElem?_singleton] at hk
      split at hk
      case isFalse => cases hk
      cases hk
      refine ⟨n,?_,htold⟩
      rw [hcalls,show k = (chainCalls calls owner x).length by omega,List.getElem?_concat_length]
  follows := by
    rw [hcalls,List.map_append]
    exact hr.follows.append (by rw [List.length_map,hlen]) ⟨op,_⟩ hop
  waits := by
    rw [hcalls]
    simp [hlen]

def giveTo (owner : ι → ℕ → κ) (x : ι × κ) (n : ℕ) (j : ι) (m : ℕ) : κ :=
  if j = x.1 ∧ m = n then x.2 else owner j m

theorem chainCalls_giveTo {op : Op}
    (h : calls' = Function.update calls x.1 (calls x.1 ++ [op])) (owner : ι → ℕ → κ)
    (y : ι × κ) : chainCalls calls' (giveTo owner x (calls x.1).length) y =
      chainCalls calls owner y ++ if x = y then [(op,(calls x.1).length)] else [] := by
  obtain ⟨i,c⟩ := x
  obtain ⟨j,d⟩ := y
  rcases eq_or_ne j i with rfl | hj
  · have hcalls : calls' j = calls j ++ [op] := by rw [h,Function.update_self]
    unfold chainCalls
    rw [hcalls,List.zipIdx_append,List.filter_append]
    congr 1
    · refine List.filter_congr (fun a ha => ?_)
      have hlt := (List.getElem?_eq_some_iff.mp (List.mem_zipIdx_iff_getElem?.mp ha)).1
      simp [giveTo,Nat.ne_of_lt hlt]
    · by_cases hcd : c = d <;> simp [giveTo,hcd]
  · simp [chainCalls,h,giveTo,hj,Ne.symm hj]

section
variable {W E : Type} {M : Machine W E} {callsOf : W → ι → List Op}
  {tellsOf : W → ι → ℕ → (op : Op) → Out op → Prop} {object : W → σ} {Quiet : W → Prop}
  {w : W}

/-- One more call of `i` has been made, served and answered, and nothing else is under
way. -/
structure Answered (apply : (op : Op) → σ → Out op × σ) (callsOf : W → ι → List Op)
    (tellsOf : W → ι → ℕ → (op : Op) → Out op → Prop) (object : W → σ) (Quiet : W → Prop)
    (w w' : W) (i : ι) (op : Op) : Prop where
  quiet : Quiet w'
  served : object w' = (apply op (object w)).2
  made : callsOf w' = Function.update (callsOf w) i (callsOf w i ++ [op])
  kept : ∀ {j n op'} {out : Out op'}, tellsOf w j n op' out → tellsOf w' j n op' out
  told : tellsOf w' i (callsOf w i).length op (apply op (object w)).1

/-- The chains have made the calls that bring the programs where they are, and have been
told the outcome of every one of them. -/
structure Realizes (callsOf : W → ι → List Op)
    (tellsOf : W → ι → ℕ → (op : Op) → Out op → Prop) (object : W → σ) (Quiet : W → Prop)
    (ps : (x : ι × κ) → Program (R x) Op Out) (qs : (x : ι × κ) → R x)
    (v : σ × ((x : ι × κ) → R x)) (w : W) (owner : ι → ℕ → κ) : Prop where
  quiet : Quiet w
  served : object w = v.1
  runs : ∀ x, ∃ outs, Runs (callsOf w) (tellsOf w) (ps x) (qs x) owner x outs ∧
    (chainCalls (callsOf w) owner x).length = outs.length ∧ (ps x).after (qs x) outs = v.2 x

theorem realizes_step
    (hcall : ∀ {w}, Quiet w → ∀ i op, ∃ es w', M.run w es = some w' ∧
      Answered apply callsOf tellsOf object Quiet w w' i op)
    {v v' : σ × ((x : ι × κ) → R x)} (h : (programs ps apply).step v x = some v')
    (hw : Realizes callsOf tellsOf object Quiet ps qs v w owner) : ∃ es w',
      M.run w es = some w' ∧
        ∃ owner', Realizes callsOf tellsOf object Quiet ps qs v' w' owner' := by
  obtain ⟨op,hop,rfl⟩ := step_programs.mp h
  obtain ⟨es,w',hrun,hw'⟩ := hcall hw.quiet x.1 op
  have hserved := hw'.served
  have htold := hw'.told
  rw [hw.served] at hserved htold
  refine ⟨es,w',hrun,giveTo owner x (callsOf w x.1).length,hw'.quiet,hserved,fun y => ?_⟩
  obtain ⟨outs,hr,hlen,hafter⟩ := hw.runs y
  have hchain := chainCalls_giveTo hw'.made owner y
  rcases eq_or_ne x y with rfl | hne
  · rw [if_pos rfl] at hchain
    refine ⟨_,hr.snoc hlen (by rw [hafter,hop]) hchain hw'.kept htold,?_,?_⟩
    · rw [hchain]
      simp [hlen]
    · rw [Program.after_append,hafter]
      simp
  · rw [if_neg hne,List.append_nil] at hchain
    refine ⟨outs,⟨hr.outcomes_kept (hchain ▸ List.prefix_rfl) hw'.kept,?_,?_⟩,?_,?_⟩
    · rw [hchain]
      exact hr.follows
    · rw [hchain]
      exact hr.waits
    · rw [hchain,hlen]
    · simp [hafter,Ne.symm hne]

omit [DecidableEq ι] in
theorem realizes_init [Nonempty κ] (hw : Quiet w) (hcalls : callsOf w = fun _ => []) :
    ∃ owner : ι → ℕ → κ, Realizes callsOf tellsOf object Quiet ps qs (object w,qs) w owner := by
  have hnone : ∀ (owner : ι → ℕ → κ) x, chainCalls (callsOf w) owner x = [] := by
    simp [chainCalls,hcalls]
  refine ⟨fun _ _ => Classical.arbitrary κ,hw,rfl,fun x => ⟨[],⟨nofun,?_,?_⟩,?_,rfl⟩⟩
  all_goals rw [hnone]
  · exact Program.follows_nil _ _
  · exact Nat.zero_le _
  · rfl

end

end Chains
