import DdsRpc.ParamsRecords
set_option autoImplicit false

namespace DdsRpc
namespace Params
variable {DW DR : Type}

/-- The object `o` has the settings `r`, and what it has on the heap is at `F` and not shared. -/
inductive Rep (h : Memory DW DR) : Object → Settings DW DR → Set Nat → Prop
  | flat {a : Nat} {i : Impl DW DR} {r : Settings DW DR} (ha : h.get a = some ⟨1,i⟩)
      (hr : i.settings = some r) : Rep h ⟨r.kind,a⟩ r {a}
  | server {a m : Nat} {i : ServiceParamsImpl DW DR} (ha : h.get a = some ⟨1,.server m⟩)
      (hm : h.get m = some ⟨1,.service i⟩) : Rep h ⟨.server,a⟩ (.server i.settings) ({a} ∪ {m})

namespace Rep
variable {h h' : Memory DW DR} {o : Object} {r : Settings DW DR} {F G N : Set Nat}

theorem subset_live (hr : Rep h o r F) : F ⊆ h.live := by
  cases hr with
  | flat ha =>
    rintro _ rfl
    exact Heap.mem_live_of_get ha
  | server ha hm =>
    rintro _ (rfl | rfl)
    · exact Heap.mem_live_of_get ha
    · exact Heap.mem_live_of_get hm

theorem frame (hr : Rep h o r F) (heq : ∀ a ∈ F, h'.get a = h.get a) : Rep h' o r F := by
  cases hr with
  | flat ha hi => exact .flat ((heq _ rfl).trans ha) hi
  | server ha hm => exact .server ((heq _ (.inl rfl)).trans ha) ((heq _ (.inr rfl)).trans hm)

theorem turns (hr : Rep h o r F) (ht : Heap.Turns h h' G N) (hFG : Disjoint F G) : Rep h' o r F :=
  hr.frame (fun _ ha => ht.get_eq (Set.disjoint_left.mp hFG ha) (hr.subset_live ha))

theorem kind (hr : Rep h o r F) : o.kind = r.kind := by
  cases hr <;> rfl

end Rep

section
variable {A : MemoryAllocator DW DR} {h h' : Memory DW DR} {o o' : Object}
  {r r' : Settings DW DR} {F G : Set Nat}

theorem deref_of_get {a : Nat} {c : Impl DW DR} (ha : h.get a = some ⟨1,c⟩) :
    h.deref a = some c := by
  simp [Heap.deref,ha]

def Makes (h : Memory DW DR) (k : Kind) (p : Nat × Memory DW DR) (r : Settings DW DR) : Prop :=
  ∃ N, Heap.Turns h p.2 ∅ N ∧ Rep p.2 ⟨k,p.1⟩ r N

theorem makes_flat {i : Impl DW DR} (hr : i.settings = some r) :
    Makes h r.kind (h.makeShared A i) r :=
  ⟨_,Heap.turns_makeShared,.flat Heap.get_makeShared hr⟩

theorem makes_service (i : ServiceParamsImpl DW DR) :
    Makes h .service (h.makeShared A (.service i)) (.service i.settings) :=
  makes_flat (r := .service i.settings) rfl

theorem makes_server (i : ServiceParamsImpl DW DR) :
    Makes h .server ((h.makeShared A (.service i)).2.makeShared A
      (.server (h.makeShared A (.service i)).1)) (.server i.settings) := by
  have hinner : Heap.Turns h (h.makeShared A (.service i)).2 ∅ _ := Heap.turns_makeShared
  have houter : Heap.Turns (h.makeShared A (.service i)).2 _ ∅ _ :=
    Heap.turns_makeShared (A := A) (c := .server (h.makeShared A (.service i)).1)
  have hm := houter.keeps (Set.notMem_empty _) Heap.get_makeShared
  exact ⟨_,hinner.trans (houter.add _),.server Heap.get_makeShared hm⟩

theorem construct_makes [Inhabited DW] [Inhabited DR] (k : Kind) :
    Makes h k (construct A h k) (.unset k) := by
  cases k with
  | server => exact makes_server .init
  | service => exact makes_flat (r := .service .unset) rfl
  | client => exact makes_flat (r := .client .unset) rfl
  | requester => exact makes_flat (r := .requester .unset) rfl
  | replier => exact makes_flat (r := .replier .unset) rfl

theorem copyService_of_get {m : Nat} {i : ServiceParamsImpl DW DR}
    (hm : h.get m = some ⟨1,.service i⟩) :
    copyService A h m = some (h.makeShared A (.service i)) := by
  simp [copyService,deref_of_get hm]

theorem Rep.copyImpl (hr : Rep h o r F) :
    ∃ p, Params.copyImpl A h o.impl = some p ∧ Makes h o.kind p r := by
  cases hr with
  | @flat a i _ ha hi =>
    refine ⟨h.makeShared A i,?_,makes_flat hi⟩
    cases i with
    | server => cases hi
    | service | client | requester | replier => simp [Params.copyImpl,deref_of_get ha]
  | server ha hm =>
    refine ⟨_,?_,makes_server (A := A) _⟩
    simp [Params.copyImpl,deref_of_get ha,copyService_of_get hm]

theorem Rep.releaseImpl (hr : Rep h o r F) : Heap.Turns h (Params.releaseImpl h o.impl) F ∅ := by
  cases hr with
  | @flat a i _ ha hi =>
    cases i with
    | server => cases hi
    | service | client | requester | replier =>
      simp only [Params.releaseImpl,ha]
      exact Heap.turns_release ha
  | @server a m i ha hm =>
    simp only [Params.releaseImpl,ha]
    have hne : a ≠ m := Heap.ne_of_get ha hm (by simp)
    have hmember := Heap.turns_release hm
    have ha' := hmember.keeps (by simpa using hne) ha
    have := (hmember.drop {a}).trans (Heap.turns_release ha')
    rwa [Set.union_comm] at this

theorem Rep.assign (hr : Rep h o r F) (hr' : Rep h o' r' G) :
    ∃ p, Params.copyImpl A h o'.impl = some p ∧
      ∃ N, Heap.Turns h (Params.releaseImpl p.2 o.impl) F N ∧
        Rep (Params.releaseImpl p.2 o.impl) ⟨o'.kind,p.1⟩ r' N := by
  obtain ⟨p,hp,N,hnew,hcopy⟩ := hr'.copyImpl (A := A)
  have hold := (hr.turns hnew (Set.disjoint_empty F)).releaseImpl
  have hdis : Disjoint N F := hnew.disjoint (Set.empty_disjoint F) hr.subset_live
  exact ⟨p,hp,N,(hnew.add F).trans (Set.union_comm F N ▸ hold.drop N),hcopy.turns hold hdis⟩

theorem Rep.get (hr : Rep h o r F) (g : Getter) : Params.get h o.impl g = r.get g := by
  cases hr with
  | flat ha hi => simp [Params.get,deref_of_get ha,Impl.settings_get hi]
  | server ha hm => simp [Params.get,deref_of_get ha,Impl.get,Settings.get]

theorem Rep.set (hr : Rep h o r F) (s : Setter DW DR) :
    Option.Rel (fun h' r' => Heap.Turns h h' F F ∧ Rep h' o r' F)
      (Params.set h o.impl s) (r.set s) := by
  cases hr with
  | server ha hm =>
    simp only [Params.set,deref_of_get ha,Impl.set,Settings.set]
    exact .none
  | @flat a i _ ha hi =>
    simp only [Params.set,deref_of_get ha,Option.bind_eq_bind,Option.bind_some]
    refine (Impl.settings_set hi s).map_left ?_
    intro i' r' hset
    exact ⟨Heap.turns_write,hset.2 ▸ .flat (Heap.get_write ha) hset.1⟩

theorem Rep.takeDefault (hr : Rep h o r F) :
    Option.Rel (fun p s => Makes h .service p (.service s))
      (Params.takeDefault A h o.impl) r.takeDefault := by
  cases hr with
  | @flat a i _ ha hi =>
    cases i with
    | server => cases hi
    | service | client | requester | replier =>
      cases hi
      simp only [Params.takeDefault,deref_of_get ha]
      exact .none
  | server ha hm =>
    simp only [Params.takeDefault,deref_of_get ha,copyService_of_get hm]
    exact .some (makes_service _)

theorem Rep.getDefault (hr : Rep h o r F) (g : Getter) :
    Option.Rel (fun p s => p.1 = s.get g ∧ Heap.Turns h p.2 ∅ ∅)
      (Params.getDefault A h o.impl g) r.takeDefault := by
  refine hr.takeDefault.bind_left ?_
  intro p s hmakes
  obtain ⟨N,hnew,htemp⟩ := hmakes
  simp only [htemp.get g,Settings.get,Option.map_some]
  exact .some ⟨rfl,hnew.trans htemp.releaseImpl⟩

theorem turns_member {a m : Nat} {i : ServiceParamsImpl DW DR}
    (ha : h.get a = some ⟨1,.server m⟩) (hm : h.get m = some ⟨1,.service i⟩)
    (i' : ServiceParamsImpl DW DR) {p : Nat × Memory DW DR}
    (hp : h.makeShared A (.service i') = p) :
    ∃ N, Heap.Turns h ((p.2.write a (.server p.1)).release m) ({a} ∪ {m}) N ∧
      Rep ((p.2.write a (.server p.1)).release m) ⟨.server,a⟩ (.server i'.settings) N := by
  have hnew : Heap.Turns h p.2 ∅ {p.1} := hp ▸ Heap.turns_makeShared
  have hget : p.2.get p.1 = some ⟨1,.service i'⟩ := hp ▸ Heap.get_makeShared
  have hfresh : p.1 ∉ ({a} ∪ {m} : Set Nat) := Set.disjoint_singleton_left.mp
    (hnew.disjoint (Set.empty_disjoint _) (Rep.server ha hm).subset_live)
  have hne : a ≠ m := Heap.ne_of_get ha hm (by simp)
  have ha₁ := hnew.keeps (Set.notMem_empty a) ha
  have hm₁ := hnew.keeps (Set.notMem_empty m) hm
  have hwrite : Heap.Turns p.2 (p.2.write a (.server p.1)) {a} {a} := Heap.turns_write
  have ha₂ := Heap.get_write (c := .server p.1) ha₁
  have hm₂ := hwrite.keeps (Ne.symm hne) hm₁
  have hrelease := Heap.turns_release hm₂
  have hassign := (hwrite.union {m}).trans (Set.union_comm {m} {a} ▸ hrelease.drop {a})
  refine ⟨_,(hnew.add _).trans (Set.union_comm _ {p.1} ▸ hassign.union {p.1}),.server ?_ ?_⟩
  · exact hrelease.keeps hne ha₂
  · exact hassign.keeps hfresh hget

theorem Rep.putDefault (hr : Rep h o r F) (hr' : Rep h o' r' G) :
    Option.Rel (fun h' s => ∃ N, Heap.Turns h h' F N ∧ Rep h' o s N)
      (Params.putDefault A h o.impl o'.impl) (r.putDefault r') := by
  cases hr with
  | @flat a i _ ha hi =>
    cases i with
    | server => cases hi
    | service | client | requester | replier =>
      cases hi
      simp only [Params.putDefault,deref_of_get ha]
      exact .none
  | @server a m i ha hm =>
    cases hr' with
    | server hb =>
      simp only [Params.putDefault,deref_of_get ha,copyService,deref_of_get hb]
      exact .none
    | @flat b i' _ hb hi' =>
      cases i' with
      | server => cases hi'
      | service i' =>
        cases hi'
        simp only [Params.putDefault,deref_of_get ha,copyService_of_get hb]
        exact .some (turns_member ha hm i' rfl)
      | client | requester | replier =>
        cases hi'
        simp only [Params.putDefault,deref_of_get ha,copyService,deref_of_get hb]
        exact .none

end

inductive Slot (h : Memory DW DR) :
    Option (Option Object) → Option (Option (Settings DW DR)) → Set Nat → Prop
  | absent : Slot h none none ∅
  | gone : Slot h (some none) (some none) ∅
  | object {o : Object} {r : Settings DW DR} {F : Set Nat} (hr : Rep h o r F) :
      Slot h (some (some o)) (some (some r)) F

theorem Slot.subset_live {h : Memory DW DR} {o : Option (Option Object)}
    {r : Option (Option (Settings DW DR))} {F : Set Nat} (hs : Slot h o r F) : F ⊆ h.live := by
  cases hs with
  | absent | gone => exact Set.empty_subset _
  | object hr => exact hr.subset_live

theorem Slot.turns {h h' : Memory DW DR} {o : Option (Option Object)}
    {r : Option (Option (Settings DW DR))} {F G N : Set Nat} (hs : Slot h o r F)
    (ht : Heap.Turns h h' G N) (hFG : Disjoint F G) : Slot h' o r F := by
  cases hs with
  | absent => exact .absent
  | gone => exact .gone
  | object hr => exact .object (hr.turns ht hFG)

/-- Each object has the settings of its record, and all that is on the heap belongs to one
object each. -/
def Slots (h : Memory DW DR) (os : List (Option Object)) (rs : List (Option (Settings DW DR))) :
    Prop :=
  ∃ held : Nat → Set Nat, Ownership.Divides h.live held ∧ ∀ x, Slot h os[x]? rs[x]? (held x)

structure Represents (w : World DW DR) (v : Records DW DR) : Prop where
  observed : w.observed = v.observed
  length : w.objects.length = v.objects.length
  slots : Slots w.heap w.objects v.objects

theorem represents_init : Represents (World.init : World DW DR) Records.init where
  observed := rfl
  length := rfl
  slots := ⟨fun _ => ∅,Ownership.Divides.empty.congr_left (by simp [World.init,Heap.mem_live]),
    fun _ => .absent⟩

theorem Slots.update {h h' : Memory DW DR} {os os' : List (Option Object)}
    {rs rs' : List (Option (Settings DW DR))} {held : Nat → Set Nat} {N : Set Nat} {x : Nat}
    (hd : Ownership.Divides h.live held) (hs : ∀ y, Slot h os[y]? rs[y]? (held y))
    (ht : Heap.Turns h h' (held x) N) (hx : Slot h' os'[x]? rs'[x]? N)
    (hos : ∀ y, y ≠ x → os'[y]? = os[y]?) (hrs : ∀ y, y ≠ x → rs'[y]? = rs[y]?) :
    Slots h' os' rs' := by
  refine ⟨Function.update held x N,ht.divides hx.subset_live hd,fun y => ?_⟩
  rcases eq_or_ne y x with rfl | hyx
  · rwa [Function.update_self]
  · rw [Function.update_of_ne hyx,hos y hyx,hrs y hyx]
    exact (hs y).turns ht (hd.disjoint hyx)

namespace Represents
variable {w : World DW DR} {v : Records DW DR}

theorem add (hw : Represents w v) {k : Kind} {p : Nat × Memory DW DR} {r : Settings DW DR}
    (hp : Makes w.heap k p r) :
    Represents { w with heap := p.2, objects := w.objects ++ [some ⟨k,p.1⟩] } (v.add r) where
  observed := hw.observed
  length := by simp [Records.add,hw.length]
  slots := by
    obtain ⟨held,hd,hs⟩ := hw.slots
    obtain ⟨N,ht,hr⟩ := hp
    have hempty : held w.objects.length = ∅ := by
      have hslot := hs w.objects.length
      rw [List.getElem?_eq_none (Nat.le_refl _)] at hslot
      generalize v.objects[w.objects.length]? = r' at hslot
      generalize held w.objects.length = F at hslot ⊢
      cases hslot
      rfl
    refine Slots.update (x := w.objects.length) hd hs (hempty ▸ ht) ?_
      (fun y hy => Ownership.getElem?_concat_of_ne hy)
      (fun y hy => Ownership.getElem?_concat_of_ne (hw.length ▸ hy))
    simp only [Records.add,hw.length,List.getElem?_concat_length]
    rw [← hw.length,List.getElem?_concat_length]
    exact .object hr

theorem observe (hw : Represents w v) (u : Value DW DR) :
    Represents { w with observed := w.observed ++ [u] } (v.observe u) :=
  ⟨congrArg (· ++ [u]) hw.observed,hw.length,hw.slots⟩

structure At (w : World DW DR) (v : Records DW DR) (x : Nat) (o : Object) (r : Settings DW DR) :
    Prop where
  object : w.object x = some o
  record : v.object x = some r
  owns : ∃ F, Rep w.heap o r F ∧
    ∀ {h' o' r' N}, Heap.Turns w.heap h' F N → Slot h' (some o') (some r') N →
      Represents { w with heap := h', objects := w.objects.set x o' }
        { v with objects := v.objects.set x r' }

theorem object (hw : Represents w v) (x : Nat) :
    Option.Rel (At w v x) (w.object x) (v.object x) := by
  obtain ⟨held,hd,hs⟩ := hw.slots
  have hx := hs x
  have hset : ∀ {h' o' r' N}, Heap.Turns w.heap h' (held x) N → Slot h' (some o') (some r') N →
      x < w.objects.length → Slots h' (w.objects.set x o') (v.objects.set x r') := by
    intro h' o' r' N ht hslot hlt
    refine Slots.update (x := x) hd hs ht ?_ (fun y hy => List.getElem?_set_ne (Ne.symm hy))
      (fun y hy => List.getElem?_set_ne (Ne.symm hy))
    rwa [List.getElem?_set_self hlt,List.getElem?_set_self (hw.length ▸ hlt)]
  generalize held x = F at hx hset
  generalize ho : w.objects[x]? = o at hx
  generalize hr : v.objects[x]? = r at hx
  have hobject : w.object x = o.join := congrArg Option.join ho
  have hrecord : v.object x = r.join := congrArg Option.join hr
  rw [hobject,hrecord]
  cases hx with
  | absent | gone => exact .none
  | object hrep =>
    refine .some ⟨hobject,hrecord,_,hrep,fun ht hslot => ⟨hw.observed,by simp [hw.length],?_⟩⟩
    exact hset ht hslot (List.getElem?_eq_some_iff.mp ho).1

theorem set_self {X : Type} {l : List (Option X)} {x : Nat} {o : X} (hx : l[x]?.join = some o) :
    l.set x (some o) = l := by
  obtain ⟨hlt,hget⟩ := List.getElem?_eq_some_iff.mp (Option.join_eq_some_iff.mp hx)
  rw [← hget,List.set_getElem_self]

variable {A : MemoryAllocator DW DR}

theorem get (hw : Represents w v) (x : Nat) (g : Getter) :
    w.get x g = (v.object x).bind (Settings.get · g) := by
  refine (hw.object x).bind_eq ?_
  intro o r hx
  obtain ⟨F,hrep,_⟩ := hx.owns
  exact hrep.get g

theorem getDefault (hw : Represents w v) (x : Nat) (g : Getter) :
    (w.getDefault A x g).map Prod.fst =
      ((v.object x).bind Settings.takeDefault).map (ServiceSettings.get · g) := by
  have hx : Option.Rel (fun p s => p.1 = s.get g ∧ Heap.Turns w.heap p.2 ∅ ∅)
      (w.getDefault A x g) ((v.object x).bind Settings.takeDefault) := by
    refine (hw.object x).bind ?_
    intro o r hx
    obtain ⟨F,hrep,_⟩ := hx.owns
    exact hrep.getDefault g
  exact hx.map_eq (fun _ _ h => h.1)

variable [Inhabited DW] [Inhabited DR]

theorem step (hw : Represents w v) (e : Op DW DR) :
    Option.Rel Represents (World.step A w e) (v.step e) := by
  cases e with
  | construct k => exact .some (hw.add (construct_makes k))
  | copy x =>
    refine (hw.object x).bind_map ?_
    intro o r hx
    obtain ⟨F,hrep,_⟩ := hx.owns
    obtain ⟨p,hp,hmakes⟩ := hrep.copyImpl (A := A)
    rw [hp]
    exact .some (hw.add hmakes)
  | assign x that =>
    refine (hw.object x).bind ?_
    intro o r hx
    obtain ⟨F,hrep,hput⟩ := hx.owns
    refine (hw.object that).bind ?_
    intro o' r' hx'
    obtain ⟨F',hrep',_⟩ := hx'.owns
    obtain ⟨p,hp,N,ht,hassigned⟩ := hrep.assign (A := A) hrep'
    rw [hp,hrep.kind,hrep'.kind]
    by_cases hk : r.kind = r'.kind
    · rw [if_pos hk,if_pos hk,hk,← hrep'.kind]
      exact .some (hput ht (.object hassigned))
    · rw [if_neg hk,if_neg hk]
      exact .none
  | set x s =>
    refine (hw.object x).bind ?_
    intro o r hx
    obtain ⟨F,hrep,hput⟩ := hx.owns
    refine (hrep.set s).bind_map ?_
    intro h' r' hset
    have := hput hset.1 (.object hset.2)
    rw [set_self hx.object] at this
    exact .some this
  | get x g =>
    simp only [World.step,Records.step,World.get,Option.bind_eq_bind,Option.bind_assoc]
    refine (hw.object x).bind ?_
    intro o r hx
    obtain ⟨F,hrep,_⟩ := hx.owns
    rw [hrep.get]
    cases r.get g with
    | none => exact .none
    | some u => exact .some (hw.observe u)
  | putDefault x service_params =>
    refine (hw.object x).bind ?_
    intro o r hx
    obtain ⟨F,hrep,hput⟩ := hx.owns
    refine (hw.object service_params).bind ?_
    intro o' r' hx'
    obtain ⟨F',hrep',_⟩ := hx'.owns
    refine (hrep.putDefault hrep').bind_map ?_
    intro h' s hset
    obtain ⟨N,ht,hrep''⟩ := hset
    have := hput ht (.object hrep'')
    rw [set_self hx.object] at this
    exact .some this
  | takeDefault x =>
    refine (hw.object x).bind ?_
    intro o r hx
    obtain ⟨F,hrep,_⟩ := hx.owns
    exact hrep.takeDefault.bind_map (fun p s hmakes => .some (hw.add hmakes))
  | getDefault x g =>
    simp only [World.step,Records.step,World.getDefault,Option.bind_eq_bind,Option.bind_assoc]
    refine (hw.object x).bind ?_
    intro o r hx
    obtain ⟨F,hrep,hput⟩ := hx.owns
    refine (hrep.getDefault g).bind_map ?_
    intro p s hget
    obtain ⟨hp,ht⟩ := hget
    have hsame := hput (by simpa using ht.union F) (.object (hrep.turns ht (Set.disjoint_empty F)))
    rw [set_self hx.object,set_self hx.record] at hsame
    rw [← hp]
    exact .some (hsame.observe p.1)
  | destroy x =>
    refine (hw.object x).bind ?_
    intro o r hx
    obtain ⟨F,hrep,hput⟩ := hx.owns
    exact .some (hput hrep.releaseImpl .gone)

end Represents

theorem Records.object_put (v : Records DW DR) {x y : Nat} (r : Settings DW DR) (hyx : y ≠ x) :
    (v.put x r).object y = v.object y := by
  simp [object,put,List.getElem?_set_ne (Ne.symm hyx)]

theorem Records.step_setter {v v' : Records DW DR} {e : Op DW DR} {x : Nat}
    (he : e.isSetterOf x) (h : v.step e = some v') :
    ∃ r, v' = v.put x r := by
  cases e with
  | set y s =>
    obtain rfl : y = x := he
    simp only [step,Option.bind_eq_bind,Option.bind_eq_some_iff,Option.map_eq_some_iff] at h
    obtain ⟨_,_,r,_,rfl⟩ := h
    exact ⟨r,rfl⟩
  | putDefault y z =>
    obtain rfl : y = x := he
    simp only [step,Option.bind_eq_bind,Option.bind_eq_some_iff,Option.map_eq_some_iff] at h
    obtain ⟨_,_,_,_,r,_,rfl⟩ := h
    exact ⟨r,rfl⟩
  | construct | copy | assign | get | takeDefault | getDefault | destroy => cases he

variable [Inhabited DW] [Inhabited DR]

theorem represents_run (A : MemoryAllocator DW DR) (es : List (Op DW DR)) :
    Option.Rel Represents ((World.machine A).run .init es) ((Records.machine DW DR).run .init es) :=
  Machine.run_lockstep (fun hw e => hw.step e) represents_init es

/-- With any allocator a program runs as it does on records, and its getters return the same.
No setter of an object changes what a getter of another one returns. -/
theorem params_asRecords (A : MemoryAllocator DW DR) :
    (∀ es, ((World.machine A).run .init es).map World.observed =
      ((Records.machine DW DR).run .init es).map Records.observed) ∧
    ∀ es e (w w' : World DW DR) x, (World.machine A).run .init es = some w → e.isSetterOf x →
      (World.machine A).step w e = some w' → ∀ y, y ≠ x → ∀ g,
        w'.get y g = w.get y g ∧
        (w'.getDefault A y g).map Prod.fst = (w.getDefault A y g).map Prod.fst := by
  refine ⟨fun es => ?_,fun es e w w' x hrun he hstep y hyx g => ?_⟩
  · exact (represents_run A es).map_eq (fun _ _ hw => hw.observed)
  · obtain ⟨v,_,hw⟩ := (hrun ▸ represents_run A es).exists_right
    have hnext : Option.Rel Represents ((World.machine A).step w e) (v.step e) := hw.step e
    rw [hstep] at hnext
    obtain ⟨v',hv,hw'⟩ := hnext.exists_right
    obtain ⟨r,rfl⟩ := Records.step_setter he hv
    rw [hw'.get,hw.get,hw'.getDefault,hw.getDefault,Records.object_put v r hyx]
    exact ⟨rfl,rfl⟩

theorem params_asRecords_default : ∃ w w' : World Nat Nat,
    (World.machine .above).run .init [.construct .service,.set 0 (.serviceName "Robot"),
      .construct .server,.putDefault 1 0,.assign 1 1,.takeDefault 1] = some w ∧
    (World.machine .above).step w (.set 0 (.serviceName "Other")) = some w' ∧
    (w'.getDefault .above 1 .serviceName).map Prod.fst =
      (w.getDefault .above 1 .serviceName).map Prod.fst :=
  ⟨_,_,rfl,rfl,((params_asRecords .above).2 [.construct .service,.set 0 (.serviceName "Robot"),
    .construct .server,.putDefault 1 0,.assign 1 1,.takeDefault 1]
    (.set 0 (.serviceName "Other")) _ _ 0 rfl rfl rfl 1 (by decide) .serviceName).2⟩

end Params
end DdsRpc
