import DdsRpc.Library.Machine
import DdsRpc.Library.Ownership
import Mathlib.Data.List.Nodup
set_option autoImplicit false

/-! `helper::unique_data` of unique_data.h, and the data that its handles own. -/

namespace DdsRpc

/-- A datum is named by its place in the order of creation, and `deleted` lists the calls
of `delete_data`. A handle is its `ptr_`; in the place of one that is gone there is `none`.
What was put into a handle at its construction is `given`. -/
structure UniqueData (T : Type) where
  data : List T
  deleted : List Nat
  given : List Nat
  handles : List (Option (Option Nat))

namespace UniqueData
variable {T : Type}

def init : UniqueData T := ⟨[],[],[],[]⟩

def handle (w : UniqueData T) (h : Nat) : Option (Option Nat) := w.handles[h]?.join

def ptr (w : UniqueData T) (h : Nat) : Option Nat := (w.handle h).join

def Live (w : UniqueData T) (d : Nat) : Prop := d < w.data.length ∧ d ∉ w.deleted

def Holds (w : UniqueData T) (h d : Nat) : Prop := w.handles[h]? = some (some (some d))

instance (w : UniqueData T) (d : Nat) : Decidable (w.Live d) :=
  inferInstanceAs (Decidable (_ ∧ _))

def createData (w : UniqueData T) (t : T) : UniqueData T := { w with data := w.data ++ [t] }

def deleteData (w : UniqueData T) (d : Nat) : UniqueData T := { w with deleted := w.deleted ++ [d] }

def adopt (w : UniqueData T) (t : Option Nat) : UniqueData T :=
  { w with
    given := w.given ++ t.toList
    handles := w.handles ++ [some t] }

def construct (w : UniqueData T) (t : T) : UniqueData T := (w.createData t).adopt w.data.length

def moveConstruct (w : UniqueData T) (ud : Nat) : UniqueData T :=
  { w with handles := w.handles.set ud (some none) ++ [some (w.ptr ud)] }

def moveAssign (w : UniqueData T) (h ud : Nat) : UniqueData T :=
  { w with handles := (w.handles.set h (some (w.ptr ud))).set ud (some (w.ptr h)) }

def deref (w : UniqueData T) (h : Nat) : Option T := (w.ptr h).bind (fun d => w.data[d]?)

def write (w : UniqueData T) (h : Nat) (f : T → T) : UniqueData T :=
  match w.ptr h with
  | some d => { w with data := w.data.modify d f }
  | none => w

def destroy (w : UniqueData T) (h : Nat) : UniqueData T :=
  { w with
    deleted := w.deleted ++ (w.ptr h).toList
    handles := w.handles.set h none }

/-- In `construct none`, `create_data` fails and the constructor throws. `createData` and
`deleteData` are calls of the application for data that it owns. -/
inductive Event (T : Type) where
  | construct (created : Option T)
  | createData (t : T)
  | deleteData (d : Nat)
  | adopt (t : Option Nat)
  | moveConstruct (ud : Nat)
  | moveAssign (h ud : Nat)
  | write (h : Nat) (f : T → T)
  | destroy (h : Nat)

/-- A handle takes a live datum that no handle owns, and only such data are the
application's to delete. -/
def allowed (w : UniqueData T) : Event T → Bool
  | .construct _ | .createData _ => true
  | .deleteData d => w.Live d ∧ d ∉ w.given
  | .adopt t => ∀ d ∈ t, w.Live d ∧ some (some d) ∉ w.handles
  | .moveConstruct ud => (w.handle ud).isSome
  | .moveAssign h ud => (w.handle h).isSome && (w.handle ud).isSome
  | .write h _ => (w.ptr h).any (fun d => w.Live d)
  | .destroy h => (w.handle h).isSome

def apply (w : UniqueData T) : Event T → UniqueData T
  | .construct (some t) => w.construct t
  | .construct none => w
  | .createData t => w.createData t
  | .deleteData d => w.deleteData d
  | .adopt t => w.adopt t
  | .moveConstruct ud => w.moveConstruct ud
  | .moveAssign h ud => w.moveAssign h ud
  | .write h f => w.write h f
  | .destroy h => w.destroy h

def machine (T : Type) : Machine (UniqueData T) (Event T) where
  step w e := if w.allowed e then some (w.apply e) else none

/-- Live data that were given to handles are held by one handle each, and nothing is deleted
twice or while it is held. -/
structure Exclusive (w : UniqueData T) : Prop where
  held : ∀ d ∈ w.given, w.Live d → ∃! h, w.Holds h d
  live : ∀ h d, w.Holds h d → d ∈ w.given ∧ w.Live d
  once : w.deleted.Nodup
  released : ∀ d ∈ w.deleted, ∀ h, ¬w.Holds h d
  ended : (∀ h ∈ w.handles, h = none) → ∀ d ∈ w.given, w.deleted.count d = 1

def owns (h : Option (Option Nat)) : Set Nat := {d | h = some (some d)}

def owned (w : UniqueData T) : Set Nat := {d | d ∈ w.given ∧ w.Live d}

structure Owned (w : UniqueData T) : Prop where
  divides : Ownership.Divides w.owned (Ownership.held owns w.handles)
  given : ∀ d ∈ w.given, d < w.data.length
  deleted : ∀ d ∈ w.deleted, d < w.data.length
  once : w.deleted.Nodup

theorem mem_held {w : UniqueData T} {h d : Nat} :
    d ∈ Ownership.held owns w.handles h ↔ w.Holds h d := by
  simp [Ownership.held,owns,Holds]

theorem handle_eq_some {w : UniqueData T} {h : Nat} {p : Option Nat} :
    w.handle h = some p ↔ w.handles[h]? = some (some p) := by
  simp [handle,Option.join_eq_some_iff]

theorem ptr_eq_some {w : UniqueData T} {h d : Nat} : w.ptr h = some d ↔ w.Holds h d := by
  simp [ptr,Option.join_eq_some_iff,handle_eq_some,Holds]

theorem Owned.exclusive {w : UniqueData T} (hw : Owned w) : Exclusive w where
  held d hd hl := by
    obtain ⟨h,hh,hu⟩ := hw.divides.exclusive d ⟨hd,hl⟩
    exact ⟨h,mem_held.mp hh,fun g hg => hu g (mem_held.mpr hg)⟩
  live h d hh := hw.divides.sub h (mem_held.mpr hh)
  once := hw.once
  released d hd h hh := (hw.divides.sub h (mem_held.mpr hh)).2.2 hd
  ended hnone d hd := by
    refine List.count_eq_one_of_mem hw.once (by_contra (fun hdel => ?_))
    obtain ⟨h,hh,_⟩ := hw.divides.exclusive d ⟨hd,hw.given d hd,hdel⟩
    cases hnone _ (List.mem_of_getElem? (mem_held.mp hh))

theorem owned_init : Owned (init : UniqueData T) where
  divides := by
    rw [show (init : UniqueData T).handles = [] from rfl,Ownership.held_nil]
    exact Ownership.Divides.empty.congr_left (by simp [owned,init])
  given := by simp [init]
  deleted := by simp [init]
  once := List.nodup_nil

theorem Owned.ptr_live {w : UniqueData T} (hw : Owned w) {h d : Nat} (hd : w.ptr h = some d) :
    w.Live d := (hw.divides.sub h (mem_held.mpr (ptr_eq_some.mp hd))).2

theorem held_ptr {w : UniqueData T} {h : Nat} (hh : (w.handle h).isSome) :
    w.handles[h]? = some (some (w.ptr h)) := by
  obtain ⟨p,hp⟩ := Option.isSome_iff_exists.mp hh
  rw [← handle_eq_some,hp,ptr,hp,Option.join_some]

theorem lt_of_handle {w : UniqueData T} {h : Nat} (hh : (w.handle h).isSome) :
    h < w.handles.length := (List.getElem?_eq_some_iff.mp (held_ptr hh)).1

theorem owned_createData {w : UniqueData T} (hw : Owned w) (t : T) : Owned (w.createData t) where
  divides := by
    refine hw.divides.congr_left (fun d => ?_)
    simp only [owned,Live,createData,Set.mem_ofPred_eq,List.length_append,List.length_singleton]
    refine and_congr_right (fun hd => and_congr_left (fun _ => ?_))
    have := hw.given d hd
    omega
  given d hd := by
    have := hw.given d hd
    simp only [createData,List.length_append]
    omega
  deleted d hd := by
    have := hw.deleted d hd
    simp only [createData,List.length_append]
    omega
  once := hw.once

theorem owned_deleteData {w : UniqueData T} (hw : Owned w) {d : Nat} (hl : w.Live d)
    (hd : d ∉ w.given) : Owned (w.deleteData d) where
  divides := by
    refine hw.divides.congr_left
      (fun a => and_congr_right (fun ha => and_congr_right (fun _ => ?_)))
    have : a ≠ d := fun had => hd (had ▸ ha)
    simp [deleteData,this]
  given := hw.given
  deleted := by
    rintro a ha
    rcases List.mem_append.mp ha with ha | ha
    · exact hw.deleted a ha
    · rw [List.mem_singleton.mp ha]
      exact hl.1
  once := List.nodup_append.mpr ⟨hw.once,List.nodup_singleton d,
    fun a ha b hb hab => hl.2 (List.mem_singleton.mp hb ▸ hab ▸ ha)⟩

theorem owned_adopt {w : UniqueData T} (hw : Owned w) {t : Option Nat}
    (ht : ∀ d ∈ t, w.Live d ∧ some (some d) ∉ w.handles) : Owned (w.adopt t) where
  divides := by
    have hfree : ∀ d ∈ owns (some t),d ∈ w.owned →
        d ∈ Ownership.held owns w.handles w.handles.length := by
      intro d hd hS
      obtain ⟨h,hh,_⟩ := hw.divides.exclusive d hS
      exact absurd (List.mem_of_getElem? (mem_held.mp hh)) (ht d (Option.some.inj hd)).2
    rw [show (w.adopt t).handles = w.handles ++ [some t] from rfl,Ownership.held_concat]
    refine (hw.divides.update _ hfree).congr_left (fun d => ?_)
    rw [Ownership.held_of_length_le (Nat.le_refl _),Set.sdiff_empty]
    have hlive : t = some d → w.Live d := fun hd => (ht d hd).1
    simp only [owned,owns,adopt,Live,Set.mem_ofPred_eq,Set.mem_union,List.mem_append,
      Option.mem_toList,Option.some.injEq] at hlive ⊢
    tauto
  given d hd := by
    rcases List.mem_append.mp hd with hd | hd
    · exact hw.given d hd
    · exact (ht d (Option.mem_toList.mp hd)).1.1
  deleted := hw.deleted
  once := hw.once

theorem owned_construct {w : UniqueData T} (hw : Owned w) (t : T) : Owned (w.construct t) := by
  refine owned_adopt (owned_createData hw t) ?_
  rintro d ⟨⟩
  refine ⟨⟨by simp [createData],fun hd => ?_⟩,fun hd => ?_⟩
  · exact Nat.lt_irrefl _ (hw.deleted _ hd)
  · obtain ⟨h,hh⟩ := List.mem_iff_getElem?.mp hd
    exact Nat.lt_irrefl _ (hw.divides.sub h (mem_held.mpr hh)).2.1

/-- As if a null handle were made and swapped with the old one. -/
theorem owned_moveConstruct {w : UniqueData T} (hw : Owned w) {ud : Nat}
    (hud : (w.handle ud).isSome) : Owned (w.moveConstruct ud) where
  divides := by
    have hlt := lt_of_handle hud
    have hold : (w.handles ++ [some none])[ud]? = some (some (w.ptr ud)) := by
      rw [List.getElem?_append_left hlt,held_ptr hud]
    have hnew : (w.handles ++ [some none])[w.handles.length]? = some (some none) :=
      List.getElem?_concat_length
    have hswap : (w.moveConstruct ud).handles =
        ((w.handles ++ [some none]).set ud (some none)).set w.handles.length
          (some (w.ptr ud)) := by
      simp [moveConstruct,hlt]
    rw [hswap,Ownership.held_swap hold hnew,
      Ownership.held_concat_of_empty (by simp [owns])]
    exact hw.divides.comp _
  given := hw.given
  deleted := hw.deleted
  once := hw.once

theorem owned_moveAssign {w : UniqueData T} (hw : Owned w) {h ud : Nat}
    (hh : (w.handle h).isSome) (hud : (w.handle ud).isSome) : Owned (w.moveAssign h ud) where
  divides := by
    rw [show (w.moveAssign h ud).handles =
      (w.handles.set h (some (w.ptr ud))).set ud (some (w.ptr h)) from rfl,
      Ownership.held_swap (held_ptr hh) (held_ptr hud)]
    exact hw.divides.comp (Equiv.swap h ud)
  given := hw.given
  deleted := hw.deleted
  once := hw.once

theorem owned_write {w : UniqueData T} (hw : Owned w) (h : Nat) (f : T → T) :
    Owned (w.write h f) := by
  unfold write
  cases w.ptr h with
  | none => exact hw
  | some d =>
    have hlen : (w.data.modify d f).length = w.data.length := List.length_modify ..
    exact {
      divides := hw.divides.congr_left (fun a => by simp [owned,Live])
      given := fun a ha => hlen ▸ hw.given a ha
      deleted := fun a ha => hlen ▸ hw.deleted a ha
      once := hw.once }

theorem owned_destroy {w : UniqueData T} (hw : Owned w) {h : Nat} (hh : (w.handle h).isSome) :
    Owned (w.destroy h) where
  divides := by
    rw [show (w.destroy h).handles = w.handles.set h none from rfl,
      Ownership.held_set (lt_of_handle hh)]
    refine (hw.divides.update h (fun d hd => by simp [owns] at hd)).congr_left (fun d => ?_)
    rw [Ownership.held_of_getElem? (held_ptr hh)]
    simp only [owned,owns,destroy,Live,Set.mem_ofPred_eq,Set.mem_union,Set.mem_sdiff,
      List.mem_append,Option.mem_toList,Option.some.injEq,reduceCtorEq,or_false]
    tauto
  given := hw.given
  deleted d hd := by
    rcases List.mem_append.mp hd with hd | hd
    · exact hw.deleted d hd
    · exact (hw.ptr_live (Option.mem_toList.mp hd)).1
  once := by
    refine List.nodup_append.mpr ⟨hw.once,by cases w.ptr h <;> simp,fun a ha b hb hab => ?_⟩
    exact (hw.ptr_live (Option.mem_toList.mp hb)).2 (hab ▸ ha)

theorem step_eq_some {w w' : UniqueData T} {e : Event T} :
    (machine T).step w e = some w' ↔ w.allowed e = true ∧ w.apply e = w' := by
  simp [machine]

theorem owned_step {w w' : UniqueData T} {e : Event T} (h : (machine T).step w e = some w')
    (hw : Owned w) : Owned w' := by
  obtain ⟨ha,rfl⟩ := step_eq_some.mp h
  cases e with
  | construct created =>
    cases created with
    | none => exact hw
    | some t => exact owned_construct hw t
  | createData t => exact owned_createData hw t
  | deleteData d =>
    obtain ⟨hl,hd⟩ := of_decide_eq_true ha
    exact owned_deleteData hw hl hd
  | adopt t => exact owned_adopt hw (of_decide_eq_true ha)
  | moveConstruct ud => exact owned_moveConstruct hw ha
  | moveAssign h ud =>
    obtain ⟨hh,hud⟩ := Bool.and_eq_true_iff.mp ha
    exact owned_moveAssign hw hh hud
  | write g f => exact owned_write hw g f
  | destroy h => exact owned_destroy hw ha

theorem owned_run {w w' : UniqueData T} {es : List (Event T)}
    (h : (machine T).run w es = some w') (hw : Owned w) : Owned w' :=
  Machine.run_preserves (P := Owned) owned_step h hw

end UniqueData
end DdsRpc
