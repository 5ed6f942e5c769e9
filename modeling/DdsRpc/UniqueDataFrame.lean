import DdsRpc.UniqueData
set_option autoImplicit false

namespace DdsRpc
namespace UniqueData
variable {T : Type}

/-- The data and handles of `v` made after those of `w`. -/
def frame (w v : UniqueData T) : UniqueData T where
  data := w.data ++ v.data
  deleted := w.deleted ++ v.deleted.map (w.data.length + ·)
  given := w.given ++ v.given.map (w.data.length + ·)
  handles := w.handles ++ v.handles.map (Option.map (Option.map (w.data.length + ·)))

def Event.shift (w : UniqueData T) : Event T → Event T
  | .construct created => .construct created
  | .createData t => .createData t
  | .deleteData d => .deleteData (w.data.length + d)
  | .adopt t => .adopt (t.map (w.data.length + ·))
  | .moveConstruct ud => .moveConstruct (w.handles.length + ud)
  | .moveAssign h ud => .moveAssign (w.handles.length + h) (w.handles.length + ud)
  | .write h f => .write (w.handles.length + h) f
  | .destroy h => .destroy (w.handles.length + h)

variable (w v : UniqueData T)

@[simp] theorem frame_init : w.frame init = w := by simp [frame,init]

theorem handle_frame (i : Nat) :
    (w.frame v).handle (w.handles.length + i) =
      (v.handle i).map (Option.map (w.data.length + ·)) := by
  simp [handle,frame,List.getElem?_append_right]
  cases v.handles[i]? <;> rfl

theorem ptr_frame (i : Nat) :
    (w.frame v).ptr (w.handles.length + i) = (v.ptr i).map (w.data.length + ·) := by
  rw [ptr,handle_frame,ptr]
  cases v.handle i <;> rfl

theorem deref_frame (i : Nat) : (w.frame v).deref (w.handles.length + i) = v.deref i := by
  rw [deref,ptr_frame,deref]
  cases v.ptr i with
  | none => rfl
  | some d => simp [frame,List.getElem?_append_right]

theorem createData_frame (t : T) : (w.frame v).createData t = w.frame (v.createData t) := by
  simp [createData,frame]

theorem adopt_frame (t : Option Nat) :
    (w.frame v).adopt (t.map (w.data.length + ·)) = w.frame (v.adopt t) := by
  cases t <;> simp [adopt,frame]

theorem construct_frame (t : T) : (w.frame v).construct t = w.frame (v.construct t) := by
  rw [construct,construct,← adopt_frame,← createData_frame]
  simp [frame]

theorem moveConstruct_frame (i : Nat) :
    (w.frame v).moveConstruct (w.handles.length + i) = w.frame (v.moveConstruct i) := by
  rw [moveConstruct,ptr_frame]
  simp [moveConstruct,frame,List.set_append_right,List.map_set]

theorem moveAssign_frame (i j : Nat) :
    (w.frame v).moveAssign (w.handles.length + i) (w.handles.length + j) =
      w.frame (v.moveAssign i j) := by
  rw [moveAssign,ptr_frame,ptr_frame]
  simp [moveAssign,frame,List.set_append_right,List.map_set]

theorem write_frame (i : Nat) (f : T → T) :
    (w.frame v).write (w.handles.length + i) f = w.frame (v.write i f) := by
  rw [write,ptr_frame,write]
  cases v.ptr i with
  | none => rfl
  | some d =>
    have hmod : (w.data ++ v.data).modify (w.data.length+d) f = w.data ++ v.data.modify d f :=
      List.modifyTailIdx_add (List.modifyHead f) d w.data v.data
    simp [frame,hmod]

theorem destroy_frame (i : Nat) :
    (w.frame v).destroy (w.handles.length + i) = w.frame (v.destroy i) := by
  rw [destroy,ptr_frame]
  cases h : v.ptr i <;> simp [destroy,frame,List.set_append_right,List.map_set,h]

theorem apply_frame (e : Event T) : (w.frame v).apply (e.shift w) = w.frame (v.apply e) := by
  cases e with
  | construct created =>
    cases created with
    | none => rfl
    | some t => exact construct_frame w v t
  | createData t => exact createData_frame w v t
  | deleteData d => simp [Event.shift,apply,deleteData,frame]
  | adopt t => exact adopt_frame w v t
  | moveConstruct ud => exact moveConstruct_frame w v ud
  | moveAssign h ud => exact moveAssign_frame w v h ud
  | write h f => exact write_frame w v h f
  | destroy h => exact destroy_frame w v h

variable {w v : UniqueData T}

theorem live_frame (hw : Owned w) {d : Nat} (h : v.Live d) :
    (w.frame v).Live (w.data.length + d) := by
  obtain ⟨hlt,hdel⟩ := h
  refine ⟨by simpa [frame] using hlt,fun hd => ?_⟩
  rcases List.mem_append.mp hd with hd | hd
  · have := hw.deleted _ hd
    omega
  · exact hdel (by simpa using hd)

theorem given_frame (hw : Owned w) {d : Nat} (h : d ∉ v.given) :
    w.data.length + d ∉ (w.frame v).given := by
  intro hd
  rcases List.mem_append.mp hd with hd | hd
  · have := hw.given _ hd
    omega
  · exact h (by simpa using hd)

theorem handles_frame (hw : Owned w) {d : Nat} (h : some (some d) ∉ v.handles) :
    some (some (w.data.length + d)) ∉ (w.frame v).handles := by
  intro hd
  rcases List.mem_append.mp hd with hd | hd
  · obtain ⟨i,hi⟩ := List.mem_iff_getElem?.mp hd
    have := hw.given _ (hw.divides.sub i (mem_held.mpr hi)).1
    omega
  · obtain ⟨s,hs,hsd⟩ := List.mem_map.mp hd
    refine h (?_ : some (some d) ∈ v.handles)
    rcases s with _ | _ | a <;> simp_all

theorem allowed_frame (hw : Owned w) {e : Event T} (h : v.allowed e = true) :
    (w.frame v).allowed (e.shift w) = true := by
  cases e with
  | construct | createData => rfl
  | deleteData d =>
    obtain ⟨hl,hd⟩ := of_decide_eq_true h
    exact decide_eq_true ⟨live_frame hw hl,given_frame hw hd⟩
  | adopt t =>
    have ht := of_decide_eq_true h
    refine decide_eq_true (fun a ha => ?_)
    obtain ⟨d,hd,rfl⟩ := Option.map_eq_some_iff.mp ha
    exact ⟨live_frame hw (ht d hd).1,handles_frame hw (ht d hd).2⟩
  | moveConstruct ud | destroy h => simpa [allowed,Event.shift,handle_frame] using h
  | moveAssign h ud => simpa [allowed,Event.shift,handle_frame] using h
  | write i f =>
    obtain ⟨d,hd,hl⟩ := (Option.any_eq_true _ _).mp h
    have hlive := decide_eq_true (live_frame hw (of_decide_eq_true hl))
    simpa [allowed,Event.shift,ptr_frame,hd] using hlive

/-- What can be done with nothing around can be done anywhere. -/
theorem run_frame (hw : Owned w) {v' : UniqueData T} {es : List (Event T)}
    (h : (machine T).run v es = some v') :
    (machine T).run (w.frame v) (es.map (Event.shift w)) = some (w.frame v') := by
  induction es generalizing v with
  | nil =>
    cases h
    rfl
  | cons e es ih =>
    obtain ⟨u,hu,hrun⟩ := Machine.run_cons.mp h
    obtain ⟨ha,rfl⟩ := step_eq_some.mp hu
    exact Machine.run_cons.mpr
      ⟨_,step_eq_some.mpr ⟨allowed_frame hw ha,apply_frame w v e⟩,ih hrun⟩

theorem frame_frame (w v u : UniqueData T) : (w.frame v).frame u = w.frame (v.frame u) := by
  simp [frame,Function.comp_def,Nat.add_assoc]

theorem shift_frame (w v : UniqueData T) (e : Event T) :
    e.shift (w.frame v) = (e.shift v).shift w := by
  cases e <;> simp [Event.shift,frame,Nat.add_assoc,Function.comp_def]

def made (es : List (Event T)) : UniqueData T := es.foldl apply init

theorem foldl_frame (w v : UniqueData T) (es : List (Event T)) :
    (es.map (Event.shift w)).foldl apply (w.frame v) = w.frame (es.foldl apply v) := by
  induction es generalizing v with
  | nil => rfl
  | cons e es ih =>
    rw [List.map_cons,List.foldl_cons,apply_frame,ih]
    rfl

theorem frame_made (es fs : List (Event T)) :
    (made es).frame (made fs) = made (es ++ fs.map (Event.shift (made es))) := by
  have hfold := foldl_frame (made es) init fs
  rw [frame_init] at hfold
  rw [made,made,made,List.foldl_append]
  exact hfold.symm

end UniqueData

end DdsRpc
