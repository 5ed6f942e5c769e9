import DdsRpc.Library.Ownership
set_option autoImplicit false

/-! Objects behind shared pointers, on a heap with any allocator, and what work on some
of them leaves alone. -/

/-- The objects above `bound` are not there, so a place for a new one can be found. -/
structure Heap (C : Type) where
  get : Nat → Option C
  bound : Nat
  get_bound : ∀ a, bound ≤ a → get a = none

namespace Heap
variable {C : Type}

def empty : Heap C := ⟨fun _ => none,0,fun _ _ => rfl⟩

def set (h : Heap C) (a : Nat) (c : C) : Heap C where
  get := Function.update h.get a (some c)
  bound := max h.bound (a+1)
  get_bound b hb := by
    have hba : b ≠ a := by omega
    rw [Function.update_of_ne hba]
    exact h.get_bound b (by omega)

def free (h : Heap C) (a : Nat) : Heap C where
  get := Function.update h.get a none
  bound := h.bound
  get_bound b hb := by
    rcases eq_or_ne b a with rfl | hba
    · simp
    · rw [Function.update_of_ne hba]
      exact h.get_bound b hb

@[simp] theorem get_empty (a : Nat) : (empty : Heap C).get a = none := rfl

@[simp] theorem get_set_self (h : Heap C) (a : Nat) (c : C) : (h.set a c).get a = some c := by
  simp [set]

theorem get_set_of_ne (h : Heap C) {a b : Nat} (c : C) (hba : b ≠ a) :
    (h.set a c).get b = h.get b := by
  simp [set,hba]

@[simp] theorem get_free_self (h : Heap C) (a : Nat) : (h.free a).get a = none := by
  simp [free]

theorem get_free_of_ne (h : Heap C) {a b : Nat} (hba : b ≠ a) : (h.free a).get b = h.get b := by
  simp [free,hba]

def live (h : Heap C) : Set Nat := {a | (h.get a).isSome}

theorem mem_live {h : Heap C} {a : Nat} : a ∈ h.live ↔ (h.get a).isSome := Iff.rfl

theorem mem_live_of_get {h : Heap C} {a : Nat} {c : C} (ha : h.get a = some c) : a ∈ h.live := by
  simp [mem_live,ha]

theorem get_eq_none {h : Heap C} {a : Nat} : h.get a = none ↔ a ∉ h.live := by
  simp [mem_live]

theorem ne_of_get {h : Heap C} {a b : Nat} {c d : C} (ha : h.get a = some c)
    (hb : h.get b = some d) (hcd : c ≠ d) : a ≠ b := by
  rintro rfl
  exact hcd (Option.some.inj (ha.symm.trans hb))

/-- From `h` to `h'` only the objects at `F` were touched; those at `N` are there now
in their stead. -/
structure Turns (h h' : Heap C) (F N : Set Nat) : Prop where
  frame : ∀ a, a ∉ F → a ∉ N → h'.get a = h.get a
  fresh : ∀ a ∈ N, a ∈ F ∨ a ∉ h.live
  freed : ∀ a ∈ F, a ∉ N → a ∉ h'.live

namespace Turns
variable {h h₁ h₂ : Heap C} {F N M : Set Nat}

theorem refl (h : Heap C) (F : Set Nat) : Turns h h F F :=
  ⟨fun _ _ _ => rfl,fun _ => .inl,fun _ hF hN => absurd hF hN⟩

theorem trans (h1 : Turns h h₁ F N) (h2 : Turns h₁ h₂ N M) : Turns h h₂ F M where
  frame a hF hM := by
    by_cases hN : a ∈ N
    · rw [get_eq_none.mpr (h2.freed a hN hM),get_eq_none.mpr ((h1.fresh a hN).resolve_left hF)]
    · rw [h2.frame a hN hM,h1.frame a hF hN]
  fresh a hM := by
    refine or_iff_not_imp_left.mpr (fun hF => ?_)
    by_cases hN : a ∈ N
    · exact (h1.fresh a hN).resolve_left hF
    · rw [← get_eq_none,← h1.frame a hF hN]
      exact get_eq_none.mpr ((h2.fresh a hM).resolve_left hN)
  freed a hF hM := by
    by_cases hN : a ∈ N
    · exact h2.freed a hN hM
    · rw [← get_eq_none,h2.frame a hN hM]
      exact get_eq_none.mpr (h1.freed a hF hN)

theorem union (h1 : Turns h h₁ F N) (G : Set Nat) : Turns h h₁ (F ∪ G) (N ∪ G) where
  frame a hF hN := h1.frame a (fun h => hF (.inl h)) (fun h => hN (.inl h))
  fresh a ha := ha.elim (fun hN => (h1.fresh a hN).imp_left .inl) (fun hG => .inl (.inr hG))
  freed a ha hN :=
    ha.elim (fun hF => h1.freed a hF (fun h => hN (.inl h))) (fun hG => absurd (.inr hG) hN)

theorem add (h1 : Turns h h₁ ∅ N) (G : Set Nat) : Turns h h₁ G (N ∪ G) := by
  simpa using h1.union G

theorem drop (h1 : Turns h h₁ F ∅) (G : Set Nat) : Turns h h₁ (F ∪ G) G := by
  simpa using h1.union G

theorem get_eq (h1 : Turns h h₁ F N) {a : Nat} (hF : a ∉ F) (ha : a ∈ h.live) :
    h₁.get a = h.get a :=
  h1.frame a hF (fun hN => (h1.fresh a hN).elim hF (fun hl => hl ha))

theorem keeps (h1 : Turns h h₁ F N) {a : Nat} {c : C} (hF : a ∉ F) (ha : h.get a = some c) :
    h₁.get a = some c := (h1.get_eq hF (mem_live_of_get ha)).trans ha

theorem disjoint (h1 : Turns h h₁ F N) {G : Set Nat} (hFG : Disjoint F G) (hG : G ⊆ h.live) :
    Disjoint N G :=
  Set.disjoint_left.mpr (fun a hN ha =>
    (h1.fresh a hN).elim (fun hF => Set.disjoint_left.mp hFG hF ha) (fun hl => hl (hG ha)))

/-- When one of the owners of all objects does the work, the others keep what they hold. -/
theorem divides {ι : Type} [DecidableEq ι] {held : ι → Set Nat} {i : ι}
    (h1 : Turns h h₁ (held i) N) (hN : N ⊆ h₁.live) (hd : Ownership.Divides h.live held) :
    Ownership.Divides h₁.live (Function.update held i N) := by
  have hown : ∀ a ∈ N, a ∈ h.live → a ∈ held i :=
    fun a ha hl => (h1.fresh a ha).resolve_right (fun hn => hn hl)
  refine (hd.update i hown).congr_left (fun a => ?_)
  constructor
  · intro ha
    by_cases haN : a ∈ N
    · exact .inr haN
    · have hi : a ∉ held i := fun hi => h1.freed a hi haN ha
      exact .inl ⟨by rwa [mem_live,← h1.frame a hi haN],hi⟩
  · rintro (⟨ha,hi⟩ | ha)
    · rwa [mem_live,h1.get_eq hi ha]
    · exact hN ha

end Turns

theorem turns_set {h : Heap C} {a : Nat} {c : C} : Turns h (h.set a c) {a} {a} where
  frame _ ha _ := get_set_of_ne h c ha
  fresh _ := .inl
  freed _ ha hn := absurd ha hn

theorem turns_alloc {h : Heap C} {a : Nat} (ha : h.get a = none) (c : C) :
    Turns h (h.set a c) ∅ {a} where
  frame _ _ hn := get_set_of_ne h c hn
  fresh _ hb := .inr (get_eq_none.mp (Set.mem_singleton_iff.mp hb ▸ ha))
  freed _ hF := hF.elim

theorem turns_free {h : Heap C} {a : Nat} : Turns h (h.free a) {a} ∅ where
  frame _ ha _ := get_free_of_ne h ha
  fresh _ hN := hN.elim
  freed _ hb _ := get_eq_none.mp (Set.mem_singleton_iff.mp hb ▸ get_free_self h a)

end Heap

structure Allocator (C : Type) where
  next : Heap C → Nat
  next_free : ∀ h : Heap C, h.get (next h) = none

def Allocator.above {C : Type} : Allocator C := ⟨Heap.bound,fun h => h.get_bound _ (Nat.le_refl _)⟩

/-- An object with the number of the shared pointers to it. -/
structure Shared (C : Type) where
  uses : Nat
  value : C

namespace Heap
variable {C : Type}

def makeShared (A : Allocator (Shared C)) (h : Heap (Shared C)) (c : C) :
    Nat × Heap (Shared C) := (A.next h,h.set (A.next h) ⟨1,c⟩)

def deref (h : Heap (Shared C)) (a : Nat) : Option C := (h.get a).map Shared.value

def write (h : Heap (Shared C)) (a : Nat) (c : C) : Heap (Shared C) :=
  match h.get a with
  | some s => h.set a { s with value := c }
  | none => h

/-- A shared pointer goes, and the object with the last of them. -/
def release (h : Heap (Shared C)) (a : Nat) : Heap (Shared C) :=
  match h.get a with
  | some s => if s.uses ≤ 1 then h.free a else h.set a { s with uses := s.uses-1 }
  | none => h

variable {A : Allocator (Shared C)} {h : Heap (Shared C)} {a : Nat} {c : C}

theorem get_makeShared : (makeShared A h c).2.get (makeShared A h c).1 = some ⟨1,c⟩ :=
  get_set_self _ _ _

theorem turns_makeShared : Turns h (makeShared A h c).2 ∅ {(makeShared A h c).1} :=
  turns_alloc (A.next_free h) _

theorem get_write {s : Shared C} (ha : h.get a = some s) :
    (h.write a c).get a = some { s with value := c } := by
  simp [write,ha]

theorem turns_write : Turns h (h.write a c) {a} {a} := by
  unfold write
  cases h.get a with
  | none => exact .refl h _
  | some s => exact turns_set

theorem turns_release (ha : h.get a = some ⟨1,c⟩) : Turns h (h.release a) {a} ∅ := by
  simp only [release,ha,Nat.le_refl,if_true]
  exact turns_free

end Heap
