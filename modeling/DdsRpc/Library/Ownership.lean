import Mathlib.Data.Set.BooleanAlgebra
import Mathlib.Logic.Equiv.Basic
import Mathlib.Order.CompletePartialOrder
set_option autoImplicit false

namespace Ownership
variable {ι A σ : Type}

structure Divides (S : Set A) (held : ι → Set A) : Prop where
  exclusive : ∀ a ∈ S, ∃! i, a ∈ held i
  sub : ∀ i, held i ⊆ S

namespace Divides
variable {S : Set A} {held : ι → Set A}

theorem empty : Divides (∅ : Set A) (fun _ : ι => ∅) :=
  ⟨fun _ ha => ha.elim,fun _ => Set.Subset.rfl⟩

theorem eq_of_mem (h : Divides S held) {i j : ι} {a : A} (hi : a ∈ held i) (hj : a ∈ held j) :
    i = j := (h.exclusive a (h.sub i hi)).unique hi hj

theorem disjoint (h : Divides S held) {i j : ι} (hij : i ≠ j) : Disjoint (held i) (held j) :=
  Set.disjoint_left.mpr (fun _ hi hj => hij (h.eq_of_mem hi hj))

theorem congr_left (h : Divides S held) {T : Set A} (hST : ∀ a, a ∈ T ↔ a ∈ S) :
    Divides T held := by
  rw [Set.ext hST]
  exact h

theorem comp (h : Divides S held) (e : ι ≃ ι) : Divides S (held ∘ e) where
  exclusive a ha := by
    obtain ⟨i,hi,hu⟩ := h.exclusive a ha
    refine ⟨e.symm i,by simpa using hi,fun j hj => ?_⟩
    rw [Equiv.eq_symm_apply]
    exact hu _ hj
  sub _ := h.sub _

theorem update [DecidableEq ι] (h : Divides S held) (i : ι) {N : Set A}
    (hN : ∀ a ∈ N, a ∈ S → a ∈ held i) :
    Divides (S \ held i ∪ N) (Function.update held i N) where
  exclusive a ha := by
    by_cases hn : a ∈ N
    · refine ⟨i,by simpa using hn,fun j hj => ?_⟩
      by_contra hji
      have hj : a ∈ held j := by simpa [Function.update_of_ne hji] using hj
      exact hji (h.eq_of_mem hj (hN a hn (h.sub j hj)))
    · obtain ⟨hS,hi⟩ : a ∈ S ∧ a ∉ held i := ha.resolve_right hn
      obtain ⟨j,hj,hu⟩ := h.exclusive a hS
      have hji : j ≠ i := fun hji => hi (hji ▸ hj)
      refine ⟨j,by simpa [Function.update_of_ne hji] using hj,fun k hk => ?_⟩
      rcases eq_or_ne k i with rfl | hki
      · exact absurd (by simpa using hk) hn
      · exact hu k (by simpa [Function.update_of_ne hki] using hk)
  sub j a ha := by
    rcases eq_or_ne j i with rfl | hji
    · exact .inr (by simpa using ha)
    · rw [Function.update_of_ne hji] at ha
      exact .inl ⟨h.sub j ha,fun hi => hji (h.eq_of_mem ha hi)⟩

end Divides

def held (f : σ → Set A) (l : List σ) (i : Nat) : Set A := {a | ∃ s ∈ l[i]?, a ∈ f s}

variable {f : σ → Set A} {l : List σ} {i j : Nat}

theorem held_of_getElem? {s : σ} (h : l[i]? = some s) : held f l i = f s := by
  simp [held,h]

theorem held_of_length_le (h : l.length ≤ i) : held f l i = ∅ := by
  simp [held,List.getElem?_eq_none h]

theorem held_nil : held f [] = fun _ => ∅ := by
  funext i
  exact held_of_length_le (Nat.zero_le i)

theorem held_set (h : i < l.length) (s : σ) :
    held f (l.set i s) = Function.update (held f l) i (f s) := by
  funext j
  rcases eq_or_ne j i with rfl | hji
  · rw [Function.update_self]
    exact held_of_getElem? (List.getElem?_set_self h)
  · rw [Function.update_of_ne hji]
    simp [held,List.getElem?_set_ne (Ne.symm hji)]

theorem getElem?_concat_of_ne {a : σ} (hi : i ≠ l.length) : (l ++ [a])[i]? = l[i]? := by
  rcases Nat.lt_or_gt_of_ne hi with hlt | hgt
  · exact List.getElem?_append_left hlt
  · rw [List.getElem?_eq_none (Nat.le_of_lt hgt),
      List.getElem?_eq_none (by rw [List.length_append]; exact hgt)]

theorem held_concat (s : σ) :
    held f (l ++ [s]) = Function.update (held f l) l.length (f s) := by
  funext j
  rcases eq_or_ne j l.length with rfl | hj
  · rw [Function.update_self]
    exact held_of_getElem? List.getElem?_concat_length
  · rw [Function.update_of_ne hj]
    simp [held,getElem?_concat_of_ne hj]

theorem held_concat_of_empty {s : σ} (hs : f s = ∅) : held f (l ++ [s]) = held f l := by
  rw [held_concat,hs,← held_of_length_le (f := f) (Nat.le_refl l.length)]
  exact Function.update_eq_self _ _

theorem held_swap {s t : σ} (hi : l[i]? = some s) (hj : l[j]? = some t) :
    held f ((l.set i t).set j s) = held f l ∘ Equiv.swap i j := by
  obtain ⟨hil,_⟩ := List.getElem?_eq_some_iff.mp hi
  obtain ⟨hjl,_⟩ := List.getElem?_eq_some_iff.mp hj
  funext k
  rw [held_set (by simpa using hjl),held_set hil]
  rcases eq_or_ne k j with rfl | hkj
  · simp [held_of_getElem? hi]
  · rcases eq_or_ne k i with rfl | hki
    · simp [Function.update_of_ne hkj,held_of_getElem? hj]
    · simp [Function.update_of_ne hkj,Function.update_of_ne hki,
        Equiv.swap_apply_of_ne_of_ne hki hkj]

end Ownership
