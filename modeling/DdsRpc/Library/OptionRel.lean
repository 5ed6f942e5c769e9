set_option autoImplicit false

namespace Option.Rel
variable {α β α' β' γ : Type} {R : α → β → Prop} {S : α' → β' → Prop} {a : Option α} {b : Option β}

theorem bind {f : α → Option α'} {g : β → Option β'} (hab : Option.Rel R a b)
    (hfg : ∀ a b, R a b → Option.Rel S (f a) (g b)) : Option.Rel S (a.bind f) (b.bind g) := by
  cases hab with
  | none => exact .none
  | some h => exact hfg _ _ h

theorem bind_map {f : α → Option α'} {g : β → β'} (hab : Option.Rel R a b)
    (hfg : ∀ a b, R a b → Option.Rel S (f a) (.some (g b))) :
    Option.Rel S (a.bind f) (b.map g) := by
  cases hab with
  | none => exact .none
  | some h => exact hfg _ _ h

theorem bind_left {T : α' → β → Prop} {f : α → Option α'} (hab : Option.Rel R a b)
    (hf : ∀ a b, R a b → Option.Rel T (f a) (.some b)) : Option.Rel T (a.bind f) b := by
  cases hab with
  | none => exact .none
  | some h => exact hf _ _ h

theorem map_left {T : α' → β → Prop} {f : α → α'} (hab : Option.Rel R a b)
    (hf : ∀ a b, R a b → T (f a) b) : Option.Rel T (a.map f) b := by
  cases hab with
  | none => exact .none
  | some h => exact .some (hf _ _ h)

theorem bind_eq {f : α → Option γ} {g : β → Option γ} (hab : Option.Rel R a b)
    (hfg : ∀ a b, R a b → f a = g b) : a.bind f = b.bind g := by
  cases hab with
  | none => rfl
  | some h => exact hfg _ _ h

theorem map_eq {f : α → γ} {g : β → γ} (hab : Option.Rel R a b)
    (hfg : ∀ a b, R a b → f a = g b) : a.map f = b.map g := by
  cases hab with
  | none => rfl
  | some h => exact congrArg Option.some (hfg _ _ h)

theorem exists_right {x : α} (hab : Option.Rel R (.some x) b) : ∃ y, b = .some y ∧ R x y := by
  cases hab with
  | some h => exact ⟨_,rfl,h⟩

end Option.Rel
