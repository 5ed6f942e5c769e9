import Mathlib.Logic.Basic
set_option autoImplicit false

/-! The futures of future_adapter.hpp, which are built on the tasks of PPL. -/

namespace DdsRpc

/-- What the adapter relies on of PPL. A continuation is run on the completed task, all it
can learn of which is its outcome; what it throws ends the new task. A task that it returns
is unwrapped, and nothing else is. -/
structure Ppl (E : Type) where
  Task : Type → Type
  outcome : {A : Type} → Task A → Except E A
  ofEvent : {A : Type} → Except E A → Task A
  thenValue : {A B : Type} → Task A → (Except E A → Except E B) → Task B
  thenTask : {A B : Type} → Task A → (Except E A → Except E (Task B)) → Task B
  outcome_ofEvent : ∀ {A : Type} (r : Except E A), outcome (ofEvent r) = r
  outcome_thenValue : ∀ {A B : Type} (t : Task A) (func : Except E A → Except E B),
    outcome (thenValue t func) = func (outcome t)
  outcome_thenTask : ∀ {A B : Type} (t : Task A) (func : Except E A → Except E (Task B)),
    outcome (thenTask t func) = (func (outcome t)).bind outcome

def Ppl.eager (E : Type) : Ppl E where
  Task A := Except E A
  outcome t := t
  ofEvent r := r
  thenValue t func := func t
  thenTask t func := (func t).bind id
  outcome_ofEvent _ := rfl
  outcome_thenValue _ _ := rfl
  outcome_thenTask _ _ := rfl

variable {E : Type} {P : Ppl E}

structure Future (P : Ppl E) (A : Type) where
  task : P.Task A

/-- The types that a continuation can return, as far as `Unwrapper` tells them apart. -/
inductive RetType : Type 1 where
  | plain (A : Type)
  | task (r : RetType)
  | future (r : RetType)

@[reducible] def RetType.Denote (P : Ppl E) : RetType → Type
  | .plain A => A
  | .task r => P.Task (r.Denote P)
  | .future r => Future P (r.Denote P)

namespace Unwrapper

/-- The `T` of `return_type`, which is `future<T>` in all three specialisations. -/
@[reducible] def result : RetType → RetType
  | .plain A => .plain A
  | .task r => r
  | .future r => r

@[reducible] def returnType (r : RetType) : RetType := .future (result r)

end Unwrapper

namespace Future
variable {A B : Type}

def toTask (t : Future P A) : P.Task A := t.task

def outcome (t : Future P A) : Except E A := P.outcome t.task

end Future

namespace Unwrapper
variable {A B : Type}

/-- `task_extractor::operator ()`. -/
def taskExtractor (func : Except E A → Except E (Future P B)) (arg : Except E A) :
    Except E (P.Task B) := (func arg).map Future.toTask

def unwrap : (r : RetType) → P.Task A → (Except E A → Except E (r.Denote P)) →
    (returnType r).Denote P
  | .plain _,task,func => ⟨P.thenValue task func⟩
  | .task _,task,func => ⟨P.thenTask task func⟩
  | .future _,t,func => ⟨P.thenTask t (taskExtractor func)⟩

end Unwrapper

open Unwrapper

/-- `future::then`. The continuation's argument is the completed future. -/
def Future.then {A : Type} (t : Future P A) (r : RetType)
    (func : Except E A → Except E (r.Denote P)) : (returnType r).Denote P :=
  unwrap r t.task func

/-- The future of a promise on which `set_value` or `set_exception` has been called. -/
def Promise.getFuture {A : Type} (set : Except E A) : Future P A := ⟨P.ofEvent set⟩

def makeReadyFuture {A : Type} (t : A) : Future P A := Promise.getFuture (.ok t)

def RetType.settle : (r : RetType) → r.Denote P → Except E ((result r).Denote P)
  | .plain _,v => .ok v
  | .task _,t => P.outcome t
  | .future _,t => t.outcome

namespace Future
variable {A : Type}

@[simp] theorem outcome_makeReadyFuture (v : A) :
    (makeReadyFuture v : Future P A).outcome = .ok v :=
  P.outcome_ofEvent _

/-- All three specialisations give a future of what the continuation comes to. -/
theorem outcome_then (t : Future P A) (r : RetType)
    (func : Except E A → Except E (r.Denote P)) :
    (t.then r func).outcome = (func t.outcome).bind r.settle := by
  cases r with
  | plain B =>
    refine (P.outcome_thenValue t.task func).trans ?_
    unfold outcome
    cases func (P.outcome t.task) <;> rfl
  | task r => exact P.outcome_thenTask t.task func
  | future r =>
    refine (P.outcome_thenTask t.task (taskExtractor func)).trans ?_
    unfold taskExtractor outcome
    cases func (P.outcome t.task) <;> rfl

/-- Continuations of the three styles that come to the same make futures of one type that
complete alike. -/
structure SameStyles (t : Future P A) : Prop where
  types : (∀ B : Type, returnType (.plain B) = .future (.plain B)) ∧
    ∀ r : RetType, returnType (.task r) = .future r ∧ returnType (.future r) = .future r
  outcome : ∀ {B : Type} (o : Except E B) (f : Except E A → Except E B)
    (f' : Except E A → Except E (P.Task B)) (f'' : Except E A → Except E (Future P B)),
    f t.outcome = o → (f' t.outcome).bind P.outcome = o →
    (f'' t.outcome).bind Future.outcome = o →
    (t.then (.plain B) f : Future P B).outcome = o ∧
    (t.then (.task (.plain B)) f' : Future P B).outcome = o ∧
    (t.then (.future (.plain B)) f'' : Future P B).outcome = o

def Composes (t : Future P A) : Prop :=
  ∀ {B : Type} (r : RetType) (f : Except E A → Except E (Future P B))
    (g : Except E B → Except E (r.Denote P)),
    ((t.then (.future (.plain B)) f : Future P B).then r g).outcome =
      (t.then (returnType r) (fun x => (f x).map (fun u => u.then r g))).outcome

/-- How far they do: if `f` throws before it has returned a future, `g` is run on the
exception, or not at all. -/
structure Associative (t : Future P A) : Prop where
  returned : ∀ {B : Type} (r : RetType) (f : Except E A → Except E (Future P B))
    (g : Except E B → Except E (r.Denote P)) (u : Future P B), f t.outcome = .ok u →
    ((t.then (.future (.plain B)) f : Future P B).then r g).outcome =
      (t.then (returnType r) (fun x => (f x).map (fun u => u.then r g))).outcome
  thrown : ∀ {B : Type} (r : RetType) (f : Except E A → Except E (Future P B))
    (g : Except E B → Except E (r.Denote P)) (e : E), f t.outcome = .error e →
    ((t.then (.future (.plain B)) f : Future P B).then r g).outcome =
        (g (.error e)).bind r.settle ∧
      (t.then (returnType r) (fun x => (f x).map (fun u => u.then r g))).outcome = .error e

theorem sameStyles (t : Future P A) : SameStyles t where
  types := ⟨fun _ => rfl,fun _ => ⟨rfl,rfl⟩⟩
  outcome o f f' f'' h h' h'' := by
    refine ⟨?_,?_,?_⟩
    · refine (t.outcome_then (.plain _) f).trans ?_
      rw [h]
      cases o <;> rfl
    · exact (t.outcome_then (.task (.plain _)) f').trans h'
    · exact (t.outcome_then (.future (.plain _)) f'').trans h''

theorem associative (t : Future P A) : Associative t where
  returned {B} r f g u hu := by
    have hleft : (t.then (.future (.plain B)) f : Future P B).outcome = u.outcome := by
      refine (t.outcome_then (.future (.plain B)) f).trans ?_
      rw [hu]
      rfl
    have hright := t.outcome_then (returnType r) (fun x => (f x).map (fun u => u.then r g))
    rw [hu] at hright
    rw [outcome_then,hleft,← outcome_then]
    exact hright.symm
  thrown {B} r f g e he := by
    have hleft : (t.then (.future (.plain B)) f : Future P B).outcome = .error e := by
      refine (t.outcome_then (.future (.plain B)) f).trans ?_
      rw [he]
      rfl
    have hright := t.outcome_then (returnType r) (fun x => (f x).map (fun u => u.then r g))
    rw [he] at hright
    rw [outcome_then,hleft]
    exact ⟨rfl,hright⟩

/-- The adapter's `then` composes, whatever style its continuations are written in. -/
theorem then_laws (P : Ppl E) (t : Future P A) : SameStyles t ∧ Associative t ∧
    ∀ (v : A) (r : RetType) (f : Except E A → Except E (r.Denote P)),
      ((makeReadyFuture v : Future P A).then r f).outcome = (f (.ok v)).bind r.settle := by
  refine ⟨sameStyles t,associative t,fun v r f => ?_⟩
  rw [outcome_then,outcome_makeReadyFuture]

def half (n : Except String Nat) : Except String Nat :=
  n.bind (fun n => if n%2 = 0 then .ok (n/2) else .error "odd")

def orZero (n : Except String Nat) : Except String Nat :=
  match n with
  | .ok n => .ok n
  | .error _ => .ok 0

theorem then_laws_half :
    ((makeReadyFuture 3 : Future (.eager String) Nat).then (.plain Nat) half :
      Future (.eager String) Nat).outcome = .error "odd" ∧
    ((makeReadyFuture 3 : Future (.eager String) Nat).then (.future (.plain Nat))
      (fun x => (half x).map makeReadyFuture) : Future (.eager String) Nat).outcome =
        .error "odd" ∧
    (((makeReadyFuture 6 : Future (.eager String) Nat).then (.future (.plain Nat))
      (fun x => (half x).map makeReadyFuture) : Future (.eager String) Nat).then (.plain Nat)
        half : Future (.eager String) Nat).outcome =
      ((makeReadyFuture 6 : Future (.eager String) Nat).then (.future (.plain Nat))
        (fun x => ((half x).map makeReadyFuture).map (fun u =>
          (u.then (.plain Nat) half : Future (.eager String) Nat))) :
            Future (.eager String) Nat).outcome := by
  have h := (then_laws (.eager String) (makeReadyFuture 3)).1.outcome (.error "odd") half
    (fun x => (half x).map Except.ok) (fun x => (half x).map makeReadyFuture) rfl rfl rfl
  exact ⟨h.1,h.2.2,(then_laws (.eager String) (makeReadyFuture 6)).2.1.returned (.plain Nat)
    (fun x => (half x).map makeReadyFuture) half (makeReadyFuture 3) rfl⟩

/-- `half` throws before it has returned a future, and `orZero` recovers or is not run. -/
theorem composes_fails : ¬ Composes (makeReadyFuture 3 : Future (.eager String) Nat) := by
  intro h
  have hrun : (Except.ok 0 : Except String Nat) = .error "odd" :=
    h (.plain Nat) (fun x => (half x).map makeReadyFuture) orZero
  cases hrun

end Future
end DdsRpc
