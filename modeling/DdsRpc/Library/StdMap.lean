import Mathlib.Order.Defs.Unbundled
import Mathlib.Data.List.Pairwise
import Mathlib.Tactic.SplitIfs
import Mathlib.Tactic.Tauto
set_option autoImplicit false

/-! `std::map` over a user comparison. Two keys neither of which compares below
the other are one key to the map, whatever else they contain. -/

def Equivalent {κ : Type} (lt : κ → κ → Prop) (a b : κ) : Prop := ¬ lt a b ∧ ¬ lt b a

instance {κ : Type} (lt : κ → κ → Prop) [DecidableRel lt] (a b : κ) :
    Decidable (Equivalent lt a b) := inferInstanceAs (Decidable (_ ∧ _))

namespace Equivalent
variable {κ : Type} {lt : κ → κ → Prop} [IsStrictWeakOrder κ lt] {a b c : κ}

theorem refl (a : κ) : Equivalent lt a a := ⟨Std.Irrefl.irrefl a,Std.Irrefl.irrefl a⟩

omit [IsStrictWeakOrder κ lt] in
theorem symm (h : Equivalent lt a b) : Equivalent lt b a := ⟨h.2,h.1⟩

theorem trans (hab : Equivalent lt a b) (hbc : Equivalent lt b c) : Equivalent lt a c :=
  IsStrictWeakOrder.incomp_trans a b c hab hbc

theorem congr_right (h : Equivalent lt a b) : Equivalent lt c a ↔ Equivalent lt c b :=
  ⟨fun hca => hca.trans h,fun hcb => hcb.trans h.symm⟩

omit [IsStrictWeakOrder κ lt] in
theorem not_of_lt (h : lt a b) : ¬ Equivalent lt a b := fun he => he.1 h

end Equivalent

/-- The entries in key order: an ill-ordered or doubled entry cannot be built. -/
@[ext] structure StdMap (κ ν : Type) (lt : κ → κ → Prop) where
  entries : List (κ × ν)
  sorted : entries.Pairwise (fun a b => lt a.1 b.1)

namespace StdMap
variable {κ ν : Type} {lt : κ → κ → Prop}

def empty : StdMap κ ν lt := ⟨[],.nil⟩

def keys (m : StdMap κ ν lt) : List κ := m.entries.map Prod.fst

variable [DecidableRel lt]

def find (m : StdMap κ ν lt) (k : κ) : Option ν :=
  (m.entries.find? (fun e => Equivalent lt e.1 k)).map Prod.snd

/-- An equivalent key that is already there stays as it is; only its value changes. -/
def insertEntry (lt : κ → κ → Prop) [DecidableRel lt] (k : κ) (v : ν) :
    List (κ × ν) → List (κ × ν)
  | [] => [(k,v)]
  | e :: es =>
    if lt e.1 k then e :: insertEntry lt k v es
    else if lt k e.1 then (k,v) :: e :: es
    else (e.1,v) :: es

theorem mem_insertEntry {k : κ} {v : ν} {e : κ × ν} {es : List (κ × ν)}
    (h : e ∈ insertEntry lt k v es) :
    e = (k,v) ∨ e ∈ es ∨ ∃ e' ∈ es, Equivalent lt e'.1 k ∧ e = (e'.1,v) := by
  induction es with
  | nil => simpa [insertEntry] using h
  | cons d es ih =>
    simp only [insertEntry] at h
    split_ifs at h with hd hk
    · rcases List.mem_cons.mp h with rfl | h
      · simp
      · rcases ih h with h | h | ⟨e',he',h⟩
        · exact .inl h
        · exact .inr (.inl (List.mem_cons_of_mem _ h))
        · exact .inr (.inr ⟨e',List.mem_cons_of_mem _ he',h⟩)
    · simp only [List.mem_cons] at h ⊢
      tauto
    · rcases List.mem_cons.mp h with rfl | h
      · exact .inr (.inr ⟨d,List.mem_cons_self,⟨hd,hk⟩,rfl⟩)
      · exact .inr (.inl (List.mem_cons_of_mem _ h))

theorem insertEntry_sorted [IsStrictWeakOrder κ lt] (k : κ) (v : ν) {es : List (κ × ν)}
    (h : es.Pairwise (fun a b => lt a.1 b.1)) :
    (insertEntry lt k v es).Pairwise (fun a b => lt a.1 b.1) := by
  induction es with
  | nil => simp [insertEntry]
  | cons d es ih =>
    obtain ⟨hd,hes⟩ := List.pairwise_cons.mp h
    simp only [insertEntry]
    split_ifs with hdk hkd
    · refine List.pairwise_cons.mpr ⟨fun e he => ?_,ih hes⟩
      rcases mem_insertEntry he with rfl | he | ⟨e',he',-,rfl⟩
      · exact hdk
      · exact hd e he
      · exact hd e' he'
    · refine List.pairwise_cons.mpr ⟨fun e he => ?_,h⟩
      rcases List.mem_cons.mp he with rfl | he
      · exact hkd
      · exact IsTrans.trans k d.1 e.1 hkd (hd e he)
    · exact List.pairwise_cons.mpr ⟨hd,hes⟩

def set [IsStrictWeakOrder κ lt] (m : StdMap κ ν lt) (k : κ) (v : ν) : StdMap κ ν lt :=
  ⟨insertEntry lt k v m.entries,insertEntry_sorted k v m.sorted⟩

def erase (m : StdMap κ ν lt) (k : κ) : StdMap κ ν lt :=
  ⟨m.entries.filter (fun e => ¬ Equivalent lt e.1 k),m.sorted.sublist List.filter_sublist⟩

/-- `m[k]` read: a missing key is inserted with a default value. -/
def index [IsStrictWeakOrder κ lt] (m : StdMap κ ν lt) (k : κ) (default : ν) :
    ν × StdMap κ ν lt :=
  match m.find k with
  | some v => (v,m)
  | none => (default,m.set k default)

@[simp] theorem find_empty (k : κ) : (empty : StdMap κ ν lt).find k = none := rfl

theorem index_of_find [IsStrictWeakOrder κ lt] {m : StdMap κ ν lt} {k : κ} {v : ν}
    (h : m.find k = some v) (d : ν) : m.index k d = (v,m) := by simp [index,h]

theorem find_eq_none {m : StdMap κ ν lt} {k : κ} :
    m.find k = none ↔ ∀ e ∈ m.entries, ¬ Equivalent lt e.1 k := by simp [find]

theorem exists_of_find {m : StdMap κ ν lt} {k : κ} {v : ν} (h : m.find k = some v) :
    ∃ e ∈ m.entries, Equivalent lt e.1 k ∧ e.2 = v := by
  obtain ⟨e,he,rfl⟩ := Option.map_eq_some_iff.mp h
  exact ⟨e,List.mem_of_find?_eq_some he,by simpa using List.find?_some he,rfl⟩

variable [IsStrictWeakOrder κ lt]

omit [DecidableRel lt] [IsStrictWeakOrder κ lt] in
theorem eq_of_equivalent {m : StdMap κ ν lt} {e e' : κ × ν} (he : e ∈ m.entries)
    (he' : e' ∈ m.entries) (h : Equivalent lt e.1 e'.1) : e = e' := by
  by_contra hne
  have hp : m.entries.Pairwise (fun a b => ¬ Equivalent lt a.1 b.1) :=
    m.sorted.imp Equivalent.not_of_lt
  have : Std.Symm (fun a b : κ × ν => ¬ Equivalent lt a.1 b.1) := ⟨fun _ _ h h' => h h'.symm⟩
  exact hp.forall he he' hne h

theorem find_of_mem {m : StdMap κ ν lt} {e : κ × ν} (he : e ∈ m.entries) {k : κ}
    (h : Equivalent lt e.1 k) : m.find k = some e.2 := by
  cases hf : m.find k with
  | none => exact absurd h (find_eq_none.mp hf e he)
  | some v =>
    obtain ⟨e',he',h',rfl⟩ := exists_of_find hf
    rw [eq_of_equivalent he he' (h.trans h'.symm)]

theorem find_congr (m : StdMap κ ν lt) {k k' : κ} (h : Equivalent lt k k') :
    m.find k = m.find k' := by
  have hp : (fun e : κ × ν => decide (Equivalent lt e.1 k)) =
      fun e => decide (Equivalent lt e.1 k') := by
    funext e
    simp only [decide_eq_decide]
    exact h.congr_right
  simp [find,hp]

theorem find_insertEntry_of_equivalent {k k' : κ} (h : Equivalent lt k k') (v : ν)
    (es : List (κ × ν)) :
    ((insertEntry lt k v es).find? (fun e => Equivalent lt e.1 k')).map Prod.snd =
      some v := by
  induction es with
  | nil => simp [insertEntry,h]
  | cons d es ih =>
    simp only [insertEntry]
    split_ifs with hdk hkd
    · have hd : ¬ Equivalent lt d.1 k' := fun hd => (hd.trans h.symm).1 hdk
      simpa [List.find?_cons,hd] using ih
    · simp [h]
    · have hd : Equivalent lt d.1 k' := Equivalent.trans ⟨hdk,hkd⟩ h
      simp [hd]

theorem find_insertEntry_of_not_equivalent {k k' : κ} (h : ¬ Equivalent lt k k') (v : ν)
    (es : List (κ × ν)) :
    ((insertEntry lt k v es).find? (fun e => Equivalent lt e.1 k')).map Prod.snd =
      (es.find? (fun e => Equivalent lt e.1 k')).map Prod.snd := by
  induction es with
  | nil => simp [insertEntry,h]
  | cons d es ih =>
    simp only [insertEntry]
    split_ifs with hdk hkd
    · by_cases hd : Equivalent lt d.1 k'
      · simp [hd]
      · simpa [List.find?_cons,hd] using ih
    · simp [List.find?_cons,h]
    · have hd : ¬ Equivalent lt d.1 k' := fun hd => h (Equivalent.trans ⟨hkd,hdk⟩ hd)
      simp [hd]

theorem find_set (m : StdMap κ ν lt) (k k' : κ) (v : ν) :
    (m.set k v).find k' = if Equivalent lt k k' then some v else m.find k' := by
  split_ifs with h
  · exact find_insertEntry_of_equivalent h v m.entries
  · exact find_insertEntry_of_not_equivalent h v m.entries

@[simp] theorem find_set_self (m : StdMap κ ν lt) (k : κ) (v : ν) :
    (m.set k v).find k = some v := by simp [find_set,Equivalent.refl]

theorem find_erase (m : StdMap κ ν lt) (k k' : κ) :
    (m.erase k).find k' = if Equivalent lt k k' then none else m.find k' := by
  split_ifs with h
  · refine find_eq_none.mpr (fun e he hek => ?_)
    have hne : ¬ Equivalent lt e.1 k := by simpa using (List.mem_filter.mp he).2
    exact hne (hek.trans h.symm)
  · cases hf : m.find k' with
    | none => exact find_eq_none.mpr (fun e he => find_eq_none.mp hf e (List.mem_filter.mp he).1)
    | some v =>
      obtain ⟨e,he,hek,rfl⟩ := exists_of_find hf
      have hne : ¬ Equivalent lt e.1 k := fun h' => h (h'.symm.trans hek)
      exact find_of_mem (List.mem_filter.mpr ⟨he,by simpa using hne⟩) hek

theorem find_of_find_erase {m : StdMap κ ν lt} {k k' : κ} {v : ν}
    (h : (m.erase k).find k' = some v) : m.find k' = some v := by
  rw [find_erase] at h
  split_ifs at h
  exact h

omit [IsStrictWeakOrder κ lt] in
theorem mem_erase {m : StdMap κ ν lt} {k : κ} {e : κ × ν} :
    e ∈ (m.erase k).entries ↔ e ∈ m.entries ∧ ¬ Equivalent lt e.1 k := by
  simp [erase]

theorem mem_set_of_find_none {m : StdMap κ ν lt} {k : κ} {v : ν} (h : m.find k = none)
    {e : κ × ν} : e ∈ (m.set k v).entries ↔ e = (k,v) ∨ e ∈ m.entries := by
  have hk := find_eq_none.mp h
  obtain ⟨es,hes⟩ := m
  simp only [set] at hk ⊢
  clear h hes
  induction es with
  | nil => simp [insertEntry]
  | cons d es ih =>
    have hd := hk d List.mem_cons_self
    have ih := ih (fun e he => hk e (List.mem_cons_of_mem _ he))
    simp only [insertEntry]
    split_ifs with hdk hkd
    · simp only [List.mem_cons,ih]
      tauto
    · simp
    · exact absurd ⟨hdk,hkd⟩ hd

theorem erase_set_of_find_none {m : StdMap κ ν lt} {k : κ} {v : ν} (h : m.find k = none) :
    (m.set k v).erase k = m := by
  have hk := find_eq_none.mp h
  obtain ⟨es,hes⟩ := m
  ext1
  simp only [set,erase] at hk ⊢
  clear h hes
  have hkeep : es.filter (fun e => ¬ Equivalent lt e.1 k) = es :=
    List.filter_eq_self.mpr (by simpa using hk)
  induction es with
  | nil => simp [insertEntry,Equivalent.refl]
  | cons d es ih =>
    have hd := hk d List.mem_cons_self
    have hes : ∀ e ∈ es, ¬ Equivalent lt e.1 k := fun e he => hk e (List.mem_cons_of_mem _ he)
    simp only [insertEntry]
    split_ifs with hdk hkd
    · rw [List.filter_cons_of_pos (by simpa using hd)]
      exact congrArg (d :: ·) (ih hes (List.filter_eq_self.mpr (by simpa using hes)))
    · rw [List.filter_cons_of_neg (by simp [Equivalent.refl])]
      exact hkeep
    · exact absurd ⟨hdk,hkd⟩ hd

theorem erase_ne_of_find {m : StdMap κ ν lt} {k : κ} {v : ν} (h : m.find k = some v) :
    m.erase k ≠ m := by
  intro he
  have hf := find_erase m k k
  rw [he,h] at hf
  simp [Equivalent.refl] at hf

end StdMap
