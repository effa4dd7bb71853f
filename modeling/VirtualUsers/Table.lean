/-!
# Tables

A table holds values under distinct keys, in the order in which the keys came. Main statements:
what `get?` finds after `put`, and what a table holds then.
-/

namespace VirtualUsers

/-- Values under keys, in the order in which the keys came. -/
abbrev Table (κ α : Type) := List (κ × α)

namespace Table

variable {κ α : Type} [DecidableEq κ]

def get? (k : κ) : Table κ α → Option α
  | [] => none
  | (l, a) :: rest => if l = k then some a else get? k rest

/-- Enters a value under a key, in the place of the one that is there. -/
def put (k : κ) (a : α) : Table κ α → Table κ α
  | [] => [(k, a)]
  | (l, b) :: rest => if l = k then (l, a) :: rest else (l, b) :: put k a rest

def putNew (k : κ) (a : α) (t : Table κ α) : Table κ α :=
  match get? k t with
  | some _ => t
  | none => put k a t

@[simp] theorem get?_nil (k : κ) : get? k ([] : Table κ α) = none := rfl

@[simp] theorem get?_put_self (k : κ) (a : α) (t : Table κ α) : get? k (put k a t) = some a := by
  induction t with
  | nil => simp [put, get?]
  | cons e t ih => by_cases h : e.1 = k <;> simp [put, get?, h, ih]

theorem get?_put_of_ne {k l : κ} (h : l ≠ k) (a : α) (t : Table κ α) :
    get? l (put k a t) = get? l t := by
  induction t with
  | nil => simp [put, get?, h.symm]
  | cons e t ih =>
    by_cases he : e.1 = k
    · simp [put, get?, he, h.symm]
    · simp [put, get?, he, ih]

theorem get?_put (k l : κ) (a : α) (t : Table κ α) :
    get? l (put k a t) = if l = k then some a else get? l t := by
  split
  · next h => rw [h, get?_put_self]
  · next h => exact get?_put_of_ne h a t

/-- What a table holds after a value was entered is that value or was there. -/
theorem mem_put {k l : κ} {a c : α} {t : Table κ α}
    (h : (l, c) ∈ put k a t) : c = a ∨ (l, c) ∈ t := by
  induction t with
  | nil =>
    cases List.mem_singleton.mp h
    exact .inl rfl
  | cons e t ih =>
    by_cases he : e.1 = k
    · simp only [put, he, if_true] at h
      rcases List.mem_cons.mp h with h | h
      · cases h
        exact .inl rfl
      · exact .inr (List.mem_cons_of_mem _ h)
    · simp only [put, he, if_false] at h
      rcases List.mem_cons.mp h with h | h
      · exact .inr (h ▸ List.mem_cons_self)
      · exact (ih h).imp_right (List.mem_cons_of_mem _)

theorem mem_of_get? {k : κ} {a : α} {t : Table κ α}
    (h : get? k t = some a) : (k, a) ∈ t := by
  induction t with
  | nil => cases h
  | cons e t ih =>
    obtain ⟨l, c⟩ := e
    simp only [get?] at h
    split at h
    · next hl =>
      cases h
      exact hl ▸ List.mem_cons_self
    · exact List.mem_cons_of_mem _ (ih h)

end Table

end VirtualUsers
