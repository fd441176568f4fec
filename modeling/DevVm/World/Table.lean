/-!
# Small tables

A table is a list of keys with values, of which the first one of a key counts. Storing a
value replaces the one that counts, or adds an entry at the end.
-/

namespace DevVm.Table

variable {α β : Type} [DecidableEq α]

/-- The value of a key. -/
def get? (key : α) : List (α × β) → Option β
  | [] => none
  | (k, v) :: more => if k = key then some v else get? key more

/-- The table after a value was stored. -/
def put (key : α) (value : β) : List (α × β) → List (α × β)
  | [] => [(key, value)]
  | (k, v) :: more => if k = key then (k, value) :: more else (k, v) :: put key value more

/-- The table without the entries of a key. -/
def erase (key : α) (table : List (α × β)) : List (α × β) := table.filter (·.1 ≠ key)

/-- What was stored under a key is found there, and nothing else has changed. -/
@[simp] theorem get?_put (key other : α) (value : β) (table : List (α × β)) :
    get? other (put key value table) = if key = other then some value else get? other table := by
  induction table with
  | nil => rfl
  | cons entry more ih =>
    obtain ⟨k, v⟩ := entry
    by_cases hk : k = key
    · subst hk
      by_cases ho : k = other <;> simp [put, get?, ho]
    · by_cases ho : k = other
      · subst ho
        simp [put, get?, hk, Ne.symm hk]
      · simp [put, get?, hk, ho, ih]

end DevVm.Table
