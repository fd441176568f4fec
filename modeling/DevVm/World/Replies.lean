/-!
# Rehearsed replies

Replies that are given one after the other, the last one again and again.
-/

namespace DevVm.World.Replies

variable {ρ : Type}

/-- The replies that are left once the first one has been given. -/
def advance : List ρ → List ρ
  | _ :: next :: more => next :: more
  | replies => replies

/-- A reply that was there stays there: replies never run out. -/
@[simp] theorem advance_eq_nil_iff {replies : List ρ} : advance replies = [] ↔ replies = [] := by
  fun_cases advance replies <;> simp_all

end DevVm.World.Replies
