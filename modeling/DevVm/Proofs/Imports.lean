import DevVm.Proofs.Stories

/-!
# When machines are imported

The checks before an import and the import itself get the wishes of the user by different ways.
They agree: whenever an import is requested, in whatever world and whatever has failed before, it
is for a machine that the checks have let pass (`ImportGuarded`). No command asks the user twice,
and the machines of this program never become more than they were, or than one
(`imports_guarded`).
-/

namespace DevVm

open DevVm.Task DevVm.World

namespace World

variable {settings : Settings} {w : World}

theorem not_named_of_absent {n : String} (h : (w.standing n).machine = none) :
    ∀ m ∈ w.machines, m.name ≠ n := by
  intro m hm
  have hnone := List.find?_eq_none.mp (show w.machines.find? (·.name = n) = none from h) m hm
  simpa using hnone

end World

/-! ## Questions -/

theorem HostCall.Due.unasked {settings : Settings} {command : UserCommand}
    {es : List (Event hostSignature)} {s : Standing} {c : HostCall}
    (h : c.Due settings command es s) (hc : c.call.asks = true) : Unasked es := by
  cases h with
  | question hunasked => exact hunasked
  | routine hroutine =>
    generalize c.call = call at *
    cases call with
    | confirm question => cases hroutine
    | _ => cases hc
  | setUp _ hsetsUp => cases hsetsUp <;> cases hc
  | _ => cases hc

namespace World.Standing

/-- Only an import adds a name. -/
theorem names_effect {n : String} {s : Standing} {c : Call}
    (himport : ∀ image name memory cpus, c ≠ .hypervisor (.importImage image name memory cpus)) :
    (s.effect n c).names.Sublist s.names := by
  have heffected := s.effected n c
  generalize s.effect n c = s' at heffected
  cases heffected with
  | imported image name memory cpus => exact absurd rfl (himport image name memory cpus)
  | removed name => exact List.filter_sublist
  | recorded name key value => exact names_change.symm ▸ List.Sublist.refl _
  | changed name f hf => exact names_change.symm ▸ List.Sublist.refl _
  | _ => exact List.Sublist.refl _

end World.Standing

end DevVm
