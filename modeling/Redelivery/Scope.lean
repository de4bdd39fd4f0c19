/-!
# Cancellation scopes

Every read runs in a scope, and a scope may be opened inside another.  Cancelling a
scope cancels all that were opened inside it, before or after.

Main definitions:

* `Scope`: a scope, known by its own number and those of the scopes around it.
* `Scopes`: which scopes exist and which of them were cancelled.
* `Scopes.fresh`, `Scopes.child`, `Scopes.cancel`, `Scopes.IsCancelled`.
-/

namespace Redelivery

/-- A scope: its own number, and the scopes around it from the inside out. -/
structure Scope where
  id : Nat
  around : List Nat
  deriving DecidableEq, Repr, Inhabited

/-- The scopes that exist, by number, and whether each was itself cancelled. -/
structure Scopes where
  flags : Array Bool
  deriving DecidableEq, Repr, Inhabited

namespace Scopes

/-- No scope exists. -/
def empty : Scopes := ⟨#[]⟩

/-- The scope itself was cancelled. -/
def flag (scopes : Scopes) (id : Nat) : Bool := scopes.flags.getD id false

/-- A new scope inside no other. -/
def fresh (scopes : Scopes) : Scope × Scopes :=
  (⟨scopes.flags.size, []⟩, ⟨scopes.flags.push false⟩)

/-- A new scope inside another. -/
def child (scopes : Scopes) (outer : Scope) : Scope × Scopes :=
  (⟨scopes.flags.size, outer.id :: outer.around⟩, ⟨scopes.flags.push false⟩)

/-- Cancels a scope, and thereby all inside it. -/
def cancel (scopes : Scopes) (scope : Scope) : Scopes :=
  ⟨scopes.flags.setIfInBounds scope.id true⟩

/-- The scope or one around it was cancelled. -/
def IsCancelled (scopes : Scopes) (scope : Scope) : Prop :=
  scopes.flag scope.id = true ∨ ∃ id ∈ scope.around, scopes.flag id = true

instance (scopes : Scopes) (scope : Scope) : Decidable (scopes.IsCancelled scope) :=
  inferInstanceAs (Decidable (_ ∨ _))

@[simp]
theorem size_child (scopes : Scopes) (outer : Scope) :
    (scopes.child outer).2.flags.size = scopes.flags.size + 1 := by
  simp [child]

@[simp]
theorem size_fresh (scopes : Scopes) :
    scopes.fresh.2.flags.size = scopes.flags.size + 1 := by
  simp [fresh]

@[simp]
theorem size_cancel (scopes : Scopes) (scope : Scope) :
    (scopes.cancel scope).flags.size = scopes.flags.size := by
  simp [cancel]

/-- A new scope is not cancelled, and cancels none. -/
@[simp]
theorem flag_child (scopes : Scopes) (outer : Scope) (id : Nat) :
    (scopes.child outer).2.flag id = scopes.flag id := by
  simp only [child, flag, Array.getD_eq_getD_getElem?, Array.getElem?_push]
  split <;> simp_all

@[simp]
theorem flag_fresh (scopes : Scopes) (id : Nat) :
    scopes.fresh.2.flag id = scopes.flag id := by
  simp only [fresh, flag, Array.getD_eq_getD_getElem?, Array.getElem?_push]
  split <;> simp_all

/-- Cancelling a scope that exists sets its own flag and no other. -/
theorem flag_cancel (scopes : Scopes) (scope : Scope) (id : Nat) :
    (scopes.cancel scope).flag id =
      (scopes.flag id || decide (id = scope.id ∧ id < scopes.flags.size)) := by
  simp only [cancel, flag, Array.getD_eq_getD_getElem?, Array.getElem?_setIfInBounds]
  split <;> rename_i h
  · subst h
    by_cases hlt : scope.id < scopes.flags.size <;> simp [hlt]
  · have hne : id ≠ scope.id := Ne.symm h
    simp [hne]

end Scopes

end Redelivery
