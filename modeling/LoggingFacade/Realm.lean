/-!
# Realms

A realm names the part of a program whose callers share a logging context.
Entering a realm gives a guard; leaving through the guard restores the realm
that was current when the guard was taken.
-/

namespace LoggingFacade

abbrev Realm := String

namespace Realm

/-- The realm of callers that are in none. -/
def default : Realm := "default"

/-- What a guard restores. -/
structure Guard where
  previous : Option Realm
  deriving DecidableEq, Repr

/-- Enters a realm: the new current realm and the guard that undoes it. -/
def enter (current : Option Realm) (realm : Realm) : Option Realm × Guard :=
  (some realm, ⟨current⟩)

/-- Leaves through a guard. -/
def leave (guard : Guard) : Option Realm := guard.previous

@[simp] theorem leave_enter (current : Option Realm) (realm : Realm) :
    leave (enter current realm).2 = current := rfl

end Realm
end LoggingFacade
