import ArchDoc.ClassName

/-!
# Owners of classes

Which service a class belongs to. The classes that expose a service are registered in order, the
first registration of a class for good. Repositories, clients and listeners rarely are such
classes, so a class without a registration of its own belongs to the first registered class whose
package is related to its package, and failing that to the first one whose parent package is
related to its parent package.

Main definitions:

* `Owners`, `Owners.register`: the registered classes with their services.
* `Owners.enroll`: the same with the answer whether the class was new.
* `Owners.resolve`: the service that a class belongs to.
* `Owners.serviceIds`: the services, each once.
-/

namespace ArchDoc.Synthesis

open ClassName

/-- Registered classes with the identifiers of their services, in the order of registration. -/
structure Owners where
  entries : List (String × String)
  deriving DecidableEq

namespace Owners

/-- No class is registered. -/
def empty : Owners := ⟨[]⟩

/-- The service registered for exactly this class. -/
def registered? (owners : Owners) (className : String) : Option String :=
  (owners.entries.find? (·.1 == className)).map (·.2)

/-- Whether a class is registered. -/
def knows (owners : Owners) (className : String) : Bool :=
  owners.entries.any (·.1 == className)

/-- Registers a class, unless it is registered already. -/
def register (owners : Owners) (className id : String) : Owners :=
  if owners.knows className then owners else ⟨owners.entries ++ [(className, id)]⟩

/-- Registers a class, and answers whether it was new, so that this registration is kept. -/
def enroll (owners : Owners) (className id : String) : Bool × Owners :=
  (!owners.knows className, owners.register className id)

@[simp] theorem enroll_snd (owners : Owners) (className id : String) :
    (owners.enroll className id).2 = owners.register className id :=
  rfl

/-! ## Resolving -/

/-- The service of the first registered class whose package passes a test. -/
def findByPackage (owners : Owners) (test : String → Bool) : Option String :=
  (owners.entries.find? fun e => test (package e.1)).map (·.2)

/-- Whether two parent packages make siblings of their packages: both are there, and they are
related. -/
def siblingParents (a b : String) : Bool :=
  !a.isEmpty && !b.isEmpty && packagesRelated a b

/-- The service of the first registered class in the neighbourhood of a class, by package or else
by parent package. -/
def byPackage? (owners : Owners) (className : String) : Option String :=
  let own := package className
  (owners.findByPackage fun p => packagesRelated p own).or
    (owners.findByPackage fun p => siblingParents (package p) (package own))

/-- The service that a class belongs to. -/
def resolve (owners : Owners) (className : String) : Option String :=
  (owners.registered? className).or (owners.byPackage? className)

/-! ## The services -/

/-- The services in the order of registration, each once. -/
def serviceIds (owners : Owners) : List String :=
  (owners.entries.map (·.2)).eraseDups

/-- The number of registered classes. -/
def count (owners : Owners) : Nat :=
  owners.entries.length

/-- Whether no class is registered. -/
def isEmpty (owners : Owners) : Bool :=
  owners.entries.isEmpty

end Owners

end ArchDoc.Synthesis
