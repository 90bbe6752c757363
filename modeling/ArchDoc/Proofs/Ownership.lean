import ArchDoc.Proofs.Offers

/-!
# Which service owns a class

A class belongs to the service it is registered for; failing that, to the service of the class
registered first among those in a related package, and failing that, to the one registered first
among those whose parent package is related to its own. Which registration comes first can be read
off the calls themselves, since a repeated registration is dropped and the test looks at the class
only.

One more registration comes last among all, so it changes the owner of a class only by a match that
was missing before.

Main definitions:

* `Owners.ofCalls`: the owners after a sequence of registrations.
* `Earliest`: the service of the class registered first among those with a property.
* `Belongs`: the owner of a class, by the three kinds of matches in their order.

Results:

* `resolve_eq_some_iff`, `resolve_eq_none_iff`: owners resolve a class to the service that it
  belongs to, if there is one.
* `ofCalls_answers`: what owners answer after any registrations, in terms of the registrations.
* `resolve_enroll`: how one more registration may change the owner of a class.
-/

namespace ArchDoc.ClassName

/-- One of two packages is a prefix of the other, character by character. -/
def Related (a b : String) : Prop :=
  a.toList <+: b.toList ∨ b.toList <+: a.toList

theorem packagesRelated_iff {a b : String} : packagesRelated a b = true ↔ Related a b := by
  rw [packagesRelated, Bool.or_eq_true, List.isPrefixOf_iff_prefix, List.isPrefixOf_iff_prefix,
    Related]

end ArchDoc.ClassName

namespace ArchDoc.Synthesis

open ClassName

/-! ## The earliest registration -/

/-- No registered class has a property. -/
def Unmatched (P : String → Prop) (calls : List (String × String)) : Prop :=
  ∀ call ∈ calls, ¬P call.1

/-- Among the registered classes with a property, the first one is registered for the service
`id`. -/
def Earliest (P : String → Prop) (calls : List (String × String)) (id : String) : Prop :=
  ∃ before className after, calls = before ++ (className, id) :: after ∧ P className ∧
    Unmatched P before

section Search

variable {P : String → Prop} {p : String → Bool} {calls : List (String × String)} {id : String}

/-- A search for a class finds nothing if no class matches. -/
theorem find?_eq_none_iff_unmatched (hp : ∀ className, p className = true ↔ P className) :
    (calls.find? fun call => p call.1).map (·.2) = none ↔ Unmatched P calls := by
  rw [Option.map_eq_none_iff, List.find?_eq_none]
  exact forall₂_congr fun call _ => not_congr (hp call.1)

/-- A search for a class finds the earliest one that matches. -/
theorem find?_eq_some_iff_earliest (hp : ∀ className, p className = true ↔ P className) :
    (calls.find? fun call => p call.1).map (·.2) = some id ↔ Earliest P calls id := by
  rw [Option.map_eq_some_iff]
  constructor
  · rintro ⟨⟨className, _⟩, hfind, rfl⟩
    obtain ⟨hmatch, before, after, hcalls, hbefore⟩ := List.find?_eq_some_iff_append.mp hfind
    refine ⟨before, className, after, hcalls, (hp _).mp hmatch, fun call hcall hP => ?_⟩
    simpa [(hp _).mpr hP] using hbefore call hcall
  · rintro ⟨before, className, after, rfl, hP, hbefore⟩
    refine ⟨(className, id), List.find?_eq_some_iff_append.mpr ⟨(hp _).mpr hP, before, after, rfl,
      fun call hcall => ?_⟩, rfl⟩
    simpa using mt (hp _).mp (hbefore call hcall)

/-- Repeated registrations of a class are never the earliest. -/
theorem earliest_keepFirst : Earliest P (keepFirst Prod.fst calls) id ↔ Earliest P calls id := by
  classical
  have hp : ∀ className, decide (P className) = true ↔ P className := fun _ => decide_eq_true_iff
  rw [← find?_eq_some_iff_earliest hp, ← find?_eq_some_iff_earliest hp,
    find?_keepFirst_of_key Prod.fst fun className => decide (P className)]

theorem unmatched_keepFirst : Unmatched P (keepFirst Prod.fst calls) ↔ Unmatched P calls := by
  unfold Unmatched
  rw [← List.forall_mem_map (f := Prod.fst) (P := fun className => ¬P className),
    ← List.forall_mem_map (f := Prod.fst) (P := fun className => ¬P className)]
  exact forall_congr' fun className => imp_congr_left mem_map_keepFirst

/-- What is registered later comes later. -/
theorem Earliest.append (h : Earliest P calls id) (more : List (String × String)) :
    Earliest P (calls ++ more) id := by
  obtain ⟨before, className, after, rfl, hP, hbefore⟩ := h
  refine ⟨before, className, after ++ more, ?_, hP, hbefore⟩
  rw [List.append_assoc, List.cons_append]

/-- A new registration is the earliest one with a property that no class had before. -/
theorem Unmatched.earliest_concat (h : Unmatched P calls) {className : String}
    (hP : P className) (id : String) : Earliest P (calls ++ [(className, id)]) id :=
  ⟨calls, className, [], rfl, hP, h⟩

theorem Unmatched.concat (h : Unmatched P calls) {className : String} (hP : ¬P className)
    (id : String) : Unmatched P (calls ++ [(className, id)]) := by
  intro call hcall
  rcases List.mem_append.mp hcall with hold | hnew
  · exact h call hold
  · rw [List.mem_singleton.mp hnew]
    exact hP

end Search

/-! ## The owner of a class -/

/-- A class whose package is related to that of `x`. -/
def Near (x className : String) : Prop :=
  Related (package className) (package x)

/-- A class whose parent package is related to that of `x`, where both parents are there. -/
def Sibling (x className : String) : Prop :=
  package (package className) ≠ "" ∧ package (package x) ≠ "" ∧
    Related (package (package className)) (package (package x))

/-- The service that the class `x` belongs to after registrations. -/
inductive Belongs (calls : List (String × String)) (x : String) : String → Prop where
  | exact {id : String} (h : Earliest (· = x) calls id) : Belongs calls x id
  | near {id : String} (hexact : Unmatched (· = x) calls) (h : Earliest (Near x) calls id) :
      Belongs calls x id
  | sibling {id : String} (hexact : Unmatched (· = x) calls) (hnear : Unmatched (Near x) calls)
      (h : Earliest (Sibling x) calls id) : Belongs calls x id

/-- What a class belongs to does not depend on repeated registrations. -/
theorem belongs_keepFirst {calls : List (String × String)} {x id : String} :
    Belongs (keepFirst Prod.fst calls) x id ↔ Belongs calls x id := by
  constructor
  · rintro (h | ⟨hexact, h⟩ | ⟨hexact, hnear, h⟩)
    · exact .exact (earliest_keepFirst.mp h)
    · exact .near (unmatched_keepFirst.mp hexact) (earliest_keepFirst.mp h)
    · exact .sibling (unmatched_keepFirst.mp hexact) (unmatched_keepFirst.mp hnear)
        (earliest_keepFirst.mp h)
  · rintro (h | ⟨hexact, h⟩ | ⟨hexact, hnear, h⟩)
    · exact .exact (earliest_keepFirst.mpr h)
    · exact .near (unmatched_keepFirst.mpr hexact) (earliest_keepFirst.mpr h)
    · exact .sibling (unmatched_keepFirst.mpr hexact) (unmatched_keepFirst.mpr hnear)
        (earliest_keepFirst.mpr h)

namespace Owners

variable {owners : Owners} {x service : String}

theorem registered?_eq_some_iff :
    owners.registered? x = some service ↔ Earliest (· = x) owners.entries service :=
  find?_eq_some_iff_earliest (p := (· == x)) fun _ => beq_iff_eq

theorem registered?_eq_none_iff :
    owners.registered? x = none ↔ Unmatched (· = x) owners.entries :=
  find?_eq_none_iff_unmatched (p := (· == x)) fun _ => beq_iff_eq

theorem near_iff (x className : String) :
    packagesRelated (package className) (package x) = true ↔ Near x className :=
  packagesRelated_iff

theorem sibling_iff (x className : String) :
    siblingParents (package (package className)) (package (package x)) = true ↔
      Sibling x className := by
  simp [siblingParents, Sibling, packagesRelated_iff, and_assoc]

/-- Owners resolve a class to the service that it belongs to. -/
theorem resolve_eq_some_iff :
    owners.resolve x = some service ↔ Belongs owners.entries x service := by
  rw [resolve, Option.or_eq_some_iff, registered?_eq_some_iff, registered?_eq_none_iff, byPackage?,
    Option.or_eq_some_iff, findByPackage, findByPackage, find?_eq_some_iff_earliest (near_iff x),
    find?_eq_none_iff_unmatched (near_iff x), find?_eq_some_iff_earliest (sibling_iff x)]
  constructor
  · rintro (h | ⟨hexact, h | ⟨hunrelated, h⟩⟩)
    · exact .exact h
    · exact .near hexact h
    · exact .sibling hexact hunrelated h
  · rintro (h | ⟨hexact, h⟩ | ⟨hexact, hunrelated, h⟩)
    · exact .inl h
    · exact .inr ⟨hexact, .inl h⟩
    · exact .inr ⟨hexact, .inr ⟨hunrelated, h⟩⟩

/-- Owners resolve a class to no service if there is no match of any kind. -/
theorem resolve_eq_none_iff :
    owners.resolve x = none ↔ Unmatched (· = x) owners.entries ∧
      Unmatched (Near x) owners.entries ∧ Unmatched (Sibling x) owners.entries := by
  rw [resolve, Option.or_eq_none_iff, registered?_eq_none_iff, byPackage?, Option.or_eq_none_iff,
    findByPackage, findByPackage, find?_eq_none_iff_unmatched (near_iff x),
    find?_eq_none_iff_unmatched (sibling_iff x)]

/-! ## Owners after registrations -/

/-- The owners after registrations in order, each of a class for a service. -/
def ofCalls (calls : List (String × String)) : Owners :=
  calls.foldl (fun owners call => (owners.enroll call.1 call.2).2) empty

/-- Of the registrations of a class the first one is kept. -/
theorem entries_ofCalls (calls : List (String × String)) :
    (ofCalls calls).entries = keepFirst Prod.fst calls := by
  induction calls using List.reverseRecOn with
  | nil => rfl
  | append_singleton calls call ih =>
    have hconcat : ofCalls (calls ++ [call]) = (ofCalls calls).register call.1 call.2 := by
      rw [ofCalls, List.foldl_append, List.foldl_cons, List.foldl_nil, enroll_snd, ← ofCalls]
    rw [hconcat, entries_register, ih, keepFirst_concat]
    simp only [mem_map_keepFirst]

theorem enroll_fst (owners : Owners) (className id : String) :
    (owners.enroll className id).1 = true ↔ Unmatched (· = className) owners.entries := by
  rw [enroll, Bool.not_eq_true', Bool.eq_false_iff, ne_eq, knows_iff, List.mem_map]
  simp only [Unmatched, not_exists, not_and]

/-- **Main theorem.** After any registrations: registering a class is answered with yes exactly if
it was not registered before; the services are those of the first registration of each class, in
order and each once; a class is registered for the service of its first registration; and it is
resolved to the service that it belongs to, and to none if no registration matches it. -/
theorem ofCalls_answers (calls : List (String × String)) :
    (∀ className id, ((ofCalls calls).enroll className id).1 = true ↔
      ∀ call ∈ calls, call.1 ≠ className) ∧
    (ofCalls calls).serviceIds = keepFirst id ((keepFirst Prod.fst calls).map Prod.snd) ∧
    (∀ x id, (ofCalls calls).registered? x = some id ↔ Earliest (· = x) calls id) ∧
    (∀ x id, (ofCalls calls).resolve x = some id ↔ Belongs calls x id) ∧
    ∀ x, (ofCalls calls).resolve x = none ↔
      Unmatched (· = x) calls ∧ Unmatched (Near x) calls ∧ Unmatched (Sibling x) calls := by
  refine ⟨fun className id => ?_, ?_, fun x id => ?_, fun x id => ?_, fun x => ?_⟩
  · rw [enroll_fst, entries_ofCalls, unmatched_keepFirst]
    rfl
  · rw [serviceIds_eq, entries_ofCalls]
  · rw [registered?_eq_some_iff, entries_ofCalls, earliest_keepFirst]
  · rw [resolve_eq_some_iff, entries_ofCalls, belongs_keepFirst]
  · rw [resolve_eq_none_iff, entries_ofCalls, unmatched_keepFirst, unmatched_keepFirst,
      unmatched_keepFirst]

/-- A class without a package is near to every class, and a package without a parent has no
siblings. -/
example : (ofCalls [("a.b.X", "x"), ("c.Y", "y")]).resolve "Z" = some "x" ∧
    (ofCalls [("a.b.X", "x"), ("c.Y", "y")]).resolve "c.d.Z" = some "y" ∧
    (ofCalls [("a.b.X", "x"), ("c.Y", "y")]).resolve "a.e.Z" = some "x" ∧
    (ofCalls [("a.b.X", "x"), ("c.Y", "y")]).resolve "e.Z" = none := by
  decide +kernel

/-! ## One more registration -/

/-- **Main theorem.** A class that has an owner has one after every further registration as well.
It is the same one, unless it is the service registered with a class that was not registered before,
and this is the class itself, or is in a related package where before there was only a match of
parent packages. -/
theorem resolve_enroll (h : owners.resolve x = some service) (className id : String) :
    ∃ service', (owners.enroll className id).2.resolve x = some service' ∧
      (service' = service ∨ service' = id ∧ className ∉ owners.entries.map Prod.fst ∧
        (x = className ∨
          Unmatched (· = x) owners.entries ∧ Unmatched (Near x) owners.entries ∧
            Earliest (Sibling x) owners.entries service ∧ Near x className)) := by
  simp only [resolve_eq_some_iff, enroll_snd, entries_register] at h ⊢
  split_ifs with hknown
  · exact ⟨service, h, .inl rfl⟩
  -- the new registration is the last one, so it matters only to a property that had no match
  cases h with
  | exact hexact => exact ⟨service, .exact (hexact.append _), .inl rfl⟩
  | near hexact hnear =>
    by_cases hx : className = x
    · exact ⟨id, .exact (hexact.earliest_concat hx _), .inr ⟨rfl, hknown, .inl hx.symm⟩⟩
    · exact ⟨service, .near (hexact.concat hx _) (hnear.append _), .inl rfl⟩
  | sibling hexact hnear hsibling =>
    by_cases hx : className = x
    · exact ⟨id, .exact (hexact.earliest_concat hx _), .inr ⟨rfl, hknown, .inl hx.symm⟩⟩
    by_cases hrelated : Near x className
    · exact ⟨id, .near (hexact.concat hx _) (hnear.earliest_concat hrelated _),
        .inr ⟨rfl, hknown, .inr ⟨hexact, hnear, hsibling, hrelated⟩⟩⟩
    · exact ⟨service, .sibling (hexact.concat hx _) (hnear.concat hrelated _)
        (hsibling.append _), .inl rfl⟩

/-- One service, in the package of its controllers. -/
def orderOwners : Owners :=
  ofCalls [("shop.order.controller.Orders", "orders")]

/-- A class in a sibling package changes its owner when its own package gets a service. -/
theorem resolve_enroll_repository :
    orderOwners.resolve "shop.order.repository.Rows" = some "orders" ∧
      (orderOwners.enroll "shop.order.repository.Export" "export").2.resolve
        "shop.order.repository.Rows" = some "export" ∧
      ∃ service', (orderOwners.enroll "shop.order.repository.Export" "export").2.resolve
          "shop.order.repository.Rows" = some service' ∧
        (service' = "orders" ∨ service' = "export" ∧
          "shop.order.repository.Export" ∉ orderOwners.entries.map Prod.fst ∧
            ("shop.order.repository.Rows" = "shop.order.repository.Export" ∨
              Unmatched (· = "shop.order.repository.Rows") orderOwners.entries ∧
                Unmatched (Near "shop.order.repository.Rows") orderOwners.entries ∧
                  Earliest (Sibling "shop.order.repository.Rows") orderOwners.entries "orders" ∧
                    Near "shop.order.repository.Rows" "shop.order.repository.Export")) :=
  ⟨by decide +kernel, by decide +kernel, resolve_enroll (by decide +kernel) _ _⟩

end Owners

end ArchDoc.Synthesis
