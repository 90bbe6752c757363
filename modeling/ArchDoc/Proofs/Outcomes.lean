/-!
# Outcomes

Computations that may fail succeed only if each of their parts does.
-/

namespace ArchDoc

variable {ε α β : Type}

/-- A computation in two parts that succeeds, part by part. -/
theorem bind_eq_ok {x : Except ε α} {f : α → Except ε β} {b : β} (h : x >>= f = .ok b) :
    ∃ a, x = .ok a ∧ f a = .ok b := by
  cases x with
  | error e => exact nomatch h
  | ok a => exact ⟨a, rfl, h⟩

theorem exists_error_of_toOption {x : Except ε α} (h : x.toOption = none) :
    ∃ error, x = .error error := by
  cases x with
  | error error => exact ⟨error, rfl⟩
  | ok a => exact nomatch h

theorem eq_ok_of_toOption {x : Except ε α} {a : α} (h : x.toOption = some a) : x = .ok a := by
  cases x with
  | error error => exact nomatch h
  | ok b => exact congrArg Except.ok (Option.some.inj h)

end ArchDoc
