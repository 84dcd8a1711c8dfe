/-! # Steps that lead to a result

Rendering, reading and laying out are chains of steps of which each can fail. Where the whole chain
has a result, each of its steps has one: these lemmas take a chain apart from the front.
-/

namespace StaticSite

variable {ε α β : Type}

/-- A step that leads to a result has one itself. -/
theorem exists_of_bind_eq_ok {step : Except ε α} {next : α → Except ε β} {b : β}
    (done : step >>= next = .ok b) : ∃ a, step = .ok a ∧ next a = .ok b := by
  cases step with
  | error e => cases done
  | ok a => exact ⟨a, rfl, done⟩

theorem exists_of_map {f : α → β} {result : Except ε α} {b : β}
    (mapped : result.map f = .ok b) : ∃ a, result = .ok a ∧ f a = b := by
  cases result with
  | error fault => cases mapped
  | ok a => exact ⟨a, rfl, Except.ok.inj mapped⟩

theorem eq_ok_of_toOption {r : Except ε α} {a : α} (found : r.toOption = some a) : r = .ok a := by
  cases r with
  | error e => cases found
  | ok b => exact congrArg Except.ok (Option.some.inj found)

end StaticSite
