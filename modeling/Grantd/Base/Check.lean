/-!
# Guard chains

Go's early returns, as computations in `Except`. `ensure` is one guard. The
lemmas turn the success of a chain of guards into the conjunction of its
conditions, one guard at a time.
-/

namespace Base

/-- One guard: go on, or stop with `err`. -/
def ensure (cond : Bool) (err : ε) : Except ε Unit :=
  match cond with
  | true => pure ()
  | false => throw err

theorem ensure_eq_ok (cond : Bool) (err : ε) (u : Unit) :
    ensure cond err = .ok u ↔ cond = true := by
  cases cond with
  | true => exact iff_of_true rfl rfl
  | false => exact iff_of_false nofun nofun

theorem bind_eq_ok (m : Except ε α) (k : α → Except ε β) (b : β) :
    m >>= k = .ok b ↔ ∃ a, m = .ok a ∧ k a = .ok b := by
  cases m with
  | error e => exact iff_of_false nofun (fun ⟨_, h, _⟩ => nomatch h)
  | ok a => exact ⟨fun h => ⟨a, rfl, h⟩, fun ⟨_, h, hk⟩ => by cases h; exact hk⟩

theorem pure_eq_ok (a b : α) : (pure a : Except ε α) = .ok b ↔ a = b :=
  ⟨fun h => by cases h; rfl, fun h => by rw [h]; rfl⟩

theorem throw_eq_ok (e : ε) (b : α) : (throw e : Except ε α) = .ok b ↔ False :=
  iff_of_false nofun id

theorem mapError_eq_ok (m : Except ε α) (f : ε → δ) (b : α) :
    m.mapError f = .ok b ↔ m = .ok b := by
  cases m with
  | error e => exact iff_of_false nofun nofun
  | ok a => exact ⟨fun h => by cases h; rfl, fun h => by cases h; rfl⟩

theorem toOption_eq_some {m : Except ε α} : m.toOption = some a ↔ m = .ok a := by
  cases m with
  | error e => exact iff_of_false nofun nofun
  | ok b => simp [Except.toOption]

end Base
