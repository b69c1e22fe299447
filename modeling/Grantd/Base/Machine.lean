/-!
# Machines and their runs

A machine takes one labelled step at a time. A label carries every input the
step reads from outside, so `step` is a function, and `none` says that the
step cannot be taken. An environment assumption is a predicate on the steps
of a run.
-/

namespace Base

structure Machine (σ : Type u) (ℓ : Type v) where
  Init : σ → Prop
  step : σ → ℓ → Option σ

namespace Machine

variable {M : Machine σ ℓ} {ok : σ → ℓ → Prop}

variable (M ok) in
/-- `t` follows `s` in a run whose steps all meet `ok`. -/
inductive Run : σ → σ → Prop
  | refl (s) : Run s s
  | step {s t u l} : Run s t → ok t l → M.step t l = some u → Run s u

variable (M ok) in
def Reachable (s : σ) : Prop := ∃ s₀, M.Init s₀ ∧ M.Run ok s₀ s

theorem Run.trans (h : M.Run ok s t) (h' : M.Run ok t u) : M.Run ok s u := by
  induction h' with
  | refl => exact h
  | step _ hok hstep ih => exact ih.step hok hstep

theorem Run.of_step (hok : ok s l) (h : M.step s l = some t) : M.Run ok s t :=
  (Run.refl s).step hok h

/-- A run under an assumption is one under a weaker assumption. -/
theorem Run.mono {ok' : σ → ℓ → Prop} (hok : ∀ s l, ok s l → ok' s l) (h : M.Run ok s t) :
    M.Run ok' s t := by
  induction h with
  | refl => exact .refl _
  | step _ hl hstep ih => exact ih.step (hok _ _ hl) hstep

theorem Reachable.mono {ok' : σ → ℓ → Prop} (hok : ∀ s l, ok s l → ok' s l)
    (h : M.Reachable ok s) : M.Reachable ok' s := by
  obtain ⟨s₀, hinit, hrun⟩ := h
  exact ⟨s₀, hinit, hrun.mono hok⟩

theorem Reachable.of_init (h : M.Init s) : M.Reachable ok s := ⟨s, h, .refl s⟩

theorem Reachable.run (h : M.Reachable ok s) (h' : M.Run ok s t) : M.Reachable ok t := by
  obtain ⟨s₀, hinit, hrun⟩ := h
  exact ⟨s₀, hinit, hrun.trans h'⟩

theorem Reachable.step (h : M.Reachable ok s) (hok : ok s l) (hstep : M.step s l = some t) :
    M.Reachable ok t :=
  h.run (.of_step hok hstep)

/-- What holds initially and survives every step holds in every reachable
state. -/
theorem Reachable.invariant {I : σ → Prop} (hinit : ∀ s, M.Init s → I s)
    (hstep : ∀ s l t, I s → ok s l → M.step s l = some t → I t) (h : M.Reachable ok s) : I s := by
  obtain ⟨s₀, hs₀, hrun⟩ := h
  induction hrun with
  | refl => exact hinit _ hs₀
  | step _ hok ht ih => exact hstep _ _ _ ih hok ht

/-- An invariant whose step may use that its states are reachable. -/
theorem Reachable.induction {I : σ → Prop} (hinit : ∀ s, M.Init s → I s)
    (hstep : ∀ s l t, M.Reachable ok s → I s → ok s l → M.step s l = some t → I t)
    (h : M.Reachable ok s) : I s := by
  obtain ⟨s₀, hs₀, hrun⟩ := h
  induction hrun with
  | refl => exact hinit _ hs₀
  | step hrun hok ht ih => exact hstep _ _ _ ⟨s₀, hs₀, hrun⟩ ih hok ht

/-- An invariant of the runs under an assumption may be added to it. -/
theorem Reachable.strengthen {I : σ → Prop} {ok' : σ → ℓ → Prop} (hinit : ∀ s, M.Init s → I s)
    (hstep : ∀ s l t, I s → ok s l → M.step s l = some t → I t)
    (hok : ∀ s l, I s → ok s l → ok' s l) (h : M.Reachable ok s) : M.Reachable ok' s := by
  obtain ⟨s₀, hs₀, hrun⟩ := h
  induction hrun with
  | refl => exact .of_init hs₀
  | step hrun hl ht ih =>
    exact ih.step (hok _ _ (Reachable.invariant hinit hstep ⟨s₀, hs₀, hrun⟩) hl) ht

/-- A reflexive and transitive relation that every step from a reachable
state respects holds between a reachable state and whatever follows it. -/
theorem Run.relates {R : σ → σ → Prop} (hrefl : ∀ s, R s s)
    (htrans : ∀ s t u, R s t → R t u → R s u)
    (hstep : ∀ s l t, M.Reachable ok s → ok s l → M.step s l = some t → R s t)
    (hs : M.Reachable ok s) (h : M.Run ok s u) : R s u := by
  induction h with
  | refl => exact hrefl _
  | step hrun hok ht ih => exact htrans _ _ _ ih (hstep _ _ _ (hs.run hrun) hok ht)

variable (M ok) in
/-- Takes the given steps one after the other, as long as they are allowed. -/
def exec [∀ s l, Decidable (ok s l)] : σ → List ℓ → Option σ
  | s, [] => some s
  | s, l :: ls => if ok s l then (M.step s l).bind (exec · ls) else none

theorem Run.of_exec [∀ s l, Decidable (ok s l)] {s t : σ} {ls : List ℓ}
    (h : M.exec ok s ls = some t) : M.Run ok s t := by
  induction ls generalizing s with
  | nil =>
    cases h
    exact .refl _
  | cons l ls ih =>
    simp only [exec] at h
    split at h
    · rename_i hok
      obtain ⟨u, hu, htail⟩ := Option.bind_eq_some_iff.mp h
      exact (Run.of_step hok hu).trans (ih htail)
    · cases h

/-- Steps that all use up something cannot go on for ever. -/
theorem exec_length [∀ s l, Decidable (ok s l)] {s t : σ} {ls : List ℓ} (rank : σ → Nat)
    (hrank : ∀ s l t, ok s l → M.step s l = some t → rank t < rank s)
    (h : M.exec ok s ls = some t) : rank t + ls.length ≤ rank s := by
  induction ls generalizing s with
  | nil =>
    cases h
    exact Nat.le_refl _
  | cons l ls ih =>
    simp only [exec] at h
    split at h
    · rename_i hok
      obtain ⟨u, hu, htail⟩ := Option.bind_eq_some_iff.mp h
      have hstep := hrank s l u hok hu
      have hrest := ih htail
      simp only [List.length_cons]
      omega
    · cases h

end Machine

end Base
