import Mathlib.Data.List.Perm.Basic

/-!
# Slots

A buffered channel as a semaphore that nobody waits for: a task sends on it if
there is room, and receives from it when it ends. The channel only counts. Which
tasks hold its places is a matter of discipline, and `Exact` says that they keep
it: every task that is under way holds one place, and nobody else does.
-/

namespace Base

structure Slots (τ : Type u) where
  used : Nat
  tasks : List τ

namespace Slots

variable {τ : Type u} {cap : Nat}

def empty : Slots τ := ⟨0, []⟩

variable (cap) in
/-- A send with a default, by a task that starts. -/
def acquire (t : τ) (s : Slots τ) : Option (Slots τ) :=
  if s.used < cap then some ⟨s.used + 1, t :: s.tasks⟩ else none

def move (k : Nat) (t : τ) (s : Slots τ) : Slots τ := { s with tasks := s.tasks.set k t }

/-- The receive of a task that ends. It never comes back from an empty channel. -/
def release (k : Nat) (s : Slots τ) : Option (Slots τ) :=
  if s.used = 0 then none else some ⟨s.used - 1, s.tasks.eraseIdx k⟩

variable (cap) in
structure Exact (s : Slots τ) : Prop where
  count : s.used = s.tasks.length
  bound : s.used ≤ cap

theorem exact_empty : (empty : Slots τ).Exact cap := ⟨rfl, Nat.zero_le cap⟩

theorem acquire_eq_none {s : Slots τ} : s.acquire cap t = none ↔ cap ≤ s.used := by
  unfold acquire
  split
  · simpa using ‹s.used < cap›
  · simpa using ‹¬ s.used < cap›

theorem acquire_eq_some {s s' : Slots τ} (h : s.acquire cap t = some s') :
    s.used < cap ∧ s' = ⟨s.used + 1, t :: s.tasks⟩ := by
  unfold acquire at h
  split at h
  · exact ⟨‹_›, (Option.some.inj h).symm⟩
  · cases h

theorem Exact.acquire {s s' : Slots τ} (hs : s.Exact cap) (h : s.acquire cap t = some s') :
    s'.Exact cap := by
  obtain ⟨hroom, rfl⟩ := acquire_eq_some h
  exact ⟨congrArg (· + 1) hs.count, hroom⟩

theorem Exact.move {s : Slots τ} (hs : s.Exact cap) (k : Nat) (t : τ) : (s.move k t).Exact cap :=
  ⟨hs.count.trans (List.length_set ..).symm, hs.bound⟩

theorem Exact.release_isSome {s : Slots τ} (hs : s.Exact cap) (hk : s.tasks[k]? = some t) :
    s.release k = some ⟨s.used - 1, s.tasks.eraseIdx k⟩ := by
  obtain ⟨hlt, -⟩ := List.getElem?_eq_some_iff.mp hk
  have hcount := hs.count
  exact if_neg (by omega)

theorem Exact.release {s s' : Slots τ} (hs : s.Exact cap) (hk : s.tasks[k]? = some t)
    (h : s.release k = some s') : s'.Exact cap := by
  cases (hs.release_isSome hk).symm.trans h
  obtain ⟨hlt, -⟩ := List.getElem?_eq_some_iff.mp hk
  have hcount := hs.count
  have hbound := hs.bound
  refine ⟨?_, by simp only; omega⟩
  simp only [List.length_eraseIdx_of_lt hlt, hcount]

theorem Exact.length_le {s : Slots τ} (hs : s.Exact cap) : s.tasks.length ≤ cap :=
  hs.count ▸ hs.bound

-- ---------------------------------------------------------------------------
-- Which tasks are under way
-- ---------------------------------------------------------------------------

theorem perm_of_get {s : Slots τ} (hk : s.tasks[k]? = some t) :
    s.tasks.Perm (t :: s.tasks.eraseIdx k) := by
  obtain ⟨hlt, rfl⟩ := List.getElem?_eq_some_iff.mp hk
  exact (List.getElem_cons_eraseIdx_perm hlt).symm

theorem perm_move {s : Slots τ} (hk : s.tasks[k]? = some t) (t' : τ) :
    (s.move k t').tasks.Perm (t' :: s.tasks.eraseIdx k) := by
  obtain ⟨hlt, -⟩ := List.getElem?_eq_some_iff.mp hk
  exact List.set_perm_cons_eraseIdx hlt t'

end Slots

end Base
