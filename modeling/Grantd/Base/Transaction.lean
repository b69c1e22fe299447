/-!
# Transactions whose statements may fail

Statements are numbered as they are executed, and any number may fail. A
statement also fails by itself where it cannot run. The error of a run is the
number of the statement that ended it.
-/

namespace Base

/-- A transaction under way: what it has made of the database, and how many
statements it has executed. -/
structure Tx (σ : Type u) where
  db : σ
  executed : Nat

abbrev Sql (σ : Type u) := StateT (Tx σ) (Except Nat)

namespace Sql

variable {σ : Type u} {ι : Type v} {α β : Type u} (run : ι → σ → Option σ) (fails : Nat → Bool)

def exec (st : ι) : Sql σ PUnit := fun tx =>
  if fails tx.executed then .error tx.executed
  else
    match run st tx.db with
    | none => .error tx.executed
    | some db => .ok (⟨⟩, ⟨db, tx.executed + 1⟩)

def script : List ι → Sql σ PUnit
  | [] => pure ⟨⟩
  | st :: sts => do
    exec run fails st
    script sts

def effect : List ι → σ → Option σ
  | [], db => some db
  | st :: sts, db => (run st db).bind (effect sts)

/-- The database after the transaction, which is committed or rolled back. -/
def settled (m : Sql σ α) (db : σ) : σ :=
  match m ⟨db, 0⟩ with
  | .error _ => db
  | .ok (_, tx) => tx.db

def count (m : Sql σ α) (db : σ) : Nat :=
  match m ⟨db, 0⟩ with
  | .error k => k + 1
  | .ok (_, tx) => tx.executed

/-- What the statements from number `n` up to `p` come to, if they lead to `a`
and `db` when none fails: that, or the error of the first that fails. -/
inductive Comes (n p : Nat) (a : α) (db : σ) : Except Nat (α × Tx σ) → Prop
  | done : (∀ k, n ≤ k → k < p → fails k = false) → Comes n p a db (.ok (a, ⟨db, p⟩))
  | failed {k} : n ≤ k → k < p → fails k = true → Comes n p a db (.error k)

variable {run fails}

theorem comes_pure (a : α) (db : σ) (n : Nat) :
    Comes fails n n a db ((pure a : Sql σ α) ⟨db, n⟩) :=
  .done fun _ hle hlt => absurd (Nat.lt_of_le_of_lt hle hlt) (Nat.lt_irrefl _)

theorem Comes.congr {fails' : Nat → Bool} (h : Comes fails n p a db r)
    (heq : ∀ k, n ≤ k → k < p → fails k = fails' k) : Comes fails' n p a db r := by
  cases h with
  | done hok => exact .done fun k hle hlt => (heq k hle hlt).symm.trans (hok k hle hlt)
  | failed hle hlt hfail => exact .failed hle hlt ((heq _ hle hlt).symm.trans hfail)

theorem Comes.bind {m : Sql σ α} {f : α → Sql σ β} (h : Comes fails n p a db (m tx))
    (hf : Comes fails p q b db' (f a ⟨db, p⟩)) (hnp : n ≤ p) (hpq : p ≤ q) :
    Comes fails n q b db' ((m >>= f) tx) := by
  have hbind : (m >>= f) tx = (m tx).bind fun r => f r.1 r.2 := rfl
  rw [hbind]
  generalize m tx = r at h
  cases h with
  | failed hle hlt hfail => exact .failed hle (Nat.lt_of_lt_of_le hlt hpq) hfail
  | done hok =>
    show Comes fails n q b db' (f a ⟨db, p⟩)
    generalize f a ⟨db, p⟩ = r at hf
    cases hf with
    | failed hle hlt hfail => exact .failed (Nat.le_trans hnp hle) hlt hfail
    | done hok' =>
      refine .done fun k hle hlt => ?_
      cases Nat.lt_or_ge k p with
      | inl h => exact hok k hle h
      | inr h => exact hok' k h hlt

theorem exec_comes (h : run st db = some db') (n : Nat) :
    Comes fails n (n + 1) ⟨⟩ db' (exec run fails st ⟨db, n⟩) := by
  unfold exec
  cases hn : fails n with
  | true => exact .failed (Nat.le_refl n) (Nat.lt_succ_self n) hn
  | false =>
    simp only [h, Bool.false_eq_true, if_false]
    refine .done fun k hle hlt => ?_
    rwa [Nat.le_antisymm (Nat.le_of_lt_succ hlt) hle]

theorem script_comes (h : effect run sts db = some db') (n : Nat) :
    Comes fails n (n + sts.length) ⟨⟩ db' (script run fails sts ⟨db, n⟩) := by
  induction sts generalizing db n with
  | nil =>
    cases h
    exact comes_pure _ _ n
  | cons st sts ih =>
    obtain ⟨mid, hst, hrest⟩ := Option.bind_eq_some_iff.mp h
    have hlen : n + (st :: sts).length = n + 1 + sts.length := by
      rw [List.length_cons, Nat.add_right_comm, Nat.add_assoc]
    rw [hlen]
    exact (exec_comes hst n).bind (ih hrest (n + 1)) (Nat.le_succ n) (Nat.le_add_right ..)

-- ---------------------------------------------------------------------------
-- All or nothing
-- ---------------------------------------------------------------------------

theorem Comes.settled_failed {m : Sql σ α} (h : Comes fails 0 p a db' (m ⟨db, 0⟩))
    (hfail : ∃ k, k < count m db ∧ fails k = true) : settled m db = db := by
  unfold settled count at *
  cases hm : m ⟨db, 0⟩ with
  | error k => rfl
  | ok r =>
    rw [hm] at h hfail
    cases h with
    | done hok =>
      obtain ⟨k, hlt, hk⟩ := hfail
      rw [hok k (Nat.zero_le k) hlt] at hk
      cases hk

theorem Comes.settled_done {m : Sql σ α} (h : Comes fails 0 p a db' (m ⟨db, 0⟩))
    (hok : ∀ k, k < count m db → fails k = false) : settled m db = db' := by
  unfold settled count at *
  cases hm : m ⟨db, 0⟩ with
  | error k =>
    rw [hm] at h hok
    cases h with
    | failed hle hlt hk =>
      rw [hok k (Nat.lt_succ_self k)] at hk
      cases hk
  | ok r =>
    rw [hm] at h
    cases h with
    | done => rfl

end Sql

end Base
