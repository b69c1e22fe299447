import Mathlib.Data.List.Nodup

/-!
# Tables with a primary key

A table is a list of rows whose keys differ. `insert` is the SQL statement and
fails on a conflict, `put` is the assignment to a map and replaces; `update`
and `delete` run over every row.
-/

namespace Base

structure Table {ρ : Type u} {κ : Type v} (key : ρ → κ) where
  rows : List ρ
  distinct : (rows.map key).Nodup

namespace Table

variable {ρ : Type u} {κ : Type v} {key : ρ → κ}

instance [DecidableEq ρ] : DecidableEq (Table key) := fun s t =>
  decidable_of_iff (s.rows = t.rows) ⟨fun h => by cases s; cases t; cases h; rfl, congrArg rows⟩

def empty : Table key := ⟨[], .nil⟩

/-- A row list may hold other rows as long as every key stays where it is. -/
def update (t : Table key) (f : ρ → ρ) (hf : ∀ r, key (f r) = key r) : Table key where
  rows := t.rows.map f
  distinct := by simpa [Function.comp_def, hf] using t.distinct

def delete (t : Table key) (p : ρ → Bool) : Table key where
  rows := t.rows.filter (!p ·)
  distinct := t.distinct.sublist ((List.filter_sublist).map key)

def count (t : Table key) (p : ρ → Bool) : Nat := t.rows.countP p

variable [DecidableEq κ]

def get? (t : Table key) (k : κ) : Option ρ := t.rows.find? (key · = k)

theorem get?_eq_none {t : Table key} : t.get? k = none ↔ ∀ r ∈ t.rows, key r ≠ k := by
  simp [get?, List.find?_eq_none]

theorem key_get? {t : Table key} (h : t.get? k = some r) : key r = k := by
  simpa using List.find?_some h

theorem get?_eq_some {t : Table key} : t.get? k = some r ↔ r ∈ t.rows ∧ key r = k := by
  refine ⟨fun h => ⟨List.mem_of_find?_eq_some h, key_get? h⟩, fun ⟨hr, hk⟩ => ?_⟩
  match h : t.get? k with
  | none => exact absurd hk (get?_eq_none.mp h r hr)
  | some r' =>
    have hsame : key r' = key r := (key_get? h).trans hk.symm
    exact congrArg some
      (List.inj_on_of_nodup_map t.distinct (List.mem_of_find?_eq_some h) hr hsame)

def insert (t : Table key) (r : ρ) : Option (Table key) :=
  if h : t.get? (key r) = none then
    some ⟨t.rows ++ [r], by
      have hr := get?_eq_none.mp h
      simpa [List.nodup_append, t.distinct] using hr⟩
  else none

theorem insert_eq_some {t t' : Table key} (h : t.insert r = some t') :
    t.get? (key r) = none ∧ t'.rows = t.rows ++ [r] := by
  unfold insert at h
  split at h
  · rename_i hk
    cases h
    exact ⟨hk, rfl⟩
  · cases h

theorem insert_eq_none {t : Table key} : t.insert r = none ↔ t.get? (key r) ≠ none := by
  unfold insert
  split
  · rename_i h
    simp [h]
  · rename_i h
    simpa using h

def put (t : Table key) (r : ρ) : Table key where
  rows := (t.delete (key · = key r)).rows ++ [r]
  distinct := by
    have hne : ∀ x ∈ (t.delete (key · = key r)).rows, key x ≠ key r := fun x hx => by
      simpa using (List.mem_filter.mp hx).2
    simpa [List.nodup_append, (t.delete (key · = key r)).distinct] using hne

theorem get?_empty : (empty : Table key).get? k = none := rfl

theorem get?_insert {t t' : Table key} (h : t.insert r = some t') (k : κ) :
    t'.get? k = if key r = k then some r else t.get? k := by
  obtain ⟨hnone, hrows⟩ := insert_eq_some h
  split
  · rename_i hk
    exact get?_eq_some.mpr ⟨by simp [hrows], hk⟩
  · rename_i hk
    simp [get?, hrows, List.find?_append, hk]

theorem get?_put (t : Table key) (r : ρ) (k : κ) :
    (t.put r).get? k = if key r = k then some r else t.get? k := by
  split
  · rename_i hk
    exact get?_eq_some.mpr ⟨by simp [put], hk⟩
  · rename_i hk
    have hother : ∀ x : ρ, key x = k → key x ≠ key r := fun x hx hr => hk (hr ▸ hx)
    cases h : t.get? k with
    | none =>
      have hnone := get?_eq_none.mp h
      refine get?_eq_none.mpr fun x hx => ?_
      rcases List.mem_append.mp hx with hx | hx
      · exact hnone x (List.mem_filter.mp hx).1
      · rwa [List.mem_singleton.mp hx]
    | some x =>
      obtain ⟨hx, hkey⟩ := get?_eq_some.mp h
      refine get?_eq_some.mpr ⟨List.mem_append_left _ (List.mem_filter.mpr ⟨hx, ?_⟩), hkey⟩
      simpa using hother x hkey

theorem get?_foldl_put (t : Table key) (l : List ρ) (k : κ) :
    (l.foldl put t).get? k = (l.reverse.find? (key · = k)).or (t.get? k) := by
  induction l generalizing t with
  | nil => rfl
  | cons r l ih =>
    rw [List.foldl_cons, ih, List.reverse_cons, List.find?_append, Option.or_assoc, get?_put]
    congr 1
    by_cases hk : key r = k
    · simp [hk]
    · simp [hk]

theorem get?_foldl_put_empty {l : List ρ} (h : (l.map key).Nodup) :
    (l.foldl put (empty : Table key)).get? k = some r ↔ r ∈ l ∧ key r = k := by
  rw [get?_foldl_put, get?_empty, Option.or_none]
  have hnodup : (l.reverse.map key).Nodup := by
    rw [List.map_reverse]
    exact List.nodup_reverse.mpr h
  have hfind := get?_eq_some (t := ⟨l.reverse, hnodup⟩) (k := k) (r := r)
  rwa [List.mem_reverse] at hfind

theorem get?_update (t : Table key) (f : ρ → ρ) (hf : ∀ r, key (f r) = key r) (k : κ) :
    (t.update f hf).get? k = (t.get? k).map f := by
  have hcomp : (fun r => decide (key r = k)) ∘ f = fun r => decide (key r = k) :=
    funext fun r => by rw [Function.comp_apply, hf]
  rw [get?, update, List.find?_map, hcomp, get?]

theorem get?_delete (t : Table key) (p : ρ → Bool) (k : κ) :
    (t.delete p).get? k = (t.get? k).filter (!p ·) := by
  cases h : t.get? k with
  | none =>
    have hk := get?_eq_none.mp h
    exact get?_eq_none.mpr fun r hr => hk r (List.mem_filter.mp hr).1
  | some r =>
    obtain ⟨hr, hk⟩ := get?_eq_some.mp h
    cases hp : p r with
    | false =>
      have hmem : r ∈ (t.delete p).rows := List.mem_filter.mpr ⟨hr, by simp [hp]⟩
      simpa [Option.filter, hp] using get?_eq_some.mpr ⟨hmem, hk⟩
    | true =>
      have hnone : (t.delete p).get? k = none := by
        refine get?_eq_none.mpr fun r' hr' hk' => ?_
        obtain ⟨hmem, hp'⟩ := List.mem_filter.mp hr'
        cases List.inj_on_of_nodup_map t.distinct hmem hr (hk'.trans hk.symm)
        simp [hp] at hp'
      simpa [Option.filter, hp] using hnone

-- ---------------------------------------------------------------------------
-- Counting
-- ---------------------------------------------------------------------------

omit [DecidableEq κ] in
theorem count_update_le {t : Table key} {f : ρ → ρ} (hf : ∀ r, key (f r) = key r) {p q : ρ → Bool}
    (h : ∀ r ∈ t.rows, p (f r) = true → q r = true) : (t.update f hf).count p ≤ t.count q := by
  simp only [count, update, List.countP_map]
  exact List.countP_mono_left h

omit [DecidableEq κ] in
theorem count_delete_le (t : Table key) (d p : ρ → Bool) : (t.delete d).count p ≤ t.count p :=
  List.filter_sublist.countP_le

omit [DecidableEq κ] in
theorem count_mono {t : Table key} {p q : ρ → Bool} (h : ∀ r, p r = true → q r = true) :
    t.count p ≤ t.count q :=
  List.countP_mono_left fun r _ => h r

theorem count_insert_le {t t' : Table key} (h : t.insert r = some t') (p : ρ → Bool) :
    t'.count p ≤ t.count p + 1 := by
  rw [count, (insert_eq_some h).2, List.countP_append]
  exact Nat.add_le_add_left (List.countP_le_length) _

theorem count_key_le_one (t : Table key) (k : κ) : t.count (key · = k) ≤ 1 := by
  have hone := List.nodup_iff_count_le_one.mp t.distinct k
  rw [List.count, List.countP_map] at hone
  exact hone

omit [DecidableEq κ] in
theorem countP_or_le (p q : ρ → Bool) (l : List ρ) :
    l.countP (fun r => p r || q r) ≤ l.countP p + l.countP q := by
  induction l with
  | nil => exact Nat.le_refl 0
  | cons r rest ih =>
    simp only [List.countP_cons]
    cases p r <;> cases q r <;> simp <;> omega

theorem count_update_one {t : Table key} {f : ρ → ρ} (hf : ∀ r, key (f r) = key r) {k : κ}
    (h : ∀ r, key r ≠ k → f r = r) (p : ρ → Bool) :
    (t.update f hf).count p ≤ t.count p + 1 := by
  have hor : (t.update f hf).count p ≤ t.count fun r => p r || decide (key r = k) := by
    refine count_update_le hf fun r _ hr => ?_
    by_cases hk : key r = k
    · simp [hk]
    · rw [h r hk] at hr
      simp [hr]
  calc (t.update f hf).count p
    _ ≤ t.count fun r => p r || decide (key r = k) := hor
    _ ≤ t.count p + t.count (key · = k) := countP_or_le ..
    _ ≤ t.count p + 1 := Nat.add_le_add_left (t.count_key_le_one k) _

end Table

end Base
