/-!
# Frames in a stream

A sender writes one frame after another, and a receiver has some first part of
the stream. `completed` is the frames that part holds in full. A reader takes
the first frame off what it has, once all of it is there, and such a reader
goes through a stream in step with the sender.
-/

namespace Base.Framing

variable {φ : Type u} {α : Type v} {β : Type w} {enc : φ → List α}

/-- The frames that lie within the first `n` symbols. -/
def completed (enc : φ → List α) : Nat → List φ → List φ
  | _, [] => []
  | n, f :: fs =>
    if (enc f).length ≤ n then f :: completed enc (n - (enc f).length) fs else []

theorem completed_append (done todo : List φ) (n : Nat) :
    completed enc ((done.flatMap enc).length + n) (done ++ todo) =
      done ++ completed enc n todo := by
  induction done with
  | nil => simp
  | cons f done ih =>
    have hle : (enc f).length ≤ ((f :: done).flatMap enc).length + n := by
      simp only [List.flatMap_cons, List.length_append]
      omega
    have hrest : ((f :: done).flatMap enc).length + n - (enc f).length =
        (done.flatMap enc).length + n := by
      simp only [List.flatMap_cons, List.length_append]
      omega
    rw [List.cons_append, completed, if_pos hle, hrest, ih, List.cons_append]

theorem completed_within (fs : List φ) (n : Nat) : completed enc n fs <+: fs := by
  induction fs generalizing n with
  | nil => exact List.prefix_rfl
  | cons f fs ih =>
    rw [completed]
    split
    · exact (List.prefix_cons_inj f).mpr (ih _)
    · exact ⟨f :: fs, rfl⟩

theorem completed_mono (fs : List φ) (h : n ≤ m) : completed enc n fs <+: completed enc m fs := by
  induction fs generalizing n m with
  | nil => exact List.prefix_rfl
  | cons f fs ih =>
    rw [completed]
    split
    · rename_i hle
      rw [completed, if_pos (Nat.le_trans hle h)]
      exact (List.prefix_cons_inj f).mpr (ih (by omega))
    · exact ⟨_, rfl⟩

/-- `read` takes a frame off a list that begins with a whole one, and nothing
off a list that ends within its first. -/
structure Reads (enc : φ → List α) (view : φ → β) (read : List α → Option (β × List α)) : Prop where
  whole : ∀ f rest, read (enc f ++ rest) = some (view f, rest)
  part : ∀ f b, b <+: enc f → b.length < (enc f).length → read b = none
  nil : read [] = none

variable {view : φ → β} {read : List α → Option (β × List α)}

/-- What is there of a stream either ends within its first frame, or begins
with that frame. -/
theorem Reads.cases (h : Reads enc view read) (hb : b <+: todo.flatMap enc) :
    read b = none ∧ completed enc b.length todo = [] ∨
    ∃ f rest todo', todo = f :: todo' ∧ b = enc f ++ rest ∧ read b = some (view f, rest) ∧
      rest <+: todo'.flatMap enc := by
  cases todo with
  | nil =>
    have hnil : b = [] := List.prefix_nil.mp hb
    subst hnil
    exact .inl ⟨h.nil, rfl⟩
  | cons f todo' =>
    rw [List.flatMap_cons] at hb
    by_cases hlen : (enc f).length ≤ b.length
    · have hf : enc f <+: b := List.prefix_of_prefix_length_le (List.prefix_append _ _) hb hlen
      obtain ⟨rest, rfl⟩ := hf
      exact .inr ⟨f, rest, todo', rfl, rfl, h.whole f rest, (List.prefix_append_right_inj _).mp hb⟩
    · have hpart : b <+: enc f :=
        List.prefix_of_prefix_length_le hb (List.prefix_append _ _) (by omega)
      exact .inl ⟨h.part f b hpart (by omega), by rw [completed, if_neg hlen]⟩

theorem completed_cons (f : φ) (todo : List φ) (n : Nat) :
    completed enc ((enc f).length + n) (f :: todo) = f :: completed enc n todo := by
  simpa only [List.flatMap_singleton, List.singleton_append] using completed_append [f] todo n

end Base.Framing
