import Mathlib.Algebra.Order.Group.Defs
import Mathlib.Algebra.Order.Sub.Defs
import Mathlib.Algebra.Order.Group.Unbundled.Basic

/-!
# Sliding windows

A table of times admits a call at `t` while fewer than `cap` of its times lie
in the last `width` before `t`, and drops what lies further back. Two tables
with the same recent times cannot be told apart from then on, so such a table
stands for the whole history of admitted calls.
-/

namespace Base.Window

variable {τ : Type u} [AddCommGroup τ] [LinearOrder τ]
variable (width : τ) (cap : Nat)

/-- The times that a call at `t` counts. -/
def recent (t : τ) (times : List τ) : List τ := times.filter (t - width ≤ ·)

def call (t : τ) (times : List τ) : Bool × List τ :=
  if cap ≤ (recent width t times).length then (false, recent width t times)
  else (true, recent width t times ++ [t])

def between (x : τ) (times : List τ) : List τ := times.filter fun a => x ≤ a ∧ a ≤ x + width

/-- From `t` on the two tables answer alike. -/
def Agree (t : τ) (a b : List τ) : Prop := recent width t a = recent width t b

variable {width cap}

theorem recent_append (t : τ) (a b : List τ) :
    recent width t (a ++ b) = recent width t a ++ recent width t b :=
  List.filter_append ..

/-- Of times up to `t` the recent ones are those of the interval that ends
there. -/
theorem recent_eq_between (h : ∀ a ∈ times, a ≤ t) :
    recent width t times = between width (t - width) times := by
  refine List.filter_congr fun a ha => ?_
  simp only [sub_add_cancel, h a ha, and_true]

theorem call_admits (t : τ) (times : List τ) :
    (call width cap t times).1 = true ↔ (recent width t times).length < cap := by
  unfold call
  split
  · rename_i hfull
    simp [hfull]
  · rename_i hroom
    simp only [true_iff]
    exact Nat.lt_of_not_le hroom

theorem Agree.call (h : Agree width t a b) : call width cap t a = call width cap t b := by
  unfold Agree at h
  rw [Window.call, Window.call, h]

theorem Agree.append (h : Agree width t a b) (c : List τ) : Agree width t (a ++ c) (b ++ c) := by
  unfold Agree at h ⊢
  rw [recent_append, recent_append, h]

-- ---------------------------------------------------------------------------
-- As time goes on
-- ---------------------------------------------------------------------------

variable [IsOrderedAddMonoid τ]

theorem recent_recent (h : t ≤ u) (times : List τ) :
    recent width u (recent width t times) = recent width u times := by
  rw [recent, recent, recent, List.filter_filter]
  refine List.filter_congr fun a _ => ?_
  rw [Bool.and_eq_left_iff_imp, decide_eq_true_iff, decide_eq_true_iff]
  exact le_trans (sub_le_sub_right h width)

theorem Agree.mono (h : Agree width t a b) (htu : t ≤ u) : Agree width u a b := by
  unfold Agree at h ⊢
  rw [← recent_recent htu a, h, recent_recent htu b]

theorem agree_recent (t : τ) (times : List τ) : Agree width t (recent width t times) times :=
  recent_recent le_rfl times

/-- What a call leaves answers like the table with the call, if it was
admitted, at the end. -/
theorem call_agree (width : τ) (cap : Nat) (t : τ) (times : List τ) :
    Agree width t (call width cap t times).2
      (if (call width cap t times).1 then times ++ [t] else times) := by
  unfold call
  split
  · exact agree_recent t times
  · exact (agree_recent t times).append [t]

/-- If no interval has more than `cap` admitted calls, and another one is
admitted at the end, then none has more than `cap` after it. -/
theorem length_between_append (hbound : (between width x times).length ≤ cap)
    (hroom : (recent width t times).length < cap) :
    (between width x (times ++ [t])).length ≤ cap := by
  rw [between, List.filter_append, List.length_append]
  by_cases hin : x ≤ t ∧ t ≤ x + width
  · -- The interval reaches up to the new call, so what it holds is recent.
    have hsub : (between width x times).length ≤ (recent width t times).length := by
      rw [between, recent, ← List.countP_eq_length_filter, ← List.countP_eq_length_filter]
      refine List.countP_mono_left fun a _ ha => ?_
      have hx := (of_decide_eq_true ha).1
      exact decide_eq_true (le_trans (sub_le_iff_le_add.mpr hin.2) hx)
    have hone : ([t].filter fun a => decide (x ≤ a ∧ a ≤ x + width)).length ≤ 1 :=
      List.length_filter_le ..
    rw [between] at hsub
    omega
  · rw [List.filter_cons_of_neg (by simpa using hin), List.filter_nil]
    exact hbound

end Base.Window
