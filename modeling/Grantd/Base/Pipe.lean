import Mathlib.Data.List.Basic

/-!
# A copy loop

Reads what has arrived from a source, at most a buffer at a time, writes it to a
sink, and starts over until the source has come to its end or one of the two
fails. What arrives and when, and how much a read takes, is up to the outside.
Whatever happens, the sink gets the stream from its beginning, in order; and a
loop that returns cleanly has written all of it.
-/

namespace Base

inductive Ending
  | clean
  | failed
  deriving DecidableEq, Repr

/-- `given` is all that the source has brought so far, for the record. -/
structure Pipe (α : Type u) where
  given : List α
  unread : List α
  ended : Option Ending
  hand : List α
  written : List α
  result : Option Ending

namespace Pipe

inductive Op (α : Type u)
  | feed (xs : List α)
  | finish (e : Ending)
  | read (n : Nat)
  | write
  /-- The write fails after `k` elements, and the loop returns. -/
  | writeFail (k : Nat)
  | readFail
  /-- The read at the clean end of the source. -/
  | stop

variable {α : Type u} {cap : Nat} {p q : Pipe α}

def empty : Pipe α := ⟨[], [], none, [], [], none⟩

variable (cap) in
def step (p : Pipe α) : Op α → Option (Pipe α)
  | .feed xs =>
    if p.ended = none then some { p with given := p.given ++ xs, unread := p.unread ++ xs }
    else none
  -- A source that has ended may still fail before the loop knows of its end.
  | .finish e =>
    if p.ended = none ∨ e = .failed ∧ p.result = none then some { p with ended := some e } else none
  | .read n =>
    if p.result = none ∧ p.hand.isEmpty ∧ 0 < n ∧ n ≤ cap ∧ n ≤ p.unread.length then
      some { p with hand := p.unread.take n, unread := p.unread.drop n }
    else none
  | .write =>
    if p.result = none ∧ !p.hand.isEmpty then
      some { p with written := p.written ++ p.hand, hand := [] }
    else none
  | .writeFail k =>
    if p.result = none ∧ !p.hand.isEmpty then
      some { p with written := p.written ++ p.hand.take k, hand := [], result := some .failed }
    else none
  | .readFail =>
    if p.result = none ∧ p.hand.isEmpty then some { p with result := some .failed } else none
  | .stop =>
    if p.result = none ∧ p.hand.isEmpty ∧ p.unread.isEmpty ∧ p.ended = some .clean then
      some { p with result := some .clean }
    else none

variable (cap) in
structure Sound (p : Pipe α) : Prop where
  order : p.written <+: p.given
  exact : p.result ≠ some .failed → p.given = p.written ++ p.hand ++ p.unread
  clean : p.result = some .clean → p.ended = some .clean ∧ p.hand = [] ∧ p.unread = []
  hand : p.hand.length ≤ cap

theorem sound_empty : (empty : Pipe α).Sound cap where
  order := List.prefix_rfl
  exact _ := rfl
  clean := by simp [empty]
  hand := Nat.zero_le cap

theorem Sound.whole (h : p.Sound cap) (hr : p.result = some .clean) : p.written = p.given := by
  obtain ⟨-, hhand, hunread⟩ := h.clean hr
  rw [h.exact (by simp [hr]), hhand, hunread]
  simp

theorem Sound.step (h : p.Sound cap) (hstep : p.step cap op = some q) : q.Sound cap := by
  cases op with
  | feed xs =>
    simp only [Pipe.step] at hstep
    split at hstep <;> cases hstep
    rename_i hopen
    refine ⟨h.order.trans (List.prefix_append ..), fun hr => ?_, fun hr => ?_, h.hand⟩
    · simp [h.exact hr]
    · simp [(h.clean hr).1] at hopen
  | finish e =>
    simp only [Pipe.step] at hstep
    split at hstep <;> cases hstep
    rename_i hopen
    refine ⟨h.order, h.exact, fun hr => ?_, h.hand⟩
    rcases hopen with hopen | ⟨-, hnone⟩
    · simp [(h.clean hr).1] at hopen
    · simp [hnone] at hr
  | read n =>
    simp only [Pipe.step] at hstep
    split at hstep <;> cases hstep
    rename_i hread
    obtain ⟨hr, hhand, -, hcap, -⟩ := hread
    refine ⟨h.order, fun _ => ?_, fun hr' => ?_, ?_⟩
    · have hgiven := h.exact (by simp [hr])
      rw [List.isEmpty_iff.mp hhand, List.append_nil] at hgiven
      simp [hgiven]
    · simp [hr] at hr'
    · rw [List.length_take]
      exact Nat.le_trans (Nat.min_le_left ..) hcap
  | write =>
    simp only [Pipe.step] at hstep
    split at hstep <;> cases hstep
    rename_i hwrite
    have hgiven := h.exact (by simp [hwrite.1])
    refine ⟨?_, fun _ => by simp [hgiven], fun hr => ?_, Nat.zero_le cap⟩
    · rw [hgiven]
      exact List.prefix_append ..
    · simp [hwrite.1] at hr
  | writeFail k =>
    simp only [Pipe.step] at hstep
    split at hstep <;> cases hstep
    rename_i hwrite
    have hgiven := h.exact (by simp [hwrite.1])
    refine ⟨?_, fun hr => absurd rfl hr, fun hr => ?_, Nat.zero_le cap⟩
    · rw [hgiven, List.append_assoc]
      refine (List.prefix_append_right_inj _).mpr (.trans ?_ (List.prefix_append ..))
      exact List.take_prefix ..
    · simp at hr
  | readFail =>
    simp only [Pipe.step] at hstep
    split at hstep <;> cases hstep
    exact ⟨h.order, fun hr => absurd rfl hr, fun hr => by simp at hr, h.hand⟩
  | stop =>
    simp only [Pipe.step] at hstep
    split at hstep <;> cases hstep
    rename_i hstop
    obtain ⟨hr, hhand, hunread, hended⟩ := hstop
    refine ⟨h.order, fun _ => h.exact (by simp [hr]), fun _ => ?_, h.hand⟩
    exact ⟨hended, List.isEmpty_iff.mp hhand, List.isEmpty_iff.mp hunread⟩

def Op.quiet : Op α → Bool
  | .write => false
  | .writeFail k => k == 0
  | .feed _ | .finish _ | .read _ | .readFail | .stop => true

theorem written_of_quiet (hop : op.quiet = true) (h : p.step cap op = some q) :
    q.written = p.written := by
  cases op with
  | write => cases hop
  | writeFail k =>
    simp only [Op.quiet, beq_iff_eq] at hop
    subst hop
    simp only [Pipe.step] at h
    split at h <;> cases h
    simp
  | feed | finish | read | readFail | stop =>
    simp only [Pipe.step] at h
    split at h <;> cases h
    rfl

/-- The steps of a loop that need nobody to take what it writes. -/
def Op.alone : Op α → Bool
  | .read _ | .writeFail _ | .readFail | .stop => true
  | .feed _ | .finish _ | .write => false

def left (p : Pipe α) : Nat :=
  if p.result.isSome then 0 else if p.hand.isEmpty then 2 else 1

theorem left_lt (hop : op.alone = true) (h : p.step cap op = some q) : q.left < p.left := by
  cases op with
  | feed | finish | write => cases hop
  | read n =>
    simp only [Pipe.step] at h
    split at h <;> cases h
    rename_i hread
    obtain ⟨hr, hhand, hpos, -, hle⟩ := hread
    have htake : (p.unread.take n).isEmpty = false := by
      rw [List.isEmpty_eq_false_iff, ← List.length_pos_iff, List.length_take]
      omega
    simp [left, hr, hhand, htake]
  | writeFail k =>
    simp only [Pipe.step] at h
    split at h <;> cases h
    rename_i hwrite
    have hhand : p.hand.isEmpty = false := by simpa using hwrite.2
    simp [left, hwrite.1, hhand]
  | readFail =>
    simp only [Pipe.step] at h
    split at h <;> cases h
    rename_i hread
    simp [left, hread.1, hread.2]
  | stop =>
    simp only [Pipe.step] at h
    split at h <;> cases h
    rename_i hstop
    simp [left, hstop.1, hstop.2.1]

theorem result_of_alone (hop : op.alone = true) (h : p.step cap op = some q) : p.result = none := by
  have hlt := left_lt hop h
  cases hr : p.result with
  | none => rfl
  | some e => simp [left, hr] at hlt

variable (cap) in
theorem result_of_stuck (hread : p.step cap .readFail = none)
    (hwrite : p.step cap (.writeFail 0) = none) : p.result.isSome = true := by
  cases hr : p.result with
  | some e => rfl
  | none =>
    by_cases hhand : p.hand.isEmpty = true
    · simp [Pipe.step, hr, hhand] at hread
    · simp [Pipe.step, hr, hhand] at hwrite

end Pipe

end Base
