import Grantd.Base.Machine
import Grantd.Base.Window
import Grantd.Service.Forward
import Mathlib.Algebra.Order.Group.Int

/-!
# The throttle of redemptions

The object counts the attempts it forwards to its host in a table that every
attempt and every alarm prunes. It is a sliding window over all the attempts
that were ever accepted.
-/

namespace Grantd.Service

open Base

def redemptionRetention : Int := 7 * 24 * 3600

/-- `alarm`, on the tables that only redemptions write. -/
def RedeemTables.alarm (now : Int) (t : RedeemTables) : RedeemTables where
  attempts := t.attempts.filter (!· < now - redeemAttemptWindow)
  redemptions := t.redemptions.filter (!·.requestedAt < now - redemptionRetention)

inductive ThrottleOp
  | call (now : Int)
  | alarm (now : Int)

def ThrottleOp.now : ThrottleOp → Int
  | .call now | .alarm now => now

def RedeemTables.call (now : Int) (t : RedeemTables) : Bool × RedeemTables :=
  let (ok, attempts) := recordRedeemAttempt now t.attempts
  (ok, { t with attempts })

def answers (t : RedeemTables) : List ThrottleOp → List Bool
  | [] => []
  | .call now :: ops => (t.call now).1 :: answers (t.call now).2 ops
  | .alarm now :: ops => answers (t.alarm now) ops

def AscendFrom (t : Int) : List ThrottleOp → Prop
  | [] => True
  | op :: ops => t ≤ op.now ∧ AscendFrom op.now ops

/-- The tables, the last time, and the times of all accepted calls. -/
structure ThrottleState where
  tables : RedeemTables
  clock : Int
  accepted : List Int

def throttleStep (s : ThrottleState) : ThrottleOp → ThrottleState
  | .call now =>
    { tables := (s.tables.call now).2
      clock := now
      accepted := if (s.tables.call now).1 then s.accepted ++ [now] else s.accepted }
  | .alarm now => { s with tables := s.tables.alarm now, clock := now }

def throttling : Machine ThrottleState ThrottleOp where
  Init s := s.tables.attempts = [] ∧ s.accepted = []
  step s op := some (throttleStep s op)

def TimesAscend (s : ThrottleState) (op : ThrottleOp) : Prop := s.clock ≤ op.now

instance (s : ThrottleState) (op : ThrottleOp) : Decidable (TimesAscend s op) :=
  inferInstanceAs (Decidable (_ ≤ _))

-- ---------------------------------------------------------------------------
-- The table is a sliding window
-- ---------------------------------------------------------------------------

theorem pruned_eq (now : Int) (attempts : List Int) :
    attempts.filter (!· < now - redeemAttemptWindow) =
      Window.recent redeemAttemptWindow now attempts := by
  refine List.filter_congr fun a _ => ?_
  rw [← decide_not, decide_eq_decide, Int.not_lt]

theorem recordRedeemAttempt_eq (now : Int) (attempts : List Int) :
    recordRedeemAttempt now attempts =
      Window.call redeemAttemptWindow maxRedeemAttemptsPerWindow now attempts := by
  simp only [recordRedeemAttempt, pruned_eq, Window.call]

theorem answers_agree {a b : RedeemTables}
    (h : Window.Agree redeemAttemptWindow t a.attempts b.attempts) (hops : AscendFrom t ops) :
    answers a ops = answers b ops := by
  induction ops generalizing t a b with
  | nil => rfl
  | cons op ops ih =>
    obtain ⟨hle, hops⟩ := hops
    have hnow := h.mono hle
    cases op with
    | call now =>
      have hcall : recordRedeemAttempt now a.attempts = recordRedeemAttempt now b.attempts := by
        rw [recordRedeemAttempt_eq, recordRedeemAttempt_eq]
        exact hnow.call
      simp only [answers, RedeemTables.call, hcall, List.cons.injEq, true_and]
      exact ih rfl hops
    | alarm now =>
      refine ih (t := now) ?_ hops
      simp only [RedeemTables.alarm, pruned_eq]
      exact ((Window.agree_recent now _).trans hnow).trans (Window.agree_recent now _).symm

/-- The table stands for all accepted calls, of which no interval of the
window's width has too many. -/
structure Windowed (s : ThrottleState) : Prop where
  past : ∀ a ∈ s.accepted, a ≤ s.clock
  stands : Window.Agree redeemAttemptWindow s.clock s.tables.attempts s.accepted
  bounded : ∀ x, (Window.between redeemAttemptWindow x s.accepted).length ≤
    maxRedeemAttemptsPerWindow

theorem Windowed.accepts (h : Windowed s) (hle : s.clock ≤ now) :
    (s.tables.call now).1 = true ↔
      (Window.recent redeemAttemptWindow now s.accepted).length < maxRedeemAttemptsPerWindow := by
  have hcall : (s.tables.call now).1 = (recordRedeemAttempt now s.tables.attempts).1 := rfl
  rw [hcall, recordRedeemAttempt_eq, (h.stands.mono hle).call, Window.call_admits]

theorem Windowed.step (h : Windowed s) (hok : TimesAscend s op) : Windowed (throttleStep s op) := by
  have hpast : ∀ a ∈ s.accepted, a ≤ op.now := fun a ha => Int.le_trans (h.past a ha) hok
  have hstands := h.stands.mono hok
  cases op with
  | alarm now =>
    refine ⟨hpast, ?_, h.bounded⟩
    simp only [throttleStep, RedeemTables.alarm, pruned_eq]
    exact (Window.agree_recent now _).trans hstands
  | call now =>
    simp only [ThrottleOp.now] at hpast hstands
    have hleft : Window.Agree redeemAttemptWindow now (s.tables.call now).2.attempts
        (if (s.tables.call now).1 then s.accepted ++ [now] else s.accepted) := by
      have hcall := Window.call_agree redeemAttemptWindow maxRedeemAttemptsPerWindow now s.accepted
      rw [← hstands.call, ← recordRedeemAttempt_eq] at hcall
      exact hcall
    cases hok' : (s.tables.call now).1 with
    | false =>
      simp only [throttleStep, hok', Bool.false_eq_true, if_false] at hleft ⊢
      exact ⟨hpast, hleft, h.bounded⟩
    | true =>
      simp only [throttleStep, hok', if_true] at hleft ⊢
      refine ⟨?_, hleft, fun x => ?_⟩
      · intro a ha
        rcases List.mem_append.mp ha with ha | ha
        · exact hpast a ha
        · exact (List.mem_singleton.mp ha).le
      · exact Window.length_between_append (h.bounded x) ((h.accepts hok).mp hok')

/-- A call is accepted if and only if fewer than 60 accepted calls lie in the
60 seconds before it. So no 60 seconds have more than 60 accepted calls, and
what follows a refused call, or an alarm, is answered as without it. -/
theorem throttle_sliding_window (hs : throttling.Reachable TimesAscend s) :
    (∀ now, s.clock ≤ now → ((s.tables.call now).1 = true ↔
      (s.accepted.filter fun a => now - 60 ≤ a ∧ a ≤ now).length < 60)) ∧
    (∀ x, (s.accepted.filter fun a => x ≤ a ∧ a ≤ x + 60).length ≤ 60) ∧
    (∀ now ops, s.clock ≤ now → AscendFrom now ops → (s.tables.call now).1 = false →
      answers (s.tables.call now).2 ops = answers s.tables ops) ∧
    ∀ now ops, s.clock ≤ now → AscendFrom now ops →
      answers (s.tables.alarm now) ops = answers s.tables ops := by
  have hinv : Windowed s := by
    refine hs.invariant ?_ ?_
    · rintro s ⟨hattempts, haccepted⟩
      refine ⟨?_, ?_, ?_⟩ <;> rw [haccepted]
      · exact fun a ha => nomatch ha
      · rw [hattempts]
        rfl
      · exact fun _ => Nat.zero_le _
    · intro s op t h hok hstep
      cases hstep
      exact h.step hok
  refine ⟨fun now hle => ?_, hinv.bounded, fun now ops _ hops hrefused => ?_,
    fun now ops _ hops => ?_⟩
  · have hpast : ∀ a ∈ s.accepted, a ≤ now := fun a ha => Int.le_trans (hinv.past a ha) hle
    rw [hinv.accepts hle, Window.recent_eq_between hpast, Window.between]
    simp only [redeemAttemptWindow, maxRedeemAttemptsPerWindow, Int.sub_add_cancel]
  · refine answers_agree ?_ hops
    have hcall := Window.call_agree redeemAttemptWindow maxRedeemAttemptsPerWindow now
      s.tables.attempts
    rw [← recordRedeemAttempt_eq] at hcall
    have hno : (recordRedeemAttempt now s.tables.attempts).1 = false := hrefused
    rw [hno] at hcall
    exact hcall
  · refine answers_agree ?_ hops
    simp only [RedeemTables.alarm, pruned_eq]
    exact Window.agree_recent now _

namespace Sample

def noAttempts : ThrottleState := ⟨⟨[], []⟩, 1000, []⟩

def fullWindow : List ThrottleOp := List.replicate 60 (.call 1000) ++ [.alarm 1030]

end Sample

theorem throttle_sliding_window_sample : ∃ s, throttling.Reachable TimesAscend s ∧
    s.accepted = List.replicate 60 1000 ∧ (s.tables.call 1060).1 = false ∧
    (s.tables.call 1061).1 = true := by
  have hsome : (throttling.exec TimesAscend Sample.noAttempts Sample.fullWindow).any
      (fun s => s.accepted = List.replicate 60 1000 ∧ s.clock = 1030) = true := by
    decide +kernel
  obtain ⟨s, hexec, hs⟩ := Option.any_eq_true .. |>.mp hsome
  obtain ⟨haccepted, hclock⟩ := of_decide_eq_true hs
  have hinit : throttling.Init Sample.noAttempts := ⟨rfl, rfl⟩
  have hreach := (Machine.Reachable.of_init hinit).run (.of_exec hexec)
  have hwindow := (throttle_sliding_window hreach).1
  rw [haccepted, hclock] at hwindow
  refine ⟨s, hreach, haccepted, ?_, (hwindow 1061 (by decide)).mpr (by decide)⟩
  exact Bool.eq_false_iff.mpr fun h => absurd ((hwindow 1060 (by decide)).mp h) (by decide)

end Grantd.Service
