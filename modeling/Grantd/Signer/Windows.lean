import Grantd.Signer.Daemon
import Mathlib.Algebra.Group.Int.Defs

/-!
# The windows of stored grants

`CreateGrant` adds the lifetime it is asked for to its clock reading and checks
the sum, both in wrapping arithmetic. For a clock that has 2^52 seconds left
and more, the check passes the lifetimes it is meant to pass, and the sum is the
real one. Every row of the table went through the check.
-/

namespace Grantd.Signer

open Base Protocol

def effectiveTTL (ttlSeconds : Int64) : Int64 :=
  if ttlSeconds = 0 then defaultGrantTTL else ttlSeconds

def AllowedTTL (ttlSeconds : Int64) : Prop :=
  ttlSeconds = 0 ∨ 60 ≤ ttlSeconds ∧ ttlSeconds ≤ 28800

/-- A clock reading with room for every lifetime. -/
def ClockInRange (now : Int64) : Prop := 0 ≤ now ∧ now.toInt < 2 ^ 52

theorem validateGrantWindow_iff (h : ClockInRange now) (ttl : Int64) :
    validateGrantWindow now (now + ttl) = .ok () ↔ 60 ≤ ttl ∧ ttl ≤ 28800 := by
  obtain ⟨hzero, hmax⟩ := h
  have hlow := Int64.le_toInt ttl
  have hhigh := Int64.toInt_lt ttl
  have hbounds : minGrantTTLSeconds.toInt = 60 ∧ maxGrantTTLSeconds.toInt = 28800 := by decide
  have hlits : (60 : Int64).toInt = 60 ∧ (28800 : Int64).toInt = 28800 := by decide
  simp only [validateGrantWindow, bind_eq_ok, ensure_eq_ok, Bool.not_eq_true',
    decide_eq_false_iff_not, gt_iff_lt, Int64.le_iff_toInt_le, Int64.lt_iff_toInt_lt,
    Int64.toInt_add, Int64.toInt_sub, Int.bmod_def, hbounds.1, hbounds.2, hlits.1, hlits.2,
    Int64.toInt_zero] at hzero ⊢
  constructor
  · rintro ⟨_, horder, _, hmin, hmax⟩
    omega
  · intro hrange
    exact ⟨(), by omega, (), by omega, by omega⟩

theorem effectiveTTL_range (ttl : Int64) :
    60 ≤ effectiveTTL ttl ∧ effectiveTTL ttl ≤ 28800 ↔ AllowedTTL ttl := by
  unfold effectiveTTL AllowedTTL
  split
  · rename_i h
    exact iff_of_true (by decide) (.inl h)
  · rename_i h
    simp [h]

theorem toInt_add_effectiveTTL (h : ClockInRange now) (httl : AllowedTTL ttl) :
    (now + effectiveTTL ttl).toInt = now.toInt + (effectiveTTL ttl).toInt := by
  obtain ⟨hlow, hhigh⟩ := (effectiveTTL_range ttl).mpr httl
  obtain ⟨hzero, hmax⟩ := h
  have hlits : (60 : Int64).toInt = 60 ∧ (28800 : Int64).toInt = 28800 := by decide
  rw [Int64.le_iff_toInt_le] at hlow hhigh hzero
  rw [hlits.1] at hlow
  rw [hlits.2] at hhigh
  rw [Int64.toInt_zero] at hzero
  rw [Int64.toInt_add, Int.bmod_def]
  omega

theorem createWindow_eq_ok {S : Signer} :
    S.createWindow now ttl = .ok expiresAt ↔ validOrigin S.origin = true ∧
      validateGrantWindow now (now + effectiveTTL ttl) = .ok () ∧
      expiresAt = now + effectiveTTL ttl := by
  simp only [createWindow, bind_eq_ok, ensure_eq_ok, mapError_eq_ok, pure_eq_ok]
  constructor
  · rintro ⟨_, horigin, _, hwindow, rfl⟩
    exact ⟨horigin, hwindow, rfl⟩
  · rintro ⟨horigin, hwindow, rfl⟩
    exact ⟨(), horigin, (), hwindow, rfl⟩

theorem createWindow_inRange {S : Signer} (hnow : ClockInRange now)
    (h : S.createWindow now ttl = .ok expiresAt) :
    AllowedTTL ttl ∧ expiresAt.toInt = now.toInt + (effectiveTTL ttl).toInt := by
  obtain ⟨-, hwindow, rfl⟩ := createWindow_eq_ok.mp h
  have httl := (effectiveTTL_range ttl).mp ((validateGrantWindow_iff hnow _).mp hwindow)
  exact ⟨httl, toInt_add_effectiveTTL hnow httl⟩

-- ---------------------------------------------------------------------------
-- One call
-- ---------------------------------------------------------------------------

variable {S : Signer}

theorem createGrant_window_refused (horigin : validOrigin S.origin = true)
    (hnow : ClockInRange now) :
    (∃ e, (S.createGrant now ttl raw secret s).1 = .error (.window e)) ↔ ¬ AllowedTTL ttl := by
  rw [← effectiveTTL_range, ← validateGrantWindow_iff hnow]
  cases hwindow : validateGrantWindow now (now + effectiveTTL ttl) with
  | error e =>
    have hrefused : S.createWindow now ttl = .error (.window e) := by
      simp only [createWindow, horigin]
      rw [show validateGrantWindow now (now + if ttl = 0 then defaultGrantTTL else ttl) = .error e
        from hwindow]
      rfl
    refine iff_of_true ⟨e, ?_⟩ nofun
    rw [createGrant, hrefused]
  | ok u =>
    have hpassed := createWindow_eq_ok.mpr ⟨horigin, hwindow, rfl⟩
    refine iff_of_false ?_ (fun h => h rfl)
    rintro ⟨e, he⟩
    simp only [createGrant, hpassed] at he
    split at he
    · cases he
    · split at he
      · cases he
      · split at he
        · cases he
        · simp only [newGrant] at he
          cases hcanon : Protocol.Grant.canonical _ with
          | error c =>
            rw [hcanon] at he
            cases he
          | ok msg =>
            rw [hcanon] at he
            cases he

theorem createGrant_stored (hr : r ∈ (S.createGrant now ttl raw secret s).2.grants.rows)
    (hnew : r ∉ s.grants.rows) :
    r.createdAt = now ∧ S.createWindow now ttl = .ok r.expiresAt := by
  unfold createGrant at hr
  split at hr
  · exact absurd hr hnew
  · rename_i expiresAt hwindow
    split at hr
    · exact absurd hr hnew
    · split at hr
      · exact absurd hr hnew
      · split at hr
        · exact absurd hr hnew
        · rename_i hins
          obtain ⟨grants, hrow, rfl⟩ := Store.createGrant_eq_some hins
          rw [(Table.insert_eq_some hrow).2] at hr
          rcases List.mem_append.mp hr with hold | hadded
          · exact absurd hold hnew
          · rw [List.mem_singleton.mp hadded]
            exact ⟨rfl, hwindow⟩

-- ---------------------------------------------------------------------------
-- Every row
-- ---------------------------------------------------------------------------

def CreateState.window : CreateState → Option (Int64 × Int64)
  | .started now expiresAt | .hostRead now expiresAt _ | .counted now expiresAt _ =>
    some (now, expiresAt)
  | .idle | .done _ => none

theorem createNext_window (h : createNext S draw s st = some (st', s', es))
    (hw : st'.window = some w) : st.window = some w := by
  cases st with
  | idle => cases h
  | done => cases h
  | started now expiresAt | hostRead now expiresAt hst =>
    simp only [createNext] at h
    split at h
    · cases h
      cases hw
    · cases h
      exact hw
  | counted now expiresAt hst =>
    simp only [createNext] at h
    split at h <;> cases h <;> cases hw

theorem step_window (h : step S s a = some t) (hw : (t.creates i).window = some w) :
    (s.creates i).window = some w ∨ ∃ ttl, S.createWindow w.1 ttl = .ok w.2 := by
  have moved {j : Nat} {st : CreateState} (hw : (set s.creates j st i).window = some w) :
      (s.creates i).window = some w ∨ i = j ∧ st.window = some w := by
    by_cases hij : i = j
    · rw [hij, set_same] at hw
      exact .inr ⟨hij, hw⟩
    · rw [set_of_ne _ _ hij] at hw
      exact .inl hw
  cases acts h with
  | tick | enroll | redeemStart | redeem | redeemFail | revoke | markPublished | purgeGrants
  | purgeNonces => exact .inl hw
  | refuse | insert =>
    rcases moved hw with hold | ⟨-, hnew⟩
    · exact .inl hold
    · cases hnew
  | @start j now ttlSeconds expiresAt _ hok =>
    rcases moved hw with hold | ⟨-, hnew⟩
    · exact .inl hold
    · cases hnew
      exact .inr ⟨ttlSeconds, hok⟩
  | create hnext =>
    rcases moved hw with hold | ⟨rfl, hnew⟩
    · exact .inl hold
    · exact .inl (createNext_window hnext hnew)

variable (S) in
structure Dated (s : State) : Prop where
  calls : ∀ i w, (s.creates i).window = some w → ∃ ttl, S.createWindow w.1 ttl = .ok w.2
  rows : ∀ r ∈ s.store.grants.rows, ∃ ttl, S.createWindow r.createdAt ttl = .ok r.expiresAt

theorem Dated.step (hs : Dated S s) (h : step S s a = some t) : Dated S t := by
  refine ⟨fun i w hw => ?_, fun r hr => ?_⟩
  · rcases step_window h hw with hold | hnew
    · exact hs.calls i w hold
    · exact hnew
  · rcases step_rows h r hr with ⟨r₀, hr₀, horigin⟩ | ⟨i, draw, now, e, host, -, hi, horigin⟩
    · simp only [GrantRow.origin, Prod.mk.injEq] at horigin
      rw [horigin.2.2.2.1, horigin.2.2.2.2]
      exact hs.rows r₀ hr₀
    · simp only [GrantRow.origin, Prod.mk.injEq] at horigin
      rw [horigin.2.2.2.1, horigin.2.2.2.2]
      exact hs.calls i (now, e) (by rw [hi]; rfl)

theorem Dated.initial (h : Initial s) : Dated S s := by
  obtain ⟨hstore, -, hcreates, -⟩ := h
  refine ⟨fun i w hw => ?_, fun r hr => ?_⟩
  · rw [hcreates i] at hw
    cases hw
  · rw [hstore] at hr
    cases hr

theorem Dated.reachable (hs : (daemon S).Reachable ok s) : Dated S s.state := by
  have hinit (s : Daemon) (h : (daemon S).Init s) : Dated S s.state := .initial h.1
  refine hs.invariant (I := fun s => Dated S s.state) hinit fun s req t hdated _ hstep => ?_
  obtain ⟨p, hnext, rfl⟩ := Option.map_eq_some_iff.mp hstep
  cases req with
  | system a =>
    obtain ⟨u, hu, rfl⟩ := Option.map_eq_some_iff.mp hnext
    exact hdated.step hu
  | registration | connectAuth | status | publications | signPublications =>
    cases hnext
    exact hdated

end Grantd.Signer
