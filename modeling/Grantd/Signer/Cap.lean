import Grantd.Signer.System

/-!
# The cap on active grants

`CreateGrant` counts in one statement and inserts in another. Nothing keeps a
second call from counting in between, so two calls can take the same last
place, and any number of calls can. As long as no call counts while another
stands between its count and its insert, the cap holds at every moment.
-/

namespace Grantd.Signer

open Base Protocol

variable {S : Signer}

def State.active (s : State) : Nat := s.store.activeGrantCount s.clock

def CreateState.Counted : CreateState → Prop
  | .counted .. => True
  | _ => False

instance (st : CreateState) : Decidable st.Counted :=
  match st with
  | .counted .. => inferInstanceAs (Decidable True)
  | .idle | .started .. | .hostRead .. | .done _ => inferInstanceAs (Decidable False)

def CreateState.reading : CreateState → Option Int64
  | .started now _ | .hostRead now _ _ => some now
  | .idle | .counted .. | .done _ => none

def CreateState.Counting : CreateState → Prop
  | .hostRead .. => True
  | _ => False

instance (st : CreateState) : Decidable st.Counting :=
  match st with
  | .hostRead .. => inferInstanceAs (Decidable True)
  | .idle | .started .. | .counted .. | .done _ => inferInstanceAs (Decidable False)

/-- A call that counts finds no other between its count and its insert. -/
def Exclusive (s : State) : Action → Prop
  | .create i _ => (s.creates i).Counting → ∀ j, ¬ (s.creates j).Counted
  | _ => True

-- ---------------------------------------------------------------------------
-- What a step does to the count
-- ---------------------------------------------------------------------------

theorem activeGrantCount_congr {s s' : Store} (h : s'.grants = s.grants) (now : Int64) :
    s'.activeGrantCount now = s.activeGrantCount now := by
  rw [Store.activeGrantCount, h]
  rfl

theorem activeGrantCount_later (s : Store) (h : now ≤ now') :
    s.activeGrantCount now' ≤ s.activeGrantCount now := by
  refine Table.count_mono fun r hr => ?_
  simp only [Bool.and_eq_true, decide_eq_true_eq] at hr ⊢
  exact ⟨⟨Int64.lt_of_le_of_lt h hr.1.1, hr.1.2⟩, hr.2⟩

/-- So does every change of a row that leaves its expiry alone and clears
nothing. -/
theorem activeGrantCount_update {s : Store} {f : GrantRow → GrantRow}
    (hf : ∀ r, (f r).id = r.id)
    (h : ∀ r, (f r).expiresAt = r.expiresAt ∧ ((f r).redeemedAt = none → r.redeemedAt = none) ∧
      ((f r).revokedAt = none → r.revokedAt = none)) (now : Int64) :
    Store.activeGrantCount { s with grants := s.grants.update f hf } now ≤
      s.activeGrantCount now := by
  refine Table.count_update_le hf fun r _ hr => ?_
  obtain ⟨hexp, hred, hrev⟩ := h r
  simp only [Bool.and_eq_true, decide_eq_true_eq, Option.isNone_iff_eq_none] at hr ⊢
  exact ⟨⟨hexp ▸ hr.1.1, hred hr.1.2⟩, hrev hr.2⟩

theorem redeem_active (h : redeemNext S i draw s st = some (st', s', es)) (now : Int64) :
    s'.activeGrantCount now ≤ s.activeGrantCount now := by
  cases redeemNext_step S h with
  | early _ _ hgrants => exact Nat.le_of_eq (activeGrantCount_congr hgrants now)
  | claim =>
    refine activeGrantCount_update Store.redeemRow_id (fun r => ?_) now
    unfold Store.redeemRow
    split
    · exact ⟨rfl, nofun, id⟩
    · exact ⟨rfl, id, id⟩
  | issue | stop => exact Nat.le_refl _
  | record hrec =>
    exact Nat.le_of_eq (activeGrantCount_congr (Store.recordCertificate_grants hrec).1 now)

-- ---------------------------------------------------------------------------
-- The invariant
-- ---------------------------------------------------------------------------

/-- At most one call has counted, and it has its place. -/
structure Capped (s : State) : Prop where
  readings : ∀ i, ∀ now ∈ (s.creates i).reading, now ≤ s.clock
  single : ∀ i j, (s.creates i).Counted → (s.creates j).Counted → i = j
  bound : s.active ≤ maxActiveGrants
  room : ∀ i, (s.creates i).Counted → s.active < maxActiveGrants

theorem Capped.shrink (hs : Capped s) (hclock : s.clock ≤ t.clock)
    (hcreates : t.creates = s.creates)
    (hactive : t.active ≤ s.active) : Capped t := by
  refine ⟨fun i now hnow => ?_, fun i j hi hj => ?_, Nat.le_trans hactive hs.bound, fun i hi => ?_⟩
  · rw [hcreates] at hnow
    exact Int64.le_trans (hs.readings i now hnow) hclock
  · rw [hcreates] at hi hj
    exact hs.single i j hi hj
  · rw [hcreates] at hi
    exact Nat.lt_of_le_of_lt hactive (hs.room i hi)

theorem Capped.move (hs : Capped s) (hst : ¬ st.Counted)
    (hreading : ∀ now ∈ st.reading, now ≤ s.clock)
    (ht : t.creates = set s.creates i st) (hclock : t.clock = s.clock)
    (hactive : t.active ≤ s.active ∨ (s.creates i).Counted ∧ t.active ≤ s.active + 1) :
    Capped t := by
  have hcounted {j : Nat} (hj : (t.creates j).Counted) : j ≠ i ∧ (s.creates j).Counted := by
    rw [ht] at hj
    by_cases hji : j = i
    · rw [hji, set_same] at hj
      exact absurd hj hst
    · rw [set_of_ne _ _ hji] at hj
      exact ⟨hji, hj⟩
  have hbound : t.active ≤ maxActiveGrants := by
    rcases hactive with h | ⟨hi, h⟩
    · exact Nat.le_trans h hs.bound
    · exact Nat.le_trans h (hs.room i hi)
  refine ⟨fun j now hnow => ?_, fun j k hj hk => ?_, hbound, fun j hj => ?_⟩
  · rw [ht] at hnow
    rw [hclock]
    by_cases hji : j = i
    · rw [hji, set_same] at hnow
      exact hreading now hnow
    · rw [set_of_ne _ _ hji] at hnow
      exact hs.readings j now hnow
  · exact hs.single j k (hcounted hj).2 (hcounted hk).2
  · obtain ⟨hji, hj⟩ := hcounted hj
    rcases hactive with h | ⟨hi, h⟩
    · exact Nat.lt_of_le_of_lt h (hs.room j hj)
    · exact absurd (hs.single j i hj hi) hji

theorem Capped.finish (hs : Capped s) (ht : t.creates = set s.creates i (.done result))
    (hclock : t.clock = s.clock)
    (hactive : t.active ≤ s.active ∨ (s.creates i).Counted ∧ t.active ≤ s.active + 1) :
    Capped t :=
  hs.move id (fun _ h => by cases h) ht hclock hactive

theorem Capped.count (hs : Capped s) (hnone : ∀ j, ¬ (s.creates j).Counted)
    (hroom : s.active < maxActiveGrants) :
    Capped { s with creates := set s.creates i (.counted now expiresAt h) } := by
  have hcounted {j : Nat} (hj : (set s.creates i (.counted now expiresAt h) j).Counted) :
      j = i := by
    by_contra hne
    rw [set_of_ne _ _ hne] at hj
    exact hnone j hj
  refine ⟨fun j now hnow => ?_, fun j k hj hk => (hcounted hj).trans (hcounted hk).symm,
    hs.bound, fun _ _ => hroom⟩
  by_cases hji : j = i
  · simp [hji, CreateState.reading] at hnow
  · simp only [set_of_ne _ _ hji] at hnow
    exact hs.readings j now hnow

theorem Capped.create (hs : Capped s) (hex : Exclusive s (.create i draw))
    (hnext : createNext S draw s.store (s.creates i) = some (st, s.store, [])) :
    Capped { s with creates := set s.creates i st } := by
  have hex : (s.creates i).Counting → ∀ j, ¬ (s.creates j).Counted := hex
  have hreadings := hs.readings i
  cases hi : s.creates i with
  | idle | done =>
    rw [hi] at hnext
    cases hnext
  | started now expiresAt =>
    rw [hi] at hnext hreadings
    simp only [createNext] at hnext
    split at hnext
    · cases hnext
      exact hs.finish rfl rfl (.inl (Nat.le_refl _))
    · cases hnext
      refine hs.move id ?_ rfl rfl (.inl (Nat.le_refl _))
      rintro _ ⟨⟩
      exact hreadings now rfl
  | hostRead now expiresAt hst =>
    rw [hi] at hnext hreadings hex
    simp only [createNext] at hnext
    split at hnext
    · cases hnext
      exact hs.finish rfl rfl (.inl (Nat.le_refl _))
    · rename_i hfew
      cases hnext
      refine hs.count (hex trivial) (Nat.lt_of_le_of_lt ?_ (Nat.lt_of_not_le hfew))
      exact activeGrantCount_later _ (hreadings now rfl)
  | counted now expiresAt hst =>
    rw [hi] at hnext
    simp only [createNext] at hnext
    split at hnext
    · cases hnext
      exact hs.finish rfl rfl (.inl (Nat.le_refl _))
    · cases hnext

theorem Capped.step (hs : Capped s) (hclock : Clocked s a) (hex : Exclusive s a)
    (h : step S s a = some t) : Capped t := by
  cases acts h with
  | tick => exact hs.shrink hclock rfl (activeGrantCount_later _ hclock)
  | enroll | redeemStart | redeemFail | purgeNonces =>
    exact hs.shrink (Int64.le_refl _) rfl (Nat.le_refl _)
  | refuse => exact hs.finish rfl rfl (.inl (Nat.le_refl _))
  | start =>
    refine hs.move id ?_ rfl rfl (.inl (Nat.le_refl _))
    rintro _ ⟨⟩
    exact hclock
  | create hnext => exact hs.create hex hnext
  | insert hi hrow =>
    exact hs.finish rfl rfl (.inr ⟨hi ▸ trivial, Table.count_insert_le hrow _⟩)
  | redeem hnext => exact hs.shrink (Int64.le_refl _) rfl (redeem_active hnext _)
  | revoke =>
    refine hs.shrink (Int64.le_refl _) rfl
      (activeGrantCount_update Store.revokeRow_id (fun r => ?_) _)
    unfold Store.revokeRow
    split
    · exact ⟨rfl, id, nofun⟩
    · exact ⟨rfl, id, id⟩
  | markPublished =>
    refine hs.shrink (Int64.le_refl _) rfl
      (activeGrantCount_update Store.markPublishedRow_id (fun r => ?_) _)
    unfold Store.markPublishedRow
    split <;> exact ⟨rfl, id, id⟩
  | purgeGrants => exact hs.shrink (Int64.le_refl _) rfl (Table.count_delete_le ..)

theorem Capped.initial (h : Initial s) : Capped s := by
  obtain ⟨hstore, -, hcreates, -⟩ := h
  have hactive : s.active = 0 := by
    rw [State.active, hstore]
    rfl
  refine ⟨fun i now hnow => ?_, fun i j hi => ?_, by simp [hactive], fun i hi => ?_⟩
  · rw [hcreates i] at hnow
    cases hnow
  · rw [hcreates i] at hi
    cases hi
  · rw [hcreates i] at hi
    cases hi

/-- In every run in which a call counts only while no other stands between its
count and its insert, the cap holds at every moment. -/
theorem active_grants_capped (S : Signer)
    (hs : (machine S).Reachable (fun s a => Clocked s a ∧ Exclusive s a) s) :
    s.active ≤ maxActiveGrants := by
  have hcapped : Capped s := hs.invariant (I := Capped) (fun _ => Capped.initial)
    fun _ _ _ hs hok hstep => hs.step hok.1 hok.2 hstep
  exact hcapped.bound

-- ---------------------------------------------------------------------------
-- Calls one after the other, and calls side by side
-- ---------------------------------------------------------------------------

theorem step_idle (h : step S s a = some t) (hj : s.creates j = .idle)
    (ha : ∀ now ttlSeconds, a ≠ .createStart j now ttlSeconds) : t.creates j = .idle := by
  cases acts h with
  | tick | enroll | redeemStart | redeem | redeemFail | revoke | markPublished | purgeGrants
  | purgeNonces => exact hj
  | @refuse i now ttlSeconds | @start i now ttlSeconds =>
    have hne : j ≠ i := by
      rintro rfl
      exact ha now ttlSeconds rfl
    simpa [hne] using hj
  | @create i draw st hnext =>
    have hne : j ≠ i := by
      rintro rfl
      rw [hj] at hnext
      cases hnext
    simpa [hne] using hj
  | @insert i draw now expiresAt host grants hi =>
    have hne : j ≠ i := by
      rintro rfl
      cases hj.symm.trans hi
    simpa [hne] using hj

namespace Sample

/-- `Exclusive` with calls below `n` only, where it can be decided. -/
def ExclusiveBelow (n : Nat) (s : State) : Action → Prop
  | .createStart i _ _ => i < n
  | .create i _ => (s.creates i).Counting → ∀ j < n, ¬ (s.creates j).Counted
  | _ => True

instance (n : Nat) (s : State) (a : Action) : Decidable (ExclusiveBelow n s a) :=
  match a with
  | .createStart .. => inferInstanceAs (Decidable (_ < _))
  | .create .. => inferInstanceAs (Decidable (_ → _))
  | .tick _ | .enroll .. | .redeemStart .. | .redeem .. | .redeemFail _ | .revoke ..
  | .markPublished .. | .purgeGrants .. | .purgeNonces .. => inferInstanceAs (Decidable True)

theorem exclusive_of_below
    (h : (machine S).Reachable (fun s a => Clocked s a ∧ ExclusiveBelow n s a) s) :
    (machine S).Reachable (fun s a => Clocked s a ∧ Exclusive s a) s := by
  refine h.strengthen (I := fun s => ∀ j, n ≤ j → s.creates j = .idle)
    (fun s hs j _ => hs.2.2.1 j) (fun s a t hs hok hstep j hj => ?_) fun s a hs hok => ⟨hok.1, ?_⟩
  · refine step_idle hstep (hs j hj) fun now ttlSeconds ha => ?_
    subst ha
    exact absurd hok.2 (Nat.not_lt.mpr hj)
  · cases a with
    | create i draw =>
      intro hcounts j
      by_cases hj : j < n
      · exact hok.2 hcounts j hj
      · rw [hs j (Nat.le_of_not_lt hj)]
        exact id
    | _ => trivial

def drawFor (i : Nat) : GrantDraw := ⟨List.replicate 9 0 ++ [UInt8.ofNat i], secret⟩

def enrolled : Action :=
  .enroll 1700000000 user (lit "host.example") 22 (publicSSHLine hostKey)

def calls : List Nat := List.range (maxActiveGrants + 1)

def queue : List Action :=
  enrolled :: calls.flatMap fun i =>
    .createStart i 1700000000 1800 :: List.replicate 2 (.create i (drawFor i)) ++
      if i < maxActiveGrants then [.create i (drawFor i)] else []

/-- All of the calls read the host, all of them count, all of them insert. -/
def crowd : List Action :=
  enrolled :: calls.map (.createStart · 1700000000 1800) ++
    (List.replicate 3 calls).flatten.map fun i => .create i (drawFor i)

end Sample

/-- Thirty-three calls one after the other: the last one is refused. -/
theorem active_grants_capped_sample : ∃ s,
    (machine Sample.sample).Reachable (fun s a => Clocked s a ∧ Exclusive s a) s ∧
    s.active = maxActiveGrants ∧ s.active ≤ maxActiveGrants := by
  have hrun : ((machine Sample.sample).exec
      (fun s a => Clocked s a ∧ Sample.ExclusiveBelow (maxActiveGrants + 1) s a)
      Sample.initial Sample.queue).any (fun s => decide (s.active = maxActiveGrants)) = true := by
    decide +kernel
  obtain ⟨s, hs, hfull⟩ := Option.any_eq_true .. |>.mp hrun
  have hreach := Sample.exclusive_of_below (Sample.initial_reachable.run (.of_exec hs))
  exact ⟨s, hreach, of_decide_eq_true hfull, active_grants_capped Sample.sample hreach⟩

/-- The same calls, all of which count before the first one inserts. -/
theorem active_grants_exceed_cap : ∃ s, (machine Sample.sample).Reachable Clocked s ∧
    maxActiveGrants < s.active := by
  have hrun : ((machine Sample.sample).exec Clocked Sample.initial Sample.crowd).any
      (fun s => decide (maxActiveGrants < s.active)) = true := by
    decide +kernel
  obtain ⟨s, hs, hmore⟩ := Option.any_eq_true .. |>.mp hrun
  exact ⟨s, Sample.initial_reachable.run (.of_exec hs), of_decide_eq_true hmore⟩

end Grantd.Signer
