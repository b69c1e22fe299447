import Grantd.Signer.Decision
import Grantd.Signer.System

/-!
# The replay check

A remembered nonce outlasts the window in which its envelope is fresh, so an
envelope gets past `RememberNonce` once. `gate` is the signer with a ghost: the
payloads that have got past it, and the last clock reading that a statement on
the nonces used. `racing` is any number of executions of `RememberNonce` for
one nonce, taken apart into their two statements.

The skew check computes in `int64`. Where its difference wraps, an envelope can
look fresh at two readings that lie far apart, and passes at both.
-/

namespace Grantd.Signer

open Base Protocol

variable (S : Signer)

-- ---------------------------------------------------------------------------
-- Executions one after the other
-- ---------------------------------------------------------------------------

/-- The call comes as far as `RememberNonce`. -/
def remembers (s : Store) (now : Time) (req : RedemptionRequest) : Bool :=
  (do checkVersion req.payload; S.checkRequest s.host now.unix req).isOk

/-- `RememberNonce`; `none` is a replay. -/
def rememberNonce (s : Store) (now : Int64) (nonce : Bytes) : Option Store :=
  (s.pruneNonces now nonceRetention).insertNonce redeemScope nonce now

structure Gate where
  store : Store
  last : Option Int64
  passed : List RedemptionPayload

def reading (s : Store) : Op → Option Int64
  | .redeem now _ req => if remembers S s now req then some now.unix else none
  | .purgeExpired now _ => some now
  | .enroll .. | .createGrant .. | .revokeGrant .. | .markPublished .. => none

def passes (s : Store) : Op → Option RedemptionPayload
  | .redeem now _ req =>
    if remembers S s now req ∧ (rememberNonce s now.unix req.payload.nonce).isSome then
      some req.payload
    else none
  | .purgeExpired .. | .enroll .. | .createGrant .. | .revokeGrant .. | .markPublished .. => none

def gate : Machine Gate Op where
  Init g := g.last = none ∧ g.passed = []
  step g op := some {
    store := perform S g.store op
    last := (reading S g.store op).or g.last
    passed := (passes S g.store op).toList ++ g.passed }

/-- No statement on the nonces uses an earlier reading than the one before, and
the purge keeps what the main loop keeps. -/
def Ordered (g : Gate) (op : Op) : Prop :=
  (∀ n ∈ reading S g.store op, ∀ m ∈ g.last, m ≤ n) ∧
  match op with
  | .purgeExpired _ retain => retain = purgeRetention
  | .redeem .. | .enroll .. | .createGrant .. | .revokeGrant .. | .markPublished .. => True

/-- The skew check of a redemption does not wrap. -/
def SkewExact : Op → Prop
  | .redeem now _ req => ¬ SkewWraps now.unix req.payload.timestamp 120
  | .purgeExpired .. | .enroll .. | .createGrant .. | .revokeGrant .. | .markPublished .. => True

-- ---------------------------------------------------------------------------
-- What the operations do to the nonces
-- ---------------------------------------------------------------------------

variable {S}

theorem perform_nonces (hr : reading S s op = none) : (perform S s op).nonces = s.nonces := by
  cases op with
  | enroll now sshUser hostname port line =>
    obtain ⟨host, hframe⟩ := S.enroll_frame now sshUser hostname port line s
    simp only [perform, hframe]
  | createGrant now ttl raw secret =>
    simp only [perform, Signer.createGrant]
    split <;> try rfl
    split <;> try rfl
    split <;> try rfl
    split <;> try rfl
    rename_i hins
    obtain ⟨grants, -, rfl⟩ := Store.createGrant_eq_some hins
    rfl
  | revokeGrant now id =>
    simp only [perform, Signer.revokeGrant]
    split <;> rfl
  | markPublished now id =>
    simp only [perform, Signer.markPublished]
    split <;> rfl
  | purgeExpired now retain => cases hr
  | redeem now draw req =>
    simp only [perform, Signer.redeem]
    split
    · rfl
    · rename_i hok
      have hrem : remembers S s now req = true := by
        rw [remembers, hok]
        rfl
      simp [reading, hrem] at hr

theorem redeem_nonces (draw : Draw) (h : remembers S s now req = true) :
    (S.redeem now draw req s).2.nonces = ((rememberNonce s now.unix req.payload.nonce).getD
      (s.pruneNonces now.unix nonceRetention)).nonces := by
  simp only [Signer.redeem, rememberNonce]
  split
  · rename_i herr
    rw [remembers, herr] at h
    cases h
  · split
    · rename_i hnone
      rw [hnone]
      rfl
    · rename_i s₁ hsome
      rw [hsome, Option.getD_some]
      split
      · rfl
      · rename_i result s₂ hclaim
        have hnonces : s₂.nonces = s₁.nonces := by
          by_cases hok : ∃ u e, result = .ok u e
          · obtain ⟨u, e, rfl⟩ := hok
            obtain ⟨g, -, -, -, -, -, -, -, rfl⟩ := Store.claimGrant_ok hclaim
            rfl
          · rw [Store.claimGrant_rolled_back hclaim fun u e h => hok ⟨u, e, h⟩]
        split
        · exact hnonces
        · split
          · exact hnonces
          · split
            · exact hnonces
            · rename_i hrec
              exact (Store.recordCertificate_grants hrec).2.2.trans hnonces

theorem remembers_fresh (h : remembers S s now req = true)
    (hexact : ¬ SkewWraps now.unix req.payload.timestamp 120) :
    0 ≤ req.payload.timestamp.toInt ∧ Within now.unix req.payload.timestamp 120 := by
  simp only [remembers] at h
  cases hc : (do checkVersion req.payload; S.checkRequest s.host now.unix req) with
  | error e =>
    rw [hc] at h
    cases h
  | ok r =>
    obtain ⟨hv, -, -, -, hskew, -, -, -, hsig, -⟩ := (checkRequest_eq_ok S).mp hc
    obtain ⟨hts, -⟩ := (canonicalSig_isOk hv).mp (hsig.imp fun _ h => h.1)
    refine ⟨by simpa [Int64.le_iff_toInt_le] using hts, ?_⟩
    exact ((withinSkew_iff (by decide)).mp hskew).resolve_right hexact

-- ---------------------------------------------------------------------------
-- A nonce outlasts its window
-- ---------------------------------------------------------------------------

theorem kept_of_recent {now window : Int64} {r : NonceRow} (hnow : -120 ≤ now.toInt)
    (hwindow : 480 ≤ window.toInt ∧ window.toInt ≤ 86400) (hr : now.toInt ≤ r.seenAt.toInt + 240) :
    ¬ r.seenAt < now - window := by
  have hlt := now.toInt_lt
  rw [Int64.lt_iff_toInt_lt, Int64.toInt_sub, Int.bmod_def]
  omega

theorem get?_pruneNonces {s : Store} (h : s.nonces.get? k = some r)
    (hr : ¬ r.seenAt < now - window) :
    (s.pruneNonces now window).nonces.get? k = some r := by
  simp [Store.pruneNonces, Table.get?_delete, h, Option.filter, hr]

/-- A row that holds up the payload again: it was seen at a reading at which
the payload was fresh. -/
def Blocks (s : Store) (p : RedemptionPayload) : Prop :=
  ∃ r, s.nonces.get? (redeemScope, p.nonce) = some r ∧ p.timestamp.toInt ≤ r.seenAt.toInt + 120

theorem Blocks.prune {now window : Int64} (h : Blocks s p) (hts : 0 ≤ p.timestamp.toInt)
    (hfresh : Within now p.timestamp 120) (hwindow : 480 ≤ window.toInt ∧ window.toInt ≤ 86400) :
    Blocks (s.pruneNonces now window) p := by
  obtain ⟨r, hr, hseen⟩ := h
  unfold Within at hfresh
  exact ⟨r, get?_pruneNonces hr (kept_of_recent (by omega) hwindow (by omega)), hseen⟩

theorem Blocks.refuses (h : Blocks s p) (hts : 0 ≤ p.timestamp.toInt)
    (hfresh : Within now p.timestamp 120) : rememberNonce s now p.nonce = none := by
  obtain ⟨r, hr, hseen⟩ := h
  unfold Within at hfresh
  exact Store.remember_eq_none.mpr ⟨r, hr, kept_of_recent (by omega) (by decide) (by omega)⟩

theorem Blocks.remember (h : Blocks s p) (hts : 0 ≤ p.timestamp.toInt)
    (hfresh : Within now p.timestamp 120) :
    Blocks ((rememberNonce s now nonce).getD (s.pruneNonces now nonceRetention)) p := by
  have hprune : Blocks (s.pruneNonces now nonceRetention) p := h.prune hts hfresh (by decide)
  obtain ⟨r, hr, hseen⟩ := hprune
  cases hins : rememberNonce s now nonce with
  | none => exact ⟨r, hr, hseen⟩
  | some s' =>
    obtain ⟨nonces, hnonces, rfl⟩ := Store.insertNonce_eq_some hins
    refine ⟨r, ?_, hseen⟩
    rw [Option.getD_some, Table.get?_insert hnonces, if_neg]
    · exact hr
    · intro hkey
      have hfree := (Table.insert_eq_some hnonces).1
      rw [hkey, hr] at hfree
      cases hfree

theorem blocks_of_remember (h : rememberNonce s now p.nonce = some s')
    (hfresh : Within now p.timestamp 120) : Blocks s' p := by
  obtain ⟨nonces, hnonces, rfl⟩ := Store.insertNonce_eq_some h
  unfold Within at hfresh
  exact ⟨_, (Table.get?_insert hnonces _).trans (if_pos rfl), by simp only; omega⟩

/-- Each payload that has passed is past its window or blocked, and no two
share a timestamp and a nonce. -/
structure Once (g : Gate) : Prop where
  blocked : ∀ p ∈ g.passed, ∃ m ∈ g.last, 0 ≤ p.timestamp.toInt ∧
    p.timestamp.toInt ≤ m.toInt + 120 ∧ (m.toInt ≤ p.timestamp.toInt + 120 → Blocks g.store p)
  once : (g.passed.map fun p => (p.timestamp, p.nonce)).Nodup

theorem Once.later {g : Gate} {n : Int64} (hg : Once g) (store : Store)
    (hn : ∀ m ∈ g.last, m ≤ n)
    (hkeep : ∀ p, Blocks g.store p → 0 ≤ p.timestamp.toInt → Within n p.timestamp 120 →
      Blocks store p) : ∀ p ∈ g.passed, ∃ m ∈ some n, 0 ≤ p.timestamp.toInt ∧
      p.timestamp.toInt ≤ m.toInt + 120 ∧ (m.toInt ≤ p.timestamp.toInt + 120 → Blocks store p) := by
  intro p hp
  obtain ⟨m, hm, hts, hstart, hblocks⟩ := hg.blocked p hp
  have hle := Int64.le_iff_toInt_le.mp (hn m hm)
  refine ⟨n, rfl, hts, by omega, fun hend => ?_⟩
  exact hkeep p (hblocks (by omega)) hts (by unfold Within; omega)

theorem Once.quiet {g : Gate} (hg : Once g) (h : store.nonces = g.store.nonces) :
    Once { g with store } := by
  refine ⟨fun p hp => ?_, hg.once⟩
  obtain ⟨m, hm, hts, hstart, hblocks⟩ := hg.blocked p hp
  refine ⟨m, hm, hts, hstart, fun hend => ?_⟩
  obtain ⟨r, hr, hseen⟩ := hblocks hend
  exact ⟨r, h ▸ hr, hseen⟩

theorem passes_of_quiet (h : reading S s op = none) : passes S s op = none := by
  cases op with
  | redeem now draw req =>
    have hrem : ¬ remembers S s now req = true := fun hrem => by simp [reading, hrem] at h
    simp [passes, hrem]
  | _ => rfl

theorem Once.redeem {g : Gate} (hg : Once g) (hrem : remembers S g.store now req = true)
    (hexact : ¬ SkewWraps now.unix req.payload.timestamp 120)
    (hlast : ∀ m ∈ g.last, m ≤ now.unix) :
    Once ⟨(S.redeem now draw req g.store).2, some now.unix,
      (passes S g.store (.redeem now draw req)).toList ++ g.passed⟩ := by
  obtain ⟨hts, hfresh⟩ := remembers_fresh hrem hexact
  have hnonces := redeem_nonces draw hrem
  -- Only the nonces of the new store matter.
  have hblocks {s : Store} (hs : s.nonces = (S.redeem now draw req g.store).2.nonces)
      (p : RedemptionPayload) (hb : Blocks s p) : Blocks (S.redeem now draw req g.store).2 p := by
    obtain ⟨r, hr, hseen⟩ := hb
    exact ⟨r, hs ▸ hr, hseen⟩
  have hold := hg.later (S.redeem now draw req g.store).2 hlast fun p hb hp hf =>
    hblocks hnonces.symm p (hb.remember hp hf)
  cases hins : rememberNonce g.store now.unix req.payload.nonce with
  | none =>
    have hpass : passes S g.store (.redeem now draw req) = none := by simp [passes, hins]
    rw [hpass]
    exact ⟨hold, hg.once⟩
  | some s' =>
    have hpass : passes S g.store (.redeem now draw req) = some req.payload := by
      simp [passes, hins, hrem]
    have hnew : Blocks (S.redeem now draw req g.store).2 req.payload := by
      refine hblocks ?_ _ (blocks_of_remember hins hfresh)
      rw [hins] at hnonces
      exact hnonces.symm
    rw [hpass]
    refine ⟨List.forall_mem_cons.mpr ⟨⟨now.unix, rfl, hts, ?_, fun _ => hnew⟩, hold⟩, ?_⟩
    · unfold Within at hfresh
      omega
    · refine List.nodup_cons.mpr ⟨fun hmem => ?_, hg.once⟩
      -- An earlier pass of the same timestamp and nonce would have blocked this one.
      obtain ⟨p, hp, hpair⟩ := List.mem_map.mp hmem
      obtain ⟨hpts, hpnonce⟩ := Prod.mk.inj hpair
      obtain ⟨m, hm, hts', hstart, hblocked⟩ := hg.blocked p hp
      have hle := Int64.le_iff_toInt_le.mp (hlast m hm)
      have hfresh' : Within now.unix p.timestamp 120 := hpts ▸ hfresh
      have hrefused := (hblocked (by unfold Within at hfresh'; omega)).refuses hts' hfresh'
      rw [hpnonce, hins] at hrefused
      cases hrefused

theorem Once.step {g : Gate} (hg : Once g) (hord : Ordered S g op) (hexact : SkewExact op)
    (h : (gate S).step g op = some g') : Once g' := by
  cases h
  obtain ⟨hlast, hretain⟩ := hord
  cases hread : reading S g.store op with
  | none =>
    rw [passes_of_quiet hread]
    exact hg.quiet (perform_nonces hread)
  | some n =>
    cases op with
    | redeem now draw req =>
      have hrem : remembers S g.store now req = true := by
        by_contra hrem
        simp [reading, hrem] at hread
      have hn : now.unix = n := by simpa [reading, hrem] using hread
      subst hn
      exact hg.redeem hrem hexact (hlast _ hread)
    | purgeExpired now retain =>
      cases hretain
      cases hread
      refine ⟨hg.later _ (hlast n rfl) fun p hb hp hf => ?_, hg.once⟩
      have hprune : Blocks (g.store.pruneNonces n purgeRetention) p := hb.prune hp hf (by decide)
      exact hprune
    | _ => cases hread

theorem Once.reachable {g : Gate}
    (hg : (gate S).Reachable (fun g op => Ordered S g op ∧ SkewExact op) g) : Once g := by
  refine hg.invariant (I := Once) ?_ fun g op g' hg hok hstep => hg.step hok.1 hok.2 hstep
  rintro g ⟨-, hpassed⟩
  exact ⟨by simp [hpassed], by simp [hpassed]⟩

-- ---------------------------------------------------------------------------
-- Executions at the same time
-- ---------------------------------------------------------------------------

inductive Progress
  | started
  | pruned
  | finished (ok : Bool)

structure Racing (ι : Type) where
  store : Store
  progress : ι → Progress

/-- Executions of `RememberNonce` for one nonce, a statement at a time; the one
of `i` uses the reading `now i`. -/
def racing [DecidableEq ι] (nonce : Bytes) (now : ι → Int64) : Machine (Racing ι) ι where
  Init r := ∀ i, r.progress i = .started
  step r i :=
    match r.progress i with
    | .started => some {
        store := r.store.pruneNonces (now i) nonceRetention
        progress := Function.update r.progress i .pruned }
    | .pruned =>
      match r.store.insertNonce redeemScope nonce (now i) with
      | none => some { r with progress := Function.update r.progress i (.finished false) }
      | some store => some { store, progress := Function.update r.progress i (.finished true) }
    | .finished _ => none

structure OneWinner (nonce : Bytes) (now : ι → Int64) (r : Racing ι) : Prop where
  row : ∀ i, r.progress i = .finished true →
    r.store.nonces.get? (redeemScope, nonce) = some ⟨redeemScope, nonce, now i⟩
  unique : ∀ i j, r.progress i = .finished true → r.progress j = .finished true → i = j

theorem OneWinner.step [DecidableEq ι] {now : ι → Int64} {r r' : Racing ι}
    (hnear : ∀ i j, ¬ now i < now j - nonceRetention) (hr : OneWinner nonce now r)
    (h : (racing nonce now).step r i = some r') : OneWinner nonce now r' := by
  -- Nobody is a winner by this step, unless the last case puts `i` there.
  have hother {q : Progress} (hq : q ≠ .finished true) {j : ι}
      (hj : Function.update r.progress i q j = .finished true) : r.progress j = .finished true := by
    by_cases hji : j = i
    · subst hji
      rw [Function.update_self] at hj
      exact absurd hj hq
    · rwa [Function.update_of_ne hji] at hj
  simp only [racing] at h
  split at h
  · cases h
    refine ⟨fun j hj => ?_, fun j k hj hk => ?_⟩
    · exact get?_pruneNonces (hr.row j (hother (by simp) hj)) (hnear j i)
    · exact hr.unique j k (hother (by simp) hj) (hother (by simp) hk)
  · split at h
    · cases h
      refine ⟨fun j hj => hr.row j (hother (by simp) hj), fun j k hj hk => ?_⟩
      exact hr.unique j k (hother (by simp) hj) (hother (by simp) hk)
    · rename_i store hins
      cases h
      obtain ⟨nonces, hnonces, rfl⟩ := Store.insertNonce_eq_some hins
      -- The key was free, so nobody had won.
      have hnone (j : ι) : r.progress j ≠ .finished true := by
        intro hj
        have hfree := (Table.insert_eq_some hnonces).1
        rw [show NonceRow.key ⟨redeemScope, nonce, now i⟩ = (redeemScope, nonce) from rfl,
          hr.row j hj] at hfree
        cases hfree
      have hself {j : ι} (hj : Function.update r.progress i (.finished true) j = .finished true) :
          j = i := by
        by_contra hji
        rw [Function.update_of_ne hji] at hj
        exact hnone j hj
      refine ⟨fun j hj => ?_, fun j k hj hk => (hself hj).trans (hself hk).symm⟩
      rw [hself hj]
      exact (Table.get?_insert hnonces _).trans (if_pos rfl)
  · cases h

theorem OneWinner.reachable [DecidableEq ι] {now : ι → Int64} {r : Racing ι}
    {ok : Racing ι → ι → Prop} (hnear : ∀ i j, ¬ now i < now j - nonceRetention)
    (hr : (racing nonce now).Reachable ok r) : OneWinner nonce now r := by
  refine hr.invariant (I := OneWinner nonce now) ?_ fun _ _ _ hr _ hstep => hr.step hnear hstep
  intro r hinit
  exact ⟨fun i hi => by simp [hinit i] at hi, fun i j hi => by simp [hinit i] at hi⟩

theorem near_of_fresh {ts n m : Int64} (hts : 0 ≤ ts.toInt) (hn : Within n ts 120)
    (hm : Within m ts 120) : ¬ n < m - nonceRetention := by
  unfold Within at hn hm
  exact kept_of_recent (r := ⟨redeemScope, [], n⟩) (by omega) (by decide) (by simp only; omega)

/-- Of the calls with one timestamp and nonce at most one gets past the replay
check, whatever else is remembered or pruned, if the skew checks do not wrap.
Taken apart into statements, executions for one nonce have one winner at most,
if no two readings lie further apart than the retention; and readings at which
one payload is fresh do not. -/
theorem replay_gate_once :
    (∀ g, (gate S).Reachable (fun g op => Ordered S g op ∧ SkewExact op) g →
      (g.passed.map fun p => (p.timestamp, p.nonce)).Nodup) ∧
    (∀ (ι : Type) [DecidableEq ι] (nonce : Bytes) (now : ι → Int64) (ok : Racing ι → ι → Prop) r,
      ((∀ i j, ¬ now i < now j - nonceRetention) ∨
        ∃ ts : Int64, 0 ≤ ts ∧ ∀ i, withinSkew (now i) ts skewRedemption = true ∧
          ¬ SkewWraps (now i) ts 120) →
      (racing nonce now).Reachable ok r →
      ∀ i j, r.progress i = .finished true → r.progress j = .finished true → i = j) := by
  refine ⟨fun g hg => (Once.reachable hg).once, fun ι _ nonce now ok r hnow hr => ?_⟩
  have hnear : ∀ i j, ¬ now i < now j - nonceRetention := by
    rcases hnow with hnear | ⟨ts, hts, hfresh⟩
    · exact hnear
    · have hpos : 0 ≤ ts.toInt := by simpa [Int64.le_iff_toInt_le] using hts
      have hwithin (i : ι) : Within (now i) ts 120 :=
        ((withinSkew_iff (by decide)).mp (hfresh i).1).resolve_right (hfresh i).2
      exact fun i j => near_of_fresh hpos (hwithin i) (hwithin j)
  exact (OneWinner.reachable hnear hr).unique

-- The readings are checked where they are: `Int64` is too large to go through.
instance (g : Gate) (op : Op) :
    Decidable (∀ n ∈ reading S g.store op, ∀ m ∈ g.last, m ≤ n) :=
  decidable_of_iff ((reading S g.store op).all fun n => g.last.all (· ≤ n)) (by
    simp only [Option.all_eq_true, decide_eq_true_eq, Option.mem_def])

instance (g : Gate) (op : Op) : Decidable (Ordered S g op) :=
  match op with
  | .purgeExpired .. => inferInstanceAs (Decidable ((∀ n ∈ _, ∀ m ∈ _, m ≤ n) ∧ _ = _))
  | .redeem .. | .enroll .. | .createGrant .. | .revokeGrant .. | .markPublished .. =>
    inferInstanceAs (Decidable ((∀ n ∈ _, ∀ m ∈ _, m ≤ n) ∧ True))

instance (op : Op) : Decidable (SkewExact op) :=
  match op with
  | .redeem .. => inferInstanceAs (Decidable (¬ _))
  | .purgeExpired .. | .enroll .. | .createGrant .. | .revokeGrant .. | .markPublished .. =>
    inferInstanceAs (Decidable True)

namespace Sample

def closed : Gate := ⟨.empty, none, []⟩

def replayed : List Op :=
  [.enroll 1700000000 user (lit "host.example") 22 (publicSSHLine hostKey),
    .redeem (.ofUnix 1700000000) draw request, .purgeExpired 1700000050 purgeRetention,
    .redeem (.ofUnix 1700000119) draw request]

/-- One envelope stamped with the last second, at a reading before 1970 and at
the last second. -/
def wrapped : List Op :=
  [.enroll (-1) user (lit "host.example") 22 (publicSSHLine hostKey),
    .redeem (.ofUnix (-1)) draw farRequest, .redeem (.ofUnix 9223372036854775807) draw farRequest]

end Sample

/-- The second time, the envelope is refused. -/
theorem replay_gate_once_sample : ∃ g, (gate Sample.sample).Reachable
      (fun g op => Ordered Sample.sample g op ∧ SkewExact op) g ∧
    g.passed = [Sample.request.payload] ∧
    (g.passed.map fun p => (p.timestamp, p.nonce)).Nodup := by
  have hexec : ((gate Sample.sample).exec (fun g op => Ordered Sample.sample g op ∧ SkewExact op)
      Sample.closed Sample.replayed).any (fun g => g.passed = [Sample.request.payload]) = true := by
    decide +kernel
  obtain ⟨g, hg, hpassed⟩ := Option.any_eq_true .. |>.mp hexec
  have hreach := (Machine.Reachable.of_init (show (gate Sample.sample).Init Sample.closed from
    ⟨rfl, rfl⟩)).run (.of_exec hg)
  exact ⟨g, hreach, of_decide_eq_true hpassed, replay_gate_once.1 g hreach⟩

/-- Where the skew check wraps, one envelope passes twice, at readings in
order. -/
theorem replay_passes_twice : ∃ g,
    (gate Sample.farSample).Reachable (Ordered Sample.farSample) g ∧
    g.passed = [Sample.farRequest.payload, Sample.farRequest.payload] := by
  have hexec : ((gate Sample.farSample).exec (Ordered Sample.farSample) Sample.closed
      Sample.wrapped).any (fun g =>
        g.passed = [Sample.farRequest.payload, Sample.farRequest.payload]) = true := by
    decide +kernel
  obtain ⟨g, hg, hpassed⟩ := Option.any_eq_true .. |>.mp hexec
  have hinit : (gate Sample.farSample).Init Sample.closed := ⟨rfl, rfl⟩
  exact ⟨g, (Machine.Reachable.of_init hinit).run (.of_exec hg), of_decide_eq_true hpassed⟩

end Grantd.Signer
