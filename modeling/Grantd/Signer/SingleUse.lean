import Grantd.Signer.System

/-!
# A grant is used once

Whatever the order of the statements, at most one `Redeem` call gets past the
claim of a grant, never after a revocation and never at or past the expiry.
`Inv` is what every statement keeps: the rows against the log, the order of
the log, and the calls against the log.
-/

namespace Grantd.Signer

open Base Protocol

variable {id agentID keyFP : GoString}

-- ---------------------------------------------------------------------------
-- Rows grow
-- ---------------------------------------------------------------------------

/-- A nullable column that is written at most once. -/
def Kept (v v' : Option α) : Prop := ∀ a, v = some a → v' = some a

/-- What a row may become while it lives: the columns it was created with stay,
and the others are written at most once. `published_at` is free. -/
structure GrantRow.Grows (r r' : GrantRow) : Prop where
  secret : r'.secret = r.secret
  sshUser : r'.sshUser = r.sshUser
  createdAt : r'.createdAt = r.createdAt
  expiresAt : r'.expiresAt = r.expiresAt
  redeemedAt : Kept r.redeemedAt r'.redeemedAt
  redeemedAgentID : Kept r.redeemedAgentID r'.redeemedAgentID
  redeemedKeyFP : Kept r.redeemedKeyFP r'.redeemedKeyFP
  revokedAt : Kept r.revokedAt r'.revokedAt

theorem Kept.refl (v : Option α) : Kept v v := fun _ h => h

theorem GrantRow.Grows.refl (r : GrantRow) : r.Grows r :=
  ⟨rfl, rfl, rfl, rfl, .refl _, .refl _, .refl _, .refl _⟩

theorem GrantRow.Grows.trans {r r' r'' : GrantRow} (h : r.Grows r') (h' : r'.Grows r'') :
    r.Grows r'' where
  secret := h'.secret.trans h.secret
  sshUser := h'.sshUser.trans h.sshUser
  createdAt := h'.createdAt.trans h.createdAt
  expiresAt := h'.expiresAt.trans h.expiresAt
  redeemedAt a ha := h'.redeemedAt a (h.redeemedAt a ha)
  redeemedAgentID a ha := h'.redeemedAgentID a (h.redeemedAgentID a ha)
  redeemedKeyFP a ha := h'.redeemedKeyFP a (h.redeemedKeyFP a ha)
  revokedAt a ha := h'.revokedAt a (h.revokedAt a ha)

/-- The three columns a claim writes together. A row has all or none. -/
def GrantRow.Unclaimed (r : GrantRow) : Prop :=
  r.redeemedAt = none → r.redeemedAgentID = none ∧ r.redeemedKeyFP = none

-- ---------------------------------------------------------------------------
-- The invariant
-- ---------------------------------------------------------------------------

def Event.call : Event → Option Nat
  | .created .. | .revoked _ => none
  | .claimed i .. | .issued i .. | .returned i .. => some i

def Event.claims (id : GoString) : Event → Bool
  | .claimed _ id' _ => id' = id
  | _ => false

def Event.issues (id : GoString) : Event → Bool
  | .issued _ id' _ => id' = id
  | _ => false

def Event.certificate? : Event → Option (Nat × GoString × Certificate)
  | .issued i id cert => some (i, id, cert)
  | _ => none

def Event.revokes (id : GoString) : Event → Bool
  | .revoked id' => id' = id
  | _ => false

def Event.MayFollow (newer older : Event) : Prop :=
  match newer, older with
  | .created id _, .created id' _ => id ≠ id'
  | .revoked id, .revoked id' => id ≠ id'
  | .claimed _ id _, .claimed _ id' _ => id ≠ id'
  | .claimed _ id _, .revoked id' => id ≠ id'
  | .issued _ id _, .issued _ id' _ => id ≠ id'
  | _, _ => True

/-- What a step with the events `es` may make of a row: a written column has
its event. -/
structure GrantRow.Becomes (es : List Event) (r r' : GrantRow) : Prop extends r.Grows r' where
  unclaimed : r.Unclaimed → r'.Unclaimed
  claimWritten : (r'.redeemedAt, r'.redeemedAgentID, r'.redeemedKeyFP) ≠
    (r.redeemedAt, r.redeemedAgentID, r.redeemedKeyFP) → ∃ i now, .claimed i r.id now ∈ es
  revokeWritten : r'.revokedAt ≠ r.revokedAt → .revoked r.id ∈ es

theorem GrantRow.Becomes.refl (r : GrantRow) : r.Becomes es r :=
  ⟨.refl r, fun h => h, fun h => absurd rfl h, fun h => absurd rfl h⟩

theorem markPublishedRow_becomes (r : GrantRow) :
    r.Becomes es (Store.markPublishedRow id time r) := by
  unfold Store.markPublishedRow
  split
  · exact ⟨⟨rfl, rfl, rfl, rfl, .refl _, .refl _, .refl _, .refl _⟩, fun h => h,
      fun h => absurd rfl h, fun h => absurd rfl h⟩
  · exact .refl r

theorem revokeRow_becomes (r : GrantRow) :
    r.Becomes [.revoked id] (Store.revokeRow id time r) := by
  unfold Store.revokeRow
  split
  · rename_i h
    exact ⟨⟨rfl, rfl, rfl, rfl, .refl _, .refl _, .refl _, by simp [Kept, h.2]⟩, fun h => h,
      fun h => absurd rfl h, fun _ => by simp [h.1]⟩
  · exact .refl r

theorem redeemRow_becomes (r : GrantRow) (hr : r.Unclaimed) :
    r.Becomes [.claimed i id now] (Store.redeemRow id now agentID keyFP r) := by
  unfold Store.redeemRow
  split
  · rename_i h
    obtain ⟨hagent, hfp⟩ := hr h.2
    exact ⟨⟨rfl, rfl, rfl, rfl, by simp [Kept, h.2], by simp [Kept, hagent], by simp [Kept, hfp],
      .refl _⟩, fun _ => by simp [GrantRow.Unclaimed], fun _ => ⟨i, now, by simp [h.1]⟩,
      fun h => absurd rfl h⟩
  · exact .refl r

structure Inv (s : State) : Prop where
  /-- Every row was created, with this expiry. -/
  rows : ∀ id r, s.store.grants.get? id = some r → .created id r.expiresAt ∈ s.log
  unclaimed : ∀ id r, s.store.grants.get? id = some r → r.Unclaimed
  /-- A claim leaves its mark on the row for as long as the row lives. -/
  redeemed : ∀ i id now r, .claimed i id now ∈ s.log → s.store.grants.get? id = some r →
    r.redeemedAt ≠ none
  revoked : ∀ id r, .revoked id ∈ s.log → s.store.grants.get? id = some r → r.revokedAt ≠ none
  claims : ∀ i id now, .claimed i id now ∈ s.log → ∃ e, .created id e ∈ s.log ∧ now < e
  revokes : ∀ id, .revoked id ∈ s.log → s.created id
  order : s.log.Pairwise Event.MayFollow
  before : ∀ i, (s.redeems i).Before → ∀ e ∈ s.log, e.call ≠ some i
  claimed : ∀ i c h key claim, s.redeems i = .claimed c h key claim →
    .claimed i c.req.payload.grantID c.now.unix ∈ s.log ∧ ∀ id cert, .issued i id cert ∉ s.log
  issued : ∀ i id cert, .issued i id cert ∈ s.log → ∃ now, .claimed i id now ∈ s.log

theorem Inv.initial (h : Initial s) : Inv s := by
  obtain ⟨hstore, hredeems, -, hlog⟩ := h
  constructor <;> simp [hstore, hlog, hredeems, Store.empty, Table.get?_empty]

theorem pairwise_mem {R : α → α → Prop} {l : List α} (h : l.Pairwise R) (ha : a ∈ l)
    (hb : b ∈ l) : a = b ∨ R a b ∨ R b a := by
  induction h with
  | nil => cases ha
  | cons hx _ ih =>
    rcases List.mem_cons.mp ha with rfl | ha'
    · rcases List.mem_cons.mp hb with rfl | hb'
      · exact .inl rfl
      · exact .inr (.inl (hx b hb'))
    · rcases List.mem_cons.mp hb with rfl | hb'
      · exact .inr (.inr (hx a ha'))
      · exact ih ha' hb'

theorem Inv.claimed_unique (hs : Inv s) (h : .claimed i id now ∈ s.log)
    (h' : .claimed j id now' ∈ s.log) : i = j := by
  rcases pairwise_mem hs.order h h' with heq | hne | hne
  · cases heq
    rfl
  · exact absurd rfl hne
  · exact absurd rfl hne

-- ---------------------------------------------------------------------------
-- Every step keeps it
-- ---------------------------------------------------------------------------

/-- What a step must show for itself: its events `es` against the old state,
every row old and grown or just created, every call where its events put it. -/
structure Extends (s t : State) (es : List Event) : Prop where
  log : t.log = es ++ s.log
  rows : ∀ id r', t.store.grants.get? id = some r' →
    (∃ r, s.store.grants.get? id = some r ∧ r.Becomes es r') ∨
    (.created id r'.expiresAt ∈ es ∧ r'.Unclaimed ∧ ¬ s.created id)
  follow : ∀ e ∈ es, ∀ older ∈ s.log, e.MayFollow older
  order : es.Pairwise Event.MayFollow
  claims : ∀ i id now, .claimed i id now ∈ es →
    (∃ e, .created id e ∈ s.log ∧ now < e) ∧
    ∀ r, t.store.grants.get? id = some r → r.redeemedAt ≠ none
  revokes : ∀ id, .revoked id ∈ es →
    s.created id ∧ ∀ r, t.store.grants.get? id = some r → r.revokedAt ≠ none
  issued : ∀ i id cert, .issued i id cert ∈ es → ∃ now, .claimed i id now ∈ s.log
  before : ∀ i, (t.redeems i).Before → (s.redeems i).Before ∧ ∀ e ∈ es, e.call ≠ some i
  claimed : ∀ i c h key claim, t.redeems i = .claimed c h key claim →
    (s.redeems i = .claimed c h key claim ∧ ∀ id cert, .issued i id cert ∉ es) ∨
    ((s.redeems i).Before ∧ es = [.claimed i c.req.payload.grantID c.now.unix])

theorem Extends.created (h : Extends s t es) (hc : s.created id) : t.created id := by
  obtain ⟨e, he⟩ := hc
  exact ⟨e, h.log ▸ List.mem_append_right _ he⟩

theorem Inv.extend (hs : Inv s) (h : Extends s t es) : Inv t := by
  have hmem (e : Event) : e ∈ t.log ↔ e ∈ es ∨ e ∈ s.log := by rw [h.log, List.mem_append]
  constructor
  case rows =>
    intro id r' hr'
    rcases h.rows id r' hr' with ⟨r, hr, hgrows⟩ | ⟨hnew, -, -⟩
    · rw [hgrows.expiresAt]
      exact (hmem _).mpr (.inr (hs.rows id r hr))
    · exact (hmem _).mpr (.inl hnew)
  case unclaimed =>
    intro id r' hr'
    rcases h.rows id r' hr' with ⟨r, hr, hgrows⟩ | ⟨-, hun, -⟩
    · exact hgrows.unclaimed (hs.unclaimed id r hr)
    · exact hun
  case redeemed =>
    intro i id now r' hc hr'
    rcases (hmem _).mp hc with hc | hc
    · exact (h.claims i id now hc).2 r' hr'
    · rcases h.rows id r' hr' with ⟨r, hr, hgrows⟩ | ⟨-, -, hnew⟩
      · obtain ⟨v, hv⟩ := Option.ne_none_iff_exists'.mp (hs.redeemed i id now r hc hr)
        simp [hgrows.redeemedAt v hv]
      · obtain ⟨e, he, -⟩ := hs.claims i id now hc
        exact absurd ⟨e, he⟩ hnew
  case revoked =>
    intro id r' hc hr'
    rcases (hmem _).mp hc with hc | hc
    · exact (h.revokes id hc).2 r' hr'
    · rcases h.rows id r' hr' with ⟨r, hr, hgrows⟩ | ⟨-, -, hnew⟩
      · obtain ⟨v, hv⟩ := Option.ne_none_iff_exists'.mp (hs.revoked id r hc hr)
        simp [hgrows.revokedAt v hv]
      · exact absurd (hs.revokes id hc) hnew
  case claims =>
    intro i id now hc
    obtain ⟨e, he, hlt⟩ : ∃ e, .created id e ∈ s.log ∧ now < e := by
      rcases (hmem _).mp hc with hc | hc
      · exact (h.claims i id now hc).1
      · exact hs.claims i id now hc
    exact ⟨e, (hmem _).mpr (.inr he), hlt⟩
  case revokes =>
    intro id hc
    rcases (hmem _).mp hc with hc | hc
    · exact h.created (h.revokes id hc).1
    · exact h.created (hs.revokes id hc)
  case order => exact h.log ▸ List.pairwise_append.mpr ⟨h.order, hs.order, h.follow⟩
  case before =>
    intro i hbefore e he
    obtain ⟨hold, hnew⟩ := h.before i hbefore
    rcases (hmem _).mp he with he | he
    · exact hnew e he
    · exact hs.before i hold e he
  case claimed =>
    intro i c hst key claim heq
    rcases h.claimed i c hst key claim heq with ⟨hold, hnot⟩ | ⟨hbefore, rfl⟩
    · obtain ⟨hc, hno⟩ := hs.claimed i c hst key claim hold
      refine ⟨(hmem _).mpr (.inr hc), fun id cert hi => ?_⟩
      rcases (hmem _).mp hi with hi | hi
      · exact hnot id cert hi
      · exact hno id cert hi
    · refine ⟨(hmem _).mpr (.inl (by simp)), fun id cert hi => ?_⟩
      rcases (hmem _).mp hi with hi | hi
      · simp at hi
      · exact hs.before i hbefore _ hi rfl
  case issued =>
    intro i id cert hi
    obtain ⟨now, hc⟩ : ∃ now, .claimed i id now ∈ s.log := by
      rcases (hmem _).mp hi with hi | hi
      · exact h.issued i id cert hi
      · exact hs.issued i id cert hi
    exact ⟨now, (hmem _).mpr (.inr hc)⟩

/-- Calls that move without an event: not past the claim, or to the end. -/
def Moves (f f' : Nat → RedeemState) : Prop :=
  ∀ i, f' i = f i ∨ ((f i).Before ∧ (f' i).Before) ∨ ∃ result, f' i = .done result

theorem Moves.refl (f : Nat → RedeemState) : Moves f f := fun _ => .inl rfl

theorem Moves.set (h : (f i).Before ∧ st.Before ∨ ∃ result, st = .done result) :
    Moves f (set f i st) := by
  intro j
  by_cases hj : j = i
  · subst hj
    simpa using .inr h
  · exact .inl (set_of_ne _ _ hj)

theorem Extends.quiet
    (hrows : ∀ id r', t.store.grants.get? id = some r' →
      ∃ r, s.store.grants.get? id = some r ∧ r.Becomes [] r')
    (hcalls : Moves s.redeems t.redeems) (hlog : t.log = s.log) : Extends s t [] := by
  constructor
  case log => simpa using hlog
  case rows => exact fun id r' hr' => .inl (hrows id r' hr')
  case before =>
    intro i hbefore
    rcases hcalls i with heq | ⟨hb, -⟩ | ⟨result, heq⟩
    · exact ⟨heq ▸ hbefore, by simp⟩
    · exact ⟨hb, by simp⟩
    · exact absurd hbefore (by simp [heq, RedeemState.Before])
  case claimed =>
    intro i c h key claim heq'
    rcases hcalls i with heq | ⟨-, hb⟩ | ⟨result, heq⟩
    · exact .inl ⟨heq ▸ heq', by simp⟩
    · exact absurd hb (by simp [heq', RedeemState.Before])
    · rw [heq] at heq'
      cases heq'
  all_goals simp

theorem same_rows {grants grants' : Table GrantRow.id} (h : grants' = grants) :
    ∀ id r', grants'.get? id = some r' → ∃ r, grants.get? id = some r ∧ r.Becomes es r' :=
  fun _ r' hr' => ⟨r', h ▸ hr', .refl r'⟩

theorem updated_rows {grants : Table GrantRow.id} {f : GrantRow → GrantRow}
    (hf : ∀ r, (f r).id = r.id)
    (hgrows : ∀ id r, grants.get? id = some r → r.Becomes es (f r)) :
    ∀ id r', (grants.update f hf).get? id = some r' →
      ∃ r, grants.get? id = some r ∧ r.Becomes es r' := by
  intro id r' hr'
  rw [Table.get?_update] at hr'
  obtain ⟨r, hr, rfl⟩ := Option.map_eq_some_iff.mp hr'
  exact ⟨r, hr, hgrows id r hr⟩

theorem purged_rows {grants : Table GrantRow.id} (p : GrantRow → Bool) :
    ∀ id r', (grants.delete p).get? id = some r' →
      ∃ r, grants.get? id = some r ∧ r.Becomes es r' := by
  intro id r' hr'
  rw [Table.get?_delete] at hr'
  obtain ⟨hr, -⟩ := Option.filter_eq_some_iff.mp hr'
  exact ⟨r', hr, .refl r'⟩

theorem create_extends {grants : Table GrantRow.id} (hfresh : ¬ s.created id)
    (hrow : s.store.grants.insert ⟨id, secret, sshUser, now, expiresAt, none, none, none, none,
      none⟩ =
      some grants) :
    Extends s { s with
      store := { s.store with grants }, creates, log := .created id expiresAt :: s.log }
      [.created id expiresAt] := by
  have hget (id' : GoString) := Table.get?_insert hrow id'
  constructor
  case rows =>
    intro id' r' hr'
    rw [hget] at hr'
    split at hr'
    · rename_i hid
      cases hr'
      exact .inr ⟨by simp [← hid], by simp [GrantRow.Unclaimed], hid ▸ hfresh⟩
    · exact .inl ⟨r', hr', .refl r'⟩
  case follow =>
    simp only [List.mem_singleton, forall_eq]
    intro older hmem
    cases older with
    | created id' e =>
      rintro rfl
      exact hfresh ⟨e, hmem⟩
    | _ => trivial
  case before => exact fun i hb => ⟨hb, by simp [Event.call]⟩
  case claimed => exact fun i c h key claim heq => .inl ⟨heq, by simp⟩
  all_goals simp

theorem revoke_extends (hs : Inv s) (hrev : s.store.revokes id = true) :
    Extends s { s with store := s.store.revoke id time, log := .revoked id :: s.log }
      [.revoked id] := by
  obtain ⟨r₀, hr₀, hlive⟩ : ∃ r, s.store.grants.get? id = some r ∧ r.revokedAt = none := by
    simpa [Store.revokes, Option.any_eq_true] using hrev
  constructor
  case rows =>
    exact fun id' r' hr' => .inl
      (updated_rows Store.revokeRow_id (fun _ r _ => revokeRow_becomes r) id' r' hr')
  case follow =>
    simp only [List.mem_singleton, forall_eq]
    intro older hmem
    cases older with
    | revoked id' =>
      rintro rfl
      exact hs.revoked id r₀ hmem hr₀ hlive
    | _ => trivial
  case revokes =>
    intro id' hmem
    cases List.mem_singleton.mp hmem
    refine ⟨⟨_, hs.rows id r₀ hr₀⟩, fun r' hr' => ?_⟩
    have hr'' := (Store.get?_revoke s.store id id time).symm.trans hr'
    rw [hr₀] at hr''
    cases hr''
    simp [Store.revokeRow, Table.key_get? hr₀, hlive]
  case before => exact fun i hb => ⟨hb, by simp [Event.call]⟩
  case claimed => exact fun i c h key claim heq => .inl ⟨heq, by simp⟩
  all_goals simp

theorem before_set {st : RedeemState} {f : Nat → RedeemState} {e : Event} (hst : ¬ st.Before)
    (he : e.call = some i) (j : Nat)
    (hj : (set f i st j).Before) : (f j).Before ∧ ∀ x ∈ [e], x.call ≠ some j := by
  have hne : j ≠ i := by
    rintro rfl
    exact hst (by simpa using hj)
  exact ⟨by simpa [hne] using hj, by simp [he, Ne.symm hne]⟩

theorem claim_extends {S : Signer} {claim : Claim} (hs : Inv s)
    (hi : s.redeems i = .remembered c h key)
    (hget : s.store.grants.get? c.req.payload.grantID = some g) (hrev : g.revokedAt = none)
    (hexp : c.now.unix < g.expiresAt) (hred : g.redeemedAt = none) :
    Extends s
      { s with
        store := { s.store with
          grants := s.store.grants.update (Store.redeemRow c.req.payload.grantID c.now.unix
            c.req.payload.agentID (sshKeyFingerprint S.crypto key)) Store.redeemRow_id }
        redeems := set s.redeems i (.claimed c h key claim)
        log := .claimed i c.req.payload.grantID c.now.unix :: s.log }
      [.claimed i c.req.payload.grantID c.now.unix] := by
  have hbefore : (s.redeems i).Before := by simp [hi, RedeemState.Before]
  constructor
  case rows =>
    exact fun id r' hr' => .inl (updated_rows Store.redeemRow_id
      (fun id r hr => redeemRow_becomes r (hs.unclaimed id r hr)) id r' hr')
  case follow =>
    -- The row is neither claimed nor revoked, so the log has neither event.
    simp only [List.mem_singleton, forall_eq]
    intro older hmem
    cases older with
    | claimed j id now =>
      rintro rfl
      exact hs.redeemed j _ now g hmem hget hred
    | revoked id =>
      rintro rfl
      exact hs.revoked _ g hmem hget hrev
    | _ => trivial
  case claims =>
    intro j id now hmem
    cases List.mem_singleton.mp hmem
    refine ⟨⟨_, hs.rows _ g hget, hexp⟩, fun r' hr' => ?_⟩
    rw [Table.get?_update, hget] at hr'
    cases hr'
    simp [Store.redeemRow, Table.key_get? hget, hred]
  case before => exact before_set (by simp [RedeemState.Before]) rfl
  case claimed =>
    intro j c' h' key' claim' heq
    by_cases hj : j = i
    · subst hj
      simp only [set_same, RedeemState.claimed.injEq] at heq
      obtain ⟨rfl, -⟩ := heq
      exact .inr ⟨hbefore, rfl⟩
    · exact .inl ⟨by simpa [hj] using heq, by simp⟩
  all_goals simp

theorem issue_extends {claim : Claim} (hs : Inv s) (hi : s.redeems i = .claimed c h key claim) :
    Extends s
      { s with
        redeems := set s.redeems i (.issued c h key claim cert)
        log := .issued i c.req.payload.grantID cert :: s.log }
      [.issued i c.req.payload.grantID cert] := by
  obtain ⟨hclaimed, hnone⟩ := hs.claimed i c h key claim hi
  constructor
  case rows => exact fun id r' hr' => .inl ⟨r', hr', .refl r'⟩
  case follow =>
    -- An earlier certificate for this grant would come from an earlier claim.
    simp only [List.mem_singleton, forall_eq]
    intro older hmem
    cases older with
    | issued j id cert' =>
      rintro rfl
      obtain ⟨now, hclaimed'⟩ := hs.issued j _ cert' hmem
      cases hs.claimed_unique hclaimed hclaimed'
      exact hnone _ _ hmem
    | _ => trivial
  case issued =>
    intro j id cert' hmem
    cases List.mem_singleton.mp hmem
    exact ⟨_, hclaimed⟩
  case before => exact before_set (by simp [RedeemState.Before]) rfl
  case claimed =>
    intro j c' h' key' claim' heq
    have hne : j ≠ i := by
      rintro rfl
      simp at heq
    exact .inl ⟨by simpa [hne] using heq, by simp [hne]⟩
  all_goals simp

theorem return_extends (hgrants : store.grants = s.store.grants) :
    Extends s
      { s with
        store, redeems := set s.redeems i (.done result)
        log := .returned i grantID cert :: s.log }
      [.returned i grantID cert] := by
  constructor
  case rows => exact fun id r' hr' => .inl (same_rows hgrants id r' hr')
  case follow => simp [Event.MayFollow]
  case before => exact before_set (by simp [RedeemState.Before]) rfl
  case claimed =>
    intro j c' h' key' claim' heq
    have hne : j ≠ i := by
      rintro rfl
      simp at heq
    exact .inl ⟨by simpa [hne] using heq, by simp⟩
  all_goals simp

theorem redeem_extends {S : Signer} (hs : Inv s)
    (h : RedeemStep S i draw s.store (s.redeems i) st' store es) :
    Extends s { s with store, redeems := set s.redeems i st', log := es ++ s.log } es := by
  generalize hi : s.redeems i = st at h
  cases h with
  | early hst hst' hgrants _ _ =>
    refine .quiet (same_rows hgrants) (.set ?_) rfl
    rcases hst' with hst' | ⟨e, rfl⟩
    · exact .inl ⟨hi ▸ hst, hst'⟩
    · exact .inr ⟨_, rfl⟩
  | claim hget hrev hexp hred _ => exact claim_extends hs hi hget hrev hexp hred
  | issue _ => exact issue_extends hs hi
  | stop _ => exact .quiet (same_rows rfl) (.set (.inr ⟨_, rfl⟩)) rfl
  | record hrecord => exact return_extends (Store.recordCertificate_grants hrecord).1

theorem step_extends {S : Signer} (hs : Inv s) (hfresh : FreshIDs s a) (h : step S s a = some t) :
    ∃ es, Extends s t es := by
  cases acts h with
  | tick | enroll | refuse | start | create | purgeNonces =>
    exact ⟨_, .quiet (same_rows rfl) (.refl _) rfl⟩
  | insert hi hrow => exact ⟨_, create_extends hfresh hrow⟩
  | redeemStart hidle =>
    exact ⟨_, .quiet (same_rows rfl) (.set (.inl ⟨by rw [hidle]; trivial, trivial⟩)) rfl⟩
  | redeem hnext => exact ⟨_, redeem_extends hs (redeemNext_step S hnext)⟩
  | redeemFail => exact ⟨_, .quiet (same_rows rfl) (.set (.inr ⟨_, rfl⟩)) rfl⟩
  | @revoke now id =>
    cases hrev : s.store.revokes id with
    | true => exact ⟨_, revoke_extends hs hrev⟩
    | false =>
      -- No row is affected: it is missing or already revoked.
      refine ⟨_, .quiet (updated_rows Store.revokeRow_id fun id' r hr => ?_) (.refl _) rfl⟩
      have hsame : Store.revokeRow id now r = r := by
        unfold Store.revokeRow
        split
        · rename_i hlive
          have hid : r.id = id' := Table.key_get? hr
          simp [Store.revokes, ← hlive.1, hid, hr, hlive.2] at hrev
        · rfl
      rw [hsame]
      exact .refl r
  | markPublished =>
    exact ⟨_, .quiet (updated_rows Store.markPublishedRow_id
      fun _ r _ => markPublishedRow_becomes r) (.refl _) rfl⟩
  | purgeGrants => exact ⟨_, .quiet (purged_rows _) (.refl _) rfl⟩

theorem Inv.step {S : Signer} (hs : Inv s) (hfresh : FreshIDs s a) (h : step S s a = some t) :
    Inv t := by
  obtain ⟨es, hes⟩ := step_extends hs hfresh h
  exact hs.extend hes

theorem Inv.reachable {S : Signer} (h : (machine S).Reachable FreshIDs s) : Inv s :=
  h.invariant (fun _ => .initial) fun _ _ _ hs hfresh hstep => hs.step hfresh hstep

-- ---------------------------------------------------------------------------
-- Whole runs
-- ---------------------------------------------------------------------------

/-- Of a grant that was created in `s`, nothing but its own row, grown, can
be there in `t`. -/
def Later (s t : State) : Prop :=
  ∀ id, s.created id → t.created id ∧
    ∀ r', t.store.grants.get? id = some r' → ∃ r, s.store.grants.get? id = some r ∧ r.Grows r'

theorem Later.refl (s : State) : Later s s := fun _ hc => ⟨hc, fun r' hr' => ⟨r', hr', .refl r'⟩⟩

theorem Later.trans (h : Later s t) (h' : Later t u) : Later s u := by
  intro id hc
  obtain ⟨hct, hrows⟩ := h id hc
  obtain ⟨hcu, hrows'⟩ := h' id hct
  refine ⟨hcu, fun r'' hr'' => ?_⟩
  obtain ⟨r', hr', hgrows'⟩ := hrows' r'' hr''
  obtain ⟨r, hr, hgrows⟩ := hrows r' hr'
  exact ⟨r, hr, hgrows.trans hgrows'⟩

theorem Extends.later (h : Extends s t es) : Later s t := by
  intro id hc
  refine ⟨h.created hc, fun r' hr' => ?_⟩
  rcases h.rows id r' hr' with ⟨r, hr, hgrows⟩ | ⟨-, -, hnew⟩
  · exact ⟨r, hr, hgrows.toGrows⟩
  · exact absurd hc hnew

theorem Later.run {S : Signer} (hs : (machine S).Reachable FreshIDs s)
    (h : (machine S).Run FreshIDs s t) : Later s t := by
  refine h.relates .refl (fun _ _ _ => .trans) (fun s a t hs hfresh hstep => ?_) hs
  obtain ⟨es, hes⟩ := step_extends (.reachable hs) hfresh hstep
  exact hes.later

theorem countP_le_one {p : α → Bool} {l : List α}
    (h : l.Pairwise fun a b => ¬ (p a = true ∧ p b = true)) : l.countP p ≤ 1 := by
  induction h with
  | nil => simp
  | @cons a l ha _ ih =>
    cases hp : p a with
    | false => simpa [hp] using ih
    | true =>
      have hnone : l.countP p = 0 := by
        rw [List.countP_eq_zero]
        exact fun b hb hpb => ha b hb ⟨hp, hpb⟩
      simp [hp, hnone]

theorem Inv.claims_once (hs : Inv s) (id : GoString) : s.log.countP (Event.claims id) ≤ 1 := by
  refine countP_le_one (hs.order.imp fun {a b} hab => ?_)
  rintro ⟨ha, hb⟩
  cases a <;> cases b <;> simp_all [Event.claims, Event.MayFollow]

theorem Inv.issues_once (hs : Inv s) (id : GoString) : s.log.countP (Event.issues id) ≤ 1 := by
  refine countP_le_one (hs.order.imp fun {a b} hab => ?_)
  rintro ⟨ha, hb⟩
  cases a <;> cases b <;> simp_all [Event.issues, Event.MayFollow]

theorem Inv.revokes_once (hs : Inv s) (id : GoString) : s.log.countP (Event.revokes id) ≤ 1 := by
  refine countP_le_one (hs.order.imp fun {a b} hab => ?_)
  rintro ⟨ha, hb⟩
  cases a <;> cases b <;> simp_all [Event.revokes, Event.MayFollow]

theorem Inv.no_claim_after_revoke (hs : Inv s) (hlog : s.log = newer ++ .revoked id :: older)
    (he : e ∈ newer) : e.claims id = false := by
  have hfollow := (List.pairwise_append.mp (hlog ▸ hs.order)).2.2 e he (.revoked id) (by simp)
  cases e with
  | claimed i id' now => simpa [Event.claims, Event.MayFollow] using hfollow
  | _ => rfl

theorem Inv.created_unique (hs : Inv s) (h : .created id e ∈ s.log) (h' : .created id e' ∈ s.log) :
    e = e' := by
  rcases pairwise_mem hs.order h h' with heq | hne | hne
  · cases heq
    rfl
  · exact absurd rfl hne
  · exact absurd rfl hne

theorem Inv.claim_in_time (hs : Inv s) (h : .claimed i id now ∈ s.log) :
    s.created id ∧ ∀ expiresAt, .created id expiresAt ∈ s.log → now < expiresAt := by
  obtain ⟨e, he, hlt⟩ := hs.claims i id now h
  refine ⟨⟨e, he⟩, fun e' he' => ?_⟩
  rwa [← hs.created_unique he he']

/-- A grant is used at most once, whatever runs at the same time: one claim
and one certificate, no claim after a revocation took effect, no claim by a
call whose clock was at or past the expiry the grant was created with. While
the row lives its first columns stay, and the columns of the claim and of the
revocation are written by those two events alone, each at most once. -/
theorem grant_single_use (S : Signer) (hs : (machine S).Reachable FreshIDs s) :
    (∀ id, s.log.countP (Event.claims id) ≤ 1) ∧
    (∀ id, s.log.countP (Event.issues id) ≤ 1) ∧
    (∀ id newer older, s.log = newer ++ .revoked id :: older →
      ∀ e ∈ newer, e.claims id = false) ∧
    (∀ i id now, .claimed i id now ∈ s.log →
      s.created id ∧ ∀ expiresAt, .created id expiresAt ∈ s.log → now < expiresAt) ∧
    (∀ id r, s.store.grants.get? id = some r → .created id r.expiresAt ∈ s.log) ∧
    (∀ t, (machine S).Run FreshIDs s t → ∀ id r r', s.store.grants.get? id = some r →
      t.store.grants.get? id = some r' → r.Grows r') ∧
    (∀ id, s.log.countP (Event.revokes id) ≤ 1) ∧
    (∀ a t, FreshIDs s a → step S s a = some t → ∃ es, t.log = es ++ s.log ∧
      ∀ id r r', s.store.grants.get? id = some r → t.store.grants.get? id = some r' →
        r.Becomes es r') := by
  have hinv : Inv s := .reachable hs
  refine ⟨hinv.claims_once, hinv.issues_once, fun id newer older hlog e he =>
    hinv.no_claim_after_revoke hlog he, fun i id now => hinv.claim_in_time, hinv.rows, ?_,
    hinv.revokes_once, ?_⟩
  · intro t hrun id r r' hr hr'
    obtain ⟨-, hrows⟩ := Later.run hs hrun id ⟨_, hinv.rows id r hr⟩
    obtain ⟨r₀, hr₀, hgrows⟩ := hrows r' hr'
    cases hr.symm.trans hr₀
    exact hgrows
  · intro a t hfresh hstep
    obtain ⟨es, hes⟩ := step_extends hinv hfresh hstep
    refine ⟨es, hes.log, fun id r r' hr hr' => ?_⟩
    rcases hes.rows id r' hr' with ⟨r₀, hr₀, hbecomes⟩ | ⟨-, -, hnew⟩
    · cases hr.symm.trans hr₀
      exact hbecomes
    · exact absurd ⟨_, hinv.rows id r hr⟩ hnew

/-- A grant that was redeemed, then revoked: one claim before the revocation,
and there will be no other. -/
theorem grant_single_use_sample : ∃ s, (machine Sample.sample).Reachable FreshIDs s ∧
    s.log.countP (Event.revokes Sample.grantID) = 1 ∧
    s.log.countP (Event.claims Sample.grantID) = 1 ∧
    ∀ t, (machine Sample.sample).Run FreshIDs s t →
      t.log.countP (Event.claims Sample.grantID) ≤ 1 := by
  have hexec : ((machine Sample.sample).exec FreshIDs Sample.initial
      (Sample.setUp ++ Sample.redemption ++ [.revoke 1700000100 Sample.grantID])).any
      (fun s => s.log.countP (Event.revokes Sample.grantID) == 1 &&
        s.log.countP (Event.claims Sample.grantID) == 1) = true := by
    decide +kernel
  obtain ⟨s, hs, hcounts⟩ := Option.any_eq_true .. |>.mp hexec
  have hreach := Sample.initial_reachable.run (.of_exec hs)
  simp only [Bool.and_eq_true, beq_iff_eq] at hcounts
  exact ⟨s, hreach, hcounts.1, hcounts.2, fun t ht =>
    (grant_single_use Sample.sample (hreach.run ht)).1 Sample.grantID⟩

end Grantd.Signer
