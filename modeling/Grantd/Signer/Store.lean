import Grantd.Base.Table
import Grantd.Protocol.Messages

/-!
# The signer's tables

go/signer/store/store.go. One definition per SQL statement or transaction, so
that each of them is one atomic step. A statement that fails leaves no result
here and changes nothing.
-/

namespace Grantd.Signer

open Base Protocol

-- ---------------------------------------------------------------------------
-- Rows
-- ---------------------------------------------------------------------------

structure Host where
  hostID : GoString
  sshUser : GoString
  hostname : GoString
  sshPort : UInt64
  createdAt : Int64
  sshHostPublicKey : GoString
  deriving DecidableEq, Repr

/-- A row of `grants`. The nullable columns are options. -/
structure GrantRow where
  id : GoString
  secret : Bytes
  sshUser : GoString
  createdAt : Int64
  expiresAt : Int64
  redeemedAt : Option Int64 := none
  revokedAt : Option Int64 := none
  redeemedAgentID : Option GoString := none
  redeemedKeyFP : Option GoString := none
  publishedAt : Option Int64 := none
  deriving DecidableEq, Repr

/-- A row of `certificates`. Serials are stored as `int64`. -/
structure CertificateRow where
  serial : Int64
  grantID : GoString
  agentID : GoString
  keyFP : GoString
  certificate : GoString
  validAfter : Int64
  validBefore : Int64
  createdAt : Int64
  deriving DecidableEq, Repr

structure NonceRow where
  scope : GoString
  nonce : Bytes
  seenAt : Int64
  deriving DecidableEq, Repr

def NonceRow.key (r : NonceRow) : GoString × Bytes := (r.scope, r.nonce)

/-- Certificates have two unique columns: the serial and the grant. -/
structure Certificates where
  table : Table CertificateRow.serial
  unique : (table.rows.map CertificateRow.grantID).Nodup
  deriving DecidableEq

theorem unique_empty :
    ((Table.empty : Table CertificateRow.serial).rows.map CertificateRow.grantID).Nodup := .nil

structure Store where
  host : Option Host
  grants : Table GrantRow.id
  certificates : Certificates
  nonces : Table NonceRow.key
  deriving DecidableEq

def Store.empty : Store where
  host := none
  grants := .empty
  certificates := ⟨.empty, unique_empty⟩
  nonces := .empty

namespace Store

-- ---------------------------------------------------------------------------
-- Host
-- ---------------------------------------------------------------------------

/-- There is exactly one row, ever; its `created_at` is the first one's. -/
def setHost (s : Store) (h : Host) : Store :=
  match s.host with
  | none => { s with host := some h }
  | some old => { s with host := some { h with createdAt := old.createdAt } }

-- ---------------------------------------------------------------------------
-- Grants
-- ---------------------------------------------------------------------------

def createGrant (s : Store) (id : GoString) (secret : Bytes) (sshUser : GoString)
    (createdAt expiresAt : Int64) : Option Store := do
  let grants ← s.grants.insert { id, secret, sshUser, createdAt, expiresAt }
  pure { s with grants }

def markPublishedRow (grantID : GoString) (time : Int64) (r : GrantRow) : GrantRow :=
  if r.id = grantID then { r with publishedAt := some time } else r

def revokeRow (grantID : GoString) (time : Int64) (r : GrantRow) : GrantRow :=
  if r.id = grantID ∧ r.revokedAt = none then { r with revokedAt := some time } else r

def redeemRow (grantID : GoString) (now : Int64) (agentID keyFP : GoString) (r : GrantRow) :
    GrantRow :=
  if r.id = grantID ∧ r.redeemedAt = none then
    { r with redeemedAt := some now, redeemedAgentID := some agentID, redeemedKeyFP := some keyFP }
  else r

theorem markPublishedRow_id (r : GrantRow) : (markPublishedRow grantID time r).id = r.id := by
  unfold markPublishedRow; split <;> rfl

theorem revokeRow_id (r : GrantRow) : (revokeRow grantID time r).id = r.id := by
  unfold revokeRow; split <;> rfl

theorem redeemRow_id {agentID : GoString} (r : GrantRow) :
    (redeemRow grantID now agentID keyFP r).id = r.id := by
  unfold redeemRow; split <;> rfl

def markPublished (s : Store) (grantID : GoString) (time : Int64) : Store :=
  { s with grants := s.grants.update (markPublishedRow grantID time) markPublishedRow_id }

def revoke (s : Store) (grantID : GoString) (time : Int64) : Store :=
  { s with grants := s.grants.update (revokeRow grantID time) revokeRow_id }

/-- Whether that `UPDATE` affects a row. -/
def revokes (s : Store) (grantID : GoString) : Bool :=
  (s.grants.get? grantID).any (·.revokedAt.isNone)

/-- The first statement of `PurgeExpired`. -/
def purgeGrants (s : Store) (now retain : Int64) : Store :=
  { s with grants := s.grants.delete (·.expiresAt < now - retain) }

def activeGrantCount (s : Store) (now : Int64) : Nat :=
  s.grants.count fun r => r.expiresAt > now && r.redeemedAt.isNone && r.revokedAt.isNone

-- ---------------------------------------------------------------------------
-- Nonces
-- ---------------------------------------------------------------------------

/-- Drops what was seen longer ago than `window`: the second statement of
`PurgeExpired` and the first of `RememberNonce`. -/
def pruneNonces (s : Store) (now window : Int64) : Store :=
  { s with nonces := s.nonces.delete (·.seenAt < now - window) }

/-- `INSERT OR IGNORE`; no row is affected when the nonce is already there. -/
def insertNonce (s : Store) (scope : GoString) (nonce : Bytes) (now : Int64) : Option Store := do
  let nonces ← s.nonces.insert { scope, nonce, seenAt := now }
  pure { s with nonces }

-- ---------------------------------------------------------------------------
-- Claiming
-- ---------------------------------------------------------------------------

/-- `ClaimResult`; only `ClaimOK` carries data. -/
inductive ClaimResult
  | ok (sshUser : GoString) (expiresAt : Int64)
  | notFound
  | revoked
  | expired
  | alreadyRedeemed
  | badProof
  deriving DecidableEq, Repr

/-- The transaction that makes a grant single-use. An error of `check` rolls
back like a wrong proof does. -/
def claimGrant (s : Store) (grantID : GoString) (now : Int64) (agentID keyFP : GoString)
    (check : Bytes → Except ε Bool) : Except ε (ClaimResult × Store) :=
  match s.grants.get? grantID with
  | none => pure (.notFound, s)
  | some g =>
    if g.revokedAt.isSome then pure (.revoked, s)
    else if g.expiresAt ≤ now then pure (.expired, s)
    else if g.redeemedAt.isSome then pure (.alreadyRedeemed, s)
    else do
      let ok ← check g.secret
      if ok then
        pure (.ok g.sshUser g.expiresAt,
          { s with grants := s.grants.update (redeemRow grantID now agentID keyFP) redeemRow_id })
      else pure (.badProof, s)

-- ---------------------------------------------------------------------------
-- Certificates
-- ---------------------------------------------------------------------------

def certificateFor (s : Store) (grantID : GoString) : Option CertificateRow :=
  s.certificates.table.rows.find? (·.grantID = grantID)

/-- `RecordCertificate`: nothing happens when the grant has a certificate, and
a serial that is taken is an error. -/
def recordCertificate (s : Store) (row : CertificateRow) : Option Store :=
  if h : s.certificateFor row.grantID = none then
    match ht : s.certificates.table.insert row with
    | none => none
    | some table => some { s with certificates := ⟨table, by
        have hnew : ∀ r ∈ s.certificates.table.rows, r.grantID ≠ row.grantID := by
          simpa [certificateFor, List.find?_eq_none] using h
        rw [(Table.insert_eq_some ht).2]
        simpa [List.nodup_append, s.certificates.unique] using hnew⟩ }
  else some s

def certificateSerial (s : Store) (grantID : GoString) : Option UInt64 :=
  (s.certificateFor grantID).map (·.serial.toUInt64)

-- ---------------------------------------------------------------------------
-- What the statements do
-- ---------------------------------------------------------------------------

theorem get?_revoke (s : Store) (grantID k : GoString) (time : Int64) :
    (s.revoke grantID time).grants.get? k = (s.grants.get? k).map (revokeRow grantID time) :=
  Table.get?_update _ _ revokeRow_id k

theorem createGrant_eq_some {s s' : Store}
    (h : s.createGrant grantID secret sshUser createdAt expiresAt = some s') :
    ∃ grants, s.grants.insert ⟨grantID, secret, sshUser, createdAt, expiresAt,
      none, none, none, none, none⟩ = some grants ∧ s' = { s with grants } := by
  simp only [createGrant, Option.bind_eq_bind, Option.bind_eq_some_iff, Option.pure_def,
    Option.some.injEq] at h
  obtain ⟨grants, hins, rfl⟩ := h
  exact ⟨grants, hins, rfl⟩

theorem insertNonce_eq_some {s s' : Store} (h : s.insertNonce scope nonce now = some s') :
    ∃ nonces, s.nonces.insert ⟨scope, nonce, now⟩ = some nonces ∧ s' = { s with nonces } := by
  simp only [insertNonce, Option.bind_eq_bind, Option.bind_eq_some_iff, Option.pure_def,
    Option.some.injEq] at h
  obtain ⟨nonces, hins, rfl⟩ := h
  exact ⟨nonces, hins, rfl⟩

theorem remember_eq_none {s : Store} :
    (s.pruneNonces now window).insertNonce scope nonce now' = none ↔
      ∃ n, s.nonces.get? (scope, nonce) = some n ∧ ¬ n.seenAt < now - window := by
  have hinsert : (s.pruneNonces now window).insertNonce scope nonce now' = none ↔
      (s.nonces.delete (·.seenAt < now - window)).insert ⟨scope, nonce, now'⟩ = none := by
    simp only [insertNonce, pruneNonces]
    cases (s.nonces.delete (·.seenAt < now - window)).insert ⟨scope, nonce, now'⟩ <;> simp
  have hkey : NonceRow.key ⟨scope, nonce, now'⟩ = (scope, nonce) := rfl
  rw [hinsert, Table.insert_eq_none, Table.get?_delete, hkey]
  cases hn : s.nonces.get? (scope, nonce) with
  | none => simp
  | some n => simp [Option.filter]

/-- A claim goes through exactly on a live row under a proof that checks, and
writes that row's three columns. -/
theorem claimGrant_ok {s s' : Store} {agentID : GoString} {check : Bytes → Except ε Bool}
    (h : s.claimGrant grantID now agentID keyFP check = .ok (.ok sshUser expiresAt, s')) :
    ∃ g, s.grants.get? grantID = some g ∧ g.revokedAt = none ∧ now < g.expiresAt ∧
      g.redeemedAt = none ∧ check g.secret = .ok true ∧ sshUser = g.sshUser ∧
      expiresAt = g.expiresAt ∧
      s' = { s with
        grants := s.grants.update (redeemRow grantID now agentID keyFP) redeemRow_id } := by
  unfold claimGrant at h
  split at h
  · cases h
  · rename_i g hg
    split at h
    · cases h
    · rename_i hrev
      split at h
      · cases h
      · rename_i hexp
        split at h
        · cases h
        · rename_i hred
          simp only [bind_eq_ok] at h
          obtain ⟨ok, hok, h⟩ := h
          split at h
          · rename_i htrue
            cases h
            exact ⟨g, hg, by simpa using hrev, Int64.not_le.mp hexp, by simpa using hred,
              htrue ▸ hok, rfl, rfl, rfl⟩
          · cases h

theorem claimGrant_of_live {s : Store} {agentID : GoString} {check : Bytes → Except ε Bool}
    (hget : s.grants.get? grantID = some g) (hrev : g.revokedAt = none) (hexp : now < g.expiresAt)
    (hred : g.redeemedAt = none) (hcheck : check g.secret = .ok true) :
    s.claimGrant grantID now agentID keyFP check = .ok (.ok g.sshUser g.expiresAt,
      { s with grants := s.grants.update (redeemRow grantID now agentID keyFP) redeemRow_id }) := by
  simp only [claimGrant, hget, hrev, hred, Int64.not_le.mpr hexp, hcheck, Option.isSome_none,
    Bool.false_eq_true, ↓reduceIte]
  rfl

theorem claimGrant_rolled_back {s s' : Store} {agentID : GoString} {check : Bytes → Except ε Bool}
    (h : s.claimGrant grantID now agentID keyFP check = .ok (result, s'))
    (hne : ∀ sshUser expiresAt, result ≠ .ok sshUser expiresAt) : s' = s := by
  unfold claimGrant at h
  split at h
  · cases h; rfl
  · split at h
    · cases h; rfl
    · split at h
      · cases h; rfl
      · split at h
        · cases h; rfl
        · simp only [bind_eq_ok] at h
          obtain ⟨ok, -, h⟩ := h
          split at h
          · cases h
            exact absurd rfl (hne _ _)
          · cases h; rfl

theorem recordCertificate_grants {s s' : Store} (h : s.recordCertificate row = some s') :
    s'.grants = s.grants ∧ s'.host = s.host ∧ s'.nonces = s.nonces := by
  unfold recordCertificate at h
  split at h
  · split at h
    · cases h
    · cases h
      exact ⟨rfl, rfl, rfl⟩
  · cases h
    exact ⟨rfl, rfl, rfl⟩

theorem recordCertificate_fresh {s : Store} {row : CertificateRow}
    (h : ∀ r ∈ s.certificates.table.rows, r.serial ≠ row.serial) :
    ∃ s', s.recordCertificate row = some s' := by
  unfold recordCertificate
  split
  · split
    · rename_i hnone
      exact absurd (Table.get?_eq_none.mpr h) (Table.insert_eq_none.mp hnone)
    · exact ⟨_, rfl⟩
  · exact ⟨_, rfl⟩

end Store

end Grantd.Signer
