import Grantd.Base.Transaction
import Grantd.Signer.Store

/-!
# Schema migration

`migrate` of go/signer/store/store.go, over database files of every version.
The file is the catalogue of the tables and indices the script names, with
their rows, and the version in its header.
-/

namespace Grantd.Signer

open Base Protocol

-- ---------------------------------------------------------------------------
-- Database files
-- ---------------------------------------------------------------------------

/-- A row of `host` before version 3. -/
structure HostV1 where
  hostID : GoString
  sshUser : GoString
  hostname : GoString
  sshPort : UInt64
  createdAt : Int64
  deriving DecidableEq, Repr

def HostV1.addColumn (h : HostV1) : Host :=
  ⟨h.hostID, h.sshUser, h.hostname, h.sshPort, h.createdAt, []⟩

/-- `rowid_guard` leaves room for one row. -/
inductive HostTable
  | withoutKey (row : Option HostV1)
  | withKey (row : Option Host)
  deriving DecidableEq

/-- Version 1 keys `nonces` by the nonce alone. -/
inductive NonceTable
  | byNonce (table : Table NonceRow.nonce)
  | byScope (table : Table NonceRow.key)
  deriving DecidableEq

structure Db where
  userVersion : Int
  host : Option HostTable
  grants : Option (Table GrantRow.id)
  certificates : Option Certificates
  nonces : Option NonceTable
  noncesV2 : Option (Table NonceRow.key)
  grantsExpiresAt : Bool
  noncesSeenAt : Bool
  deriving DecidableEq

def HostTable.row : HostTable → Option Host
  | .withoutKey row => row.map HostV1.addColumn
  | .withKey row => row

def NonceTable.rows : NonceTable → List NonceRow
  | .byNonce table => table.rows
  | .byScope table => table.rows

namespace Db

def hostRow (db : Db) : Option Host := db.host.bind HostTable.row
def grantRows (db : Db) : List GrantRow := (db.grants.map (·.rows)).getD []
def certificateRows (db : Db) : List CertificateRow :=
  (db.certificates.map (·.table.rows)).getD []
def nonceRows (db : Db) : List NonceRow := (db.nonces.map NonceTable.rows).getD []

end Db

-- ---------------------------------------------------------------------------
-- Statements
-- ---------------------------------------------------------------------------

def schemaVersion : Int := 3

inductive Stmt
  | begin
  | readUserVersion
  | createHost
  | createGrants
  | createGrantsExpiresAt
  | createCertificates
  | createNonces
  | createNoncesSeenAt
  | createNoncesV2
  | copyNonces
  | dropNonces
  | renameNoncesV2
  | addHostKey
  | setUserVersion (version : Int)
  | commit

def insertOrIgnore (table : Table NonceRow.key) (r : NonceRow) : Table NonceRow.key :=
  (table.insert r).getD table

/-- What a statement makes of the database; `none` is an error. All but the
`CREATE` of `nonces_v2` have `IF NOT EXISTS`, and a dropped table takes its
index along. -/
def Stmt.run : Stmt → Db → Option Db
  | .begin, db | .readUserVersion, db | .commit, db => some db
  | .createHost, db => some { db with host := db.host.or (some (.withKey none)) }
  | .createGrants, db => some { db with grants := db.grants.or (some .empty) }
  | .createGrantsExpiresAt, db => db.grants.map fun _ => { db with grantsExpiresAt := true }
  | .createCertificates, db =>
    some { db with certificates := db.certificates.or (some ⟨.empty, unique_empty⟩) }
  | .createNonces, db => some { db with nonces := db.nonces.or (some (.byScope .empty)) }
  | .createNoncesSeenAt, db => db.nonces.map fun _ => { db with noncesSeenAt := true }
  | .createNoncesV2, db =>
    match db.noncesV2 with
    | some _ => none
    | none => some { db with noncesV2 := some .empty }
  | .copyNonces, db =>
    match db.noncesV2, db.nonces with
    | some table, some old =>
      some { db with noncesV2 := some (old.rows.foldl insertOrIgnore table) }
    | _, _ => none
  | .dropNonces, db => db.nonces.map fun _ => { db with nonces := none, noncesSeenAt := false }
  | .renameNoncesV2, db =>
    match db.noncesV2, db.nonces with
    | some table, none => some { db with nonces := some (.byScope table), noncesV2 := none }
    | _, _ => none
  | .addHostKey, db =>
    match db.host with
    | some (.withoutKey row) =>
      some { db with host := some (.withKey (row.map HostV1.addColumn)) }
    | _ => none
  | .setUserVersion version, db => some { db with userVersion := version }

def schema : List Stmt := [.createHost, .createGrants, .createGrantsExpiresAt, .createCertificates,
  .createNonces, .createNoncesSeenAt]

/-- Version 1 keyed nonces by nonce alone, so two scopes could collide. -/
def rekeyNonces : List Stmt := [.createNoncesV2, .copyNonces, .dropNonces, .renameNoncesV2,
  .createNoncesSeenAt]

-- ---------------------------------------------------------------------------
-- migrate
-- ---------------------------------------------------------------------------

section
variable (fails : Nat → Bool)

def exec (st : Stmt) : Sql Db Unit := Sql.exec Stmt.run fails st
def script (sts : List Stmt) : Sql Db Unit := Sql.script Stmt.run fails sts

def userVersion : Sql Db Int := do
  exec fails .readUserVersion
  return (← get).db.userVersion

/-- `hasTable(tx, "nonces")`. A query that fails counts as no table. -/
def hasNonces : Sql Db Bool := fun tx =>
  .ok (if fails tx.executed then false else tx.db.nonces.isSome, ⟨tx.db, tx.executed + 1⟩)

/-- A new database gets the current schema directly. -/
def createNew (version : Int) : Sql Db Int := do
  if version = 0 then
    if ← hasNonces fails then return version
    else
      script fails schema
      return schemaVersion
  else return version

def toVersion2 (version : Int) : Sql Db Int := do
  if version < 2 then
    script fails rekeyNonces
    return 2
  else return version

def toVersion3 (version : Int) : Sql Db Int := do
  if version < 3 then
    exec fails .addHostKey
    return 3
  else return version

def finishMigration (version : Int) : Sql Db Unit := do
  script fails schema
  exec fails (.setUserVersion version)
  exec fails .commit

def upgrade (version : Int) : Sql Db Unit := do
  let version ← toVersion2 fails version
  let version ← toVersion3 fails version
  finishMigration fails version

def migrate : Sql Db Unit := do
  exec fails .begin
  let version ← userVersion fails
  let version ← createNew fails version
  upgrade fails version

end

-- ---------------------------------------------------------------------------
-- What is to be kept
-- ---------------------------------------------------------------------------

def Db.old (version : Int) (row : Option HostV1) (grants : Table GrantRow.id)
    (certificates : Certificates) (nonces : NonceTable) (i j : Bool) : Db :=
  ⟨version, some (.withoutKey row), some grants, some certificates, some nonces, none, i, j⟩

def Db.holding (s : Store) (version : Int) (i j : Bool) : Db :=
  ⟨version, some (.withKey s.host), some s.grants, some s.certificates, some (.byScope s.nonces),
    none, i, j⟩

/-- The files that `migrate` may meet: an empty one, and those of each version
with any rows, with or without the indices. -/
inductive Db.Known : Db → Prop
  | empty : Known ⟨0, none, none, none, none, none, false, false⟩
  | version1 {version} (h : version = 0 ∨ version = 1) (row grants certificates nonces i j) :
    Known (.old version row grants certificates (.byNonce nonces) i j)
  | version2 (row grants certificates nonces i j) :
    Known (.old 2 row grants certificates (.byScope nonces) i j)
  | version3 (s i j) : Known (.holding s 3 i j)

def Db.ofStore (s : Store) : Db := .holding s schemaVersion true true

/-- `s` holds what the file held, and refuses the same nonces. -/
structure Db.Carried (db : Db) (s : Store) : Prop where
  host : s.host = db.hostRow
  grants : s.grants.rows = db.grantRows
  certificates : s.certificates.table.rows = db.certificateRows
  nonces : ∀ r, r ∈ s.nonces.rows ↔ r ∈ db.nonceRows
  remembered : ∀ scope nonce now window,
    (s.pruneNonces now window).insertNonce scope nonce now = none ↔
      ∃ r ∈ db.nonceRows, r.scope = scope ∧ r.nonce = nonce ∧ now - window ≤ r.seenAt

/-- What a migration is meant to do: all of it or nothing, and a second one
does nothing more. -/
structure Db.Migrates (fails : Nat → Bool) (db : Db) : Prop where
  failed : (∃ k, k < (migrate fails).count db ∧ fails k = true) → (migrate fails).settled db = db
  done : (∀ k, k < (migrate fails).count db → fails k = false) →
    ∃ s, (migrate fails).settled db = .ofStore s ∧ db.Carried s ∧
      (migrate fun _ => false).settled (.ofStore s) = .ofStore s

-- ---------------------------------------------------------------------------
-- The rows
-- ---------------------------------------------------------------------------

theorem rows_foldl_insertOrIgnore (rows : List NonceRow) (table : Table NonceRow.key)
    (h : ((table.rows ++ rows).map NonceRow.key).Nodup) :
    (rows.foldl insertOrIgnore table).rows = table.rows ++ rows := by
  induction rows generalizing table with
  | nil => rw [List.foldl_nil, List.append_nil]
  | cons r rows ih =>
    have hsplit : table.rows ++ r :: rows = (table.rows ++ [r]) ++ rows := by
      rw [List.append_assoc, List.singleton_append]
    have hfree : table.get? r.key = none := by
      refine Table.get?_eq_none.mpr fun x hx heq => ?_
      rw [List.map_append, List.nodup_append] at h
      exact h.2.2 _ (List.mem_map_of_mem hx) _ (List.mem_map_of_mem List.mem_cons_self) heq
    cases hins : table.insert r with
    | none => exact absurd hfree (Table.insert_eq_none.mp hins)
    | some table' =>
      have hrows := (Table.insert_eq_some hins).2
      have hone : insertOrIgnore table r = table' := by rw [insertOrIgnore, hins, Option.getD_some]
      rw [hsplit] at h
      rw [List.foldl_cons, hone, ih table' (by rw [hrows]; exact h), hrows, hsplit]

theorem rows_copied (nonces : Table NonceRow.nonce) :
    (nonces.rows.foldl insertOrIgnore Table.empty).rows = nonces.rows := by
  refine rows_foldl_insertOrIgnore nonces.rows .empty ?_
  have hfst : nonces.rows.map NonceRow.nonce = (nonces.rows.map NonceRow.key).map Prod.snd := by
    rw [List.map_map]
    rfl
  have hnodup := nonces.distinct
  rw [hfst] at hnodup
  exact hnodup.of_map Prod.snd

theorem Db.Carried.of_rows {db : Db} {s : Store} (hhost : s.host = db.hostRow)
    (hgrants : s.grants.rows = db.grantRows)
    (hcertificates : s.certificates.table.rows = db.certificateRows)
    (hnonces : s.nonces.rows = db.nonceRows) : db.Carried s := by
  refine ⟨hhost, hgrants, hcertificates, fun r => by rw [hnonces], fun scope nonce now window => ?_⟩
  rw [Store.remember_eq_none, ← hnonces]
  constructor
  · rintro ⟨r, hr, hrecent⟩
    obtain ⟨hmem, hkey⟩ := Table.get?_eq_some.mp hr
    obtain ⟨hscope, hnonce⟩ := Prod.mk.inj hkey
    exact ⟨r, hmem, hscope, hnonce, Int64.not_lt.mp hrecent⟩
  · rintro ⟨r, hmem, rfl, rfl, hrecent⟩
    exact ⟨r, Table.get?_eq_some.mpr ⟨hmem, rfl⟩, Int64.not_lt.mpr hrecent⟩

-- ---------------------------------------------------------------------------
-- The steps
-- ---------------------------------------------------------------------------

open Sql (Comes)

section
variable {fails : Nat → Bool}

theorem exec_comes (st : Stmt) (h : st.run db = some db') (n : Nat) :
    Comes fails n (n + 1) () db' (exec fails st ⟨db, n⟩) :=
  Sql.exec_comes h n

theorem script_comes (sts : List Stmt) (h : Sql.effect Stmt.run sts db = some db') (n : Nat) :
    Comes fails n (n + sts.length) () db' (script fails sts ⟨db, n⟩) :=
  Sql.script_comes h n

theorem userVersion_comes (db : Db) (n : Nat) :
    Comes fails n (n + 1) db.userVersion db (userVersion fails ⟨db, n⟩) :=
  (exec_comes .readUserVersion rfl n).bind (Sql.comes_pure _ _ _) (Nat.le_succ n) (Nat.le_refl _)

theorem hasNonces_comes (db : Db) (h : fails n = false) :
    Comes fails n (n + 1) db.nonces.isSome db (hasNonces fails ⟨db, n⟩) := by
  simp only [hasNonces, h, Bool.false_eq_true, if_false]
  refine .done fun k hle hlt => ?_
  rwa [Nat.le_antisymm (Nat.le_of_lt_succ hlt) hle]

theorem finishMigration_comes (version : Int) (h : Sql.effect Stmt.run schema db = some db')
    (n : Nat) :
    Comes fails n (n + 8) () { db' with userVersion := version }
      (finishMigration fails version ⟨db, n⟩) := by
  have hset : Comes fails (n + 6) (n + 7) () { db' with userVersion := version }
      (exec fails (.setUserVersion version) ⟨db', n + 6⟩) :=
    exec_comes _ rfl _
  have hcommit : Comes fails (n + 7) (n + 8) () { db' with userVersion := version }
      (exec fails .commit ⟨{ db' with userVersion := version }, n + 7⟩) :=
    exec_comes _ rfl _
  exact Comes.bind (p := n + 6) (script_comes schema h n) (hset.bind hcommit (by omega) (by omega))
    (by omega) (by omega)

theorem schema_holding (s : Store) (version : Int) (i j : Bool) :
    Sql.effect Stmt.run schema (.holding s version i j) = some (.holding s version true true) :=
  rfl

theorem upgrade_current (h : Sql.effect Stmt.run schema db = some db') (n : Nat) :
    Comes fails n (n + 8) () { db' with userVersion := schemaVersion }
      (upgrade fails schemaVersion ⟨db, n⟩) :=
  (Sql.comes_pure 3 _ n).bind
    ((Sql.comes_pure 3 _ n).bind (finishMigration_comes 3 h n) (Nat.le_refl n) (by omega))
    (Nat.le_refl n) (by omega)

theorem toVersion3_finish (row grants certificates nonces) (version : Int) (i j : Bool) (n : Nat) :
    Comes fails n (n + 9) () (.ofStore ⟨row.map HostV1.addColumn, grants, certificates, nonces⟩)
      ((do finishMigration fails (← toVersion3 fails 2) : Sql Db Unit)
        ⟨.old version row grants certificates (.byScope nonces) i j, n⟩) := by
  have hcolumn : Comes fails n (n + 1) 3
      (.holding ⟨row.map HostV1.addColumn, grants, certificates, nonces⟩ version i j)
      (toVersion3 fails 2 ⟨.old version row grants certificates (.byScope nonces) i j, n⟩) :=
    (exec_comes .addHostKey rfl n).bind (Sql.comes_pure _ _ _) (by omega) (by omega)
  exact hcolumn.bind (finishMigration_comes 3 (schema_holding _ version i j) (n + 1))
    (by omega) (by omega)

theorem upgrade_version2 (row grants certificates nonces) (version : Int) (i j : Bool) (n : Nat) :
    Comes fails n (n + 9) () (.ofStore ⟨row.map HostV1.addColumn, grants, certificates, nonces⟩)
      (upgrade fails 2 ⟨.old version row grants certificates (.byScope nonces) i j, n⟩) :=
  (Sql.comes_pure 2 _ n).bind (toVersion3_finish row grants certificates nonces version i j n)
    (Nat.le_refl n) (by omega)

theorem upgrade_version1 {version : Int} (h : version = 0 ∨ version = 1)
    (row grants certificates nonces) (i j : Bool) (n : Nat) :
    Comes fails n (n + 14) ()
      (.ofStore ⟨row.map HostV1.addColumn, grants, certificates,
        nonces.rows.foldl insertOrIgnore .empty⟩)
      (upgrade fails version ⟨.old version row grants certificates (.byNonce nonces) i j, n⟩) := by
  have hrekey : Sql.effect Stmt.run rekeyNonces
      (.old version row grants certificates (.byNonce nonces) i j) =
      some (.old version row grants certificates
        (.byScope (nonces.rows.foldl insertOrIgnore .empty)) i true) := rfl
  have hlt : version < 2 := by omega
  have hnonces : Comes fails n (n + 5) 2 (.old version row grants certificates
      (.byScope (nonces.rows.foldl insertOrIgnore .empty)) i true)
      (toVersion2 fails version ⟨.old version row grants certificates (.byNonce nonces) i j,
        n⟩) := by
    rw [toVersion2, if_pos hlt]
    exact (script_comes rekeyNonces hrekey n).bind (Sql.comes_pure _ _ _) (by omega) (Nat.le_refl _)
  exact hnonces.bind (toVersion3_finish row grants certificates _ version i true (n + 5))
    (by omega) (by omega)

-- ---------------------------------------------------------------------------
-- The migration
-- ---------------------------------------------------------------------------

theorem migrate_comes {fails' : Nat → Bool} (hsame : ∀ k, k < 2 → fails k = fails' k)
    (hnew : Comes fails' 2 p v mid (createNew fails db.userVersion ⟨db, 2⟩))
    (hup : Comes fails' p q () db' (upgrade fails v ⟨mid, p⟩)) (hp : 2 ≤ p) (hpq : p ≤ q) :
    Comes fails' 0 q () db' (migrate fails ⟨db, 0⟩) := by
  have hbegin : Comes fails' 0 1 () db (exec fails .begin ⟨db, 0⟩) :=
    (exec_comes .begin rfl 0).congr fun k _ hk => hsame k (by omega)
  have hversion : Comes fails' 1 2 db.userVersion db (userVersion fails ⟨db, 1⟩) :=
    (userVersion_comes db 1).congr fun k _ hk => hsame k (by omega)
  exact hbegin.bind (hversion.bind (hnew.bind hup hp hpq) (by omega) (by omega)) (by omega)
    (by omega)

theorem createNew_found (db : Db) (hv : db.userVersion = 0) (hn : db.nonces.isSome = true)
    (hq : fails 2 = false) :
    Comes fails 2 3 0 db (createNew fails db.userVersion ⟨db, 2⟩) := by
  have hquery := hasNonces_comes db hq
  rw [hn] at hquery
  rw [hv, createNew, if_pos rfl]
  exact hquery.bind (Sql.comes_pure _ _ _) (by omega) (Nat.le_refl _)

theorem createNew_later (db : Db) (hv : db.userVersion ≠ 0) :
    Comes fails 2 2 db.userVersion db (createNew fails db.userVersion ⟨db, 2⟩) := by
  rw [createNew, if_neg hv]
  exact Sql.comes_pure _ _ _

theorem createNew_missing (db db' : Db) {fails' : Nat → Bool} (hv : db.userVersion = 0)
    (hsame : ∀ k, 2 < k → fails k = fails' k)
    (hquery : Comes fails' 2 3 false db (hasNonces fails ⟨db, 2⟩))
    (hschema : Sql.effect Stmt.run schema db = some db') :
    Comes fails' 2 9 schemaVersion db' (createNew fails db.userVersion ⟨db, 2⟩) := by
  have hscript : Comes fails' 3 9 () db' (script fails schema ⟨db, 3⟩) :=
    (script_comes schema hschema 3).congr fun k hk _ => hsame k hk
  rw [hv, createNew, if_pos rfl]
  exact hquery.bind (hscript.bind (Sql.comes_pure _ _ _) (by omega) (Nat.le_refl _)) (by omega)
    (by omega)

theorem migrate_version1 {version : Int} (h : version = 0 ∨ version = 1)
    (hq : version = 0 → fails 2 = false) (row grants certificates nonces i j) :
    ∃ p, Comes fails 0 p () (.ofStore ⟨row.map HostV1.addColumn, grants, certificates,
      nonces.rows.foldl insertOrIgnore .empty⟩)
      (migrate fails ⟨.old version row grants certificates (.byNonce nonces) i j, 0⟩) := by
  rcases h with rfl | rfl
  · have hnew := createNew_found (.old 0 row grants certificates (.byNonce nonces) i j) rfl rfl
      (hq rfl)
    exact ⟨17, migrate_comes (fun _ _ => rfl) hnew
      (upgrade_version1 (.inl rfl) row grants certificates nonces i j 3) (by omega) (by omega)⟩
  · exact ⟨16, migrate_comes (fun _ _ => rfl) (createNew_later _ Int.one_ne_zero)
      (upgrade_version1 (.inr rfl) row grants certificates nonces i j 2) (by omega) (by omega)⟩

theorem migrate_known (h : db.Known) (hq : db.userVersion = 0 → fails 2 = false) :
    ∃ p s, Comes fails 0 p () (.ofStore s) (migrate fails ⟨db, 0⟩) ∧ db.Carried s := by
  cases h with
  | empty =>
    have hnew := createNew_missing _ (.holding .empty 0 true true) rfl (fun _ _ => rfl)
      (hasNonces_comes ⟨0, none, none, none, none, none, false, false⟩ (hq rfl)) rfl
    exact ⟨17, .empty, migrate_comes (fun _ _ => rfl) hnew
      (upgrade_current (schema_holding _ 0 true true) 9) (by omega) (by omega),
      .of_rows rfl rfl rfl rfl⟩
  | version1 hv row grants certificates nonces i j =>
    obtain ⟨p, hcomes⟩ := migrate_version1 hv hq row grants certificates nonces i j
    exact ⟨p, _, hcomes, .of_rows rfl rfl rfl (rows_copied nonces)⟩
  | version2 row grants certificates nonces i j =>
    exact ⟨11, _, migrate_comes (fun _ _ => rfl) (createNew_later _ (show (2 : Int) ≠ 0 by decide))
      (upgrade_version2 row grants certificates nonces 2 i j 2) (by omega) (by omega),
      .of_rows rfl rfl rfl rfl⟩
  | version3 s i j =>
    exact ⟨10, s, migrate_comes (fun _ _ => rfl) (createNew_later _ (show (3 : Int) ≠ 0 by decide))
      (upgrade_current (schema_holding s 3 i j) 2) (by omega) (by omega), .of_rows rfl rfl rfl rfl⟩

/-- Where the query fails the file passes for a new one: no other failure
leaves it at the current version. -/
theorem migrate_unnoticed (h : db.Known) (hv : db.userVersion = 0) (hq : fails 2 = true) :
    ∃ db', Comes (fun k => fails k && k != 2) 0 17 () db' (migrate fails ⟨db, 0⟩) ∧
      db'.userVersion = schemaVersion := by
  have hsame : ∀ k, k ≠ 2 → fails k = (fails k && k != 2) := by
    intro k hk
    rw [bne_iff_ne.mpr hk, Bool.and_true]
  obtain ⟨mid, mid', hschema, hschema'⟩ : ∃ mid mid', Sql.effect Stmt.run schema db = some mid ∧
      Sql.effect Stmt.run schema mid = some mid' := by
    cases h <;> exact ⟨_, _, rfl, rfl⟩
  have hquery : Comes (fun k => fails k && k != 2) 2 3 false db (hasNonces fails ⟨db, 2⟩) := by
    simp only [hasNonces, hq, if_true]
    refine .done fun k hle hlt => ?_
    obtain rfl : k = 2 := by omega
    exact Bool.and_false _
  have hnew := createNew_missing db mid hv (fun k hk => hsame k (by omega)) hquery hschema
  have hup := (upgrade_current hschema' 9).congr fun k hk _ => hsame k (by omega)
  exact ⟨_, migrate_comes (fun k hk => hsame k (by omega)) hnew hup (by omega) (by omega), rfl⟩

end

/-- The query for the table of nonces fails, on a file without a version, and
nothing else does. -/
def Unnoticed (fails : Nat → Bool) (db : Db) : Prop :=
  db.userVersion = 0 ∧ fails 2 = true ∧ ∀ k, k < 17 → k ≠ 2 → fails k = false

/-- A migration carries everything over or leaves the file alone, exactly
unless the query for the table of nonces fails unnoticed. -/
theorem migrates_iff (fails : Nat → Bool) (h : db.Known) :
    db.Migrates fails ↔ ¬ Unnoticed fails db := by
  by_cases hquery : db.userVersion = 0 ∧ fails 2 = true
  · obtain ⟨hv, hq⟩ := hquery
    obtain ⟨db', hcomes, hversion⟩ := migrate_unnoticed h hv hq
    cases hm : migrate fails ⟨db, 0⟩ with
    | error k =>
      -- Something else failed too, and the transaction was rolled back.
      rw [hm] at hcomes
      cases hcomes with
      | failed _ hlt hfail =>
        obtain ⟨hk, hne⟩ := Bool.and_eq_true_iff.mp hfail
        refine iff_of_true ⟨fun _ => by rw [Sql.settled, hm], fun hok => ?_⟩ fun hun => ?_
        · rw [hok k (by rw [Sql.count, hm]; exact Nat.lt_succ_self k)] at hk
          cases hk
        · rw [hun.2.2 k hlt (bne_iff_ne.mp hne)] at hk
          cases hk
    | ok r =>
      rw [hm] at hcomes
      cases hcomes with
      | done hok =>
        refine iff_of_false (fun hmig => ?_) fun hnot => hnot ⟨hv, hq, fun k hlt hne => ?_⟩
        · have hsettled : (migrate fails).settled db = db' := by rw [Sql.settled, hm]
          have hcount : (migrate fails).count db = 17 := by rw [Sql.count, hm]
          have hsame := hmig.failed ⟨2, by rw [hcount]; decide, hq⟩
          rw [← hsettled, hsame, hv] at hversion
          cases hversion
        · have hother := hok k (Nat.zero_le k) hlt
          rwa [bne_iff_ne.mpr hne, Bool.and_true] at hother
  · have hq : db.userVersion = 0 → fails 2 = false := by
      intro hv
      exact Bool.eq_false_iff.mpr fun hf => hquery ⟨hv, hf⟩
    obtain ⟨p, s, hcomes, hcarried⟩ := migrate_known h hq
    refine iff_of_true ⟨hcomes.settled_failed, fun hok =>
      ⟨s, hcomes.settled_done hok, hcarried, ?_⟩⟩
      fun hun => hquery ⟨hun.1, hun.2.1⟩
    have hagain : Comes (fun _ => false) 0 10 () (.ofStore s)
        (migrate (fun _ => false) ⟨.ofStore s, 0⟩) :=
      migrate_comes (fun _ _ => rfl) (createNew_later _ (show (3 : Int) ≠ 0 by decide))
        (upgrade_current (schema_holding s 3 true true) 2) (by omega) (by omega)
    exact hagain.settled_done fun _ _ => rfl

namespace Sample

def oldHost : HostV1 := ⟨lit "h_x", lit "ubuntu", lit "box", 22, 1⟩

def oldNonces : Table NonceRow.nonce := ⟨[⟨lit "redeem", [0xaa], 100⟩], List.nodup_singleton _⟩

/-- A file of version 1 as the first releases left it, without a version. -/
def versionOne : Db :=
  .old 0 (some oldHost) .empty ⟨.empty, unique_empty⟩ (.byNonce oldNonces) false true

theorem versionOne_known : versionOne.Known := .version1 (.inl rfl) ..

def queryFails (k : Nat) : Bool := k == 2

end Sample

theorem migrates_sample : Sample.versionOne.Known ∧ Sample.versionOne.Migrates fun _ => false := by
  refine ⟨Sample.versionOne_known, (migrates_iff _ Sample.versionOne_known).mpr ?_⟩
  rintro ⟨-, hq, -⟩
  cases hq

/-- The file comes out with the current version and the tables of version 1. -/
theorem migration_unnoticed : Sample.versionOne.Known ∧
    (migrate Sample.queryFails).settled Sample.versionOne =
      .old 3 (some Sample.oldHost) .empty ⟨.empty, .nil⟩ (.byNonce Sample.oldNonces) true true ∧
    ¬ Sample.versionOne.Migrates Sample.queryFails := by
  have hsettled : (migrate Sample.queryFails).settled Sample.versionOne =
      .old 3 (some Sample.oldHost) .empty ⟨.empty, .nil⟩ (.byNonce Sample.oldNonces) true true := by
    decide +kernel
  refine ⟨Sample.versionOne_known, hsettled, fun h => ?_⟩
  have hsame := h.failed ⟨2, by decide +kernel, rfl⟩
  rw [hsettled] at hsame
  cases congrArg Db.userVersion hsame

end Grantd.Signer
