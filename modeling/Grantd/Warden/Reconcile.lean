import Grantd.Warden.Model
import Mathlib.Data.List.Dedup
import Mathlib.Data.List.Sort

/-!
# Reconcile

`Reconcile`, `persistLocked` and `loadState` of go/warden/warden.go. The state
file is the list of grants its JSON stands for. What `Reconcile` tracks is
settled by the ids it finds, and what becomes of each grant by the signer's
answer; the file only adds what it recorded.
-/

namespace Grantd.Warden

open Base
open Signer (LifetimeGrant)

-- ---------------------------------------------------------------------------
-- The state file
-- ---------------------------------------------------------------------------

structure SavedGrant where
  id : GoString
  deadline : Int64
  state : GrantState
  reason : GoString
  sessions : Option (Table Session.pid)
  remaining : List Int

/-- What `json.Unmarshal` finds under `grants`: the elements may be null. -/
inductive StateFile
  | missing
  | unreadable
  | doc (grants : List (Option SavedGrant))

def StateFile.grants : StateFile → List SavedGrant
  | .missing | .unreadable => []
  | .doc grants => grants.reduceOption

def Grant.saved (g : Grant) : SavedGrant :=
  ⟨g.id, g.deadline, g.state, g.reason, some g.sessions, g.remaining⟩

/-- The object `json.Unmarshal` makes, with the sessions `Reconcile` fills in. -/
def SavedGrant.load (g : SavedGrant) : Grant where
  id := g.id
  deadline := g.deadline
  state := g.state
  reason := g.reason
  sessions := g.sessions.getD .empty
  remaining := g.remaining
  deadlineMono := none
  termSent := false
  closingSince := 0

/-- What `persistLocked` writes. -/
def save (w : Warden) : StateFile :=
  .doc (((w.grants.rows.map fun e => (w.heap e.addr).saved).insertionSort
    fun a b => a.id ≤ b.id).map some)

/-- `loadState`: a later element takes the place of an earlier one. -/
def loadState (f : StateFile) : Table SavedGrant.id :=
  (f.grants.filter fun g => Protocol.validGrantID g.id).foldl .put .empty

-- ---------------------------------------------------------------------------
-- Reconcile
-- ---------------------------------------------------------------------------

/-- What `Reconcile` reads: the answer to its ping, the directories under the
parent slice, the wall clock once, and for every grant the signer's answer, the
monotonic clock and the start times of processes. -/
structure Recovery where
  ping : Bool
  dirs : List GoString
  now : Int64
  answer : GoString → Answer
  mono : GoString → Int
  alive : GoString → Int → Option UInt64

inductive ReconcileError
  | signerUnreachable
  deriving DecidableEq, Repr

section
variable (cfg : Config) (r : Recovery)

def discoverGrantID (name : GoString) : Option GoString :=
  let stem := sliceStem cfg.slice ++ lit "-"
  if !stem.isPrefixOf name || !(lit ".slice").isSuffixOf name then none
  else
    let id := sliceStem (name.drop stem.length)
    if Protocol.validGrantID id then some id else none

def discoverGrantIDs (dirs : List GoString) : List GoString := dirs.filterMap (discoverGrantID cfg)

def startClosing (reason : GoString) (g : Grant) : Grant :=
  { g with state := .closing, reason, termSent := false }

def reconcileGrant (id : GoString) (loaded : Option SavedGrant) : Grant :=
  let g := (loaded.map SavedGrant.load).getD (newGrant id)
  match r.answer id with
  | .error .unknown => startClosing (lit "unknown to the signer after restart") g
  | .error .other => startClosing (lit "could not be verified after restart") g
  | .ok info =>
    if info.revokedAt.isSome then startClosing (lit "revoked") g
    else if info.expiresAt ≤ r.now then startClosing (lit "expired") g
    else { setDeadline info.expiresAt (r.mono id) (timeLeft info.expiresAt r.now) g with
      state := .opened
      sessions := g.sessions.delete fun sess => r.alive id sess.pid ≠ some sess.startTime }

def reconcileIDs (f : StateFile) : List GoString :=
  ((loadState f).rows.map (·.id) ++ discoverGrantIDs cfg r.dirs).dedup

def reconcileGrants (f : StateFile) : List Grant :=
  (reconcileIDs cfg r f).map fun id => reconcileGrant r id ((loadState f).get? id)

theorem reconcileGrant_id {id : GoString} {loaded : Option SavedGrant}
    (h : ∀ g ∈ loaded, g.id = id) : (reconcileGrant r id loaded).id = id := by
  have hbase : ((loaded.map SavedGrant.load).getD (newGrant id)).id = id := by
    cases loaded with
    | none => rfl
    | some g => exact h g rfl
  unfold reconcileGrant
  split
  · exact hbase
  · exact hbase
  · split
    · exact hbase
    · split <;> exact hbase

theorem reconcileGrants_ids (f : StateFile) :
    (reconcileGrants cfg r f).map (·.id) = reconcileIDs cfg r f := by
  simp only [reconcileGrants, List.map_map]
  refine (List.map_congr_left fun id _ => ?_).trans (List.map_id _)
  exact reconcileGrant_id r fun g hg => Table.key_get? hg

end

/-- New objects, and a map of them in place of the old one. -/
def adopt (w : Warden) (gs : List Grant) (h : (gs.map (·.id)).Nodup) : Warden :=
  { w with
    heap := fun a => if w.next ≤ a then gs[a - w.next]?.getD (w.heap a) else w.heap a
    next := w.next + gs.length
    grants := ⟨(gs.zipIdx w.next).map fun p => ⟨p.1.id, p.2⟩, by
      have hids : ((gs.zipIdx w.next).map fun p => p.1.id) = gs.map (·.id) := by
        rw [← List.zipIdx_map_fst w.next gs, List.map_map]
        simp
      simpa [Function.comp_def, hids] using h⟩
    ready := true }

def reconcile (cfg : Config) (r : Recovery) (f : StateFile) (w : Warden) :
    Except ReconcileError Warden :=
  if r.ping then
    pure (adopt w (reconcileGrants cfg r f) (by
      rw [reconcileGrants_ids]
      exact List.nodup_dedup _))
  else throw .signerUnreachable

-- ---------------------------------------------------------------------------
-- What is tracked
-- ---------------------------------------------------------------------------

section
variable {cfg : Config} {r : Recovery} {f : StateFile}

theorem sliceStem_append (s : GoString) : sliceStem (s ++ lit ".slice") = s := by
  have hlen : (lit ".slice").length = 6 := by decide
  simp only [sliceStem, List.isSuffixOf_iff_suffix, List.suffix_append, if_true,
    List.length_append, hlen, Nat.add_sub_cancel, List.take_left]

theorem discoverGrantID_eq_some {name id : GoString} : discoverGrantID cfg name = some id ↔
    Protocol.validGrantID id = true ∧ name = sliceUnit cfg id := by
  constructor
  · intro h
    simp only [discoverGrantID] at h
    split at h
    · cases h
    · rename_i hname
      simp only [Bool.or_eq_true, Bool.not_eq_true', not_or, Bool.not_eq_false,
        List.isPrefixOf_iff_prefix, List.isSuffixOf_iff_suffix] at hname
      obtain ⟨⟨rest, rfl⟩, hsuffix⟩ := hname
      rw [List.drop_left] at h
      split at h
      · rename_i hvalid
        cases h
        refine ⟨hvalid, ?_⟩
        have hin : lit ".slice" <:+ rest := by
          by_cases hin : lit ".slice" <:+ rest
          · exact hin
          · -- An id that is the whole rest is long enough to hold the ending.
            have hlen := Protocol.length_of_matchesID hvalid
            simp only [sliceStem, List.isSuffixOf_iff_suffix, hin, if_false] at hlen
            exact List.suffix_of_suffix_length_le hsuffix (List.suffix_append ..)
              (by rw [hlen]; decide)
        obtain ⟨id, rfl⟩ := hin
        rw [sliceStem_append]
        simp only [sliceUnit, List.append_assoc]
      · cases h
  · rintro ⟨hvalid, rfl⟩
    have hname : sliceUnit cfg id = sliceStem cfg.slice ++ lit "-" ++ (id ++ lit ".slice") :=
      List.append_assoc ..
    have hsuffix : lit ".slice" <:+ sliceUnit cfg id := List.suffix_append ..
    simp only [discoverGrantID, List.isSuffixOf_iff_suffix.mpr hsuffix]
    rw [hname, List.drop_left, sliceStem_append, if_neg (by simp), if_pos hvalid]

theorem mem_discoverGrantIDs {id : GoString} : id ∈ discoverGrantIDs cfg dirs ↔
    Protocol.validGrantID id = true ∧ sliceUnit cfg id ∈ dirs := by
  simp only [discoverGrantIDs, List.mem_filterMap, discoverGrantID_eq_some]
  constructor
  · rintro ⟨name, hname, hvalid, rfl⟩
    exact ⟨hvalid, hname⟩
  · rintro ⟨hvalid, hname⟩
    exact ⟨_, hname, hvalid, rfl⟩

theorem mem_loadState {id : GoString} : (∃ g ∈ (loadState f).rows, g.id = id) ↔
    Protocol.validGrantID id = true ∧ ∃ g ∈ f.grants, g.id = id := by
  have hsome : (∃ g ∈ (loadState f).rows, g.id = id) ↔ ((loadState f).get? id).isSome = true := by
    simp only [Option.isSome_iff_exists, Table.get?_eq_some]
  rw [hsome, loadState, Table.get?_foldl_put, Table.get?_empty, Option.or_none, List.find?_isSome]
  simp only [List.mem_reverse, List.mem_filter, decide_eq_true_eq]
  constructor
  · rintro ⟨g, ⟨hg, hvalid⟩, rfl⟩
    exact ⟨hvalid, g, hg, rfl⟩
  · rintro ⟨hvalid, g, hg, rfl⟩
    exact ⟨g, ⟨hg, hvalid⟩, rfl⟩

theorem loadState_get? {id : GoString} (hf : (f.grants.map (·.id)).Nodup) :
    (loadState f).get? id = some g ↔
      (g ∈ f.grants ∧ Protocol.validGrantID g.id = true) ∧ g.id = id := by
  rw [loadState, Table.get?_foldl_put_empty, List.mem_filter]
  exact hf.sublist (List.filter_sublist.map _)

theorem mem_reconcileIDs {id : GoString} : id ∈ reconcileIDs cfg r f ↔
    Protocol.validGrantID id = true ∧
      (sliceUnit cfg id ∈ r.dirs ∨ ∃ g ∈ f.grants, g.id = id) := by
  rw [reconcileIDs, List.mem_dedup, List.mem_append, List.mem_map, mem_loadState,
    mem_discoverGrantIDs, ← and_or_left, or_comm]

-- ---------------------------------------------------------------------------
-- What becomes of a grant
-- ---------------------------------------------------------------------------

def Recovery.Live (r : Recovery) (id : GoString) (info : LifetimeGrant) : Prop :=
  r.answer id = .ok info ∧ info.revokedAt = none ∧ r.now < info.expiresAt

def found (id : GoString) (loaded : Option SavedGrant) : Grant :=
  (loaded.map SavedGrant.load).getD (newGrant id)

theorem reconcileGrant_cases (id : GoString) (loaded : Option SavedGrant) :
    (∃ info, r.Live id info ∧ reconcileGrant r id loaded =
      { setDeadline info.expiresAt (r.mono id) (timeLeft info.expiresAt r.now)
        (found id loaded) with
        state := .opened
        sessions := (found id loaded).sessions.delete fun sess =>
          r.alive id sess.pid ≠ some sess.startTime }) ∨
    (∀ info, ¬ r.Live id info) ∧
      ∃ reason, reconcileGrant r id loaded = startClosing reason (found id loaded) := by
  unfold reconcileGrant Recovery.Live
  split
  · rename_i hans
    exact .inr ⟨by simp [hans], _, rfl⟩
  · rename_i hans
    exact .inr ⟨by simp [hans], _, rfl⟩
  · rename_i info hans
    split
    · rename_i hrev
      refine .inr ⟨?_, _, rfl⟩
      rintro info' ⟨heq, hnone, -⟩
      cases hans.symm.trans heq
      simp [hnone] at hrev
    · rename_i hrev
      split
      · rename_i hexp
        refine .inr ⟨?_, _, rfl⟩
        rintro info' ⟨heq, -, hlive⟩
        cases hans.symm.trans heq
        exact Int64.not_le.mpr hlive hexp
      · rename_i hexp
        exact .inl ⟨info, ⟨hans, by simpa using hrev, Int64.not_le.mp hexp⟩, rfl⟩

section
variable {id : GoString} {loaded : Option SavedGrant}

theorem reconcileGrant_opened :
    (reconcileGrant r id loaded).state = .opened ↔ ∃ info, r.Live id info := by
  rcases reconcileGrant_cases (r := r) id loaded with ⟨info, hlive, heq⟩ | ⟨hdead, reason, heq⟩
  · exact ⟨fun _ => ⟨info, hlive⟩, fun _ => by rw [heq]⟩
  · refine ⟨fun hopen => ?_, fun ⟨info, hlive⟩ => absurd hlive (hdead info)⟩
    rw [heq] at hopen
    cases hopen

theorem reconcileGrant_deadline (h : r.Live id info) :
    (reconcileGrant r id loaded).deadline = info.expiresAt := by
  rcases reconcileGrant_cases (r := r) id loaded with ⟨info', hlive, heq⟩ | ⟨hdead, -⟩
  · cases h.1.symm.trans hlive.1
    rw [heq]
    rfl
  · exact absurd h (hdead info)

theorem reconcileGrant_closing (h : (reconcileGrant r id loaded).state ≠ .opened) :
    (reconcileGrant r id loaded).state = .closing ∧
      (reconcileGrant r id loaded).termSent = false := by
  rcases reconcileGrant_cases (r := r) id loaded with ⟨info, -, heq⟩ | ⟨-, reason, heq⟩
  · exact absurd (by rw [heq]) h
  · rw [heq]
    exact ⟨rfl, rfl⟩

theorem reconcileGrant_sessions (h : (reconcileGrant r id loaded).state = .opened) :
    sess ∈ (reconcileGrant r id loaded).sessions.rows ↔
      sess ∈ (found id loaded).sessions.rows ∧ r.alive id sess.pid = some sess.startTime := by
  rcases reconcileGrant_cases (r := r) id loaded with ⟨info, -, heq⟩ | ⟨-, reason, heq⟩
  · rw [heq]
    simp [Table.delete, List.mem_filter]
  · rw [heq] at h
    cases h

theorem mem_found_sessions (hf : (f.grants.map (·.id)).Nodup)
    (hvalid : Protocol.validGrantID id = true) :
    sess ∈ (found id ((loadState f).get? id)).sessions.rows ↔
      ∃ g ∈ f.grants, g.id = id ∧ ∃ tab ∈ g.sessions, sess ∈ tab.rows := by
  cases hget : (loadState f).get? id with
  | none =>
    refine iff_of_false List.not_mem_nil ?_
    rintro ⟨g, hg, rfl, -⟩
    have := (loadState_get? hf).mpr ⟨⟨hg, hvalid⟩, rfl⟩
    rw [hget] at this
    cases this
  | some g =>
    obtain ⟨⟨hg, -⟩, rfl⟩ := (loadState_get? hf).mp hget
    have hmem : sess ∈ (found g.id (some g)).sessions.rows ↔ ∃ tab ∈ g.sessions,
        sess ∈ tab.rows := by
      cases hsess : g.sessions with
      | none => simp [found, SavedGrant.load, hsess, Table.empty]
      | some tab => simp [found, SavedGrant.load, hsess]
    rw [hmem]
    constructor
    · exact fun htab => ⟨g, hg, rfl, htab⟩
    · rintro ⟨g', hg', hid, htab⟩
      cases List.inj_on_of_nodup_map hf hg' hg hid
      exact htab

end

theorem mem_adopt {w : Warden} {gs : List Grant} {h : (gs.map (·.id)).Nodup} {e : Entry} :
    e ∈ (adopt w gs h).grants.rows ↔
      w.next ≤ e.addr ∧ ∃ g, gs[e.addr - w.next]? = some g ∧ g.id = e.id := by
  simp only [adopt, List.mem_map, Prod.exists, List.mem_zipIdx_iff_le_and_getElem?_sub]
  constructor
  · rintro ⟨g, a, ⟨hle, hget⟩, rfl⟩
    exact ⟨hle, g, hget, rfl⟩
  · rintro ⟨hle, g, hget, hid⟩
    exact ⟨g, e.addr, ⟨hle, hget⟩, by rw [hid]⟩

theorem adopt_heap {w : Warden} {gs : List Grant} {h : (gs.map (·.id)).Nodup}
    (hle : w.next ≤ a) (hget : gs[a - w.next]? = some g) : (adopt w gs h).heap a = g := by
  simp [adopt, hle, hget]

/-- The map `Reconcile` leaves: one entry, with an object of its own, for every
id that is found. -/
theorem reconcile_eq_ok {w w' : Warden} (h : reconcile cfg r f w = .ok w') :
    r.ping = true ∧ w'.ready = true ∧ w'.pending = w.pending ∧
    w'.next = w.next + (reconcileIDs cfg r f).length ∧
    (∀ e, e ∈ w'.grants.rows ↔ w.next ≤ e.addr ∧
      (reconcileIDs cfg r f)[e.addr - w.next]? = some e.id) ∧
    ∀ e ∈ w'.grants.rows,
      w'.heap e.addr = reconcileGrant r e.id ((loadState f).get? e.id) := by
  unfold reconcile at h
  split at h
  · rename_i hping
    cases h
    have hids (k : Nat) (id : GoString) : (reconcileIDs cfg r f)[k]? = some id ↔
        ∃ g, (reconcileGrants cfg r f)[k]? = some g ∧ g.id = id := by
      rw [← reconcileGrants_ids, List.getElem?_map, Option.map_eq_some_iff]
    refine ⟨hping, rfl, rfl, ?_, fun e => ?_, fun e he => ?_⟩
    · simp [adopt, reconcileGrants]
    · rw [mem_adopt, hids]
    · obtain ⟨hle, g, hget, hid⟩ := mem_adopt.mp he
      rw [adopt_heap hle hget]
      rw [reconcileGrants, List.getElem?_map, Option.map_eq_some_iff] at hget
      obtain ⟨id, -, rfl⟩ := hget
      rw [reconcileGrant_id r fun g hg => Table.key_get? hg] at hid
      rw [hid]
  · cases h

end

end Grantd.Warden
