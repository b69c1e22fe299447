import Grantd.Base.Machine
import Grantd.Service.Dns

/-!
# Synchronisations of one name

`syncDns` of cloudflare/src/durable-objects/host.ts awaits the API between its
steps, and the object serves other requests meanwhile. A synchronisation is a
task: it lists the records of the name, writes one, deletes those of the other
family one by one and updates `dns_name` and `dns_ip`. Every call succeeds.
`rendezvous` reads the row first and compares `dns_ip` with the client address
after it has awaited the signature check and the alarm. Requests of hosts that
have not signed the name synchronise nothing and are left out.
-/

namespace Grantd.Service

open Base

inductive SyncPhase
  | started
  | listed (existing : List CfRecord)
  | written (pending : List JsString)
  deriving DecidableEq, Repr

structure SyncTask where
  ip : JsString
  type : RecordType
  phase : SyncPhase
  deriving DecidableEq, Repr

/-- A `rendezvous` that has not come to its comparison: the client address and
the `dns_ip` of the row it has read. -/
structure Visit where
  ip : JsString
  dnsIP : Option JsString
  deriving DecidableEq, Repr

structure SyncState where
  zone : Zone
  dnsName : Option JsString
  dnsIP : Option JsString
  tasks : List SyncTask
  visits : List Visit
  deriving DecidableEq, Repr

/-- A `register` comes to its `syncDns`; a `rendezvous` reads the row, is turned
away or makes its comparison; a task takes its next step. -/
inductive SyncEvent
  | register (ip : JsString)
  | arrive (ip : JsString)
  | refuse (j : Nat)
  | compare (j : Nat)
  | list (i : Nat)
  | write (i : Nat) (newID : JsString)
  | delete (i : Nat)
  | update (i : Nat)
  deriving DecidableEq, Repr

namespace SyncState

/-- An address without a record type ends `syncHostRecord` before its first
call. -/
def start (ip : JsString) (s : SyncState) : SyncState :=
  match recordTypeFor ip with
  | none => s
  | some type => { s with tasks := s.tasks ++ [⟨ip, type, .started⟩] }

def advance (i : Nat) (t : SyncTask) (phase : SyncPhase) (s : SyncState) : SyncState :=
  { s with tasks := s.tasks.set i { t with phase } }

def step (name : JsString) (s : SyncState) : SyncEvent → Option SyncState
  | .register ip => some (s.start ip)
  | .arrive ip => some { s with visits := s.visits ++ [⟨ip, s.dnsIP⟩] }
  | .refuse j => s.visits[j]?.map fun _ => { s with visits := s.visits.eraseIdx j }
  | .compare j => s.visits[j]?.map fun v =>
      let s := { s with visits := s.visits.eraseIdx j }
      if v.dnsIP = some v.ip then s else s.start v.ip
  | .list i => do
    let t ← s.tasks[i]?
    match t.phase with
    | .started => some (s.advance i t (.listed (Service.listed name s.zone)))
    | _ => none
  | .write i newID => do
    let t ← s.tasks[i]?
    match t.phase with
    | .listed existing =>
      -- The API gives a new record an id that no record has.
      if newID ∈ s.zone.map CfRecord.id then none
      else some { s.advance i t (.written ((stale t.type existing).map CfRecord.id)) with
        zone := (writeCall t.type name t.ip existing).apply newID s.zone }
    | _ => none
  | .delete i => do
    let t ← s.tasks[i]?
    match t.phase with
    | .written (id :: pending) =>
      some { s.advance i t (.written pending) with
        zone := DnsCall.apply [] (.delete id) s.zone }
    | _ => none
  | .update i => do
    let t ← s.tasks[i]?
    match t.phase with
    | .written [] => some { s with
        dnsName := some name, dnsIP := some t.ip, tasks := s.tasks.eraseIdx i }
    | _ => none

end SyncState

def syncing (name : JsString) : Machine SyncState SyncEvent where
  Init s := (s.zone.map CfRecord.id).Nodup ∧ s.zone.filter (·.name == name) = [] ∧
    s.dnsName = none ∧ s.dnsIP = none ∧ s.tasks = [] ∧ s.visits = []
  step := SyncState.step name

/-- No task is in progress when a `register` comes to its `syncDns` or a
`rendezvous` to its comparison, and what that one compares with is still in the
row. -/
def Alone (s : SyncState) : SyncEvent → Prop
  | .register _ => s.tasks = []
  | .compare j => s.tasks = [] ∧ ∀ v ∈ s.visits[j]?, v.dnsIP = s.dnsIP
  | _ => True

instance (s : SyncState) (e : SyncEvent) : Decidable (Alone s e) :=
  match e with
  | .register _ => inferInstanceAs (Decidable (s.tasks = []))
  | .compare j =>
    inferInstanceAs (Decidable (s.tasks = [] ∧ ∀ v ∈ s.visits[j]?, v.dnsIP = s.dnsIP))
  | .arrive _ | .refuse _ | .list _ | .write .. | .delete _ | .update _ =>
    inferInstanceAs (Decidable True)

-- ---------------------------------------------------------------------------
-- One task at a time
-- ---------------------------------------------------------------------------

/-- The row names the one address of the name, if it names anything. -/
structure Pointed (name : JsString) (zone : Zone) (dnsName dnsIP : Option JsString) : Prop where
  ids : (zone.map CfRecord.id).Nodup
  addresses : ∀ r ∈ zone, r.name = name → isAddress r.type = true
  single : (zone.filter (isAddressOf name)).length ≤ 1
  named : ∀ n, dnsName = some n → n = name
  address : dnsName.isSome = true ∨ dnsIP.isSome = true →
    ∃ r, zone.filter (isAddressOf name) = [r] ∧ dnsIP = some r.content

section
variable {name : JsString} {zone : Zone} {dnsName dnsIP : Option JsString}

theorem Pointed.page (h : Pointed name zone dnsName dnsIP) :
    (zone.filter (·.name == name)).length ≤ 100 := by
  have hsame : zone.filter (·.name == name) = zone.filter (isAddressOf name) := by
    refine List.filter_congr fun r hr => ?_
    by_cases hn : r.name = name
    · simp [isAddressOf, hn, h.addresses r hr hn]
    · simp [isAddressOf, hn]
  rw [hsame]
  exact Nat.le_trans h.single (by decide)

theorem nodup_syncedZone (hids : (zone.map CfRecord.id).Nodup)
    (hnew : newID ∉ zone.map CfRecord.id) :
    ((syncedZone type newID name ip zone).map CfRecord.id).Nodup := by
  refine List.Nodup.sublist (List.filter_sublist.map CfRecord.id) ?_
  unfold writeCall
  split
  · rename_i mine _
    have hkept : (zone.map (replaced type name ip mine)).map CfRecord.id =
        zone.map CfRecord.id := by
      rw [List.map_map]
      refine List.map_congr_left fun r _ => ?_
      rw [Function.comp_apply, replaced]
      split
      · rename_i hid
        exact hid.symm
      · rfl
    exact hkept ▸ hids
  · rw [DnsCall.apply, List.map_append]
    refine List.nodup_append.mpr ⟨hids, List.nodup_singleton _, ?_⟩
    rintro a ha b hb rfl
    rw [List.mem_singleton.mp hb] at ha
    exact hnew ha

theorem Pointed.synced (h : Pointed name zone dnsName dnsIP) (type : RecordType) (ip : JsString)
    (hnew : newID ∉ zone.map CfRecord.id) :
    Pointed name (syncedZone type newID name ip zone) (some name) (some ip) := by
  have hsub : (zone.filter (isTyped type name)).length ≤ 1 := by
    have hmono : (zone.filter (isTyped type name)).Sublist (zone.filter (isAddressOf name)) := by
      refine List.monotone_filter_right _ fun r ht => ?_
      rw [isAddressOf_eq type, ht, Bool.true_or]
    exact Nat.le_trans hmono.length_le h.single
  obtain ⟨id, hone⟩ := address_syncedZone type ip h.ids hnew h.page hsub
  have hother := (addresses_syncedZone type ip h.ids hnew h.page).2
  refine ⟨nodup_syncedZone h.ids hnew, fun r hr hname => ?_, by rw [hone]; rfl,
    fun n hn => (Option.some.inj hn).symm, fun _ => ⟨_, hone, rfl⟩⟩
  by_contra hno
  have hmem : r ∈ (syncedZone type newID name ip zone).filter fun r => !isAddressOf name r :=
    List.mem_filter.mpr ⟨hr, by simp [isAddressOf, hno]⟩
  rw [hother] at hmem
  exact hno (h.addresses r (List.mem_filter.mp hmem).1 hname)

end

/-- What holds while a task runs alone. Once it has written, the zone is what
the whole synchronisation makes of the zone it has listed, with what is still
to be deleted. -/
def Progress (name : JsString) (s : SyncState) (t : SyncTask) : Prop :=
  match t.phase with
  | .started => Pointed name s.zone s.dnsName s.dnsIP
  | .listed existing => Pointed name s.zone s.dnsName s.dnsIP ∧ existing = listed name s.zone
  | .written pending => ∃ zone newID, Pointed name zone s.dnsName s.dnsIP ∧
      newID ∉ zone.map CfRecord.id ∧
      (s.zone.filter fun r => !pending.contains r.id) = syncedZone t.type newID name t.ip zone

inductive Sequential (name : JsString) (s : SyncState) : Prop
  | idle : s.tasks = [] → Pointed name s.zone s.dnsName s.dnsIP → Sequential name s
  | busy (t : SyncTask) : s.tasks = [t] → Progress name s t → Sequential name s

theorem Sequential.pointed (h : Sequential name s) (hnone : s.tasks = []) :
    Pointed name s.zone s.dnsName s.dnsIP := by
  cases h with
  | idle _ hp => exact hp
  | busy t hone => rw [hnone] at hone; cases hone

theorem Sequential.visits {s : SyncState} (h : Sequential name s) (visits : List Visit) :
    Sequential name { s with visits } := by
  cases h with
  | idle hnone hp => exact .idle hnone hp
  | busy t hone hp => exact .busy t hone hp

theorem Sequential.start {s : SyncState} (h : Sequential name s) (hnone : s.tasks = []) :
    Sequential name (s.start ip) := by
  unfold SyncState.start
  split
  · exact h
  · exact .busy ⟨ip, _, .started⟩ (by rw [hnone]; rfl) (h.pointed hnone)

theorem Sequential.task {s : SyncState} (h : Sequential name s) (ht : s.tasks[i]? = some t) :
    i = 0 ∧ s.tasks = [t] ∧ Progress name s t := by
  cases h with
  | idle hnone =>
    rw [hnone] at ht
    cases ht
  | busy t hone hp =>
    rw [hone] at ht
    cases i with
    | zero =>
      cases ht
      exact ⟨rfl, hone, hp⟩
    | succ i => cases ht

theorem tasks_advance {s : SyncState} (h : s.tasks = [t]) (phase : SyncPhase) :
    (s.advance 0 t phase).tasks = [{ t with phase }] := by
  rw [SyncState.advance, h]
  rfl

theorem Sequential.step {s s' : SyncState} (h : Sequential name s) (hok : Alone s e)
    (hstep : SyncState.step name s e = some s') : Sequential name s' := by
  cases e with
  | register ip =>
    cases hstep
    exact h.start hok
  | arrive ip =>
    cases hstep
    exact h.visits _
  | refuse j =>
    obtain ⟨v, -, rfl⟩ := Option.map_eq_some_iff.mp hstep
    exact h.visits _
  | compare j =>
    obtain ⟨v, -, rfl⟩ := Option.map_eq_some_iff.mp hstep
    dsimp only
    split
    · exact h.visits _
    · exact (h.visits _).start hok.1
  | list i =>
    simp only [SyncState.step, bind, Option.bind_eq_some_iff] at hstep
    obtain ⟨t, ht, hstep⟩ := hstep
    obtain ⟨rfl, hone, hp⟩ := h.task ht
    split at hstep
    · rename_i hphase
      cases hstep
      simp only [Progress, hphase] at hp
      exact .busy _ (tasks_advance hone _) ⟨hp, rfl⟩
    · cases hstep
  | write i newID =>
    simp only [SyncState.step, bind, Option.bind_eq_some_iff] at hstep
    obtain ⟨t, ht, hstep⟩ := hstep
    obtain ⟨rfl, hone, hp⟩ := h.task ht
    split at hstep
    · rename_i existing hphase
      simp only [Progress, hphase] at hp
      obtain ⟨hp, rfl⟩ := hp
      split at hstep
      · cases hstep
      · rename_i hnew
        cases hstep
        refine .busy _ (tasks_advance hone _) ⟨s.zone, newID, hp, hnew, ?_⟩
        rw [stale_listed hp.page]
        rfl
    · cases hstep
  | delete i =>
    simp only [SyncState.step, bind, Option.bind_eq_some_iff] at hstep
    obtain ⟨t, ht, hstep⟩ := hstep
    obtain ⟨rfl, hone, hp⟩ := h.task ht
    split at hstep
    · rename_i id pending hphase
      cases hstep
      simp only [Progress, hphase] at hp
      obtain ⟨zone, newID, hp, hnew, hzone⟩ := hp
      refine .busy _ (tasks_advance hone _) ⟨zone, newID, hp, hnew, ?_⟩
      rw [← hzone]
      simp only [DnsCall.apply, List.filter_filter]
      refine List.filter_congr fun r _ => ?_
      rw [List.contains_cons, Bool.not_or, Bool.and_comm, bne]
    · cases hstep
  | update i =>
    simp only [SyncState.step, bind, Option.bind_eq_some_iff] at hstep
    obtain ⟨t, ht, hstep⟩ := hstep
    obtain ⟨rfl, hone, hp⟩ := h.task ht
    split at hstep
    · rename_i hphase
      cases hstep
      simp only [Progress, hphase] at hp
      obtain ⟨zone, newID, hp, hnew, hzone⟩ := hp
      have hall : s.zone = syncedZone t.type newID name t.ip zone := by
        rw [← hzone]
        exact (List.filter_eq_self.mpr fun r _ => by simp).symm
      refine .idle (by rw [hone]; rfl) ?_
      have hsynced := hp.synced t.type t.ip hnew
      rwa [← hall] at hsynced
    · cases hstep

theorem Sequential.reachable (h : (syncing name).Reachable Alone s) : Sequential name s := by
  refine h.invariant ?_ fun s e t hs hok hstep => hs.step hok hstep
  rintro s ⟨hids, hzone, hname, hip, htasks, -⟩
  have hno (r : CfRecord) (hr : r ∈ s.zone) : ¬ r.name = name := by
    intro hn
    have hmem : r ∈ s.zone.filter (·.name == name) := List.mem_filter.mpr ⟨hr, by simp [hn]⟩
    rw [hzone] at hmem
    cases hmem
  refine .idle htasks ⟨hids, fun r hr hn => absurd hn (hno r hr), ?_, ?_, ?_⟩
  · have hnil : s.zone.filter (isAddressOf name) = [] := by
      refine List.filter_eq_nil_iff.mpr fun r hr haddr => hno r hr ?_
      simp only [isAddressOf, Bool.and_eq_true, beq_iff_eq] at haddr
      exact haddr.1
    rw [hnil]
    exact Nat.zero_le 1
  · rw [hname]
    simp
  · rw [hname, hip]
    simp

/-- Where synchronisations do not overlap and comparisons are made with what the
row has, the `dns_ip` of a name that is set is the content of every address
record of it, and a `rendezvous` that takes the short cut leaves the name with
one address record, which has the address of the client. -/
theorem dns_ip_published (name : JsString) (hs : (syncing name).Reachable Alone s)
    (hnone : s.tasks = []) :
    (∀ n, s.dnsName = some n →
      ∀ r ∈ s.zone, isAddressOf n r = true → s.dnsIP = some r.content) ∧
    ∀ j v, s.visits[j]? = some v → Alone s (.compare j) → v.dnsIP = some v.ip →
      ∃ t, (syncing name).step s (.compare j) = some t ∧ t.tasks = [] ∧
        ∃ r, t.zone.filter (isAddressOf name) = [r] ∧ r.content = v.ip := by
  have hp := (Sequential.reachable hs).pointed hnone
  refine ⟨fun n hn r hr haddr => ?_, fun j v hv hok hcut => ?_⟩
  · cases hp.named n hn
    obtain ⟨r', hone, hip⟩ := hp.address (.inl (by rw [hn]; rfl))
    have hmem : r ∈ s.zone.filter (isAddressOf name) := List.mem_filter.mpr ⟨hr, haddr⟩
    rw [hone] at hmem
    rw [List.mem_singleton.mp hmem]
    exact hip
  · have hrow : s.dnsIP = some v.ip := (hok.2 v hv).symm.trans hcut
    obtain ⟨r, hone, hip⟩ := hp.address (.inr (by rw [hrow]; rfl))
    refine ⟨{ s with visits := s.visits.eraseIdx j }, ?_, hnone, r, hone, ?_⟩
    · simp only [syncing, SyncState.step, hv, Option.map_some, hcut, if_true]
    · exact Option.some.inj (hip.symm.trans hrow)

namespace Sample

def syncName : JsString := js "host.grantd.example"

def noRecords : SyncState := ⟨[], none, none, [], []⟩

def sequentialSyncs : List SyncEvent :=
  [.register (js "203.0.113.7"), .list 0, .write 0 (js "one"), .update 0,
    .arrive (js "2001:db8::1"), .compare 0, .list 0, .write 0 (js "two"), .delete 0, .update 0,
    .arrive (js "2001:db8::1")]

def overlappingSyncs : List SyncEvent :=
  [.register (js "203.0.113.7"), .arrive (js "198.51.100.2"), .compare 0, .list 0, .list 1,
    .write 0 (js "one"), .write 1 (js "two"), .update 0, .update 0]

def anyEvent (_ : SyncState) (_ : SyncEvent) : Prop := True

instance (s : SyncState) (e : SyncEvent) : Decidable (anyEvent s e) :=
  inferInstanceAs (Decidable True)

end Sample

theorem dns_ip_published_sample : ∃ s t r, (syncing Sample.syncName).Reachable Alone s ∧
    s.dnsName = some Sample.syncName ∧
    (∀ r ∈ s.zone, isAddressOf Sample.syncName r = true → s.dnsIP = some r.content) ∧
    (syncing Sample.syncName).step s (.compare 0) = some t ∧
    t.zone.filter (isAddressOf Sample.syncName) = [r] ∧ r.content = js "2001:db8::1" := by
  have hsome : ((syncing Sample.syncName).exec Alone Sample.noRecords Sample.sequentialSyncs).any
      (fun s => s.tasks = [] ∧ s.dnsName = some Sample.syncName ∧ Alone s (.compare 0) ∧
        s.visits = [⟨js "2001:db8::1", some (js "2001:db8::1")⟩]) = true := by decide +kernel
  obtain ⟨s, hexec, hs⟩ := Option.any_eq_true .. |>.mp hsome
  obtain ⟨hnone, hn, hok, hvisits⟩ := of_decide_eq_true hs
  have hinit : (syncing Sample.syncName).Init Sample.noRecords :=
    ⟨List.nodup_nil, rfl, rfl, rfl, rfl, rfl⟩
  have hreach : (syncing Sample.syncName).Reachable Alone s :=
    (Machine.Reachable.of_init hinit).run (.of_exec hexec)
  obtain ⟨hall, hcut⟩ := dns_ip_published Sample.syncName hreach hnone
  obtain ⟨t, ht, -, r, hone, hcontent⟩ := hcut 0 ⟨js "2001:db8::1", some (js "2001:db8::1")⟩
    (by rw [hvisits]; rfl) hok rfl
  exact ⟨s, t, r, hreach, hn, hall _ hn, ht, hone, hcontent⟩

/-- Two overlapping synchronisations leave two addresses, and the row names the
one that came last. -/
theorem dns_ip_overlap : ((syncing Sample.syncName).exec Sample.anyEvent Sample.noRecords
    Sample.overlappingSyncs).any (fun s => s.tasks = [] ∧ s.visits = [] ∧
      s.dnsName = some Sample.syncName ∧ s.dnsIP = some (js "198.51.100.2") ∧
      s.zone.any (fun r => isAddressOf Sample.syncName r && r.content == js "203.0.113.7")) =
        true := by
  decide +kernel

end Grantd.Service
