import Grantd.Signer.Daemon
import Grantd.Signer.SingleUse

/-!
# The key never signs two grants under one id

`CreateGrant` signs a grant once and the daemon has it signed again as often as
it asks, at any time, from whatever the tables hold by then. As long as ids are
drawn afresh all these signatures are of one message: the columns that are
signed are never updated, an id is not used again once its row has been purged,
and a host that is enrolled anew keeps its id.
-/

namespace Grantd.Signer

open Base Protocol

variable {S : Signer}

-- ---------------------------------------------------------------------------
-- Runs of the two sockets
-- ---------------------------------------------------------------------------

def FreshDraws (s : Daemon) : Request → Prop
  | .system a => FreshIDs s.state a
  | _ => True

instance (s : Daemon) (req : Request) : Decidable (FreshDraws s req) :=
  match req with
  | .system a => inferInstanceAs (Decidable (FreshIDs s.state a))
  | .registration .. | .connectAuth .. | .publications _ | .signPublications .. | .status =>
    inferInstanceAs (Decidable True)

def Random (s : Daemon) (req : Request) : Prop := Drawn s req ∧ FreshDraws s req

instance (s : Daemon) (req : Request) : Decidable (Random s req) :=
  inferInstanceAs (Decidable (_ ∧ _))

theorem next_state (h : next S s req = some p) :
    p.1 = s.state ∨ ∃ a, req = .system a ∧ step S s.state a = some p.1 := by
  cases req with
  | system a =>
    obtain ⟨t, hstep, rfl⟩ := Option.map_eq_some_iff.mp h
    exact .inr ⟨a, rfl, hstep⟩
  | registration | connectAuth | status | publications | signPublications =>
    cases h
    exact .inl rfl

theorem machine_reachable (hs : (daemon S).Reachable Random s) :
    (machine S).Reachable FreshIDs s.state := by
  refine hs.invariant (I := fun s => (machine S).Reachable FreshIDs s.state) ?_ ?_
  · exact fun s hinit => .of_init (And.left hinit)
  · intro s req t hreach hok hstep
    obtain ⟨p, hnext, rfl⟩ := Option.map_eq_some_iff.mp hstep
    rcases next_state hnext with hsame | ⟨a, rfl, ha⟩
    · exact hsame ▸ hreach
    · exact hreach.step hok.2 ha

theorem drawn_reachable (hs : (daemon S).Reachable Random s) : (daemon S).Reachable Drawn s :=
  hs.mono fun _ _ h => h.1

theorem created_next {id : GoString} (hs : (daemon S).Reachable Random s) (hok : Random s req)
    (h : next S s req = some p) (hc : s.state.created id) : p.1.created id := by
  rcases next_state h with hsame | ⟨a, rfl, hstep⟩
  · exact hsame ▸ hc
  · obtain ⟨es, hes⟩ := step_extends (.reachable (machine_reachable hs)) hok.2 hstep
    exact hes.created hc

theorem created_of_row (hs : (daemon S).Reachable Random s)
    (hr : r ∈ s.state.store.grants.rows) : s.state.created r.id :=
  ⟨_, (Inv.reachable (machine_reachable hs)).rows r.id r (Table.get?_eq_some.mpr ⟨hr, rfl⟩)⟩

-- ---------------------------------------------------------------------------
-- The column `published_at`
-- ---------------------------------------------------------------------------

theorem step_published (h : step S s a = some t) (hr : r ∈ t.store.grants.rows)
    (hp : r.publishedAt ≠ none) :
    (∃ r₀ ∈ s.store.grants.rows, r₀.id = r.id ∧ r₀.publishedAt ≠ none) ∨
      ∃ now, a = .markPublished now r.id := by
  have hstep := grantsStep h
  generalize t.store.grants = grants at hstep hr
  cases hstep with
  | same => exact .inl ⟨r, hr, rfl, hp⟩
  | created hi hrow =>
    rw [(Table.insert_eq_some hrow).2] at hr
    rcases List.mem_append.mp hr with hold | hnew
    · exact .inl ⟨r, hold, rfl, hp⟩
    · rw [List.mem_singleton.mp hnew] at hp
      exact absurd rfl hp
  | redeemed =>
    obtain ⟨r₀, hr₀, rfl⟩ := List.mem_map.mp hr
    refine .inl ⟨r₀, hr₀, (Store.redeemRow_id r₀).symm, ?_⟩
    unfold Store.redeemRow at hp
    split at hp <;> exact hp
  | revoked =>
    obtain ⟨r₀, hr₀, rfl⟩ := List.mem_map.mp hr
    refine .inl ⟨r₀, hr₀, (Store.revokeRow_id r₀).symm, ?_⟩
    unfold Store.revokeRow at hp
    split at hp <;> exact hp
  | @published now id =>
    obtain ⟨r₀, hr₀, rfl⟩ := List.mem_map.mp hr
    rw [Store.markPublishedRow_id]
    by_cases hid : r₀.id = id
    · exact .inr ⟨now, by rw [hid]⟩
    · rw [Store.markPublishedRow, if_neg hid] at hp
      exact .inl ⟨r₀, hr₀, rfl, hp⟩
  | purged => exact .inl ⟨r, (List.mem_filter.mp hr).1, rfl, hp⟩

-- ---------------------------------------------------------------------------
-- Signed grants
-- ---------------------------------------------------------------------------

def Daemon.HasSigned (s : Daemon) (g : Protocol.Grant) : Prop :=
  ∃ e store, g.canonical = .ok e ∧ (e, store) ∈ s.signed

theorem signs_grant {g : Protocol.Grant} (hs : Clean S s) (hd : Drawn s req)
    (h : next S s req = some p) (he : e ∈ signs S s req) (hg : g.canonical = .ok e) :
    ∃ host, Enrolled S host ∧ ∃ r ∈ p.1.store.grants.rows, g = publication host r := by
  have hclean : Clean S ⟨p.1, p.2, []⟩ := hs.next hd h
  obtain ⟨m, hm, hsanctioned, hsignable⟩ := signs_sanctioned hs hd h he
  have hgrant : (Message.grant g).canonical = .ok e := hg
  have hctx := Message.context_of_canonical hgrant hm
  cases hsanctioned with
  | registration => exact absurd hctx (by decide : ctxGrant ≠ ctxHostRegister)
  | connect => exact absurd hctx (by decide : ctxGrant ≠ ctxHostConnect)
  | grant hh hr =>
    have hsize := hsignable.grant_size
    have heq := Message.eq_of_canonical hm hgrant (Nat.lt_of_le_of_lt hsize (by decide))
    cases heq
    exact ⟨_, hclean.host _ hh, _, hr, rfl⟩

theorem Daemon.HasSigned.signable (hs : (daemon S).Reachable Drawn s) (h : s.HasSigned g) :
    Signable S (.grant g) := by
  obtain ⟨e, store, hg, hmem⟩ := h
  obtain ⟨-, m, hm, hsanctioned, hsignable⟩ := Accounted.reachable hs e store hmem
  have hgrant : (Message.grant g).canonical = .ok e := hg
  have hctx := Message.context_of_canonical hgrant hm
  cases hsanctioned with
  | registration => exact absurd hctx (by decide : ctxGrant ≠ ctxHostRegister)
  | connect => exact absurd hctx (by decide : ctxGrant ≠ ctxHostConnect)
  | grant hh hr =>
    have hsize := hsignable.grant_size
    rw [← Message.eq_of_canonical hm hgrant (Nat.lt_of_le_of_lt hsize (by decide))]
    exact hsignable

theorem signPublications_bytes {pending : List GrantRow}
    (h : S.signPublications host pending = .ok out) :
    ∀ p ∈ out, ∃ e ∈ publicationBytes host pending, p.grant.canonical = .ok e := by
  have hall := signPublications_eq_ok.mp h
  clear h
  induction hall with
  | nil => simp
  | @cons r p rest out hp _ ih =>
    obtain ⟨canon, hcanon, rfl⟩ := hp
    simp only [publicationBytes, hcanon]
    intro q hq
    rcases List.mem_cons.mp hq with rfl | hq
    · exact ⟨canon, List.mem_cons_self, hcanon⟩
    · obtain ⟨e, he, hsig⟩ := ih q hq
      exact ⟨e, List.mem_cons_of_mem _ he, hsig⟩

theorem signPublications_hasSigned (hread : s.reads i = some host)
    (h : S.signPublications host (s.state.store.pendingPublications now) = .ok out)
    (hstep : (daemon S).step s (.signPublications i now) = some t) :
    ∀ p ∈ out, t.HasSigned p.grant := by
  intro p hp
  obtain ⟨e, he, hcanon⟩ := signPublications_bytes h p hp
  cases hstep
  refine ⟨e, s.state.store, hcanon, List.mem_append_left _ (List.mem_map_of_mem ?_)⟩
  simp only [signs, hread]
  exact he

variable (S) in
/-- The tables and the signatures say the same of every id. -/
structure Steady (s : Daemon) : Prop where
  created : ∀ g, s.HasSigned g → s.state.created g.grantID
  rows : ∀ g, s.HasSigned g → ∀ r ∈ s.state.store.grants.rows, r.id = g.grantID →
    ∃ host, Enrolled S host ∧ g = publication host r
  unique : ∀ g g', s.HasSigned g → s.HasSigned g' → g.grantID = g'.grantID → g = g'

theorem publication_eq {grants : Table GrantRow.id} (hr : r ∈ grants.rows) (hr' : r' ∈ grants.rows)
    (hid : r.id = r'.id) (hh : Enrolled S host) (hh' : Enrolled S host') :
    publication host r = publication host' r' := by
  cases List.inj_on_of_nodup_map grants.distinct hr hr' hid
  simp only [publication, hh.hostID_eq hh']

theorem publication_origin {r r' : GrantRow} (h : r.origin = r'.origin) (host : Host) :
    publication host r = publication host r' := by
  simp only [GrantRow.origin, Prod.mk.injEq] at h
  obtain ⟨hid, -, huser, hcreated, hexpires⟩ := h
  simp only [publication, hid, huser, hcreated, hexpires]

theorem next_rows (hok : Random s req) (h : next S s req = some p)
    (hr : r ∈ p.1.store.grants.rows) (hc : s.state.created r.id) :
    ∃ r₀ ∈ s.state.store.grants.rows, r.origin = r₀.origin := by
  rcases next_state h with hsame | ⟨a, rfl, hstep⟩
  · exact ⟨r, hsame ▸ hr, rfl⟩
  · rcases step_rows hstep r hr with hold | ⟨i, draw, now, e, host, rfl, -, horigin⟩
    · exact hold
    · have hid : r.id = newGrantID draw.raw := congrArg Prod.fst horigin
      exact absurd (hid ▸ hc) hok.2

theorem Steady.next_rows (hs : Steady S s) (hok : Random s req) (h : next S s req = some p)
    (hg : s.HasSigned g) (hr : r ∈ p.1.store.grants.rows) (hid : r.id = g.grantID) :
    ∃ host, Enrolled S host ∧ g = publication host r := by
  obtain ⟨r₀, hr₀, horigin⟩ := Signer.next_rows hok h hr (hid ▸ hs.created g hg)
  have hid₀ : r₀.id = g.grantID := (congrArg Prod.fst horigin).symm.trans hid
  obtain ⟨host, henrolled, rfl⟩ := hs.rows g hg r₀ hr₀ hid₀
  exact ⟨host, henrolled, publication_origin horigin.symm host⟩

theorem Steady.step (hreach : (daemon S).Reachable Random s) (hs : Steady S s)
    (hok : Random s req) (hstep : (daemon S).step s req = some t) : Steady S t := by
  have hafter := hreach.step hok hstep
  obtain ⟨p, hnext, rfl⟩ := Option.map_eq_some_iff.mp hstep
  -- A signature is of an old one's bytes, or of a row that is there now.
  let t : Daemon := ⟨p.1, p.2, (signs S s req).map (·, p.1.store) ++ s.signed⟩
  have hcases (g) (hg : t.HasSigned g) : s.HasSigned g ∨
        ∃ host, Enrolled S host ∧ ∃ r ∈ p.1.store.grants.rows, g = publication host r := by
    obtain ⟨e, store, hcanon, hmem⟩ := hg
    rcases List.mem_append.mp hmem with hnew | hold
    · obtain ⟨e', he', heq⟩ := List.mem_map.mp hnew
      cases heq
      exact .inr (signs_grant (.reachable (drawn_reachable hreach)) hok.1 hnext he' hcanon)
    · exact .inl ⟨e, store, hcanon, hold⟩
  have hrows (g) (hg : t.HasSigned g) (r) (hr : r ∈ p.1.store.grants.rows)
      (hid : r.id = g.grantID) : ∃ host, Enrolled S host ∧ g = publication host r := by
    rcases hcases g hg with hold | ⟨host, henrolled, r', hr', rfl⟩
    · exact hs.next_rows hok hnext hold hr hid
    · exact ⟨host, henrolled, publication_eq hr' hr hid.symm henrolled henrolled⟩
  refine ⟨fun g hg => ?_, hrows, fun g g' hg hg' hid => ?_⟩
  · rcases hcases g hg with hold | ⟨host, -, r, hr, rfl⟩
    · exact created_next hreach hok hnext (hs.created g hold)
    · exact created_of_row hafter hr
  · rcases hcases g hg with hold | ⟨host, henrolled, r, hr, rfl⟩
    · rcases hcases g' hg' with hold' | ⟨host', henrolled', r', hr', rfl⟩
      · exact hs.unique g g' hold hold' hid
      · obtain ⟨host, henrolled, rfl⟩ := hrows g hg r' hr' hid.symm
        exact publication_eq hr' hr' rfl henrolled henrolled'
    · obtain ⟨host', henrolled', rfl⟩ := hrows g' hg' r hr hid
      exact publication_eq hr hr rfl henrolled henrolled'

theorem Steady.reachable (hs : (daemon S).Reachable Random s) : Steady S s := by
  refine hs.induction (I := Steady S) (fun s hinit => ?_) fun s req t hreach hI hok hstep =>
    hI.step hreach hok hstep
  have hnone (g) : ¬ s.HasSigned g := by
    rintro ⟨e, store, -, hmem⟩
    rw [hinit.2.2] at hmem
    cases hmem
  exact ⟨fun g hg => absurd hg (hnone g), fun g hg => absurd hg (hnone g),
    fun g _ hg => absurd hg (hnone g)⟩

/-- Whatever happens to the tables between two signatures, the key signs one
grant under one id, and the row of that id is the row of that grant. -/
theorem one_signed_grant_per_id (S : Signer) (hs : (daemon S).Reachable Random s)
    (hg : s.HasSigned g) :
    (∀ g', s.HasSigned g' → g'.grantID = g.grantID → g' = g) ∧
    ∀ r ∈ s.state.store.grants.rows, r.id = g.grantID →
      r.sshUser = g.sshUser ∧ r.createdAt = g.createdAt ∧ r.expiresAt = g.expiresAt := by
  have hsteady := Steady.reachable hs
  refine ⟨fun g' hg' hid => hsteady.unique g' g hg' hg hid, fun r hr hid => ?_⟩
  obtain ⟨host, -, rfl⟩ := hsteady.rows g hg r hr hid
  exact ⟨rfl, rfl, rfl⟩

namespace Sample

/-- A grant is made, the host is enrolled anew at another address, and the
daemon asks twice what is to be published. -/
def reenrolled : List Request :=
  setUp.map .system ++
  [.publications 0, .signPublications 0 1700000000,
    .system (.enroll 1700000000 user (lit "moved.example") 2222 (publicSSHLine hostKey)),
    .publications 0, .signPublications 0 1700000000]

def soleGrant (s : Daemon) : Option Protocol.Grant := do
  let h ← s.state.store.host
  let r ← s.state.store.grants.rows.head?
  pure (publication h r)

end Sample

/-- Three signatures of one grant. -/
theorem one_signed_grant_per_id_sample : ∃ s g,
    (daemon Sample.sample).Reachable Random s ∧ s.signed.length = 3 ∧ s.HasSigned g ∧
    (∀ g', s.HasSigned g' → g'.grantID = g.grantID → g' = g) ∧
    ∃ r ∈ s.state.store.grants.rows, r.id = g.grantID ∧ r.expiresAt = g.expiresAt := by
  have hrun : ((daemon Sample.sample).exec Random ⟨Sample.initial, fun _ => none, []⟩
      Sample.reenrolled).any (fun s => s.signed.length == 3 && (Sample.soleGrant s).any fun g =>
        s.signed.any (fun p => g.canonical.toOption == some p.1) &&
          s.state.store.grants.rows.any fun r => r.id == g.grantID) = true := by
    decide +kernel
  obtain ⟨s, hs, hfound⟩ := Option.any_eq_true .. |>.mp hrun
  simp only [Bool.and_eq_true, beq_iff_eq] at hfound
  obtain ⟨hcount, hfound⟩ := hfound
  obtain ⟨g, -, hfound⟩ := Option.any_eq_true .. |>.mp hfound
  simp only [Bool.and_eq_true, List.any_eq_true, beq_iff_eq] at hfound
  obtain ⟨⟨⟨e, store⟩, hmem, hcanon⟩, r, hr, hid⟩ := hfound
  have hinit : (daemon Sample.sample).Init ⟨Sample.initial, fun _ => none, []⟩ :=
    ⟨⟨rfl, fun _ => rfl, fun _ => rfl, rfl⟩, fun _ => rfl, rfl⟩
  have hreach := (Machine.Reachable.of_init hinit).run (.of_exec hs)
  have hg : s.HasSigned g := ⟨e, store, toOption_eq_some.mp hcanon, hmem⟩
  obtain ⟨hunique, hrows⟩ := one_signed_grant_per_id Sample.sample hreach hg
  exact ⟨s, g, hreach, hcount, hg, hunique, r, hr, hid, (hrows r hr hid).2.2⟩

end Grantd.Signer
