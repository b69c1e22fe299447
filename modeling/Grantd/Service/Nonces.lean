import Grantd.Base.Machine
import Grantd.Service.Encoding
import Grantd.Service.Worker

/-!
# Nonces at an object

Registrations and connects share one table of nonces, which every insertion and
every alarm prunes. A nonce is kept for 1200 seconds and a message is fresh for
300 seconds on either side of its timestamp, so what has been pruned is stale.
-/

namespace Grantd.Service

open Base

inductive NonceOp
  | register (now : Int) (body : Record) (dnsName : Option JsString)
  | rendezvous (now : Int) (headers : HostDO.ConnectHeaders)
  | alarm (now : Int)

def NonceOp.now : NonceOp → Int
  | .register now _ _ | .rendezvous now _ | .alarm now => now

/-- An object, the last reading that `seenNonce` or an alarm used, and the
timestamps and nonces that have passed. -/
structure NonceState where
  object : HostDO
  clock : Int
  passed : List (Int × Bytes)

variable (C : Subtle)

namespace HostDO

def performNonce (d : HostDO) : NonceOp → HostDO
  | .register now body dnsName => (d.register C now body dnsName).2
  | .rendezvous now headers => (d.rendezvous C now headers).2
  | .alarm now => d.alarm now

/-- The timestamp and the nonce that a request brings to `seenNonce`. -/
def brought (d : HostDO) : NonceOp → Option (Int × Bytes)
  | .register now body _ =>
    (checkRegistration C now body).toOption.map fun p => (p.1.timestamp, p.1.nonce)
  | .rendezvous now headers => do
    let h ← d.host
    let nonce ← (checkConnect C now h headers).toOption
    match headers.timestamp with
    | some (.integer ts) => some (ts, nonce)
    | _ => none
  | .alarm _ => none

def usesReading (d : HostDO) (op : NonceOp) : Option Int :=
  match op with
  | .alarm now => some now
  | op => (d.brought C op).map fun _ => op.now

end HostDO

def nonceStep (s : NonceState) (op : NonceOp) : NonceState where
  object := s.object.performNonce C op
  clock := (s.object.usesReading C op).getD s.clock
  passed :=
    match s.object.brought C op with
    | some p => if (s.object.seenNonce p.2 op.now).1 then s.passed else p :: s.passed
    | none => s.passed

def noncing : Machine NonceState NonceOp where
  Init s := s.object = .empty ∧ s.passed = []
  step s op := some (nonceStep C s op)

def ReadingsAscend (s : NonceState) (op : NonceOp) : Prop :=
  ∀ now ∈ s.object.usesReading C op, s.clock ≤ now

instance (s : NonceState) (op : NonceOp) : Decidable (ReadingsAscend C s op) :=
  decidable_of_iff ((s.object.usesReading C op).all (s.clock ≤ ·) = true) <| by
    cases h : s.object.usesReading C op <;> simp [ReadingsAscend, h]

-- ---------------------------------------------------------------------------
-- The table
-- ---------------------------------------------------------------------------

namespace HostDO

variable {C}

theorem brought_fresh {d : HostDO} (h : d.brought C op = some p) :
    p.1 - skewRegistration ≤ op.now ∧ op.now ≤ p.1 + skewRegistration := by
  have hskew {now ts : Int} (h : withinSkew now ts skewRegistration = true) :
      ts - skewRegistration ≤ now ∧ now ≤ ts + skewRegistration := by
    have hle := of_decide_eq_true h
    simp only [skewRegistration] at hle ⊢
    omega
  cases op with
  | register now body dnsName =>
    obtain ⟨⟨m, signature⟩, hcheck, rfl⟩ := Option.map_eq_some_iff.mp h
    obtain ⟨_, -, -, -, hfresh, -⟩ := checkRegistration_parts (toOption_eq_some.mp hcheck)
    exact hskew hfresh
  | rendezvous now headers =>
    simp only [brought, bind, Option.bind_eq_some_iff] at h
    obtain ⟨row, -, nonce, hcheck, h⟩ := h
    obtain ⟨m, _, _, _, hts, -, -, -, hfresh, -⟩ := checkConnect_eq_ok (toOption_eq_some.mp hcheck)
    rw [hts] at h
    cases h
    exact hskew hfresh
  | alarm now => cases h

theorem brought_usesReading {d : HostDO} (h : d.brought C op = some p) :
    d.usesReading C op = some op.now := by
  cases op with
  | register | rendezvous => simp only [usesReading, h, Option.map_some]
  | alarm now => cases h

theorem nonces_brought {d : HostDO} (h : d.brought C op = some p) :
    (d.performNonce C op).nonces = (d.seenNonce p.2 op.now).2.nonces := by
  cases op with
  | register now body dnsName =>
    obtain ⟨⟨m, signature⟩, hcheck, rfl⟩ := Option.map_eq_some_iff.mp h
    simp only [performNonce, register, toOption_eq_some.mp hcheck, NonceOp.now]
    split
    · rename_i hseen
      rw [hseen]
    · rename_i hseen
      rw [hseen]
      split
      · split <;> rfl
      · rfl
  | rendezvous now headers =>
    simp only [brought, bind, Option.bind_eq_some_iff] at h
    obtain ⟨row, hrow, nonce, hcheck, h⟩ := h
    have hp : p.2 = nonce := by
      split at h
      · cases h; rfl
      · cases h
    simp only [performNonce, rendezvous, hrow, toOption_eq_some.mp hcheck, NonceOp.now, hp]
    split
    · rename_i hseen
      rw [hseen]
    · rename_i hseen
      rw [hseen]
      rfl
  | alarm now => cases h

theorem nonces_unbrought {d : HostDO} (h : d.usesReading C op = none) :
    (d.performNonce C op).nonces = d.nonces := by
  cases op with
  | register now body dnsName =>
    cases hcheck : checkRegistration C now body with
    | error r => simp only [performNonce, register, hcheck]
    | ok p =>
      simp only [usesReading, brought, hcheck, Except.toOption, Option.map_some] at h
      cases h
  | rendezvous now headers =>
    cases hrow : d.host with
    | none => simp only [performNonce, rendezvous, hrow]
    | some row =>
      cases hcheck : checkConnect C now row headers with
      | error r => simp only [performNonce, rendezvous, hrow, hcheck]
      | ok nonce =>
        obtain ⟨m, _, _, _, hts, -⟩ := checkConnect_eq_ok hcheck
        simp only [usesReading, brought, hrow, hcheck, hts, Except.toOption, bind, Option.bind_some,
          Option.map_some] at h
        cases h
  | alarm now => cases h

theorem mem_recent {d : HostDO} (hr : row ∈ d.nonces.rows)
    (hrecent : now - skewRegistration * 4 ≤ row.seenAt) :
    row ∈ (d.nonces.delete (·.seenAt < now - skewRegistration * 4)).rows := by
  refine List.mem_filter.mpr ⟨hr, ?_⟩
  simp only [Bool.not_eq_eq_eq_not, Bool.not_true, decide_eq_false_iff_not, Int.not_lt]
  exact hrecent

theorem seenNonce_kept (nonce : Bytes) (d : HostDO) (hr : row ∈ d.nonces.rows)
    (hrecent : now - skewRegistration * 4 ≤ row.seenAt) :
    row ∈ (d.seenNonce nonce now).2.nonces.rows := by
  have hkept := mem_recent hr hrecent
  unfold seenNonce
  dsimp only
  split
  · exact hkept
  · rename_i nonces hins
    rw [(Table.insert_eq_some hins).2]
    exact List.mem_append_left _ hkept

/-- A nonce passes when no row of the last 1200 seconds has it, and is then in
a row. -/
theorem seenNonce_passes {nonce : Bytes} {d : HostDO} (h : (d.seenNonce nonce now).1 = false) :
    (∀ row ∈ d.nonces.rows, now - skewRegistration * 4 ≤ row.seenAt →
      row.nonce ≠ b64uEncode nonce) ∧
    ⟨b64uEncode nonce, now⟩ ∈ (d.seenNonce nonce now).2.nonces.rows := by
  unfold seenNonce at h ⊢
  dsimp only at h ⊢
  split at h
  · cases h
  · rename_i nonces hins
    obtain ⟨hfree, hrows⟩ := Table.insert_eq_some hins
    refine ⟨fun row hr hrecent => Table.get?_eq_none.mp hfree row (mem_recent hr hrecent), ?_⟩
    rw [hrows]
    exact List.mem_append_right _ List.mem_cons_self

theorem performNonce_kept {d : HostDO} (h : d.usesReading C op = some now)
    (hr : row ∈ d.nonces.rows) (hrecent : now - skewRegistration * 4 ≤ row.seenAt) :
    row ∈ (d.performNonce C op).nonces.rows := by
  cases hb : d.brought C op with
  | some p =>
    have hnow := brought_usesReading hb
    rw [h, Option.some.injEq] at hnow
    rw [nonces_brought hb]
    exact seenNonce_kept _ d hr (hnow ▸ hrecent)
  | none =>
    cases op with
    | register | rendezvous =>
      simp only [usesReading, hb, Option.map_none] at h
      cases h
    | alarm t =>
      cases h
      exact mem_recent hr hrecent

end HostDO

-- ---------------------------------------------------------------------------
-- What has passed
-- ---------------------------------------------------------------------------

structure Remembers (s : NonceState) : Prop where
  once : s.passed.Nodup
  kept : ∀ p ∈ s.passed, (∃ row ∈ s.object.nonces.rows, row.nonce = b64uEncode p.2 ∧
    p.1 - skewRegistration ≤ row.seenAt) ∨ p.1 + skewRegistration < s.clock

section
variable {C} {s : NonceState}

theorem Remembers.kept_step (hs : Remembers s) (hok : ReadingsAscend C s op) :
    ∀ p ∈ s.passed, (∃ row ∈ (nonceStep C s op).object.nonces.rows, row.nonce = b64uEncode p.2 ∧
      p.1 - skewRegistration ≤ row.seenAt) ∨
      p.1 + skewRegistration < (nonceStep C s op).clock := by
  intro p hp
  cases huses : s.object.usesReading C op with
  | none =>
    have hsame := HostDO.nonces_unbrought huses
    simp only [nonceStep, hsame, huses, Option.getD_none]
    exact hs.kept p hp
  | some now =>
    have hle : s.clock ≤ now := hok now huses
    simp only [nonceStep, huses, Option.getD_some]
    rcases hs.kept p hp with ⟨row, hr, hnonce, hseen⟩ | hold
    · by_cases hrecent : now - skewRegistration * 4 ≤ row.seenAt
      · exact .inl ⟨row, HostDO.performNonce_kept huses hr hrecent, hnonce, hseen⟩
      · right
        simp only [skewRegistration] at hrecent hseen ⊢
        omega
    · exact .inr (Int.lt_of_lt_of_le hold hle)

theorem Remembers.new (hs : Remembers s) (hok : ReadingsAscend C s op)
    (hb : s.object.brought C op = some p) (hpass : (s.object.seenNonce p.2 op.now).1 = false) :
    p ∉ s.passed := by
  intro hp
  have hle : s.clock ≤ op.now := hok _ (HostDO.brought_usesReading hb)
  obtain ⟨hearly, hlate⟩ := HostDO.brought_fresh hb
  rcases hs.kept p hp with ⟨row, hr, hnonce, hseen⟩ | hold
  · refine (HostDO.seenNonce_passes hpass).1 row hr ?_ hnonce
    simp only [skewRegistration] at hlate hseen ⊢
    omega
  · omega

theorem Remembers.step (hs : Remembers s) (hok : ReadingsAscend C s op) :
    Remembers (nonceStep C s op) := by
  have hkept := hs.kept_step hok
  cases hb : s.object.brought C op with
  | none =>
    have hpassed : (nonceStep C s op).passed = s.passed := by simp only [nonceStep, hb]
    exact ⟨hpassed ▸ hs.once, hpassed ▸ hkept⟩
  | some p =>
    cases hseen : (s.object.seenNonce p.2 op.now).1 with
    | true =>
      have hpassed : (nonceStep C s op).passed = s.passed := by
        simp only [nonceStep, hb, hseen, if_true]
      exact ⟨hpassed ▸ hs.once, hpassed ▸ hkept⟩
    | false =>
      have hpassed : (nonceStep C s op).passed = p :: s.passed := by
        simp only [nonceStep, hb, hseen, Bool.false_eq_true, if_false]
      refine ⟨?_, ?_⟩
      · rw [hpassed]
        exact List.nodup_cons.mpr ⟨hs.new hok hb hseen, hs.once⟩
      · rw [hpassed]
        rintro q hq
        rcases List.mem_cons.mp hq with rfl | hq
        · refine .inl ⟨⟨b64uEncode q.2, op.now⟩, ?_, rfl, (HostDO.brought_fresh hb).1⟩
          rw [nonceStep, HostDO.nonces_brought hb]
          exact (HostDO.seenNonce_passes hseen).2
        · exact hkept q hq

end

/-- Of the registrations and connects that pass `seenNonce` no two carry the
same timestamp and nonce: what has passed once is refused from then on. -/
theorem nonces_pass_once (C : Subtle) (hs : (noncing C).Reachable (ReadingsAscend C) s) :
    s.passed.Nodup ∧
    ∀ op p, ReadingsAscend C s op → s.object.brought C op = some p → p ∈ s.passed →
      (s.object.seenNonce p.2 op.now).1 = true := by
  have hinv : Remembers s := by
    refine hs.invariant ?_ ?_
    · rintro s ⟨-, hnil⟩
      exact ⟨hnil ▸ List.nodup_nil, fun p hp => by rw [hnil] at hp; cases hp⟩
    · intro s op t h hok hstep
      cases hstep
      exact h.step hok
  refine ⟨hinv.once, fun op p hok hb hp => ?_⟩
  cases hseen : (s.object.seenNonce p.2 op.now).1 with
  | true => rfl
  | false => exact absurd hp (hinv.new hok hb hseen)

namespace Sample

def alphaPut (now : Int) : NonceOp :=
  .register now [(js "registration", alpha.registration), (js "signature", .str alpha.signature)]
    none

def alphaNonce : Bytes := decoded "AAECAwQFBgcICQoLDA0ODw"

def noNonces : NonceState := ⟨.empty, 0, []⟩

def earlyPut : List NonceOp := [alphaPut 1699999700, .alarm 1700000200]

end Sample

theorem nonces_pass_once_sample : ∃ s, (noncing Sample.subtle).Reachable
    (ReadingsAscend Sample.subtle) s ∧ s.passed = [(1700000000, Sample.alphaNonce)] ∧
    (s.object.seenNonce Sample.alphaNonce 1700000300).1 = true := by
  have hsome : ((noncing Sample.subtle).exec (ReadingsAscend Sample.subtle) Sample.noNonces
      Sample.earlyPut).any (fun s => s.passed = [(1700000000, Sample.alphaNonce)] ∧
        ReadingsAscend Sample.subtle s (Sample.alphaPut 1700000300) ∧
        s.object.brought Sample.subtle (Sample.alphaPut 1700000300) =
          some (1700000000, Sample.alphaNonce)) = true := by
    decide +kernel
  obtain ⟨s, hexec, hs⟩ := Option.any_eq_true .. |>.mp hsome
  obtain ⟨hpassed, hok, hb⟩ := of_decide_eq_true hs
  have hinit : (noncing Sample.subtle).Init Sample.noNonces := ⟨rfl, rfl⟩
  have hreach := (Machine.Reachable.of_init hinit).run (.of_exec hexec)
  have hmem : (1700000000, Sample.alphaNonce) ∈ s.passed := by
    rw [hpassed]
    exact List.mem_cons_self
  have hseen := (nonces_pass_once Sample.subtle hreach).2 (Sample.alphaPut 1700000300)
    (1700000000, Sample.alphaNonce) hok hb hmem
  exact ⟨s, hreach, hpassed, hseen⟩

end Grantd.Service
