import Grantd.Service.AgentDO
import Mathlib.Data.List.Nodup
import Mathlib.Data.List.Perm.Basic
import Mathlib.Tactic.Choose

/-!
# The registry of agents

All challenge objects and all agent objects, with the submissions in between:
the Worker spends a challenge first and registers the agent afterwards, in
another object. Whoever comes in between, every record is its agent's own and
has a spent challenge to itself.
-/

namespace Grantd.Service

open Base

def Response.ok : Response → Bool
  | .error _ _ status | .json _ status => 200 ≤ status && status < 300
  | .webSocket => false

structure Consumption where
  challenge : Challenge
  powNonce : JsString
  time : Int
  deriving Inhabited

/-- A submission whose challenge is spent, on its way to the agent object. -/
structure InFlight where
  agentID : JsString
  challengeID : JsString
  body : Record

structure Creation where
  agentID : JsString
  challengeID : JsString

structure Registry where
  challenges : JsString → ChallengeDO
  agents : JsString → AgentDO
  inFlight : List InFlight
  created : List JsString
  consumptions : List Consumption
  creations : List Creation

inductive RegistryOp
  | create (env : PowEnv) (raw powPrefix : Bytes) (now : Int)
  | submit (allowed : Bool) (req : Request) (now : Int) (reparsed : Record)
  | register (i : Nat) (now : Int)
  | alarm (challengeID : JsString) (now : Int)

def RegistryOp.now : RegistryOp → Int
  | .create _ _ _ now | .submit _ _ now _ | .register _ now | .alarm _ now => now

namespace Registry

def spent (s : Registry) : List JsString := s.consumptions.map (·.challenge.challengeID)

/-- The ids of the challenges that a submission in flight or a record was paid
with. -/
def payments (s : Registry) : List JsString :=
  s.inFlight.map (·.challengeID) ++ s.creations.map (·.challengeID)

def empty : Registry := ⟨fun _ => none, fun _ => none, [], [], [], []⟩

def create (bits : Int) (id : JsString) (powPrefix : Bytes) (now : Int) (s : Registry) :
    Registry :=
  { s with
    challenges := Function.update s.challenges id (ChallengeDO.create bits id powPrefix now).2
    created := id :: s.created }

variable (C : Subtle)

def consume (sub : Submission) (now : Int) (reparsed : Record) (s : Registry) : Registry :=
  let (answer, d) := ChallengeDO.consume C now sub.powNonce (s.challenges sub.challengeID)
  let challenges := Function.update s.challenges sub.challengeID d
  if answer.ok then
    { s with
      challenges
      inFlight := ⟨sub.agentID, sub.challengeID, reparsed⟩ :: s.inFlight
      consumptions :=
        (s.challenges sub.challengeID).toList.map (⟨·, sub.powNonce, now⟩) ++ s.consumptions }
  else { s with challenges }

def register (i : Nat) (f : InFlight) (now : Int) (s : Registry) : Registry :=
  let d := s.agents f.agentID
  let d' := (AgentDO.register C now f.body d).2
  { s with
    agents := Function.update s.agents f.agentID d'
    inFlight := s.inFlight.eraseIdx i
    creations :=
      if d.isNone && d'.isSome then ⟨f.agentID, f.challengeID⟩ :: s.creations else s.creations }

variable (number : JsString → JsNumber)

def step (s : Registry) : RegistryOp → Option Registry
  | .create env raw powPrefix now =>
    some (s.create (ChallengeDO.difficultyBits number env) (newChallengeID raw) powPrefix now)
  | .submit allowed req now reparsed =>
    match readSubmission allowed req with
    | .error _ => some s
    | .ok sub =>
      if restringifiesMembers sub.body reparsed then some (s.consume C sub now reparsed) else none
  | .register i now => s.inFlight[i]?.map fun f => s.register C i f now
  | .alarm id _ => some { s with challenges := Function.update s.challenges id none }

end Registry

variable (C : Subtle) (number : JsString → JsNumber)

def registering : Machine Registry RegistryOp where
  Init s := s = .empty
  step := Registry.step C number

def FreshIDs (s : Registry) : RegistryOp → Prop
  | .create _ raw _ _ => newChallengeID raw ∉ s.created
  | _ => True

instance (s : Registry) (op : RegistryOp) : Decidable (FreshIDs s op) :=
  match op with
  | .create .. => inferInstanceAs (Decidable (_ ∉ _))
  | .submit .. | .register .. | .alarm .. => inferInstanceAs (Decidable True)

def Consumption.Valid (k : Consumption) : Prop :=
  k.time < k.challenge.expiresAt ∧ ∃ powPrefix, b64uDecode k.challenge.powPrefix = some powPrefix ∧
    verifyPow C powPrefix k.challenge.difficultyBits k.powNonce = true

def AgentRecord.SelfCertifying (rec : AgentRecord) (id : JsString) : Prop :=
  rec.agentID = id ∧ ∃ key, b64uDecode rec.publicKey = some key ∧ Service.agentID C key = .ok id

/-- What a record says never changes; when its agent was last seen does. -/
def AgentRecord.Same (r r' : AgentRecord) : Prop :=
  r'.agentID = r.agentID ∧ r'.publicKey = r.publicKey

-- ---------------------------------------------------------------------------
-- One request at an object
-- ---------------------------------------------------------------------------

variable {C number}

theorem AgentRecord.same_refl (d : AgentDO) : Option.Rel AgentRecord.Same d d := by
  cases d with
  | none => exact .none
  | some rec => exact .some ⟨rfl, rfl⟩

theorem AgentRecord.same_of_some (h : Option.Rel AgentRecord.Same d (some r)) :
    ∃ old, d = some old ∧ old.Same r := by
  cases h with
  | some h => exact ⟨_, rfl, h⟩

theorem ok_errorResponse (code : ErrorCode) (message : String) :
    (errorResponse code message).ok = false := by
  cases code <;> rfl

theorem ChallengeDO.checkConsume_error {d : ChallengeDO}
    (h : checkConsume C now powNonce d = .error r) : r.ok = false := by
  have hguard {cond : Bool} {code message} {k : Except Response Challenge}
      (h : (ensure cond (errorResponse code message) >>= fun _ => k) = .error r) :
      r.ok = false ∨ k = .error r := by
    cases cond with
    | false =>
      cases h
      exact .inl (ok_errorResponse _ _)
    | true => exact .inr h
  cases d with
  | none =>
    cases h
    rfl
  | some c =>
    rcases hguard h with h | h
    · exact h
    rcases hguard h with h | h
    · exact h
    cases hdec : b64uDecode c.powPrefix with
    | none =>
      rw [hdec] at h
      cases h
      rfl
    | some powPrefix =>
      rw [hdec] at h
      rcases hguard h with h | h
      · exact h
      · cases h

theorem ChallengeDO.consume_cases (now : Int) (powNonce : JsString) (d : ChallengeDO) :
    ((consume C now powNonce d).1.ok = false ∧ (consume C now powNonce d).2 = d) ∨
    ∃ c, checkConsume C now powNonce d = .ok c ∧ (consume C now powNonce d).1.ok = true ∧
      (consume C now powNonce d).2 = some { c with consumedAt := some now } := by
  unfold consume
  cases h : checkConsume C now powNonce d with
  | error r => exact .inl ⟨checkConsume_error h, rfl⟩
  | ok c => exact .inr ⟨c, rfl, rfl, rfl⟩

theorem AgentDO.register_cases (now : Int) (body : Record) (d : AgentDO) :
    (register C now body d).2 = d ∨
    (∃ rec, d = some rec ∧ (register C now body d).2 = some { rec with lastSeenAt := now }) ∨
    ∃ reg, d = none ∧ checkRegistration C now body = .ok reg ∧
      (register C now body d).2 = some ⟨reg.agentID, b64uEncode reg.publicKey, now, now⟩ := by
  unfold register
  cases h : checkRegistration C now body with
  | error r => exact .inl rfl
  | ok reg =>
    cases d with
    | none => exact .inr (.inr ⟨reg, rfl, rfl, rfl⟩)
    | some rec =>
      dsimp only
      split
      · exact .inl rfl
      · exact .inr (.inl ⟨rec, rfl, rfl⟩)

-- ---------------------------------------------------------------------------
-- What holds in every state
-- ---------------------------------------------------------------------------

structure Registry.Spends (C : Subtle) (s : Registry) : Prop where
  live : ∀ id c, s.challenges id = some c →
    c.challengeID = id ∧ id ∈ s.created ∧ (c.consumedAt = none → id ∉ s.spent)
  created : ∀ id ∈ s.spent, id ∈ s.created
  once : s.spent.Nodup
  valid : ∀ k ∈ s.consumptions, k.Valid C

/-- The agents: each record is its agent's own, and no two are paid with one
challenge. -/
structure Registry.Paid (C : Subtle) (s : Registry) : Prop where
  once : s.payments.Nodup
  spent : ∀ id ∈ s.payments, id ∈ s.spent
  addressed : ∀ f ∈ s.inFlight, submitted f.body (js "agent_id") = f.agentID
  records : ∀ id rec, s.agents id = some rec →
    rec.SelfCertifying C id ∧ ∃ k ∈ s.creations, k.agentID = id

namespace Registry

variable {s : Registry}

theorem Spends.create {id : JsString} (h : s.Spends C) (hfresh : id ∉ s.created) :
    (s.create bits id powPrefix now).Spends C := by
  have hspent : id ∉ s.spent := fun hid => hfresh (h.created id hid)
  refine ⟨fun id' c hc => ?_, fun id' hid => List.mem_cons_of_mem _ (h.created id' hid), h.once,
    h.valid⟩
  simp only [Registry.create, Function.update_apply] at hc
  split at hc
  · rename_i heq
    cases hc
    exact ⟨heq.symm, heq ▸ List.mem_cons_self, fun _ => heq ▸ hspent⟩
  · obtain ⟨hname, hcreated, hfree⟩ := h.live id' c hc
    exact ⟨hname, List.mem_cons_of_mem _ hcreated, hfree⟩

theorem Spends.alarm (h : s.Spends C) (id : JsString) :
    Spends C { s with challenges := Function.update s.challenges id none } := by
  refine ⟨fun id' c hc => ?_, h.created, h.once, h.valid⟩
  simp only [Function.update_apply] at hc
  split at hc
  · cases hc
  · exact h.live id' c hc

theorem consume_cases (sub : Submission) (now : Int) (reparsed : Record) (s : Registry) :
    s.consume C sub now reparsed = s ∨
    ∃ c, ChallengeDO.checkConsume C now sub.powNonce (s.challenges sub.challengeID) = .ok c ∧
      s.consume C sub now reparsed =
        { s with
          challenges := Function.update s.challenges sub.challengeID
            (some { c with consumedAt := some now })
          inFlight := ⟨sub.agentID, sub.challengeID, reparsed⟩ :: s.inFlight
          consumptions := ⟨c, sub.powNonce, now⟩ :: s.consumptions } := by
  rcases ChallengeDO.consume_cases (C := C) now sub.powNonce (s.challenges sub.challengeID) with
    ⟨hno, hsame⟩ | ⟨c, hcheck, hok, hspent⟩
  · left
    simp only [consume, hno, hsame, Function.update_eq_self, Bool.false_eq_true, if_false]
  · refine .inr ⟨c, hcheck, ?_⟩
    obtain ⟨hc, -⟩ := ChallengeDO.checkConsume_eq_ok hcheck
    simp only [consume, hok, hspent, if_true]
    rw [hc]
    rfl

theorem Spends.consume (h : s.Spends C) (sub : Submission) (now : Int) (reparsed : Record) :
    (s.consume C sub now reparsed).Spends C := by
  rcases consume_cases sub now reparsed s with hsame | ⟨c, hcheck, hspent⟩
  · rw [hsame]
    exact h
  · obtain ⟨hc, hnow, hfree, hpow⟩ := ChallengeDO.checkConsume_eq_ok hcheck
    obtain ⟨hname, hcreated, hunspent⟩ := h.live _ _ hc
    rw [hspent]
    refine ⟨fun id c' hc' => ?_, ?_, ?_, ?_⟩
    · simp only [Function.update_apply] at hc'
      split at hc'
      · rename_i heq
        cases hc'
        exact ⟨heq ▸ hname, heq ▸ hcreated, fun hnone => nomatch hnone⟩
      · rename_i hne
        obtain ⟨hname', hcreated', hunspent'⟩ := h.live _ _ hc'
        refine ⟨hname', hcreated', fun hnone hmem => ?_⟩
        rcases List.mem_cons.mp hmem with heq | hmem
        · exact hne (heq.trans hname)
        · exact hunspent' hnone hmem
    · rintro id hid
      rcases List.mem_cons.mp hid with rfl | hid
      · exact hname ▸ hcreated
      · exact h.created id hid
    · have hnew : c.challengeID ∉ s.spent := hname ▸ hunspent hfree
      exact List.nodup_cons.mpr ⟨hnew, h.once⟩
    · rintro k hk
      rcases List.mem_cons.mp hk with rfl | hk
      · exact ⟨hnow, hpow⟩
      · exact h.valid k hk

theorem Paid.consume (h : s.Paid C) (hs : s.Spends C) (hread : readSubmission allowed req = .ok sub)
    (hsent : restringifiesMembers sub.body reparsed = true) :
    (s.consume C sub now reparsed).Paid C := by
  rcases consume_cases sub now reparsed s with hsame | ⟨c, hcheck, hspent⟩
  · rw [hsame]
    exact h
  · obtain ⟨hc, -, hfree, -⟩ := ChallengeDO.checkConsume_eq_ok hcheck
    obtain ⟨hname, -, hunspent⟩ := hs.live _ _ hc
    obtain ⟨hsub, hre⟩ := readSubmission_eq_ok hread
    rw [hspent]
    refine ⟨?_, ?_, ?_, h.records⟩
    · exact List.nodup_cons.mpr ⟨fun hmem => hunspent hfree (h.spent _ hmem), h.once⟩
    · rintro id hid
      rcases List.mem_cons.mp hid with rfl | hid
      · exact hname ▸ List.mem_cons_self
      · exact List.mem_cons_of_mem _ (h.spent id hid)
    · rintro f hf
      rcases List.mem_cons.mp hf with rfl | hf
      · have hne : submitted sub.body (js "agent_id") ≠ [] := by
          rw [hsub]
          intro hnil
          rw [hnil] at hre
          cases hre
        exact (submitted_restringified hsent hne).trans hsub
      · exact h.addressed f hf

theorem inFlight_perm (h : s.inFlight[i]? = some f) :
    (f :: s.inFlight.eraseIdx i).Perm s.inFlight := by
  obtain ⟨hi, rfl⟩ := List.getElem?_eq_some_iff.mp h
  exact List.getElem_cons_eraseIdx_perm hi

/-- An arrival touches records that are there without changing what they say,
or creates one. -/
theorem register_cases (i : Nat) (f : InFlight) (now : Int) (s : Registry) :
    ((s.register C i f now).creations = s.creations ∧
      ∀ id, Option.Rel AgentRecord.Same (s.agents id) ((s.register C i f now).agents id)) ∨
    ∃ reg, s.agents f.agentID = none ∧ AgentDO.checkRegistration C now f.body = .ok reg ∧
      (s.register C i f now).creations = ⟨f.agentID, f.challengeID⟩ :: s.creations ∧
      (s.register C i f now).agents = Function.update s.agents f.agentID
        (some ⟨reg.agentID, b64uEncode reg.publicKey, now, now⟩) := by
  rcases AgentDO.register_cases (C := C) now f.body (s.agents f.agentID) with
    hsame | ⟨rec, hrec, hseen⟩ | ⟨reg, hnone, hcheck, hnew⟩
  · refine .inl ⟨?_, fun id => ?_⟩
    · simp only [register, hsame]
      cases s.agents f.agentID <;> rfl
    · simp only [register, hsame, Function.update_eq_self]
      exact AgentRecord.same_refl _
  · refine .inl ⟨?_, fun id => ?_⟩
    · simp only [register, hrec, Option.isNone_some, Bool.false_and, Bool.false_eq_true, if_false]
    · simp only [register, hseen, Function.update_apply]
      split
      · rename_i heq
        rw [heq, hrec]
        exact .some ⟨rfl, rfl⟩
      · exact AgentRecord.same_refl _
  · refine .inr ⟨reg, hnone, hcheck, ?_, ?_⟩
    · simp only [register, hnew, Option.isSome_some, Bool.and_true]
      rw [hnone]
      rfl
    · simp only [register, hnew]

theorem Paid.register (h : s.Paid C) (hf : s.inFlight[i]? = some f) :
    (s.register C i f now).Paid C := by
  have hperm := inFlight_perm hf
  have hrest : ∀ g ∈ s.inFlight.eraseIdx i, g ∈ s.inFlight :=
    fun g hg => hperm.subset (List.mem_cons_of_mem _ hg)
  -- The arrival moves its payment, or drops it.
  have hpaid : (f.challengeID :: ((s.inFlight.eraseIdx i).map (·.challengeID) ++
      s.creations.map (·.challengeID))).Perm s.payments :=
    (hperm.map (·.challengeID)).append_right _
  rcases register_cases (C := C) i f now s with ⟨hcreations, hagents⟩ |
    ⟨reg, hnone, hcheck, hcreations, hagents⟩
  · refine ⟨?_, ?_, fun g hg => h.addressed g (hrest g hg), fun id rec hrec => ?_⟩
    · rw [payments, hcreations]
      exact (List.nodup_cons.mp (hpaid.nodup_iff.mpr h.once)).2
    · rw [payments, hcreations]
      exact fun id hid => h.spent id (hpaid.subset (List.mem_cons_of_mem _ hid))
    · obtain ⟨old, hold, hid, hkey⟩ := AgentRecord.same_of_some (hrec ▸ hagents id)
      obtain ⟨⟨hname, key, hdec, hown⟩, hk⟩ := h.records id old hold
      rw [hcreations]
      exact ⟨⟨hid.trans hname, key, hkey ▸ hdec, hown⟩, hk⟩
  · have hmoved : (s.register C i f now).payments.Perm s.payments := by
      rw [payments, hcreations, List.map_cons]
      exact List.perm_middle.trans hpaid
    refine ⟨hmoved.nodup_iff.mpr h.once, fun id hid => h.spent id (hmoved.subset hid),
      fun g hg => h.addressed g (hrest g hg), fun id rec hrec => ?_⟩
    rw [hagents, Function.update_apply] at hrec
    split at hrec
    · rename_i heq
      cases hrec
      obtain ⟨hown, hne, hread⟩ := AgentDO.checkRegistration_eq_ok hcheck
      have hname : reg.agentID = id := by
        rw [heq, ← h.addressed f (hperm.subset List.mem_cons_self), hread]
      rw [hcreations]
      exact ⟨⟨hname, reg.publicKey, b64uDecode_b64uEncode hne, hname ▸ hown⟩, _,
        List.mem_cons_self, heq.symm⟩
    · obtain ⟨hown, k, hk, hid⟩ := h.records id rec hrec
      rw [hcreations]
      exact ⟨hown, k, List.mem_cons_of_mem _ hk, hid⟩

structure Unpaid (s t : Registry) : Prop where
  agents : t.agents = s.agents
  inFlight : t.inFlight = s.inFlight
  spent : t.spent = s.spent
  creations : t.creations = s.creations

theorem Paid.of_unpaid (h : s.Paid C) (ht : Unpaid s t) : t.Paid C := by
  obtain ⟨hagents, hflight, hspent, hcreations⟩ := ht
  have hpayments : t.payments = s.payments := by rw [payments, payments, hflight, hcreations]
  refine ⟨hpayments ▸ h.once, ?_, hflight ▸ h.addressed, ?_⟩
  · rw [hpayments, hspent]
    exact h.spent
  · rw [hagents, hcreations]
    exact h.records

theorem step_invariant (hs : s.Spends C) (h : s.Paid C) (hok : FreshIDs s op)
    (hstep : s.step C number op = some t) : t.Spends C ∧ t.Paid C := by
  cases op with
  | create env raw powPrefix now =>
    cases hstep
    exact ⟨hs.create hok, h.of_unpaid ⟨rfl, rfl, rfl, rfl⟩⟩
  | submit allowed req now reparsed =>
    cases hread : readSubmission allowed req with
    | error r =>
      simp only [step, hread, Option.some.injEq] at hstep
      exact hstep ▸ ⟨hs, h⟩
    | ok sub =>
      simp only [step, hread] at hstep
      split at hstep
      · rename_i hsent
        cases hstep
        exact ⟨hs.consume sub now reparsed, h.consume hs hread hsent⟩
      · cases hstep
  | register i now =>
    obtain ⟨f, hf, rfl⟩ := Option.map_eq_some_iff.mp hstep
    exact ⟨⟨hs.live, hs.created, hs.once, hs.valid⟩, h.register hf⟩
  | alarm id now =>
    cases hstep
    exact ⟨hs.alarm id, h.of_unpaid ⟨rfl, rfl, rfl, rfl⟩⟩

theorem step_keeps {id : JsString} (hstep : s.step C number op = some t)
    (hr : s.agents id = some r) :
    ∃ r', t.agents id = some r' ∧ r.Same r' := by
  have hsame : s.agents = t.agents → ∃ r', t.agents id = some r' ∧ r.Same r' := by
    intro heq
    exact ⟨r, heq ▸ hr, rfl, rfl⟩
  cases op with
  | create env raw powPrefix now =>
    cases hstep
    exact hsame rfl
  | submit allowed req now reparsed =>
    cases hread : readSubmission allowed req with
    | error _ =>
      simp only [step, hread, Option.some.injEq] at hstep
      exact hsame (hstep ▸ rfl)
    | ok sub =>
      simp only [step, hread] at hstep
      split at hstep
      · cases hstep
        rcases consume_cases (C := C) sub now reparsed s with hno | ⟨c, -, hspent⟩
        · exact hsame (by rw [hno])
        · exact hsame (by rw [hspent])
      · cases hstep
  | register i now =>
    obtain ⟨f, -, rfl⟩ := Option.map_eq_some_iff.mp hstep
    rcases register_cases (C := C) i f now s with ⟨-, hagents⟩ | ⟨reg, hnone, -, -, hagents⟩
    · have hrel := hagents id
      rw [hr] at hrel
      cases h : (s.register C i f now).agents id with
      | none =>
        rw [h] at hrel
        cases hrel
      | some r' =>
        rw [h] at hrel
        cases hrel with
        | some hkeep => exact ⟨r', rfl, hkeep⟩
    · have hne : id ≠ f.agentID := by
        rintro rfl
        rw [hnone] at hr
        cases hr
      rw [hagents, Function.update_of_ne hne]
      exact ⟨r, hr, rfl, rfl⟩
  | alarm =>
    cases hstep
    exact hsame rfl

end Registry

/-- In every state that is reached with fresh challenge ids the record at an
agent's object is the agent's own and never changes, no challenge is spent
twice, and every record has a challenge to itself that was spent on a proof of
work in time. -/
theorem agents_paid_for (hs : (registering C number).Reachable FreshIDs s) :
    (∀ id r, s.agents id = some r → r.SelfCertifying C id) ∧
    (∀ t id r, (registering C number).Run FreshIDs s t → s.agents id = some r →
      ∃ r', t.agents id = some r' ∧ r'.agentID = r.agentID ∧ r'.publicKey = r.publicKey) ∧
    s.spent.Nodup ∧
    ∃ paid : JsString → Consumption,
      Set.InjOn (fun id => (paid id).challenge.challengeID) {id | (s.agents id).isSome} ∧
      ∀ id, (s.agents id).isSome → paid id ∈ s.consumptions ∧ (paid id).Valid C := by
  have hinv : s.Spends C ∧ s.Paid C := by
    refine hs.invariant (I := fun s => s.Spends C ∧ s.Paid C) ?_ ?_
    · rintro s rfl
      exact ⟨⟨nofun, nofun, .nil, nofun⟩, ⟨.nil, nofun, nofun, nofun⟩⟩
    · rintro s op t ⟨hspends, hpaid⟩ hok hstep
      exact Registry.step_invariant hspends hpaid hok hstep
  obtain ⟨hspends, hpaid⟩ := hinv
  refine ⟨fun id r hr => (hpaid.records id r hr).1, ?_, hspends.once, ?_⟩
  · intro t id r hrun hr
    refine hrun.relates (R := fun s t => ∀ id r, s.agents id = some r →
      ∃ r', t.agents id = some r' ∧ r.Same r') ?_ ?_ ?_ hs id r hr
    · exact fun s id r hr => ⟨r, hr, rfl, rfl⟩
    · intro s t u hst htu id r hr
      obtain ⟨r', hr', hid, hkey⟩ := hst id r hr
      obtain ⟨r'', hr'', hid', hkey'⟩ := htu id r' hr'
      exact ⟨r'', hr'', hid'.trans hid, hkey'.trans hkey⟩
    · exact fun s op t _ _ hstep id r hr => Registry.step_keeps hstep hr
  · -- Each record's creation names a challenge, and that one was spent.
    have hpay : ∀ id, (s.agents id).isSome → ∃ k, k ∈ s.consumptions ∧
        ⟨id, k.challenge.challengeID⟩ ∈ s.creations := by
      intro id hid
      obtain ⟨r, hr⟩ := Option.isSome_iff_exists.mp hid
      obtain ⟨-, c, hc, rfl⟩ := hpaid.records id r hr
      have hmem : c.challengeID ∈ s.payments :=
        List.mem_append_right _ (List.mem_map_of_mem hc)
      obtain ⟨k, hk, hname⟩ := List.mem_map.mp (hpaid.spent _ hmem)
      exact ⟨k, hk, hname ▸ hc⟩
    choose! paid hmem hcreated using hpay
    refine ⟨paid, fun id hid id' hid' heq => ?_, fun id hid =>
      ⟨hmem id hid, hspends.valid _ (hmem id hid)⟩⟩
    have hnodup : (s.creations.map (·.challengeID)).Nodup := hpaid.once.of_append_right
    exact congrArg Creation.agentID
      (List.inj_on_of_nodup_map hnodup (hcreated id hid) (hcreated id' hid') heq)

namespace Sample

def agentKey : JsString := js "gTl3Dqh9F19Wo1Rmw0x-zMuNipG07jeiXfYPW4_Js5Q"
def agentName : JsString := js "a_ni4ahvpqlgicuhdnv66jxjdssijppsvm"

/-- The digest of the key, and that of the answer to the challenge. The one
signature is good. -/
def registrySubtle : Subtle where
  sha256 b :=
    if b = decoded "gTl3Dqh9F19Wo1Rmw0x-zMuNipG07jeiXfYPW4_Js5Q" then
      decoded "ajgD1fBZkCocba-8m6RykhL3yqwIY0zDrnaydSnwOCc"
    else decoded "AAAFvQ2SFEF2440vEX2f-CF31TCz_G6QbZo6raxuuHQ"
  ed25519Verify _ _ _ := true

def agentBody : Record := [
  (js "registration", .obj [
    (js "version", .num (.integer 1)),
    (js "agent_id", .str agentName),
    (js "public_key", .str agentKey),
    (js "challenge_id", .str (js "c_aaaqeayeaudaocajbifqydiob4")),
    (js "pow_nonce", .str (js "27074")),
    (js "timestamp", .num (.integer 1700000000))]),
  (js "signature", .str (js
    "RPyQkqadfLFKkHmm0KNW4kOTWSZ0VNRM4uROIXDsJkIceyywb-37d5USOF-MRFuSvK0T58GFrP1HDo8BK5RsBg"))]

def agentPost : Request where
  method := .post
  seg := [js "agents"]
  contentLength := none
  size := 500
  json := some (.obj agentBody)
  headers := ⟨false, none, none, none⟩

/-- One agent registers; the second submission comes too late for the
challenge. -/
def oneAgent : List RegistryOp := [
  .create ⟨none, none⟩ (decoded "AAECAwQFBgcICQoLDA0ODw") (decoded "EBESExQVFhcYGRobHB0eHw")
    1700000000,
  .submit true agentPost 1700000010 agentBody,
  .submit true agentPost 1700000011 agentBody,
  .register 0 1700000012,
  .alarm (js "c_aaaqeayeaudaocajbifqydiob4") 1700000660]

end Sample

theorem agents_paid_for_sample : ∃ s, (registering Sample.registrySubtle fun _ => .other).Reachable
    FreshIDs s ∧ (s.agents Sample.agentName).map (·.publicKey) = some Sample.agentKey ∧
    ∃ k ∈ s.consumptions, k.Valid Sample.registrySubtle := by
  have hsome : ((registering Sample.registrySubtle fun _ => .other).exec FreshIDs .empty
      Sample.oneAgent).any (fun s =>
        (s.agents Sample.agentName).map (·.publicKey) = some Sample.agentKey) = true := by
    decide +kernel
  obtain ⟨s, hexec, hs⟩ := Option.any_eq_true .. |>.mp hsome
  have hkey := of_decide_eq_true hs
  have hinit : (registering Sample.registrySubtle fun _ => .other).Init .empty := rfl
  have hreach := (Machine.Reachable.of_init hinit).run (.of_exec hexec)
  obtain ⟨-, -, -, paid, -, hpaid⟩ := agents_paid_for hreach
  have hthere : (s.agents Sample.agentName).isSome = true := by
    obtain ⟨r, hr, -⟩ := Option.map_eq_some_iff.mp hkey
    exact Option.isSome_of_eq_some hr
  exact ⟨s, hreach, hkey, _, hpaid _ hthere⟩

end Grantd.Service
