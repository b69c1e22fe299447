import Grantd.Base.Machine
import Grantd.Service.Forward

/-!
# Answers to forwarded redemptions

`forwardToHost`, `settle` and the socket handlers of
cloudflare/src/durable-objects/host.ts. Frames of the host, timeouts, failed
sends and closed sockets race for the entries of one map; an event runs to its
end before the next one. A promise is the list of the answers `resolve` was
called with. `JSON.parse` is a parameter.
-/

namespace Grantd.Service

open Base

inductive RedemptionStatus
  | pending
  | issued
  | rejected
  | malformed
  | timeout
  | dropped
  | late
  deriving DecidableEq, Repr

structure Redemption extends RedemptionRow where
  completedAt : Option Int
  status : RedemptionStatus

inductive Reply
  | error (r : Response)
  | relayed (body : Bytes) (status : Int)

/-- An entry of `pending`. -/
structure Waiter where
  requestID : JsString
  socketID : Int
  deriving DecidableEq, Repr

/-- An accepted socket, and the connect time its attachment holds. -/
structure Socket where
  handle : Nat
  connectedAt : Option Int
  deriving DecidableEq, Repr

def Socket.socketID (ws : Socket) : Int := ws.connectedAt.getD 0

structure Relay where
  object : HostDO
  waiting : Table Waiter.requestID
  redemptions : Table fun r : Redemption => r.requestID
  resolved : List (JsString × Reply)

inductive SocketMessage
  | binary
  | text (s : JsString)
  deriving DecidableEq, Repr

def maxFrameChars : Nat := 128 * 1024

def dropped : Reply := .error (errorResponse .hostOffline "the host connection dropped")
def timedOut : Reply := .error (errorResponse .hostTimeout "the host did not answer in time")

-- ---------------------------------------------------------------------------
-- Frames
-- ---------------------------------------------------------------------------

/-- The object a message parses to. A property of any other value is undefined,
and of null it is an error that nobody catches. -/
def hostFrame (parse : JsString → Option Json) : SocketMessage → Option Record
  | .binary => none
  | .text text =>
    if maxFrameChars < text.length then none
    else match parse text with
      | some (.obj frame) => some frame
      | _ => none

def frameText (frame : Record) (key : String) : Option JsString :=
  match frame.get (js key) with
  | some (.str s) => some s
  | _ => none

/-- The frame of `forwardToHost`. No character of it needs an escape. -/
def requestFrame (requestID raw : JsString) : JsString :=
  js "\x7b\"t\":\"redeem.request\",\"id\":\"" ++ requestID ++ js "\",\"body_b64\":\"" ++
    b64uEncode (textEncode raw) ++ js "\"\x7d"

def noBodyStatuses : List Int := [204, 205, 304]

def malformed : Reply × RedemptionStatus :=
  (.error (errorResponse .internal "malformed response from host"), .malformed)

/-- `Response` accepts every status from 200 to 599. -/
def hostResponse (frame : Record) : Reply × RedemptionStatus :=
  match frame.get (js "status") with
  | some (.num (.integer status)) =>
    if status < 200 || 599 < status || status ∈ noBodyStatuses then malformed
    else
      match b64uDecode ((frameText frame "body_b64").getD []) with
      | none => malformed
      | some body => (.relayed body status, if status = 200 then .issued else .rejected)
  | _ => malformed

-- ---------------------------------------------------------------------------
-- The handlers
-- ---------------------------------------------------------------------------

namespace Relay

def complete (now : Int) (status : RedemptionStatus) (r : Redemption) : Redemption :=
  { r with completedAt := some now, status }

def setStatus (p : JsString → Bool) (f : Redemption → Redemption)
    (hf : ∀ r, (f r).requestID = r.requestID) (s : Relay) : Relay :=
  { s with redemptions := s.redemptions.update (fun r => if p r.requestID then f r else r) (by
      intro r
      split
      · exact hf r
      · rfl) }

def settle (now : Int) (requestID : JsString) (status : RedemptionStatus) (reply : Reply)
    (s : Relay) : Relay :=
  match s.waiting.get? requestID with
  | none => s
  | some _ =>
    { s.setStatus (· = requestID) (complete now status) (fun _ => rfl) with
      waiting := s.waiting.delete (·.requestID = requestID)
      resolved := (requestID, reply) :: s.resolved }

/-- The end of `redeem`: the row and `forwardToHost`. An id that is taken fails
the `INSERT`. -/
def forward (now : Int) (ws : Socket) (row : RedemptionRow) (sends : Bool) (s : Relay) : Relay :=
  match s.redemptions.insert { row with completedAt := none, status := .pending } with
  | none => s
  | some redemptions =>
    let s := { s with redemptions, waiting := s.waiting.put ⟨row.requestID, ws.socketID⟩ }
    if sends then s else settle now row.requestID .dropped dropped s

def markLate (requestID : JsString) (s : Relay) : Relay :=
  s.setStatus (· = requestID)
    (fun r => if r.status = .timeout then { r with status := .late } else r) (by
      intro r
      split <;> rfl)

def webSocketMessage (parse : JsString → Option Json) (now : Int) (message : SocketMessage)
    (s : Relay) : Relay :=
  match hostFrame parse message with
  | none => s
  | some frame =>
    match frameText frame "t" with
    | none => s
    | some t =>
      if t = js "pong" then { s with object := s.object.touch now }
      else if t = js "redeem.response" then
        match frameText frame "id" with
        | none => s
        | some id =>
          if (s.waiting.get? id).isNone then s.markLate id
          else s.settle now id (hostResponse frame).2 (hostResponse frame).1
      else s

def webSocketClose (now : Int) (ws : Socket) (s : Relay) : Relay :=
  match ws.connectedAt with
  | none => s
  | some connectedAt =>
    ((s.waiting.rows.filter (·.socketID = connectedAt)).map (·.requestID)).foldl
      (fun s id => s.settle now id .dropped Service.dropped) s

end Relay

-- ---------------------------------------------------------------------------
-- The object's events
-- ---------------------------------------------------------------------------

/-- The relay, the sockets it has accepted and, for the record, the one each
request was sent on. -/
structure RelayState where
  relay : Relay
  sockets : List Socket
  sentOn : List (JsString × Socket)

inductive RelayEvent
  | accept (ws : Socket)
  | forward (now : Int) (ws : Socket) (row : RedemptionRow) (sends : Bool)
  | message (now : Int) (ws : Socket) (message : SocketMessage)
  | timeout (now : Int) (requestID : JsString)
  | close (now : Int) (ws : Socket)

variable (parse : JsString → Option Json)

def relayStep (s : RelayState) : RelayEvent → RelayState
  | .accept ws => { s with sockets := ws :: s.sockets }
  | .forward now ws row sends => { s with
      relay := s.relay.forward now ws row sends
      sentOn := (row.requestID, ws) :: s.sentOn }
  | .message now _ message => { s with relay := s.relay.webSocketMessage parse now message }
  | .timeout now requestID => { s with relay := s.relay.settle now requestID .timeout timedOut }
  | .close now ws => { s with relay := s.relay.webSocketClose now ws }

def relaying : Machine RelayState RelayEvent where
  Init s := s.relay.waiting = .empty ∧ s.relay.redemptions = .empty ∧ s.relay.resolved = [] ∧
    s.sockets = [] ∧ s.sentOn = []
  step s e := some (relayStep parse s e)

/-- Accepted sockets have connect times that differ, requests go out on accepted
sockets, and their ids are fresh. -/
def Orderly (s : RelayState) : RelayEvent → Prop
  | .accept ws => ws.connectedAt.isSome = true ∧ ∀ ws' ∈ s.sockets, ws'.connectedAt ≠ ws.connectedAt
  | .forward _ ws row _ => ws ∈ s.sockets ∧
      ∀ r ∈ s.relay.redemptions.rows, r.requestID ≠ row.requestID
  | .close _ ws => ws ∈ s.sockets
  | .message .. | .timeout .. => True

/-- The frame a message carries, when it is a `redeem.response` with an id. -/
def responseFrame (message : SocketMessage) : Option (JsString × Record) := do
  let frame ← hostFrame parse message
  let t ← frameText frame "t"
  guard (t = js "redeem.response")
  let id ← frameText frame "id"
  pure (id, frame)

/-- The event settles a request, with this reply and this row: its own frame, its
own timeout, or the failure or close of the socket it was sent on. -/
inductive Settles (s : RelayState) : RelayEvent → JsString → Reply → RedemptionStatus → Prop
  | frame {id : JsString} {frame : Record} : responseFrame parse message = some (id, frame) →
      Settles s (.message now ws message) id (hostResponse frame).1 (hostResponse frame).2
  | timeout (id : JsString) : Settles s (.timeout now id) id timedOut .timeout
  | unsent : Settles s (.forward now ws row false) row.requestID dropped .dropped
  | closed {id : JsString} : (id, ws) ∈ s.sentOn → Settles s (.close now ws) id dropped .dropped

-- ---------------------------------------------------------------------------
-- What an event does
-- ---------------------------------------------------------------------------

namespace Relay

def settled (now : Int) (ids : List JsString) (status : RedemptionStatus) (reply : Reply)
    (s : Relay) : Relay :=
  { s.setStatus (· ∈ ids) (complete now status) (fun _ => rfl) with
    waiting := s.waiting.delete (·.requestID ∈ ids)
    resolved := ids.reverse.map (·, reply) ++ s.resolved }

def isWaiting (s : Relay) (id : JsString) : Bool := (s.waiting.get? id).isSome

variable {s : Relay} {id : JsString} {ids : List JsString}

theorem settle_eq (h : s.isWaiting id = true) :
    s.settle now id status reply = s.settled now [id] status reply := by
  obtain ⟨w, hw⟩ := Option.isSome_iff_exists.mp h
  simp only [settle, hw, settled, setStatus, List.mem_singleton, List.reverse_singleton,
    List.map_cons, List.map_nil, List.singleton_append]

theorem settle_of_not_waiting (h : s.isWaiting id = false) :
    s.settle now id status reply = s := by
  have hnone : s.waiting.get? id = none := by simpa [isWaiting] using h
  simp only [settle, hnone]

theorem isWaiting_settled : (settled now ids status reply s).isWaiting id =
    (s.isWaiting id && id ∉ ids) := by
  simp only [isWaiting, settled, Table.get?_delete]
  cases hget : s.waiting.get? id with
  | none => rfl
  | some w =>
    cases Table.key_get? hget
    by_cases hmem : w.requestID ∈ ids
    · simp [Option.filter, hmem]
    · simp [Option.filter, hmem]

theorem settled_nil (s : Relay) : s.settled now [] status reply = s := by
  simp [settled, setStatus, Table.delete, Table.update]

theorem settled_cons (s : Relay) : (s.settled now [id] status reply).settled now ids status reply =
    s.settled now (id :: ids) status reply := by
  simp only [settled, setStatus, Table.delete, Table.update, List.mem_cons,
    List.reverse_cons, List.reverse_nil, List.nil_append, List.map_append, List.map_cons,
    List.map_nil, List.append_assoc, List.filter_filter, List.map_map, Function.comp_def]
  congr 2
  · exact List.filter_congr fun w _ => by simp [Bool.and_comm]
  · refine List.map_congr_left fun r _ => ?_
    by_cases h : r.requestID = id
    · simp [h, complete]
    · simp [h]

theorem foldl_settle (ids : List JsString) (hn : ids.Nodup)
    (h : ∀ id ∈ ids, s.isWaiting id = true) :
    ids.foldl (fun s id => s.settle now id status reply) s = s.settled now ids status reply := by
  induction ids generalizing s with
  | nil => exact (settled_nil s).symm
  | cons id ids ih =>
    obtain ⟨hid, hn⟩ := List.nodup_cons.mp hn
    rw [List.foldl_cons, settle_eq (h id List.mem_cons_self), ih hn, settled_cons]
    intro id' hid'
    have hne : id' ≠ id := fun heq => hid (heq ▸ hid')
    simp [isWaiting_settled, h id' (List.mem_cons_of_mem _ hid'), hne]

theorem isWaiting_iff : s.isWaiting id = true ↔ ∃ w ∈ s.waiting.rows, w.requestID = id := by
  simp only [isWaiting, Option.isSome_iff_exists, Table.get?_eq_some]

theorem webSocketClose_eq (s : Relay) (now : Int) (h : ws.connectedAt = some at') :
    ∃ ids : List JsString,
    s.webSocketClose now ws = s.settled now ids .dropped Service.dropped ∧ ids.Nodup ∧
    ∀ id, id ∈ ids ↔ ∃ w ∈ s.waiting.rows, w.requestID = id ∧ w.socketID = at' := by
  have hmem (id : JsString) : id ∈ (s.waiting.rows.filter (·.socketID = at')).map (·.requestID) ↔
      ∃ w ∈ s.waiting.rows, w.requestID = id ∧ w.socketID = at' := by
    simp only [List.mem_map, List.mem_filter, decide_eq_true_eq]
    constructor
    · rintro ⟨w, ⟨hw, hat⟩, hid⟩
      exact ⟨w, hw, hid, hat⟩
    · rintro ⟨w, hw, hid, hat⟩
      exact ⟨w, ⟨hw, hat⟩, hid⟩
  have hn : ((s.waiting.rows.filter (·.socketID = at')).map (·.requestID)).Nodup :=
    s.waiting.distinct.sublist (List.filter_sublist.map _)
  refine ⟨_, ?_, hn, hmem⟩
  simp only [webSocketClose, h]
  refine foldl_settle _ hn fun id hid => ?_
  obtain ⟨w, hw, hid, -⟩ := (hmem id).mp hid
  exact isWaiting_iff.mpr ⟨w, hw, hid⟩

theorem responseFrame_eq {frame : Record} (hframe : hostFrame parse message = some frame)
    (ht : frameText frame "t" = some t) : responseFrame parse message =
      if t = js "redeem.response" then (frameText frame "id").map (·, frame) else none := by
  unfold responseFrame
  rw [hframe, Option.bind_eq_bind, Option.bind_some, ht, Option.bind_eq_bind, Option.bind_some,
    guard]
  split
  · cases frameText frame "id" <;> rfl
  · rfl

/-- A message settles the request it has a frame for, marks one late, or leaves
requests alone. -/
theorem webSocketMessage_cases (parse : JsString → Option Json) (now : Int)
    (message : SocketMessage) (s : Relay) :
    (∃ object, s.webSocketMessage parse now message = { s with object } ∧
      responseFrame parse message = none) ∨
    ∃ id frame, responseFrame parse message = some (id, frame) ∧
      s.webSocketMessage parse now message =
        if s.isWaiting id then s.settled now [id] (hostResponse frame).2 (hostResponse frame).1
        else s.markLate id := by
  unfold webSocketMessage
  cases hframe : hostFrame parse message with
  | none =>
    refine .inl ⟨s.object, rfl, ?_⟩
    unfold responseFrame
    rw [hframe]
    rfl
  | some frame =>
    dsimp only
    cases ht : frameText frame "t" with
    | none =>
      refine .inl ⟨s.object, rfl, ?_⟩
      unfold responseFrame
      rw [hframe, Option.bind_eq_bind, Option.bind_some, ht]
      rfl
    | some t =>
      have hread := responseFrame_eq parse hframe ht
      dsimp only
      split
      · rename_i hpong
        have hne : t ≠ js "redeem.response" := hpong ▸ by decide
        exact .inl ⟨_, rfl, hread.trans (if_neg hne)⟩
      · split
        · rename_i hresp
          rw [if_pos hresp] at hread
          cases hid : frameText frame "id" with
          | none => exact .inl ⟨s.object, rfl, by rw [hread, hid]; rfl⟩
          | some id =>
            refine .inr ⟨id, frame, by rw [hread, hid]; rfl, ?_⟩
            cases hw : s.isWaiting id with
            | true =>
              have hsome : ¬ (s.waiting.get? id).isNone = true := by
                simpa [isWaiting, Option.isSome_iff_ne_none] using hw
              simp only [hsome, if_true]
              exact settle_eq hw
            | false =>
              have hnone : (s.waiting.get? id).isNone = true := by simpa [isWaiting] using hw
              simp only [hnone, if_true]
              rfl
        · rename_i hresp
          exact .inl ⟨s.object, rfl, hread.trans (if_neg hresp)⟩

-- ---------------------------------------------------------------------------
-- Map, rows and promises
-- ---------------------------------------------------------------------------

/-- A request has a row, and it is pending, in the map and unanswered, or none of
the three. -/
structure Ok (s : Relay) : Prop where
  pending : ∀ r ∈ s.redemptions.rows, r.status = .pending ↔ s.isWaiting r.requestID = true
  unanswered : ∀ r ∈ s.redemptions.rows,
    s.isWaiting r.requestID = true ↔ ∀ reply, (r.requestID, reply) ∉ s.resolved
  known : ∀ id, s.isWaiting id = true → ∃ r ∈ s.redemptions.rows, r.requestID = id
  answered : ∀ p ∈ s.resolved, ∃ r ∈ s.redemptions.rows, r.requestID = p.1
  once : (s.resolved.map (·.1)).Nodup

theorem mem_settled_rows {r' : Redemption} :
    r' ∈ (settled now ids status reply s).redemptions.rows ↔ ∃ r ∈ s.redemptions.rows,
      (if r.requestID ∈ ids then complete now status r else r) = r' := by
  simp [settled, setStatus, Table.update]

theorem mem_markLate_rows {r' : Redemption} : r' ∈ (markLate id s).redemptions.rows ↔
    ∃ r ∈ s.redemptions.rows, (if r.requestID = id then
      if r.status = .timeout then { r with status := .late } else r else r) = r' := by
  simp [markLate, setStatus, Table.update]

theorem requestID_settled_row (r : Redemption) :
    (if r.requestID ∈ ids then complete now status r else r).requestID = r.requestID := by
  split <;> rfl

theorem mem_settled_resolved {p : JsString × Reply} :
    p ∈ (settled now ids status reply s).resolved ↔
      p.1 ∈ ids ∧ p.2 = reply ∨ p ∈ s.resolved := by
  obtain ⟨id, reply'⟩ := p
  simp [settled, eq_comm]

theorem Ok.settled (hs : s.Ok) (hn : ids.Nodup) (hw : ∀ id ∈ ids, s.isWaiting id = true)
    (hstatus : status ≠ .pending) : (settled now ids status reply s).Ok := by
  have hunanswered : ∀ id ∈ ids, ∀ reply', (id, reply') ∉ s.resolved := by
    intro id hid
    obtain ⟨r, hr, rfl⟩ := hs.known id (hw id hid)
    exact (hs.unanswered r hr).mp (hw _ hid)
  refine ⟨?_, ?_, ?_, ?_, ?_⟩
  · intro r' hr'
    obtain ⟨r, hr, rfl⟩ := mem_settled_rows.mp hr'
    rw [requestID_settled_row, isWaiting_settled]
    by_cases hid : r.requestID ∈ ids
    · simp [hid, complete, hstatus]
    · simpa [hid] using hs.pending r hr
  · intro r' hr'
    obtain ⟨r, hr, rfl⟩ := mem_settled_rows.mp hr'
    rw [requestID_settled_row, isWaiting_settled]
    by_cases hid : r.requestID ∈ ids
    · refine iff_of_false (by simp [hid]) fun hnone => hnone reply ?_
      exact mem_settled_resolved.mpr (.inl ⟨hid, rfl⟩)
    · simpa [hid, mem_settled_resolved] using hs.unanswered r hr
  · intro id hid
    rw [isWaiting_settled, Bool.and_eq_true] at hid
    obtain ⟨r, hr, rfl⟩ := hs.known id hid.1
    exact ⟨_, mem_settled_rows.mpr ⟨r, hr, rfl⟩, requestID_settled_row r⟩
  · intro p hp
    have hrow : ∃ r ∈ s.redemptions.rows, r.requestID = p.1 := by
      rcases mem_settled_resolved.mp hp with ⟨hid, -⟩ | hold
      · exact hs.known _ (hw _ hid)
      · exact hs.answered p hold
    obtain ⟨r, hr, hid⟩ := hrow
    exact ⟨_, mem_settled_rows.mpr ⟨r, hr, rfl⟩, (requestID_settled_row r).trans hid⟩
  · have hids : (Relay.settled now ids status reply s).resolved.map (·.1) =
        ids.reverse ++ s.resolved.map (·.1) := by
      simp [Relay.settled, Function.comp_def]
    rw [hids, List.nodup_append]
    refine ⟨List.nodup_reverse.mpr hn, hs.once, ?_⟩
    rintro id hid _ hold rfl
    obtain ⟨⟨_, reply'⟩, hmem, rfl⟩ := List.mem_map.mp hold
    exact hunanswered _ (List.mem_reverse.mp hid) reply' hmem

theorem Ok.markLate (hs : s.Ok) (id : JsString) : (markLate id s).Ok := by
  have hrow (r : Redemption) : (if r.requestID = id then
      if r.status = .timeout then { r with status := .late } else r else r).requestID =
        r.requestID ∧
      ((if r.requestID = id then if r.status = .timeout then { r with status := .late } else r
        else r).status = .pending ↔ r.status = .pending) := by
    split
    · split
      · rename_i h
        simp [h]
      · exact ⟨rfl, Iff.rfl⟩
    · exact ⟨rfl, Iff.rfl⟩
  refine ⟨?_, ?_, ?_, ?_, hs.once⟩
  · intro r' hr'
    obtain ⟨r, hr, rfl⟩ := mem_markLate_rows.mp hr'
    rw [(hrow r).1, (hrow r).2]
    exact hs.pending r hr
  · intro r' hr'
    obtain ⟨r, hr, rfl⟩ := mem_markLate_rows.mp hr'
    rw [(hrow r).1]
    exact hs.unanswered r hr
  · intro id' hid'
    obtain ⟨r, hr, rfl⟩ := hs.known id' hid'
    exact ⟨_, mem_markLate_rows.mpr ⟨r, hr, rfl⟩, (hrow r).1⟩
  · intro p hp
    obtain ⟨r, hr, hid⟩ := hs.answered p hp
    exact ⟨_, mem_markLate_rows.mpr ⟨r, hr, rfl⟩, (hrow r).1.trans hid⟩

/-- The request in the map and in the table, before the frame is sent. -/
def sent (ws : Socket) (row : RedemptionRow) (rows : Table fun r : Redemption => r.requestID)
    (s : Relay) : Relay :=
  { s with redemptions := rows, waiting := s.waiting.put ⟨row.requestID, ws.socketID⟩ }

theorem isWaiting_sent {ws : Socket} {row : RedemptionRow} :
    (sent ws row rows s).isWaiting id =
      (decide (row.requestID = id) || s.isWaiting id) := by
  simp only [isWaiting, sent, Table.get?_put]
  split
  · rename_i h
    simp [h]
  · rename_i h
    simp [h]

theorem forward_eq {row : RedemptionRow} (now : Int) (ws : Socket) (sends : Bool)
    (hins : s.redemptions.insert { row with completedAt := none, status := .pending } =
      some rows) :
    s.forward now ws row sends = if sends then s.sent ws row rows
      else (s.sent ws row rows).settled now [row.requestID] .dropped Service.dropped := by
  have hw : (s.sent ws row rows).isWaiting row.requestID = true := by simp [isWaiting_sent]
  rw [← settle_eq hw]
  simp only [forward, hins, sent]

theorem Ok.sent (hs : s.Ok) {row : RedemptionRow}
    (hins : s.redemptions.insert { row with completedAt := none, status := .pending } =
      some rows) : (sent ws row rows s).Ok := by
  obtain ⟨hnone, hrows⟩ := Table.insert_eq_some hins
  have hfresh : ∀ r ∈ s.redemptions.rows, row.requestID ≠ r.requestID :=
    fun r hr heq => Table.get?_eq_none.mp hnone r hr heq.symm
  refine ⟨?_, ?_, ?_, ?_, hs.once⟩
  · intro r hr
    rw [isWaiting_sent]
    rcases List.mem_append.mp (hrows ▸ hr) with hold | hnew
    · simpa [hfresh r hold] using hs.pending r hold
    · cases List.mem_singleton.mp hnew
      simp
  · intro r hr
    rw [isWaiting_sent]
    rcases List.mem_append.mp (hrows ▸ hr) with hold | hnew
    · simpa [hfresh r hold, Relay.sent] using hs.unanswered r hold
    · cases List.mem_singleton.mp hnew
      simp only [decide_true, Bool.true_or, true_iff]
      intro reply hmem
      obtain ⟨r, hr, heq⟩ := hs.answered _ hmem
      exact hfresh r hr heq.symm
  · intro id hid
    rw [isWaiting_sent, Bool.or_eq_true, decide_eq_true_eq] at hid
    rcases hid with rfl | hold
    · exact ⟨{ row with completedAt := none, status := .pending }, by simp [Relay.sent, hrows], rfl⟩
    · obtain ⟨r, hr, rfl⟩ := hs.known id hold
      exact ⟨r, by simp [Relay.sent, hrows, hr], rfl⟩
  · intro p hp
    obtain ⟨r, hr, hid⟩ := hs.answered p hp
    exact ⟨r, by simp [Relay.sent, hrows, hr], hid⟩

end Relay

/-- What the events have in common with the sockets: an entry of the map goes by
the connect time of the one socket its request was sent on. -/
structure RelayState.Ok (s : RelayState) : Prop where
  relay : s.relay.Ok
  sockets : ∀ ws ∈ s.sockets, ∀ ws' ∈ s.sockets, ws.connectedAt = ws'.connectedAt → ws = ws'
  attached : ∀ ws ∈ s.sockets, ws.connectedAt.isSome = true
  sent : ∀ id ws, (id, ws) ∈ s.sentOn →
    ws ∈ s.sockets ∧ ∃ r ∈ s.relay.redemptions.rows, r.requestID = id
  unique : ∀ id ws ws', (id, ws) ∈ s.sentOn → (id, ws') ∈ s.sentOn → ws = ws'
  waits : ∀ w ∈ s.relay.waiting.rows,
    ∃ ws, (w.requestID, ws) ∈ s.sentOn ∧ ws.connectedAt = some w.socketID

def RelayEvent.isForward : RelayEvent → Bool
  | .forward .. => true
  | _ => false

inductive RelayMoves (s : RelayState) (e : RelayEvent) : Relay → Prop
  | object : e.isForward = false →
      (∀ id reply status, Settles parse s e id reply status → s.relay.isWaiting id = false) →
      RelayMoves s e { s.relay with object }
  | late {id : JsString} : e.isForward = false →
      (∀ id reply status, Settles parse s e id reply status → s.relay.isWaiting id = false) →
      RelayMoves s e (s.relay.markLate id)
  | sent : e = .forward now ws row true →
      s.relay.redemptions.insert { row with completedAt := none, status := .pending } = some rows →
      RelayMoves s e (s.relay.sent ws row rows)
  | unsent : e = .forward now ws row false →
      s.relay.redemptions.insert { row with completedAt := none, status := .pending } = some rows →
      RelayMoves s e ((s.relay.sent ws row rows).settled now [row.requestID] .dropped dropped)
  | settled {now : Int} {ids : List JsString} {reply : Reply} {status : RedemptionStatus} :
      e.isForward = false → ids.Nodup → (∀ id ∈ ids, s.relay.isWaiting id = true) →
      (∀ id reply' status', Settles parse s e id reply' status' ∧ s.relay.isWaiting id = true ↔
        id ∈ ids ∧ reply' = reply ∧ status' = status) →
      RelayMoves s e (s.relay.settled now ids status reply)

variable {parse} {s : RelayState}

theorem hostResponse_not_pending (frame : Record) : (hostResponse frame).2 ∈
    [.issued, .rejected, .malformed] := by
  unfold hostResponse
  split
  · split
    · simp [malformed]
    · split
      · simp [malformed]
      · split <;> simp
  · simp [malformed]

theorem Settles.status_mem {id : JsString} (h : Settles parse s e id reply status) :
    status ∈ [.issued, .rejected, .malformed, .timeout, .dropped] := by
  cases h with
  | @frame _ _ _ _ frame hf =>
    exact List.mem_append_left [.timeout, .dropped] (hostResponse_not_pending frame)
  | timeout | unsent | closed => simp

theorem insert_fresh {t : Table fun r : Redemption => r.requestID} {row : RedemptionRow}
    (h : ∀ r ∈ t.rows, r.requestID ≠ row.requestID) :
    ∃ rows, t.insert { row with completedAt := none, status := .pending } = some rows := by
  refine Option.ne_none_iff_exists'.mp fun hnone => ?_
  exact Table.insert_eq_none.mp hnone (Table.get?_eq_none.mpr h)

theorem relayStep_moves (hs : s.Ok) (ho : Orderly s e) :
    RelayMoves parse s e (relayStep parse s e).relay := by
  cases e with
  | accept ws => exact .object rfl nofun
  | forward now ws row sends =>
    obtain ⟨-, hfresh⟩ := ho
    obtain ⟨rows, hins⟩ := insert_fresh hfresh
    simp only [relayStep, Relay.forward_eq now ws sends hins]
    cases sends with
    | true => exact .sent rfl hins
    | false => exact .unsent rfl hins
  | message now ws message =>
    rcases Relay.webSocketMessage_cases parse now message s.relay with
      ⟨object, heq, hnone⟩ | ⟨id, frame, hframe, heq⟩
    · simp only [relayStep, heq]
      refine .object rfl fun id reply status h => ?_
      cases h with
      | frame hf => cases hf.symm.trans hnone
    · simp only [relayStep, heq]
      split
      · rename_i hw
        refine .settled rfl (List.nodup_singleton id) (by simpa using hw) fun id' reply'
          status' => ?_
        constructor
        · rintro ⟨hset, -⟩
          cases hset with
          | frame hf =>
            cases hf.symm.trans hframe
            simp
        · rintro ⟨hid, rfl, rfl⟩
          cases List.mem_singleton.mp hid
          exact ⟨.frame hframe, hw⟩
      · rename_i hw
        refine .late rfl fun id' reply status h => ?_
        cases h with
        | frame hf =>
          cases hf.symm.trans hframe
          simpa using hw
  | timeout now id =>
    simp only [relayStep]
    cases hw : s.relay.isWaiting id with
    | true =>
      rw [Relay.settle_eq hw]
      refine .settled rfl (List.nodup_singleton id) (by simpa using hw) fun id' reply' status' => ?_
      constructor
      · rintro ⟨hset, -⟩
        cases hset
        simp
      · rintro ⟨hid, rfl, rfl⟩
        cases List.mem_singleton.mp hid
        exact ⟨.timeout id, hw⟩
    | false =>
      rw [Relay.settle_of_not_waiting hw]
      refine @RelayMoves.object parse s _ s.relay.object rfl fun id' reply status h => ?_
      cases h
      exact hw
  | close now ws =>
    obtain ⟨connectedAt, hat⟩ := Option.isSome_iff_exists.mp (hs.attached ws ho)
    obtain ⟨ids, heq, hn, hids⟩ := Relay.webSocketClose_eq s.relay now hat
    simp only [relayStep, heq]
    -- The connect time stands for the socket.
    have hmem (id : JsString) : id ∈ ids ↔ (id, ws) ∈ s.sentOn ∧ s.relay.isWaiting id = true := by
      rw [hids]
      constructor
      · rintro ⟨w, hw, rfl, hsame⟩
        obtain ⟨ws', hsent, hat'⟩ := hs.waits w hw
        cases hs.sockets ws' (hs.sent _ ws' hsent).1 ws ho (by rw [hat', hat, hsame])
        exact ⟨hsent, Relay.isWaiting_iff.mpr ⟨w, hw, rfl⟩⟩
      · rintro ⟨hsent, hwait⟩
        obtain ⟨w, hw, rfl⟩ := Relay.isWaiting_iff.mp hwait
        obtain ⟨ws', hsent', hat'⟩ := hs.waits w hw
        cases hs.unique _ ws ws' hsent hsent'
        exact ⟨w, hw, rfl, Option.some.inj (hat'.symm.trans hat)⟩
    refine .settled rfl hn (fun id hid => ((hmem id).mp hid).2) fun id reply' status' => ?_
    rw [hmem]
    constructor
    · rintro ⟨hset, hw⟩
      cases hset with
      | closed hsent => exact ⟨⟨hsent, hw⟩, rfl, rfl⟩
    · rintro ⟨⟨hsent, hw⟩, rfl, rfl⟩
      exact ⟨.closed hsent, hw⟩

def RedemptionStatus.Follows (a b : RedemptionStatus) : Prop :=
  b = a ∨ a = .pending ∧ b ∈ [.issued, .rejected, .malformed, .timeout, .dropped] ∨
    a = .timeout ∧ b = .late

theorem RelayMoves.ok (h : RelayMoves parse s e relay) (hs : s.relay.Ok) : relay.Ok := by
  cases h with
  | object => exact ⟨hs.pending, hs.unanswered, hs.known, hs.answered, hs.once⟩
  | late => exact hs.markLate _
  | sent _ hins => exact hs.sent hins
  | unsent _ hins =>
    refine (hs.sent hins).settled (List.nodup_singleton _) ?_ (by decide)
    simp [Relay.isWaiting_sent]
  | @settled _ ids reply status _ hn hw hsettles =>
    cases ids with
    | nil =>
      rw [Relay.settled_nil]
      exact hs
    | cons id ids =>
      have hset := (hsettles id reply status).mpr ⟨List.mem_cons_self, rfl, rfl⟩
      refine hs.settled hn hw fun hpending => ?_
      have hmem := hset.1.status_mem
      simp [hpending] at hmem

theorem RelayMoves.row (h : RelayMoves parse s e relay) (hs : s.relay.Ok)
    (hr : r ∈ s.relay.redemptions.rows) : ∃ r' ∈ relay.redemptions.rows,
      r'.requestID = r.requestID ∧ r.status.Follows r'.status := by
  cases h with
  | object => exact ⟨r, hr, rfl, .inl rfl⟩
  | late =>
    refine ⟨_, Relay.mem_markLate_rows.mpr ⟨r, hr, rfl⟩, ?_⟩
    split
    · split
      · rename_i hid htimeout
        exact ⟨rfl, .inr (.inr ⟨htimeout, rfl⟩)⟩
      · exact ⟨rfl, .inl rfl⟩
    · exact ⟨rfl, .inl rfl⟩
  | sent _ hins =>
    obtain ⟨-, hrows⟩ := Table.insert_eq_some hins
    exact ⟨r, by simp [Relay.sent, hrows, hr], rfl, .inl rfl⟩
  | @unsent _ ws row _ _ hins =>
    obtain ⟨hnone, hrows⟩ := Table.insert_eq_some hins
    have hne : r.requestID ≠ row.requestID := Table.get?_eq_none.mp hnone r hr
    refine ⟨r, Relay.mem_settled_rows.mpr ⟨r, by simp [Relay.sent, hrows, hr], ?_⟩, rfl, .inl rfl⟩
    simp [hne]
  | @settled _ ids reply status _ hn hw hsettles =>
    refine ⟨_, Relay.mem_settled_rows.mpr ⟨r, hr, rfl⟩, Relay.requestID_settled_row r, ?_⟩
    split
    · rename_i hid
      have hset := (hsettles r.requestID reply status).mpr ⟨hid, rfl, rfl⟩
      exact .inr (.inl ⟨(hs.pending r hr).mpr (hw _ hid), hset.1.status_mem⟩)
    · exact .inl rfl

theorem RelayMoves.new_row (h : RelayMoves parse s e relay) (hr : r ∈ relay.redemptions.rows)
    (hnew : ∀ r' ∈ s.relay.redemptions.rows, r'.requestID ≠ r.requestID) :
    RedemptionStatus.pending.Follows r.status := by
  cases h with
  | object => exact absurd rfl (hnew r hr)
  | late =>
    obtain ⟨r', hr', rfl⟩ := Relay.mem_markLate_rows.mp hr
    refine absurd ?_ (hnew r' hr')
    split
    · split <;> rfl
    · rfl
  | sent _ hins =>
    obtain ⟨-, hrows⟩ := Table.insert_eq_some hins
    rcases List.mem_append.mp (hrows ▸ hr) with hold | hadded
    · exact absurd rfl (hnew r hold)
    · cases List.mem_singleton.mp hadded
      exact .inl rfl
  | @unsent _ ws row rows _ hins =>
    obtain ⟨-, hrows⟩ := Table.insert_eq_some hins
    obtain ⟨r', hr', rfl⟩ := Relay.mem_settled_rows.mp hr
    have hr'' : r' ∈ rows.rows := hr'
    rcases List.mem_append.mp (hrows ▸ hr'') with hold | hadded
    · exact absurd (Relay.requestID_settled_row r').symm (hnew r' hold)
    · cases List.mem_singleton.mp hadded
      exact .inr (.inl ⟨rfl, by simp [Relay.complete]⟩)
  | settled =>
    obtain ⟨r', hr', rfl⟩ := Relay.mem_settled_rows.mp hr
    exact absurd (Relay.requestID_settled_row r').symm (hnew r' hr')

theorem RelayMoves.waits (h : RelayMoves parse s e relay) (hw : w ∈ relay.waiting.rows) :
    w ∈ s.relay.waiting.rows ∨
      ∃ now ws row sends, e = .forward now ws row sends ∧ w = ⟨row.requestID, ws.socketID⟩ := by
  have hput {ws : Socket} {row : RedemptionRow}
      (hmem : w ∈ (s.relay.waiting.put ⟨row.requestID, ws.socketID⟩).rows) :
      w ∈ s.relay.waiting.rows ∨ w = ⟨row.requestID, ws.socketID⟩ := by
    rcases List.mem_append.mp hmem with hold | hnew
    · exact .inl (List.mem_filter.mp hold).1
    · exact .inr (List.mem_singleton.mp hnew)
  cases h with
  | object | late => exact .inl hw
  | sent he =>
    exact (hput hw).imp_right fun heq => ⟨_, _, _, _, he, heq⟩
  | unsent he =>
    exact (hput (List.mem_filter.mp hw).1).imp_right fun heq => ⟨_, _, _, _, he, heq⟩
  | settled => exact .inl (List.mem_filter.mp hw).1

theorem forward_known {row : RedemptionRow} (ho : Orderly s (.forward now ws row sends)) :
    ∃ r ∈ (s.relay.forward now ws row sends).redemptions.rows, r.requestID = row.requestID := by
  obtain ⟨rows, hins⟩ := insert_fresh ho.2
  obtain ⟨-, hrows⟩ := Table.insert_eq_some hins
  have hmem : { row with completedAt := none, status := .pending } ∈ rows.rows := by simp [hrows]
  rw [Relay.forward_eq now ws sends hins]
  split
  · exact ⟨_, hmem, rfl⟩
  · exact ⟨_, Relay.mem_settled_rows.mpr ⟨_, hmem, rfl⟩, Relay.requestID_settled_row _⟩

theorem RelayState.Ok.step (hs : s.Ok) (ho : Orderly s e) : (relayStep parse s e).Ok := by
  have hmoves : RelayMoves parse s e (relayStep parse s e).relay := relayStep_moves hs ho
  have hkept {id : JsString} (h : ∃ r ∈ s.relay.redemptions.rows, r.requestID = id) :
      ∃ r ∈ (relayStep parse s e).relay.redemptions.rows, r.requestID = id := by
    obtain ⟨r, hr, rfl⟩ := h
    obtain ⟨r', hr', hid, -⟩ := hmoves.row hs.relay hr
    exact ⟨r', hr', hid⟩
  have hold (w : Waiter) (hw : w ∈ s.relay.waiting.rows) : ∃ ws,
      (w.requestID, ws) ∈ (relayStep parse s e).sentOn ∧ ws.connectedAt = some w.socketID := by
    obtain ⟨ws, hsent, hat⟩ := hs.waits w hw
    cases e with
    | forward => exact ⟨ws, List.mem_cons_of_mem _ hsent, hat⟩
    | accept | message | timeout | close => exact ⟨ws, hsent, hat⟩
  have hwaits : ∀ w ∈ (relayStep parse s e).relay.waiting.rows, ∃ ws,
      (w.requestID, ws) ∈ (relayStep parse s e).sentOn ∧ ws.connectedAt = some w.socketID := by
    intro w hw
    rcases hmoves.waits hw with hw | ⟨now, ws, row, sends, rfl, rfl⟩
    · exact hold w hw
    · obtain ⟨at', hat⟩ := Option.isSome_iff_exists.mp (hs.attached ws ho.1)
      exact ⟨ws, List.mem_cons_self, by simp [Socket.socketID, hat]⟩
  refine ⟨hmoves.ok hs.relay, ?_, ?_, ?_, ?_, hwaits⟩
  · cases e with
    | accept ws =>
      intro ws₁ h₁ ws₂ h₂ heq
      rcases List.mem_cons.mp h₁ with hnew | hold₁ <;>
        rcases List.mem_cons.mp h₂ with hnew' | hold₂
      · exact hnew.trans hnew'.symm
      · exact absurd (hnew ▸ heq).symm (ho.2 ws₂ hold₂)
      · exact absurd (hnew' ▸ heq) (ho.2 ws₁ hold₁)
      · exact hs.sockets ws₁ hold₁ ws₂ hold₂ heq
    | forward | message | timeout | close => exact hs.sockets
  · cases e with
    | accept ws =>
      intro ws' h'
      rcases List.mem_cons.mp h' with rfl | h'
      · exact ho.1
      · exact hs.attached ws' h'
    | forward | message | timeout | close => exact hs.attached
  · intro id ws hsent
    cases e with
    | forward now ws' row sends =>
      rcases List.mem_cons.mp hsent with heq | hsent
      · cases heq
        exact ⟨ho.1, forward_known ho⟩
      · exact ⟨(hs.sent id ws hsent).1, hkept (hs.sent id ws hsent).2⟩
    | accept => exact ⟨List.mem_cons_of_mem _ (hs.sent id ws hsent).1,
        hkept (hs.sent id ws hsent).2⟩
    | message | timeout | close => exact ⟨(hs.sent id ws hsent).1, hkept (hs.sent id ws hsent).2⟩
  · cases e with
    | forward now ws' row sends =>
      have hfresh (ws : Socket) : (row.requestID, ws) ∉ s.sentOn := fun hsent => by
        obtain ⟨-, r, hr, hid⟩ := hs.sent _ ws hsent
        exact ho.2 r hr hid
      intro id ws₁ ws₂ h₁ h₂
      rcases List.mem_cons.mp h₁ with h₁ | h₁ <;> rcases List.mem_cons.mp h₂ with h₂ | h₂
      · cases h₁
        cases h₂
        rfl
      · cases h₁
        exact absurd h₂ (hfresh ws₂)
      · cases h₂
        exact absurd h₁ (hfresh ws₁)
      · exact hs.unique id ws₁ ws₂ h₁ h₂
    | accept | message | timeout | close => exact hs.unique

theorem RelayState.Ok.reachable (hs : (relaying parse).Reachable Orderly s) : s.Ok := by
  refine hs.invariant (I := RelayState.Ok) ?_ fun s e t hok ho hstep => ?_
  · rintro s ⟨hw, hr, ha, hsock, hsent⟩
    refine ⟨⟨?_, ?_, ?_, ?_, ?_⟩, ?_, ?_, ?_, ?_, ?_⟩ <;>
      simp [Relay.isWaiting, hw, hr, ha, hsock, hsent, Table.empty, Table.get?]
  · cases hstep
    exact hok.step ho

theorem RelayMoves.resolved {id : JsString} (h : RelayMoves parse s e relay)
    (hmem : (id, reply) ∈ relay.resolved) :
    (id, reply) ∈ s.relay.resolved ∨ ∃ status, Settles parse s e id reply status := by
  cases h with
  | object | late | sent => exact .inl hmem
  | unsent he =>
    subst he
    rcases Relay.mem_settled_resolved.mp hmem with ⟨hid, hreply⟩ | hold
    · cases List.mem_singleton.mp hid
      cases hreply
      exact .inr ⟨_, .unsent⟩
    · exact .inl hold
  | settled _ hn hw hsettles =>
    rcases Relay.mem_settled_resolved.mp hmem with ⟨hid, hreply⟩ | hold
    · exact .inr ⟨_, ((hsettles _ _ _).mpr ⟨hid, hreply, rfl⟩).1⟩
    · exact .inl hold

/-- A request that an event settles is answered with its reply, and its row says
so. -/
theorem RelayMoves.settles {id : JsString} (h : RelayMoves parse s e relay) (hs : s.relay.Ok)
    (hset : Settles parse s e id reply status)
    (hwait : s.relay.isWaiting id = true ∨ e.isForward = true) :
    (id, reply) ∈ relay.resolved ∧ relay.isWaiting id = false ∧
      ∃ r ∈ relay.redemptions.rows, r.requestID = id ∧ r.status = status := by
  cases h with
  | object hnot hnone | late hnot hnone =>
    have hno := hnone id reply status hset
    simp [hno, hnot] at hwait
  | sent he =>
    subst he
    cases hset
  | @unsent now ws row rows he hins =>
    subst he
    cases hset
    obtain ⟨-, hrows⟩ := Table.insert_eq_some hins
    refine ⟨Relay.mem_settled_resolved.mpr (.inl ⟨List.mem_singleton_self _, rfl⟩), ?_, _,
      Relay.mem_settled_rows.mpr ⟨{ row with completedAt := none, status := .pending }, ?_, rfl⟩,
        ?_⟩
    · simp [Relay.isWaiting_settled]
    · simp [Relay.sent, hrows]
    · simp [Relay.complete]
  | @settled _ ids reply' status' hnot hn hw hsettles =>
    obtain ⟨hid, rfl, rfl⟩ := (hsettles id reply status).mp
      ⟨hset, hwait.resolve_right (by simp [hnot])⟩
    obtain ⟨r, hr, rfl⟩ := hs.known id (hw id hid)
    refine ⟨Relay.mem_settled_resolved.mpr (.inl ⟨hid, rfl⟩), ?_, _,
      Relay.mem_settled_rows.mpr ⟨r, hr, rfl⟩, Relay.requestID_settled_row r, ?_⟩
    · simp [Relay.isWaiting_settled, hid]
    · simp [hid, Relay.complete]

/-- Whatever the order of frames, timeouts, failed sends and closes: a promise
is resolved at most once, and it is as soon as an event settles its request,
with what that event says; the row moves from pending to the verdict, and from
a timeout to late; and a close settles the waiting requests of its own socket. -/
theorem redemption_settled_once (hs : (relaying parse).Reachable Orderly s) :
    (s.relay.resolved.map (·.1)).Nodup ∧
    (∀ id ws, (id, ws) ∈ s.sentOn →
      (s.relay.isWaiting id = true ↔ ∀ reply, (id, reply) ∉ s.relay.resolved)) ∧
    ∀ e t, Orderly s e → (relaying parse).step s e = some t →
      (∀ id ws reply status, (id, ws) ∈ t.sentOn → (∀ reply', (id, reply') ∉ s.relay.resolved) →
        Settles parse s e id reply status → (id, reply) ∈ t.relay.resolved ∧
          ∃ r ∈ t.relay.redemptions.rows, r.requestID = id ∧ r.status = status) ∧
      (∀ id reply, (id, reply) ∈ t.relay.resolved → (id, reply) ∈ s.relay.resolved ∨
        ∃ status, Settles parse s e id reply status) ∧
      (∀ r ∈ s.relay.redemptions.rows, ∃ r' ∈ t.relay.redemptions.rows,
        r'.requestID = r.requestID ∧ r.status.Follows r'.status) ∧
      (∀ r ∈ t.relay.redemptions.rows,
        (∀ r' ∈ s.relay.redemptions.rows, r'.requestID ≠ r.requestID) →
          RedemptionStatus.pending.Follows r.status) ∧
      ∀ now ws, e = .close now ws → ∀ id, s.relay.isWaiting id = true →
        (t.relay.isWaiting id = false ↔ (id, ws) ∈ s.sentOn) := by
  have hok := RelayState.Ok.reachable hs
  have hwaits (id : JsString) (ws : Socket) (hsent : (id, ws) ∈ s.sentOn) :
      s.relay.isWaiting id = true ↔ ∀ reply, (id, reply) ∉ s.relay.resolved := by
    obtain ⟨-, r, hr, rfl⟩ := hok.sent id ws hsent
    exact hok.relay.unanswered r hr
  refine ⟨hok.relay.once, hwaits, fun e t ho hstep => ?_⟩
  cases hstep
  have hmoves : RelayMoves parse s e (relayStep parse s e).relay := relayStep_moves hok ho
  refine ⟨fun id ws reply status hsent hopen hset => ?_, fun id reply => hmoves.resolved,
    fun r hr => hmoves.row hok.relay hr, fun r hr => hmoves.new_row hr, ?_⟩
  · have hwait : s.relay.isWaiting id = true ∨ e.isForward = true := by
      cases e with
      | forward => exact .inr rfl
      | accept | message | timeout | close => exact .inl ((hwaits id ws hsent).mpr hopen)
    obtain ⟨hres, -, hrow⟩ := hmoves.settles hok.relay hset hwait
    exact ⟨hres, hrow⟩
  · rintro now ws rfl id hwait
    constructor
    · intro hgone
      have hok' : (relayStep parse s (.close now ws)).Ok := hok.step ho
      obtain ⟨r, hr, rfl⟩ := hok.relay.known id hwait
      obtain ⟨r', hr', hid, -⟩ := hmoves.row hok.relay hr
      rw [← hid] at hgone
      have hsome : ¬ ∀ reply, (r'.requestID, reply) ∉
          (relayStep parse s (.close now ws)).relay.resolved := fun hnone => by
        simp [(hok'.relay.unanswered r' hr').mpr hnone] at hgone
      push Not at hsome
      obtain ⟨reply, hmem⟩ := hsome
      rw [hid] at hmem
      rcases hmoves.resolved hmem with hold | ⟨status, hset⟩
      · exact absurd hold ((hok.relay.unanswered r hr).mp hwait reply)
      · cases hset with
        | closed hsent => exact hsent
    · exact fun hsent => (hmoves.settles hok.relay (.closed hsent) (.inl hwait)).2.1

instance (s : RelayState) (e : RelayEvent) : Decidable (Orderly s e) :=
  match e with
  | .accept _ => inferInstanceAs (Decidable (_ = true ∧ ∀ ws' ∈ s.sockets, _))
  | .forward .. => inferInstanceAs (Decidable (_ ∧ ∀ r ∈ s.relay.redemptions.rows, _))
  | .close .. => inferInstanceAs (Decidable (_ ∈ _))
  | .message .. | .timeout .. => inferInstanceAs (Decidable True)

namespace Sample

def answerText : JsString :=
  js "\x7b\"t\":\"redeem.response\",\"id\":\"r2\",\"status\":200,\"body_b64\":\"e30\"\x7d"

/-- `JSON.parse`, as far as one text goes. -/
def parseAnswer (text : JsString) : Option Json :=
  if text = answerText then some (.obj [(js "t", .str (js "redeem.response")),
    (js "id", .str (js "r2")), (js "status", .num (.integer 200)),
      (js "body_b64", .str (js "e30"))])
  else none

def redemptionRow (requestID : String) : RedemptionRow :=
  ⟨js requestID, js "g_aaaaaaaaaaaaaaaa", js "a_ni4ahvpqlgicuhdnv66jxjdssijppsvm",
    js "SHA256:key", 1000⟩

def quiet : RelayState := ⟨⟨.empty, .empty, .empty, []⟩, [], []⟩

def reconnect : List RelayEvent :=
  [.accept ⟨1, some 5000⟩, .forward 1000 ⟨1, some 5000⟩ (redemptionRow "r1") true,
    .accept ⟨2, some 6000⟩, .forward 1001 ⟨2, some 6000⟩ (redemptionRow "r2") true,
    .close 1002 ⟨1, some 5000⟩]

end Sample

/-- The first request has been dropped; the second one then gets its answer. -/
theorem redemption_settled_once_reconnect : ∃ s t,
    (relaying Sample.parseAnswer).Reachable Orderly s ∧ s.relay.resolved.map (·.1) = [js "r1"] ∧
    (relaying Sample.parseAnswer).step s
      (.message 1003 ⟨2, some 6000⟩ (.text Sample.answerText)) = some t ∧
    (js "r2", .relayed (lit "\x7b\x7d") 200) ∈ t.relay.resolved ∧
    ∃ r ∈ t.relay.redemptions.rows, r.requestID = js "r2" ∧ r.status = .issued := by
  have hexec : ((relaying Sample.parseAnswer).exec Orderly Sample.quiet Sample.reconnect).any
      (fun s => s.relay.resolved.map (·.1) = [js "r1"] &&
        (js "r2", ⟨2, some 6000⟩) ∈ s.sentOn) = true := by
    decide +kernel
  obtain ⟨s, hs, hprop⟩ := Option.any_eq_true .. |>.mp hexec
  simp only [Bool.and_eq_true, decide_eq_true_eq] at hprop
  obtain ⟨hresolved, hsent⟩ := hprop
  have hreach : (relaying Sample.parseAnswer).Reachable Orderly s :=
    ⟨Sample.quiet, ⟨rfl, rfl, rfl, rfl, rfl⟩, .of_exec hs⟩
  have hopen : ∀ reply, (js "r2", reply) ∉ s.relay.resolved := fun reply hmem => by
    have hids : js "r2" ∈ s.relay.resolved.map (·.1) := List.mem_map.mpr ⟨_, hmem, rfl⟩
    rw [hresolved, List.mem_singleton] at hids
    exact absurd hids (by decide)
  have hframe : ∃ frame, responseFrame Sample.parseAnswer (.text Sample.answerText) =
      some (js "r2", frame) ∧ hostResponse frame = (.relayed (lit "\x7b\x7d") 200, .issued) :=
    ⟨_, rfl, rfl⟩
  obtain ⟨frame, hframe, hresponse⟩ := hframe
  obtain ⟨-, -, hstep⟩ := redemption_settled_once hreach
  obtain ⟨hsettled, -⟩ :=
    hstep (.message 1003 ⟨2, some 6000⟩ (.text Sample.answerText)) _ trivial rfl
  obtain ⟨hmem, hrow⟩ := hsettled _ _ _ _ hsent hopen (.frame hframe)
  rw [hresponse] at hmem hrow
  exact ⟨s, _, hreach, hresolved, rfl, hmem, hrow⟩

end Grantd.Service
