import Grantd.Base.FlatText
import Grantd.Service.Relay
import Grantd.Service.Text

/-!
# The daemon's end of the rendezvous

go/internal/protocol/frames.go and the frame handlers of
go/daemon/rendezvous/rendezvous.go. A redemption travels through two frames and
four codecs. The two JSON parsers are parameters; what is asked of them is that
they read compact flat texts as everybody does. The bytes that come out are
then those that went in, and no limit on the way is below another.
-/

namespace Grantd.Daemon

open Base JsonText
open Signer (Doc decodeString decodeUint64 decodeInt64 foldName)
open Service (JsString js ofBytes textEncode)

-- ---------------------------------------------------------------------------
-- Frames
-- ---------------------------------------------------------------------------

def frameRedeemRequest : GoString := lit "redeem.request"
def frameRedeemResponse : GoString := lit "redeem.response"
def framePing : GoString := lit "ping"
def framePong : GoString := lit "pong"

structure Frame where
  type : GoString := []
  id : GoString := []
  protocolVersion : UInt64 := 0
  status : Int64 := 0
  bodyB64 : GoString := []
  deriving DecidableEq, Repr

def Frame.setBody (f : Frame) (raw : Bytes) : Frame := { f with bodyB64 := Protocol.b64 raw }

/-- `Frame.Body`; `none` is an error. -/
def Frame.body (f : Frame) : Option Bytes :=
  if f.bodyB64 = [] then some [] else Protocol.b64Decode f.bodyB64

/-- The members that `json.Marshal` writes; all but the type are `omitempty`. -/
def Frame.flat (f : Frame) : Flat :=
  [(lit "t", .str f.type)] ++
  (if f.id = [] then [] else [(lit "id", .str f.id)]) ++
  (if f.protocolVersion = 0 then [] else
    [(lit "protocol_version", .int f.protocolVersion.toNat)]) ++
  (if f.status = 0 then [] else [(lit "status", .int f.status.toInt)]) ++
  (if f.bodyB64 = [] then [] else [(lit "body_b64", .str f.bodyB64)])

inductive FrameField
  | type
  | id
  | protocolVersion
  | status
  | bodyB64
  deriving DecidableEq, Repr

def FrameField.name : FrameField → JsString
  | .type => js "t"
  | .id => js "id"
  | .protocolVersion => js "protocol_version"
  | .status => js "status"
  | .bodyB64 => js "body_b64"

def frameFields : Fields FrameField JsString (List Nat) where
  all := [.type, .id, .protocolVersion, .status, .bodyB64]
  name := FrameField.name
  fold := foldName

def Frame.set (i : FrameField) (v : Doc) (f : Frame) : Option Frame :=
  match i with
  | .type => (overwrite Doc.isNull decodeString f.type v).map fun x => { f with type := x }
  | .id => (overwrite Doc.isNull decodeString f.id v).map fun x => { f with id := x }
  | .protocolVersion =>
    (overwrite Doc.isNull decodeUint64 f.protocolVersion v).map fun x =>
      { f with protocolVersion := x }
  | .status => (overwrite Doc.isNull decodeInt64 f.status v).map fun x => { f with status := x }
  | .bodyB64 => (overwrite Doc.isNull decodeString f.bodyB64 v).map fun x => { f with bodyB64 := x }

def Frame.ofDoc : Doc → Option Frame
  | .null => some {}
  | .obj members => assign frameFields Frame.set {} members
  | _ => none

-- ---------------------------------------------------------------------------
-- Handlers
-- ---------------------------------------------------------------------------

def maxFrameBytes : Nat := 128 * 1024
def maxInflightRedeems : Nat := 8
def maxBody : Nat := 16 * 1024
def maxAnswer : Nat := 2 ^ 20

/-- `http.MaxBytesReader` at the signer. -/
def readBody (body : Bytes) : Option Bytes := if maxBody < body.length then none else some body

/-- The codes that the daemon answers with itself. -/
inductive ErrCode
  | badRequest
  | rateLimited
  | internal
  deriving DecidableEq, Repr

def ErrCode.text : ErrCode → GoString
  | .badRequest => lit "BAD_REQUEST"
  | .rateLimited => lit "RATE_LIMITED"
  | .internal => lit "INTERNAL"

def httpStatusFor : ErrCode → Int64
  | .badRequest => 400
  | .rateLimited => 429
  | .internal => 500

def marshalErrorBody (code : ErrCode) (msg : GoString) : Bytes :=
  lit "\x7b\"error\":" ++ Flat.text [(lit "code", .str code.text), (lit "message", .str msg)] ++
    lit "\x7d"

/-- What comes of a frame: the body posted to the signer, and the frame sent
back. -/
structure Handled where
  posted : Option Bytes := none
  sent : Option Frame := none
  deriving DecidableEq, Repr

def errorFrame (id : GoString) (code : ErrCode) (msg : String) : Frame :=
  Frame.setBody { type := frameRedeemResponse, id, status := httpStatusFor code }
    (marshalErrorBody code (lit msg))

section
variable (signer : Bytes → Option (Int64 × Bytes))

/-- `Client.Redeem`; `none` is a call that fails. -/
def clientRedeem (envelope : Bytes) : Option (Int64 × Bytes) :=
  (signer envelope).map fun answer => (answer.1, answer.2.take maxAnswer)

def handleRedeem (frame : Frame) : Handled :=
  match frame.body with
  | none | some [] =>
    { sent := errorFrame frame.id .badRequest "empty or malformed redemption envelope" }
  | some envelope =>
    match clientRedeem signer envelope with
    | none =>
      { posted := envelope, sent := errorFrame frame.id .internal "signer unavailable" }
    | some (status, body) =>
      { posted := envelope
        sent := Frame.setBody { type := frameRedeemResponse, id := frame.id, status } body }

/-- `handleFrame`. `scan` gives the syntax tree of a text. -/
def handleFrame (scan : Bytes → Option Doc) (inflight : Nat) (data : Bytes) : Handled :=
  match (scan data).bind Frame.ofDoc with
  | none => {}
  | some frame =>
    if frame.type = framePing then { sent := some { type := framePong, id := frame.id } }
    else if frame.type = frameRedeemRequest then
      if inflight < maxInflightRedeems then handleRedeem signer frame
      else { sent := errorFrame frame.id .rateLimited "too many redemptions in flight" }
    else {}

/-- A message of the socket; `none` is a read that ends the session. -/
def receive (scan : Bytes → Option Doc) (inflight : Nat) (data : Bytes) : Option Handled :=
  if maxFrameBytes < data.length then none else some (handleFrame signer scan inflight data)

end

-- ---------------------------------------------------------------------------
-- The request
-- ---------------------------------------------------------------------------

/-- `crypto.randomUUID()`, as far as it matters here. -/
def isUUID (s : Bytes) : Bool :=
  s.length == 36 && s.all fun c => (0x30 ≤ c && c ≤ 0x39) || (0x61 ≤ c && c ≤ 0x66) || c == 0x2D

def requestFlat (id body : Bytes) : Flat :=
  [(lit "t", .str frameRedeemRequest), (lit "id", .str id),
    (lit "body_b64", .str (Protocol.b64 body))]

variable {id : Bytes}

theorem ofBytes_append (a b : Bytes) : ofBytes (a ++ b) = ofBytes a ++ ofBytes b := List.map_append

theorem requestFrame_eq (id : Bytes) (raw : JsString) :
    Service.requestFrame (ofBytes id) raw =
      ofBytes (Flat.text (requestFlat id (textEncode raw))) := by
  have hsplit : Flat.text (requestFlat id (textEncode raw)) =
      lit "\x7b\"t\":\"redeem.request\",\"id\":\"" ++ id ++ lit "\",\"body_b64\":\"" ++
        Protocol.b64 (textEncode raw) ++ lit "\"\x7d" := by
    have h1 : lit "\x7b\"t\":\"redeem.request\",\"id\":\"" =
        0x7B :: (quoted (lit "t") ++ 0x3A :: quoted frameRedeemRequest ++ 0x2C ::
          (quoted (lit "id") ++ [0x3A, 0x22])) := by decide
    have h2 : lit "\",\"body_b64\":\"" = [0x22, 0x2C] ++ quoted (lit "body_b64") ++
        [0x3A, 0x22] := by
      decide
    have h3 : lit "\"\x7d" = [0x22, 0x7D] := by decide
    rw [h1, h2, h3]
    simp [Flat.text, requestFlat, Flat.membersText, memberText, Scalar.text, quoted]
  rw [hsplit, Service.requestFrame, Service.b64uEncode_eq]
  simp only [ofBytes_append, js]

theorem isPlain_of_isUUID (h : isUUID id = true) : id.all isPlain = true := by
  simp only [isUUID, Bool.and_eq_true] at h
  refine List.all_eq_true.mpr fun c hc => ?_
  have hchar := List.all_eq_true.mp h.2 c hc
  simp only [isPlain, Bool.or_eq_true, Bool.and_eq_true, decide_eq_true_eq, bne_iff_ne, beq_iff_eq,
    ne_eq, UInt8.le_iff_toNat_le, UInt8.lt_iff_toNat_lt, ← UInt8.toNat_inj, UInt8.reduceToNat]
    at hchar ⊢
  omega

theorem isPlain_b64 (b : Bytes) : (Protocol.b64 b).all isPlain = true := by
  have hall : Protocol.b64URLAlphabet.all isPlain = true := by decide
  exact List.all_eq_true.mpr fun c hc =>
    List.all_eq_true.mp hall c (Rfc4648.mem_encode (by decide) hc)

theorem textEncode_plain {s : Bytes} (h : s.all isPlain = true) : textEncode (ofBytes s) = s :=
  Service.textEncode_ofBytes fun c hc => lt_of_isPlain (List.all_eq_true.mp h c hc)

theorem requestFlat_isPlain (h : isUUID id = true) (body : Bytes) :
    (requestFlat id body).isPlain = true := by
  simp only [Flat.isPlain, requestFlat, List.all_cons, List.all_nil, Scalar.isPlain,
    isPlain_of_isUUID h, isPlain_b64, Bool.and_true]
  decide

theorem ofDoc_request (h : isUUID id = true) (body : Bytes) :
    Frame.ofDoc (.obj (Flat.members ofBytes (requestFlat id body))) =
      some { type := frameRedeemRequest, id, bodyB64 := Protocol.b64 body } := by
  have hid := textEncode_plain (isPlain_of_isUUID h)
  have hbody := textEncode_plain (isPlain_b64 body)
  have ht : frameFields.find (ofBytes (lit "t")) = some .type := by decide
  have hi : frameFields.find (ofBytes (lit "id")) = some .id := by decide
  have hb : frameFields.find (ofBytes (lit "body_b64")) = some .bodyB64 := by decide
  have htype : textEncode (ofBytes frameRedeemRequest) = frameRedeemRequest := by decide
  simp only [Frame.ofDoc, Flat.members, requestFlat, List.map_cons, List.map_nil, Scalar.doc,
    assign, ht, hi, hb, Frame.set, overwrite, Doc.isNull, decodeString, htype, hid, hbody]
  rfl

theorem length_b64 (b : Bytes) : (Protocol.b64 b).length = (8 * b.length + 5) / 6 := by
  simp [Protocol.b64, Rfc4648.groups]

theorem b64_ne_nil (hb : b ≠ []) : Protocol.b64 b ≠ [] := by
  intro h
  have hlen := congrArg List.length h
  have hpos := List.length_pos_iff.mpr hb
  rw [length_b64, List.length_nil] at hlen
  omega

theorem length_requestFlat (h : isUUID id = true) (body : Bytes) :
    (Flat.text (requestFlat id body)).length = 80 + (Protocol.b64 body).length := by
  simp only [isUUID, Bool.and_eq_true, beq_iff_eq] at h
  have ht : (lit "t").length = 1 := by decide
  have hi : (lit "id").length = 2 := by decide
  have hb : (lit "body_b64").length = 8 := by decide
  have htype : frameRedeemRequest.length = 14 := by decide
  simp only [Flat.text, requestFlat, Flat.membersText, memberText, Scalar.text, quoted,
    List.length_append, List.length_cons, List.length_nil, ht, hi, hb, htype, h.1]
  omega

theorem handleRedeem_request (signer : Bytes → Option (Int64 × Bytes)) (hb : body ≠ [])
    (t : GoString) :
    (handleRedeem signer { type := t, id, bodyB64 := Protocol.b64 body }) =
      match clientRedeem signer body with
      | none => { posted := body, sent := errorFrame id .internal "signer unavailable" }
      | some (status, answer) =>
        { posted := body
          sent := Frame.setBody { type := frameRedeemResponse, id, status } answer } := by
  have hbody : Frame.body { type := t, id, bodyB64 := Protocol.b64 body } = some body := by
    simp only [Frame.body, b64_ne_nil hb, if_false, Protocol.b64Decode_b64]
  unfold handleRedeem
  rw [hbody]
  cases body with
  | nil => exact absurd rfl hb
  | cons c cs => rfl

-- ---------------------------------------------------------------------------
-- The answer
-- ---------------------------------------------------------------------------

def answerFrame (id : GoString) (status : Int64) (body : Bytes) : Frame :=
  Frame.setBody { type := frameRedeemResponse, id, status } body

theorem answerFrame_flat (h : isUUID id = true) (hs : status ≠ 0) (hb : body ≠ []) :
    (answerFrame id status body).flat =
      [(lit "t", .str frameRedeemResponse), (lit "id", .str id), (lit "status", .int status.toInt),
        (lit "body_b64", .str (Protocol.b64 body))] := by
  have hid : id ≠ [] := by
    rintro rfl
    exact absurd h (by decide)
  simp [Frame.flat, answerFrame, Frame.setBody, hid, hs, b64_ne_nil hb]

theorem answerFrame_isPlain (h : isUUID id = true) (hs : status ≠ 0) (hb : body ≠ []) :
    (answerFrame id status body).flat.isPlain = true := by
  rw [answerFrame_flat h hs hb]
  simp only [Flat.isPlain, List.all_cons, List.all_nil, Scalar.isPlain, isPlain_of_isUUID h,
    isPlain_b64, Bool.and_true]
  decide

theorem length_b64_lt (h : isUUID id = true) (hs : status ≠ 0) (hb : body ≠ []) :
    (Protocol.b64 body).length < (Flat.text (answerFrame id status body).flat).length := by
  rw [answerFrame_flat h hs hb]
  simp only [Flat.text, Flat.membersText, memberText, Scalar.text, quoted, List.length_append,
    List.length_cons]
  omega

def answerRecord (id : GoString) (status : Int64) (body : Bytes) : Service.Record :=
  (Service.jsonParseMembers (Flat.members ofBytes (answerFrame id status body).flat)).reverse

theorem answerRecord_eq (h : isUUID id = true) (hs : status ≠ 0) (hb : body ≠ []) :
    answerRecord id status body =
      [(js "body_b64", .str (ofBytes (Protocol.b64 body))),
        (js "status", .num (Service.readNumber (.integer (status.toInt < 0) status.toInt.natAbs))),
        (js "id", .str (ofBytes id)), (js "t", .str (js "redeem.response"))] := by
  rw [answerRecord, answerFrame_flat h hs hb]
  rfl

theorem hostResponse_answer (h : isUUID id = true) (hb : body ≠ [])
    (hlo : 200 ≤ status.toInt) (hhi : status.toInt ≤ 599)
    (hno : status.toInt ∉ Service.noBodyStatuses) :
    (Service.hostResponse (answerRecord id status body)).1 = .relayed body status.toInt := by
  have hs : status ≠ 0 := by
    rintro rfl
    exact absurd hlo (by decide)
  have hnum : Service.readNumber (.integer (status.toInt < 0) status.toInt.natAbs) =
      .integer status.toInt := by
    have hpos : ¬ status.toInt < 0 := by omega
    simp only [Service.readNumber, hpos, decide_false, Bool.false_eq_true, if_false,
      Int.natAbs_of_nonneg (by omega : 0 ≤ status.toInt)]
  have hstatus : (answerRecord id status body).get (js "status") =
      some (.num (.integer status.toInt)) := by
    rw [answerRecord_eq h hs hb, hnum]
    rfl
  have hbody : (answerRecord id status body).get (js "body_b64") =
      some (.str (Service.b64uEncode body)) := by
    rw [answerRecord_eq h hs hb, Service.b64uEncode_eq]
    rfl
  have hdecode : Service.b64uDecode
      ((Service.frameText (answerRecord id status body) "body_b64").getD []) = some body := by
    rw [Service.frameText, hbody]
    exact Service.b64uDecode_b64uEncode hb
  have hok : (decide (status.toInt < 200) || decide (599 < status.toInt) ||
      decide (status.toInt ∈ Service.noBodyStatuses)) = false := by
    simp only [Bool.or_eq_false_iff, decide_eq_false_iff_not]
    exact ⟨⟨by omega, by omega⟩, hno⟩
  simp only [Service.hostResponse, hstatus, hok, hdecode, Bool.false_eq_true, if_false]

theorem webSocketMessage_answer {parse : JsString → Option Service.Json} {s : Service.Relay}
    (hparse : parse (ofBytes (Flat.text (answerFrame id status body).flat)) =
      some (.obj (answerRecord id status body)))
    (hlen : (Flat.text (answerFrame id status body).flat).length ≤ Service.maxFrameChars)
    (h : isUUID id = true) (hb : body ≠ []) (hlo : 200 ≤ status.toInt) (hhi : status.toInt ≤ 599)
    (hno : status.toInt ∉ Service.noBodyStatuses) (hw : s.isWaiting (ofBytes id) = true)
    (now : Int) :
    (s.webSocketMessage parse now
      (.text (ofBytes (Flat.text (answerFrame id status body).flat)))).resolved
      = (ofBytes id, .relayed body status.toInt) :: s.resolved := by
  have hs : status ≠ 0 := by
    rintro rfl
    exact absurd hlo (by decide)
  have hframe : Service.hostFrame parse
      (.text (ofBytes (Flat.text (answerFrame id status body).flat)))
      = some (answerRecord id status body) := by
    have hshort : ¬ Service.maxFrameChars <
        (ofBytes (Flat.text (answerFrame id status body).flat)).length := by
      rw [ofBytes, List.length_map]
      exact Nat.not_lt.mpr hlen
    simp only [Service.hostFrame, hshort, if_false, hparse]
  have ht : Service.frameText (answerRecord id status body) "t" = some (js "redeem.response") := by
    rw [answerRecord_eq h hs hb]
    rfl
  have hid : Service.frameText (answerRecord id status body) "id" = some (ofBytes id) := by
    rw [answerRecord_eq h hs hb]
    rfl
  have hpong : js "redeem.response" ≠ js "pong" := by decide
  have hpresent : (s.waiting.get? (ofBytes id)).isNone = false := by
    rw [Option.isNone_eq_false_iff]
    exact hw
  simp only [Service.Relay.webSocketMessage, hframe, ht, hpong, if_false, if_true, hid, hpresent,
    Bool.false_eq_true]
  rw [Service.Relay.settle_eq hw, hostResponse_answer h hb hlo hhi hno]
  rfl

-- ---------------------------------------------------------------------------
-- End to end
-- ---------------------------------------------------------------------------

/-- encoding/json finds the members of a compact flat text. -/
def Scans (scan : Bytes → Option Doc) : Prop :=
  ∀ o : Flat, o ≠ [] → o.isPlain = true → scan o.text = some (.obj (o.members ofBytes))

def Parses (parse : JsString → Option Service.Json) : Prop :=
  ∀ o : Flat, o ≠ [] → o.isPlain = true →
    parse (ofBytes o.text) = some (Service.jsonParse (.obj (o.members ofBytes)))

/-- A frame that goes to the daemon, whatever the signer then answers: it fits,
the body is posted as it was, and an answer that fits comes back as it was. -/
structure Transparent (scan : Bytes → Option Doc) (parse : JsString → Option Service.Json)
    (id : Bytes) (data envelope : Bytes) : Prop where
  frameFits : data.length ≤ maxFrameBytes
  bodyFits : readBody envelope = some envelope
  posted : ∀ signer inflight, ∃ handled, receive signer scan inflight data = some handled ∧
    handled.posted = if inflight < maxInflightRedeems then some envelope else none
  answered : ∀ signer inflight status body, inflight < maxInflightRedeems →
    signer envelope = some (status, body) → 200 ≤ status.toInt → status.toInt ≤ 599 →
    status.toInt ∉ [204, 205, 304] → body ≠ [] →
    ∃ handled frame, receive signer scan inflight data = some handled ∧
      handled.sent = some frame ∧
      (frame.flat.text.length ≤ 128 * 1024 → ∀ (s : Service.Relay) (now : Int),
        s.isWaiting (ofBytes id) = true →
        (s.webSocketMessage parse now (.text (ofBytes frame.flat.text))).resolved =
          (ofBytes id, .relayed body status.toInt) :: s.resolved)

theorem goString_ne_nil {raw : List Char} (h : raw ≠ []) : Service.goString raw ≠ [] := by
  cases raw with
  | nil => exact absurd rfl h
  | cons c cs =>
    have hutf8 : Service.utf8 c.toNat ≠ [] := by
      unfold Service.utf8
      split_ifs <;> exact List.cons_ne_nil _ _
    simp [Service.goString, hutf8]

theorem handleFrame_request (hscan : Scans scan) (h : isUUID id = true) (body : Bytes)
    (signer : Bytes → Option (Int64 × Bytes)) (inflight : Nat) :
    handleFrame signer scan inflight (Flat.text (requestFlat id body)) =
      if inflight < maxInflightRedeems then
        handleRedeem signer { type := frameRedeemRequest, id, bodyB64 := Protocol.b64 body }
      else { sent := errorFrame id .rateLimited "too many redemptions in flight" } := by
  have hread := hscan (requestFlat id body) (List.cons_ne_nil _ _) (requestFlat_isPlain h body)
  have hping : frameRedeemRequest ≠ framePing := by decide
  simp only [handleFrame, hread, Option.bind_some, ofDoc_request h, hping, if_false, if_true]

theorem take_of_fits (h : isUUID id = true) (hs : status ≠ 0) (hb : body ≠ [])
    (hfit : (Flat.text (answerFrame id status (body.take maxAnswer)).flat).length ≤ 128 * 1024) :
    body.take maxAnswer = body := by
  have hpos := List.length_pos_iff.mpr hb
  have hmax : maxAnswer = 1048576 := by decide
  have htake : body.take maxAnswer ≠ [] := by
    intro hnil
    have hlen := congrArg List.length hnil
    simp only [List.length_take, List.length_nil] at hlen
    omega
  have hlt := length_b64_lt h hs htake
  rw [length_b64, List.length_take] at hlt
  exact List.take_of_length_le (by omega)

/-- A redemption body reaches the signer byte for byte, and so does the answer
reach the visitor. -/
theorem relay_transparent (hscan : Scans scan) (hparse : Parses parse) (hid : isUUID id = true)
    (raw : List Char) (hne : raw ≠ []) (hlen : (Service.goString raw).length ≤ 16384) :
    Transparent scan parse id
      (textEncode (Service.requestFrame (ofBytes id) (Service.jsString raw)))
      (Service.goString raw) := by
  have hplain := requestFlat_isPlain hid (Service.goString raw)
  have hdata : textEncode (Service.requestFrame (ofBytes id) (Service.jsString raw)) =
      Flat.text (requestFlat id (Service.goString raw)) := by
    rw [requestFrame_eq, Service.textEncode_jsString,
      Service.textEncode_ofBytes (Flat.lt_of_mem_text hplain)]
  have hfits : (Flat.text (requestFlat id (Service.goString raw))).length ≤ maxFrameBytes := by
    rw [length_requestFlat hid, length_b64]
    have hmax : maxFrameBytes = 131072 := rfl
    omega
  have hreceive : ∀ signer inflight, receive signer scan inflight
      (Flat.text (requestFlat id (Service.goString raw))) =
        some (handleFrame signer scan inflight
          (Flat.text (requestFlat id (Service.goString raw)))) :=
    fun _ _ => if_neg (Nat.not_lt.mpr hfits)
  rw [hdata]
  refine ⟨hfits, if_neg (Nat.not_lt.mpr hlen), fun signer inflight => ?_,
    fun signer inflight status body hin hanswer hlo hhi hno hb => ?_⟩
  · refine ⟨_, hreceive signer inflight, ?_⟩
    rw [handleFrame_request hscan hid]
    split
    · rw [handleRedeem_request signer (goString_ne_nil hne)]
      split <;> rfl
    · rfl
  · have hs : status ≠ 0 := by
      rintro rfl
      exact absurd hlo (by decide)
    have hclient : clientRedeem signer (Service.goString raw) =
        some (status, body.take maxAnswer) := by
      rw [clientRedeem, hanswer, Option.map_some]
    refine ⟨_, answerFrame id status (body.take maxAnswer), hreceive signer inflight, ?_,
      fun hfit s now hw => ?_⟩
    · rw [handleFrame_request hscan hid, if_pos hin,
        handleRedeem_request signer (goString_ne_nil hne), hclient]
      rfl
    · have hwhole := take_of_fits hid hs hb hfit
      rw [hwhole] at hfit ⊢
      have hread := hparse _ (by simp [answerFrame_flat hid hs hb]) (answerFrame_isPlain hid hs hb)
      exact webSocketMessage_answer hread hfit hid hb hlo hhi hno hw now

namespace Sample

def scan (data : Bytes) : Option Doc := (readFlat data).map fun o => .obj (o.members ofBytes)

def parse (text : JsString) : Option Service.Json :=
  if text.all (· < 0x80) then (scan (text.map UInt16.toUInt8)).map Service.jsonParse else none

theorem scans : Scans scan := by
  intro o hne hplain
  rw [scan, readFlat_text hne hplain, Option.map_some]

theorem parses : Parses parse := by
  intro o hne hplain
  have hback : (ofBytes o.text).map UInt16.toUInt8 = o.text := by
    rw [ofBytes, List.map_map]
    exact List.map_id'' (fun c => UInt8.toUInt8_toUInt16 c) _
  have hascii : (ofBytes o.text).all (· < 0x80) = true := by
    rw [ofBytes, List.all_map]
    refine List.all_eq_true.mpr fun c hc => decide_eq_true ?_
    have hlt := Flat.lt_of_mem_text hplain c hc
    rw [UInt16.lt_iff_toNat_lt]
    exact UInt8.lt_iff_toNat_lt.mp hlt
  rw [parse, if_pos hascii, hback, scans o hne hplain, Option.map_some]

def requestID : Bytes := lit "0b6e7c1a-5d3f-4a52-9c11-7f0e2d4b8a96"

end Sample

theorem relay_transparent_unicode : Transparent Sample.scan Sample.parse Sample.requestID
    (textEncode (Service.requestFrame (ofBytes Sample.requestID)
      (Service.jsString ['\x7b', '"', 'é', '"', ':', '1', '\x7d'])))
    (Service.goString ['\x7b', '"', 'é', '"', ':', '1', '\x7d']) :=
  relay_transparent Sample.scans Sample.parses (by decide) _ (List.cons_ne_nil _ _) (by decide)

end Grantd.Daemon
