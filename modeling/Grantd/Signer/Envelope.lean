import Grantd.Base.JsonText
import Grantd.Service.Js
import Grantd.Signer.Ops

/-!
# The redemption envelope as the signer reads it

The `UnmarshalJSON` methods of go/internal/protocol/envelopes.go and
go/internal/protocol/messages.go. encoding/json fills the shadow structs
member by member; a key that is no field's name still counts as the field it
equals up to case. A text is given by its syntax tree, where strings are the
UTF-16 units that their escapes spell.
-/

namespace Grantd.Signer

open Base JsonText Protocol
open Service (JsString js codePoints textEncode)

abbrev Doc := JsonText.Doc JsString

-- ---------------------------------------------------------------------------
-- encoding/json
-- ---------------------------------------------------------------------------

/-- Folds the runes that fold to a letter of ASCII. Names are spelled in small
letters, so no other folding can make a key match one. -/
def foldRune (c : Nat) : Nat :=
  if 0x41 ≤ c ∧ c ≤ 0x5A then c + 0x20
  else if c = 0x17F then 0x73
  else if c = 0x212A then 0x6B
  else c

def foldName (key : JsString) : List Nat := (codePoints key).map foldRune

/-- A Go string is the text in UTF-8, a lone surrogate being U+FFFD. -/
def decodeString : Doc → Option GoString
  | .str s => some (textEncode s)
  | _ => none

/-- `strconv.ParseUint` takes no sign. -/
def decodeUint64 : Doc → Option UInt64
  | .num (.integer false n) => if n < 2 ^ 64 then some (.ofNat n) else none
  | _ => none

def decodeInt64 : Doc → Option Int64
  | .num (.integer false n) => if n < 2 ^ 63 then some (.ofNat n) else none
  | .num (.integer true n) => if n ≤ 2 ^ 63 then some (.ofInt (-n)) else none
  | _ => none

-- ---------------------------------------------------------------------------
-- RedemptionPayload
-- ---------------------------------------------------------------------------

structure PayloadJSON where
  version : UInt64 := 0
  hostID : GoString := []
  grantID : GoString := []
  agentID : GoString := []
  agentPublicKey : GoString := []
  sshPublicKey : GoString := []
  timestamp : Int64 := 0
  nonce : GoString := []

inductive PayloadField
  | version
  | hostID
  | grantID
  | agentID
  | agentPublicKey
  | sshPublicKey
  | timestamp
  | nonce
  deriving DecidableEq, Repr

def PayloadField.name : PayloadField → JsString
  | .version => js "version"
  | .hostID => js "host_id"
  | .grantID => js "grant_id"
  | .agentID => js "agent_id"
  | .agentPublicKey => js "agent_public_key"
  | .sshPublicKey => js "ssh_public_key"
  | .timestamp => js "timestamp"
  | .nonce => js "nonce"

def payloadFields : Fields PayloadField JsString (List Nat) where
  all := [.version, .hostID, .grantID, .agentID, .agentPublicKey, .sshPublicKey, .timestamp, .nonce]
  name := PayloadField.name
  fold := foldName

def PayloadJSON.set (i : PayloadField) (v : Doc) (j : PayloadJSON) : Option PayloadJSON :=
  match i with
  | .version => (overwrite Doc.isNull decodeUint64 j.version v).map fun x => { j with version := x }
  | .hostID => (overwrite Doc.isNull decodeString j.hostID v).map fun x => { j with hostID := x }
  | .grantID => (overwrite Doc.isNull decodeString j.grantID v).map fun x => { j with grantID := x }
  | .agentID => (overwrite Doc.isNull decodeString j.agentID v).map fun x => { j with agentID := x }
  | .agentPublicKey =>
    (overwrite Doc.isNull decodeString j.agentPublicKey v).map fun x =>
      { j with agentPublicKey := x }
  | .sshPublicKey =>
    (overwrite Doc.isNull decodeString j.sshPublicKey v).map fun x => { j with sshPublicKey := x }
  | .timestamp => (overwrite Doc.isNull decodeInt64 j.timestamp v).map fun x =>
      { j with timestamp := x }
  | .nonce => (overwrite Doc.isNull decodeString j.nonce v).map fun x => { j with nonce := x }

/-- The struct `json.Unmarshal` fills; a null fills nothing. -/
def PayloadJSON.ofDoc : Doc → Option PayloadJSON
  | .null => some {}
  | .obj members => assign payloadFields PayloadJSON.set {} members
  | _ => none

def PayloadJSON.payload (j : PayloadJSON) : Option RedemptionPayload := do
  let pk ← b64Decode j.agentPublicKey
  let nonce ← b64Decode j.nonce
  pure { version := j.version, hostID := j.hostID, grantID := j.grantID, agentID := j.agentID
         agentPublicKey := pk, sshPublicKey := j.sshPublicKey, timestamp := j.timestamp, nonce }

def unmarshalPayload (v : Doc) : Option RedemptionPayload := (PayloadJSON.ofDoc v).bind (·.payload)

-- ---------------------------------------------------------------------------
-- RedemptionRequest
-- ---------------------------------------------------------------------------

/-- `redemptionRequestJSON`, with the zero payload. -/
structure RequestJSON where
  payload : RedemptionPayload := ⟨0, [], [], [], [], [], 0, []⟩
  agentSignature : GoString := []
  proof : GoString := []

inductive RequestField
  | payload
  | agentSignature
  | proof
  deriving DecidableEq, Repr

def RequestField.name : RequestField → JsString
  | .payload => js "payload"
  | .agentSignature => js "agent_signature"
  | .proof => js "proof"

def requestFields : Fields RequestField JsString (List Nat) where
  all := [.payload, .agentSignature, .proof]
  name := RequestField.name
  fold := foldName

/-- A payload has its own `UnmarshalJSON`, which a null reaches too. -/
def RequestJSON.set (i : RequestField) (v : Doc) (j : RequestJSON) : Option RequestJSON :=
  match i with
  | .payload => (unmarshalPayload v).map fun x => { j with payload := x }
  | .agentSignature =>
    (overwrite Doc.isNull decodeString j.agentSignature v).map fun x =>
      { j with agentSignature := x }
  | .proof => (overwrite Doc.isNull decodeString j.proof v).map fun x => { j with proof := x }

def RequestJSON.ofDoc : Doc → Option RequestJSON
  | .null => some {}
  | .obj members => assign requestFields RequestJSON.set {} members
  | _ => none

def unmarshalRequest (v : Doc) : Option RedemptionRequest := do
  let j ← RequestJSON.ofDoc v
  let agentSignature ← b64Decode j.agentSignature
  let proof ← b64Decode j.proof
  pure { payload := j.payload, agentSignature, proof }

end Grantd.Signer
