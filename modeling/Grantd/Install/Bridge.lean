import Grantd.Base.Code
import Grantd.Base.Framing
import Grantd.Base.Machine
import Grantd.Protocol.Ids

/-!
# The bridge shim

install/bridge-proxy.py carries an SSH session over a WebSocket. Its loop waits
for its input and for the socket, and asks a frame reader with a buffer of its
own for one payload each time the socket is readable. What else the reader has
read by then stays in its buffer until more bytes come in, and so does what the
TLS layer has decrypted and nobody has read: the loop watches the socket and
neither of the two. Nothing is held back as long as no TLS record completes a
second data frame, and the one with the end of the handshake none.
-/

namespace Grantd.Install.Bridge

open Base
open Code (bigEndian ofBigEndian)
open Framing (completed Reads)

def chunk : Nat := 65536

-- ---------------------------------------------------------------------------
-- Frames
-- ---------------------------------------------------------------------------

def xorMask (mask payload : Bytes) : Bytes :=
  payload.mapIdx fun i b => b ^^^ mask.getD (i % 4) 0

def frame (mask payload : Bytes) : Bytes :=
  0x82 :: (if payload.length < 126 then [0x80 ||| .ofNat payload.length]
    else if payload.length < 65536 then 0xFE :: bigEndian 2 payload.length
    else 0xFF :: bigEndian 8 payload.length) ++ mask ++ xorMask mask payload

/-- The answer to a ping. A payload of 256 bytes and more has no second byte:
`bytearray` raises. -/
def pong (mask payload : Bytes) : Option Bytes :=
  if payload.length < 256 then
    some (0x8A :: (0x80 ||| .ofNat payload.length) :: mask ++ xorMask mask payload)
  else none

/-- The end of a frame whose header takes `offset` bytes, and what follows it. -/
def readPayload (masked : Bool) (n offset : Nat) (buf : Bytes) : Option (Bytes × Bytes) :=
  if masked then
    if buf.length < offset + 4 then none
    else if buf.length < offset + 4 + n then none
    else some (xorMask ((buf.drop offset).take 4) ((buf.drop (offset + 4)).take n),
      buf.drop (offset + 4 + n))
  else if buf.length < offset + n then none
  else some ((buf.drop offset).take n, buf.drop (offset + n))

/-- One turn of `Reader.next` on what is in the buffer: the opcode, the payload
and the rest. `none` is a `_need` that has to receive more. -/
def readFrame (buf : Bytes) : Option ((UInt8 × Bytes) × Bytes) :=
  match buf with
  | b0 :: b1 :: _ =>
    let masked := (b1 &&& 0x80) != 0
    let body :=
      if (b1 &&& 0x7F) = 126 then
        if buf.length < 4 then none
        else readPayload masked (ofBigEndian ((buf.drop 2).take 2)) 4 buf
      else if (b1 &&& 0x7F) = 127 then
        if buf.length < 10 then none
        else readPayload masked (ofBigEndian ((buf.drop 2).take 8)) 10 buf
      else readPayload masked (b1 &&& 0x7F).toNat 2 buf
    body.map fun p => ((b0 &&& 0x0F, p.1), p.2)
  | _ => none

-- ---------------------------------------------------------------------------
-- The loop
-- ---------------------------------------------------------------------------

/-- Where the program waits: in `select`, or in `recv` within `Reader.next`. -/
inductive Mode
  | select
  | next
  | ended
  deriving DecidableEq, Repr

/-- `unread` is the TLS records in the socket, which is all that `select` sees;
`pending` is what the SSL object has of the record it has decrypted. `read` is a
ghost: what the reader has been given so far. -/
structure Shim where
  buf : Bytes
  pending : Bytes
  unread : List Bytes
  eof : Bool
  out : Bytes
  sent : List Bytes
  mode : Mode
  read : Bytes
  deriving DecidableEq, Repr

inductive Action
  | arrive (record : Bytes)
  | shut
  /-- `select` reports the socket for a record that is not all there, or has no
  data in it. -/
  | stir
  | input (data mask : Bytes)
  | inputEnd
  | wake
  | recv (n : Nat)
  | hangup
  | deliver (mask : Bytes)

def isData (opcode : UInt8) : Bool := opcode == 0x1 || opcode == 0x2 || opcode == 0x0

/-- What `Reader.next` and the loop do with a frame. -/
def handle (s : Shim) (mask : Bytes) (opcode : UInt8) (payload rest : Bytes) : Shim :=
  if isData opcode then { s with buf := rest, out := s.out ++ payload, mode := .select }
  else if opcode = 0x8 then { s with buf := rest, mode := .ended }
  else if opcode = 0x9 then
    match pong mask payload with
    | some p => { s with buf := rest, sent := s.sent ++ [p] }
    | none => { s with buf := rest, mode := .ended }
  else { s with buf := rest }

/-- The reader gets the first `n` bytes of `got`, and the SSL object keeps the
rest. -/
def Shim.take (s : Shim) (n : Nat) (got : Bytes) (unread : List Bytes) : Shim :=
  { s with
    buf := s.buf ++ got.take n
    pending := got.drop n
    unread
    read := s.read ++ got.take n }

/-- `sock.recv`, which decrypts the next record once the last one is used up. -/
def Shim.recv (s : Shim) (n : Nat) : Option Shim :=
  match s.pending, s.unread with
  | [], [] => none
  | [], record :: rest => if n ≤ record.length then some (s.take n record rest) else none
  | pending, unread => if n ≤ pending.length then some (s.take n pending unread) else none

def step (s : Shim) : Action → Option Shim
  | .arrive record =>
    if s.eof ∨ record = [] then none else some { s with unread := s.unread ++ [record] }
  | .shut => some { s with eof := true }
  | .input data mask =>
    if s.mode = .select ∧ data ≠ [] ∧ data.length ≤ chunk then
      some { s with sent := s.sent ++ [frame mask data] }
    else none
  | .inputEnd => if s.mode = .select then some { s with mode := .ended } else none
  | .wake =>
    if s.mode = .select ∧ (s.unread ≠ [] ∨ s.eof = true) then some { s with mode := .next }
    else none
  | .stir => if s.mode = .select then some { s with mode := .next } else none
  | .recv n =>
    if s.mode = .next ∧ readFrame s.buf = none ∧ 0 < n ∧ n ≤ chunk then s.recv n else none
  | .hangup =>
    if s.mode = .next ∧ readFrame s.buf = none ∧ s.pending = [] ∧ s.unread = [] ∧ s.eof = true then
      some { s with mode := .ended }
    else none
  | .deliver mask =>
    if s.mode = .next then
      (readFrame s.buf).map fun p => handle s mask p.1.1 p.1.2 p.2
    else none

def headEnd : Bytes := lit "\r\n\r\n"

/-- `resp.partition(b"\r\n\r\n")`, if that is in it. -/
def splitHead : Bytes → Option (Bytes × Bytes)
  | [] => none
  | b :: bs =>
    if headEnd.isPrefixOf (b :: bs) then some ([], (b :: bs).drop headEnd.length)
    else (splitHead bs).map fun p => (b :: p.1, p.2)

/-- `handshake` receives byte by byte until the headers are there. What it
returns are the headers, what it has read past them, and what the SSL object
still has. -/
def readHead (resp : Bytes) : Bytes → Option ((Bytes × Bytes) × Bytes)
  | [] => (splitHead resp).map fun p => (p, [])
  | b :: rest =>
    match splitHead resp with
    | some p => some (p, b :: rest)
    | none => readHead (resp ++ [b]) rest

def opened (leftover pending : Bytes) : Shim :=
  ⟨leftover, pending, [], false, [], [], .select, leftover⟩

/-- The loop after a handshake that decrypts `response`. -/
def bridge (response : Bytes) : Machine Shim Action where
  Init s := ∃ head leftover pending, readHead [] response = some ((head, leftover), pending) ∧
    s = opened leftover pending
  step := step

theorem splitHead_snoc (h : splitHead resp = none) (b : UInt8)
    (hs : splitHead (resp ++ [b]) = some (head, leftover)) : leftover = [] := by
  induction resp generalizing head with
  | nil =>
    have hlong : ¬ headEnd <+: [b] := fun hb =>
      absurd hb.length_le (by rw [List.length_singleton]; decide)
    have hnone : splitHead [b] = none := by simp [splitHead, hlong]
    rw [List.nil_append, hnone] at hs
    cases hs
  | cons c cs ih =>
    rw [splitHead] at h
    rw [List.cons_append, splitHead] at hs
    split at h
    · cases h
    · rename_i hno
      split at hs
      · rename_i hyes
        cases hs
        rw [List.isPrefixOf_iff_prefix] at hno hyes
        rw [List.drop_eq_nil_iff]
        by_contra hlen
        refine hno (List.prefix_of_prefix_length_le hyes (List.prefix_append (c :: cs) [b]) ?_)
        simp only [List.length_cons, List.length_append, List.length_nil] at hlen ⊢
        omega
      · obtain ⟨p, hp, heq⟩ := Option.map_eq_some_iff.mp hs
        cases heq
        exact ih (Option.map_eq_none_iff.mp h) hp

theorem readHead_leftover (hresp : splitHead resp = none)
    (h : readHead resp stream = some ((head, leftover), pending)) : leftover = [] := by
  induction stream generalizing resp with
  | nil => simp [readHead, hresp] at h
  | cons b rest ih =>
    rw [readHead, hresp] at h
    dsimp only at h
    cases hs : splitHead (resp ++ [b]) with
    | none => exact ih hs h
    | some p =>
      have hp : p = (head, leftover) := by
        cases rest with
        | nil =>
          simp only [readHead, hs, Option.map_some, Option.some.injEq, Prod.mk.injEq] at h
          exact h.1
        | cons c rest =>
          simp only [readHead, hs, Option.some.injEq, Prod.mk.injEq] at h
          exact h.1
      rw [hp] at hs
      exact splitHead_snoc hresp b hs

-- ---------------------------------------------------------------------------
-- What the server sends
-- ---------------------------------------------------------------------------

inductive LengthForm
  | byte
  | word
  | long
  deriving DecidableEq, Repr

def LengthForm.bound : LengthForm → Nat
  | .byte => 126
  | .word => 2 ^ 16
  | .long => 2 ^ 64

/-- Any frame: `head` is the flags and the opcode. -/
structure WsFrame where
  head : UInt8
  form : LengthForm
  mask : Option Bytes
  payload : Bytes
  fits : payload.length < form.bound
  keyed : ∀ m ∈ mask, m.length = 4

namespace WsFrame

theorem keyed_none : ∀ m ∈ (none : Option Bytes), m.length = 4 := nofun

def opcode (f : WsFrame) : UInt8 := f.head &&& 0x0F

def lengthByte (f : WsFrame) : UInt8 :=
  match f.form with
  | .byte => .ofNat f.payload.length
  | .word => 126
  | .long => 127

def lengthBytes (f : WsFrame) : Bytes :=
  match f.form with
  | .byte => []
  | .word => bigEndian 2 f.payload.length
  | .long => bigEndian 8 f.payload.length

def header (f : WsFrame) : Bytes :=
  f.head :: ((if f.mask.isSome then 0x80 else 0) ||| f.lengthByte) :: f.lengthBytes

def body (f : WsFrame) : Bytes :=
  match f.mask with
  | none => f.payload
  | some m => m ++ xorMask m f.payload

def encode (f : WsFrame) : Bytes := f.header ++ f.body

end WsFrame

-- ---------------------------------------------------------------------------
-- The reader reads frames
-- ---------------------------------------------------------------------------

@[simp] theorem length_xorMask : (xorMask mask payload).length = payload.length := by
  simp [xorMask]

theorem xorMask_xorMask (mask payload : Bytes) : xorMask mask (xorMask mask payload) = payload := by
  refine List.ext_getElem (by simp) fun i _ _ => ?_
  simp only [xorMask, List.getElem_mapIdx]
  rw [UInt8.xor_assoc, UInt8.xor_self, UInt8.xor_zero]

theorem second_byte (masked : Bool) {n : UInt8} (h : n < 128) :
    ((if masked then 0x80 else 0) ||| n) &&& 0x7F = n ∧
      ((((if masked then 0x80 else 0) ||| n) &&& 0x80) != 0) = masked := by
  have hbyte := Code.forall_byte (p := fun n => !decide (n < 128) ||
    (((0x80 ||| n) &&& 0x7F == n) && (((0x80 ||| n) &&& 0x80) != 0) &&
      ((0 ||| n) &&& 0x7F == n) && !(((0 ||| n) &&& 0x80) != 0))) (by decide +kernel) n
  simp only [h, decide_true, Bool.not_true, Bool.false_or, Bool.and_eq_true, beq_iff_eq,
    Bool.not_eq_true'] at hbyte
  obtain ⟨⟨⟨hlow, hhigh⟩, hlow'⟩, hhigh'⟩ := hbyte
  cases masked with
  | true => exact ⟨hlow, hhigh⟩
  | false => exact ⟨hlow', hhigh'⟩

namespace WsFrame

theorem lengthByte_lt (f : WsFrame) : f.lengthByte < 128 := by
  have hfits := f.fits
  unfold lengthByte
  split
  · rename_i hform
    rw [hform] at hfits
    simp only [LengthForm.bound] at hfits
    rw [UInt8.lt_iff_toNat_lt, UInt8.toNat_ofNat']
    have h128 : (128 : UInt8).toNat = 128 := rfl
    omega
  · decide
  · decide

theorem extended (b0 b1 : UInt8) {ext : Bytes} (h : ext.length = k) (tail : Bytes) :
    ¬ (b0 :: b1 :: (ext ++ tail)).length < k + 2 ∧
      ((b0 :: b1 :: (ext ++ tail)).drop 2).take k = ext := by
  constructor
  · simp only [List.length_cons, List.length_append]
    omega
  · rw [List.drop_succ_cons, List.drop_succ_cons, List.drop_zero, ← h, List.take_left]

theorem readFrame_header (f : WsFrame) (tail : Bytes) : readFrame (f.header ++ tail) =
    (readPayload f.mask.isSome f.payload.length f.header.length (f.header ++ tail)).map
      fun p => ((f.opcode, p.1), p.2) := by
  obtain ⟨hlow, hhigh⟩ := second_byte f.mask.isSome f.lengthByte_lt
  have hfits := f.fits
  simp only [header, List.cons_append, readFrame, hlow, hhigh]
  cases hform : f.form with
  | byte =>
    rw [hform] at hfits
    simp only [LengthForm.bound] at hfits
    have hn : f.lengthByte.toNat = f.payload.length := by
      rw [lengthByte, hform, UInt8.toNat_ofNat']
      omega
    have hshort : f.lengthByte ≠ 126 ∧ f.lengthByte ≠ 127 := by
      constructor <;> intro h <;> rw [h] at hn
      · exact absurd (show 126 = f.payload.length from hn) (by omega)
      · exact absurd (show 127 = f.payload.length from hn) (by omega)
    rw [if_neg hshort.1, if_neg hshort.2, hn]
    simp only [lengthBytes, hform, List.nil_append, List.length_cons, List.length_nil]
    rfl
  | word =>
    rw [hform] at hfits
    have hn : f.lengthByte = 126 := by rw [lengthByte, hform]
    have hlen := Code.ofBigEndian_bigEndian (v := f.payload.length) (n := 2) hfits
    have hext := extended f.head ((if f.mask.isSome then 0x80 else 0) ||| f.lengthByte)
      (Code.length_bigEndian (n := 2) (v := f.payload.length)) tail
    simp only [lengthBytes, hform]
    rw [if_pos hn, if_neg (show ¬ _ < 4 from hext.1), hext.2, hlen, List.length_cons,
      List.length_cons, Code.length_bigEndian]
    rfl
  | long =>
    rw [hform] at hfits
    have hn : f.lengthByte = 127 := by rw [lengthByte, hform]
    have hne : f.lengthByte ≠ 126 := by rw [hn]; decide
    have hlen := Code.ofBigEndian_bigEndian (v := f.payload.length) (n := 8) hfits
    have hext := extended f.head ((if f.mask.isSome then 0x80 else 0) ||| f.lengthByte)
      (Code.length_bigEndian (n := 8) (v := f.payload.length)) tail
    simp only [lengthBytes, hform]
    rw [if_neg hne, if_pos hn, if_neg (show ¬ _ < 10 from hext.1), hext.2, hlen, List.length_cons,
      List.length_cons, Code.length_bigEndian]
    rfl

theorem readFrame_short (f : WsFrame) (hb : b <+: f.header) (hlen : b.length < f.header.length) :
    readFrame b = none := by
  match b, hb, hlen with
  | [], _, _ => rfl
  | [_], _, _ => rfl
  | b0 :: b1 :: t, hb, hlen =>
    obtain ⟨hlow, -⟩ := second_byte f.mask.isSome f.lengthByte_lt
    simp only [header, List.cons_prefix_cons] at hb
    obtain ⟨rfl, rfl, -⟩ := hb
    simp only [readFrame, hlow]
    cases hform : f.form with
    | byte =>
      simp only [header, lengthBytes, hform, List.length_cons, List.length_nil] at hlen
      omega
    | word =>
      have hn : f.lengthByte = 126 := by rw [lengthByte, hform]
      simp only [header, lengthBytes, hform, List.length_cons, Code.length_bigEndian] at hlen
      rw [if_pos hn, if_pos (by simp only [List.length_cons]; omega), Option.map_none]
    | long =>
      have hn : f.lengthByte = 127 := by rw [lengthByte, hform]
      have hne : f.lengthByte ≠ 126 := by rw [hn]; decide
      simp only [header, lengthBytes, hform, List.length_cons, Code.length_bigEndian] at hlen
      rw [if_neg hne, if_pos hn, if_pos (by simp only [List.length_cons]; omega), Option.map_none]

theorem readPayload_body (f : WsFrame) (rest : Bytes) :
    readPayload f.mask.isSome f.payload.length f.header.length (f.header ++ (f.body ++ rest)) =
      some (f.payload, rest) := by
  unfold readPayload body
  cases hmask : f.mask with
  | none =>
    have hlong : ¬ (f.header ++ (f.payload ++ rest)).length <
        f.header.length + f.payload.length := by
      simp only [List.length_append]
      omega
    simp only [Option.isSome_none, Bool.false_eq_true, if_false, if_neg hlong, List.drop_left,
      List.take_left, ← List.drop_drop]
  | some m =>
    have hm := f.keyed m hmask
    have hlong : ¬ (f.header ++ (m ++ (xorMask m f.payload ++ rest))).length <
        f.header.length + 4 + f.payload.length := by
      simp only [List.length_append, length_xorMask]
      omega
    have hkey : ¬ (f.header ++ (m ++ (xorMask m f.payload ++ rest))).length <
        f.header.length + 4 := by
      omega
    have hpayload : (m ++ (xorMask m f.payload ++ rest)).drop 4 = xorMask m f.payload ++ rest := by
      rw [← hm, List.drop_left]
    have htake : (m ++ (xorMask m f.payload ++ rest)).take 4 = m := by rw [← hm, List.take_left]
    have hsame : (xorMask m f.payload).length = f.payload.length := length_xorMask
    have hmasked : (xorMask m f.payload ++ rest).take f.payload.length = xorMask m f.payload := by
      rw [← hsame, List.take_left]
    have hrest : (xorMask m f.payload ++ rest).drop f.payload.length = rest := by
      rw [← hsame, List.drop_left]
    simp only [Option.isSome_some, if_true, List.append_assoc, if_neg hkey, if_neg hlong,
      ← List.drop_drop, List.drop_left, htake, hpayload, hmasked, hrest, xorMask_xorMask]

theorem readPayload_short (f : WsFrame) (hb : b.length < f.encode.length) :
    readPayload f.mask.isSome f.payload.length f.header.length b = none := by
  unfold readPayload
  unfold encode body at hb
  rw [List.length_append] at hb
  cases hmask : f.mask with
  | none =>
    rw [hmask] at hb
    simp only [Option.isSome_none, Bool.false_eq_true, if_false, if_pos hb]
  | some m =>
    have hm := f.keyed m hmask
    rw [hmask] at hb
    simp only [List.length_append, length_xorMask, hm] at hb
    simp only [Option.isSome_some, if_true]
    split
    · rfl
    · rw [if_pos (by omega)]

theorem encode_part (f : WsFrame) (hb : b <+: f.encode) :
    b <+: f.header ∧ b.length < f.header.length ∨ ∃ tail, b = f.header ++ tail := by
  by_cases hlen : f.header.length ≤ b.length
  · obtain ⟨tail, htail⟩ := List.prefix_of_prefix_length_le (List.prefix_append _ _) hb hlen
    exact .inr ⟨tail, htail.symm⟩
  · exact .inl ⟨List.prefix_of_prefix_length_le hb (List.prefix_append _ _) (by omega), by omega⟩

end WsFrame

/-- `Reader.next` takes the frames off the stream as the server has put them
there. -/
theorem reads : Reads WsFrame.encode (fun f => (f.opcode, f.payload)) readFrame where
  whole f rest := by
    rw [WsFrame.encode, List.append_assoc, f.readFrame_header, f.readPayload_body, Option.map_some]
  part f b hb hlen := by
    rcases f.encode_part hb with ⟨hheader, hshort⟩ | ⟨tail, rfl⟩
    · exact f.readFrame_short hheader hshort
    · rw [f.readFrame_header, f.readPayload_short hlen, Option.map_none]
  nil := rfl

-- ---------------------------------------------------------------------------
-- What the loop writes
-- ---------------------------------------------------------------------------

def wire (fs : List WsFrame) : Bytes := fs.flatMap WsFrame.encode

def dataOf (fs : List WsFrame) : List Bytes := (fs.filter (isData ·.opcode)).map (·.payload)

def received (fs : List WsFrame) (read : Bytes) : List WsFrame :=
  completed WsFrame.encode read.length fs

def Sends (fs : List WsFrame) (s : Shim) : Action → Prop
  | .arrive record => s.read ++ s.pending ++ s.unread.flatten ++ record <+: wire fs
  | _ => True

/-- Of the data frames that a record completes, all but the first are empty. -/
def Single (fs : List WsFrame) (read record : Bytes) : Prop :=
  (dataOf ((received fs (read ++ record)).drop (received fs read).length)).tail.flatten = []

/-- No record that is decrypted completes a second data frame with anything in
it. -/
def Apart (fs : List WsFrame) (s : Shim) : Action → Prop
  | .recv _ => s.pending = [] → ∀ record ∈ s.unread.head?, Single fs s.read record
  | _ => True

instance (fs : List WsFrame) (s : Shim) (a : Action) : Decidable (Sends fs s a) :=
  match a with
  | .arrive _ => inferInstanceAs (Decidable (_ <+: _))
  | .shut | .stir | .input .. | .inputEnd | .wake | .recv _ | .hangup | .deliver _ =>
    inferInstanceAs (Decidable True)

instance (fs : List WsFrame) (read record : Bytes) : Decidable (Single fs read record) :=
  inferInstanceAs (Decidable (_ = _))

instance (fs : List WsFrame) (s : Shim) (a : Action) : Decidable (Apart fs s a) :=
  match a with
  | .recv _ => inferInstanceAs (Decidable (s.pending = [] → ∀ record ∈ s.unread.head?, _))
  | .arrive _ | .shut | .stir | .input .. | .inputEnd | .wake | .hangup | .deliver _ =>
    inferInstanceAs (Decidable True)

theorem dataOf_append (fs gs : List WsFrame) : dataOf (fs ++ gs) = dataOf fs ++ dataOf gs := by
  simp [dataOf]

theorem dataOf_cons (f : WsFrame) (fs : List WsFrame) :
    dataOf (f :: fs) = if isData f.opcode then f.payload :: dataOf fs else dataOf fs := by
  unfold dataOf
  rw [List.filter_cons]
  split <;> rfl

/-- What the payloads that were not delivered may be: while the loop waits
nothing, and while the reader is at it one that is not empty, in front. -/
def Held (ps : List Bytes) : Mode → Prop
  | .select => ps.flatten = []
  | .next => ps.tail.flatten = []
  | .ended => True

/-- The frames in `done` were taken off the stream, and those in `todo` begin in
the buffer. -/
structure InStep (fs done todo : List WsFrame) (s : Shim) : Prop where
  frames : fs = done ++ todo
  read : s.read = wire done ++ s.buf
  stream : s.read ++ s.pending ++ s.unread.flatten <+: wire fs
  out : s.out = (dataOf done).flatten
  held : Held (dataOf (completed WsFrame.encode (s.buf ++ s.pending).length todo)) s.mode

namespace InStep

theorem buf_within (h : InStep fs done todo s) : s.buf <+: todo.flatMap WsFrame.encode := by
  have hstream := h.stream
  simp only [h.read, h.frames, wire, List.flatMap_append, List.append_assoc] at hstream
  exact (List.prefix_append _ _).trans ((List.prefix_append_right_inj _).mp hstream)

theorem received_eq (h : InStep fs done todo s) (more : Bytes) :
    received fs (s.read ++ more) =
      done ++ completed WsFrame.encode (s.buf ++ more).length todo := by
  rw [received, h.read, h.frames, List.append_assoc, List.length_append]
  exact Framing.completed_append done todo _

theorem opened (hpending : pending <+: wire fs)
    (hclear : (dataOf (received fs pending)).flatten = []) :
    InStep fs [] fs (opened [] pending) where
  frames := rfl
  read := rfl
  stream := by simpa [Bridge.opened] using hpending
  out := rfl
  held := hclear

theorem take (h : InStep fs done todo s) (n : Nat) {got : Bytes} {unread : List Bytes}
    (hsame : s.pending ++ s.unread.flatten = got ++ unread.flatten)
    (hheld : Held (dataOf (completed WsFrame.encode (s.buf ++ got).length todo)) s.mode) :
    InStep fs done todo (s.take n got unread) where
  frames := h.frames
  read := by simp only [Shim.take, h.read, List.append_assoc]
  stream := by
    have hstream := h.stream
    rw [List.append_assoc, hsame] at hstream
    simpa [Shim.take] using hstream
  out := h.out
  held := by
    simp only [Shim.take, List.append_assoc, List.take_append_drop]
    exact hheld

theorem decrypt (h : InStep fs done todo s) (hnone : readFrame s.buf = none)
    (hsingle : Single fs s.read record) (hmode : s.mode = .next) :
    Held (dataOf (completed WsFrame.encode (s.buf ++ record).length todo)) s.mode := by
  rcases reads.cases h.buf_within with ⟨-, hempty⟩ | ⟨f, rest, todo', -, -, hsome, -⟩
  · have hbefore := h.received_eq []
    rw [List.append_nil, List.append_nil, hempty, List.append_nil] at hbefore
    simp only [Single, h.received_eq, hbefore, List.drop_left] at hsingle
    simp only [hmode, Held]
    exact hsingle
  · rw [hnone] at hsome
    cases hsome

theorem recv (h : InStep fs done todo s) (hnone : readFrame s.buf = none)
    (happart : Apart fs s (.recv n)) (hmode : s.mode = .next) (hrecv : s.recv n = some t) :
    InStep fs done todo t := by
  unfold Shim.recv at hrecv
  split at hrecv
  · cases hrecv
  · rename_i record rest hpending hunread
    split at hrecv <;> cases hrecv
    refine h.take n (by simp [hpending, hunread]) (h.decrypt hnone ?_ hmode)
    exact happart hpending record (by simp [hunread])
  · split at hrecv <;> cases hrecv
    exact h.take n rfl h.held

theorem deliver (h : InStep fs done todo s) (hclose : ∀ f ∈ fs, f.opcode ≠ 0x8)
    (hmode : s.mode = .next) (hsome : readFrame s.buf = some ((opcode, payload), rest)) :
    ∃ done todo, InStep fs done todo (handle s mask opcode payload rest) := by
  rcases reads.cases h.buf_within with ⟨hnone, -⟩ | ⟨f, _, todo', rfl, hbuf, hread, -⟩
  · rw [hnone] at hsome
    cases hsome
  · cases hread.symm.trans hsome
    have hheld := h.held
    rw [hmode, hbuf, List.append_assoc, List.length_append, Framing.completed_cons, dataOf_cons,
      Held] at hheld
    have hframes : fs = (done ++ [f]) ++ todo' := by rw [h.frames]; simp
    have hreadEq : s.read = wire (done ++ [f]) ++ rest := by
      rw [h.read, hbuf]
      simp [wire]
    refine ⟨done ++ [f], todo', ?_⟩
    have hout : (dataOf (done ++ [f])).flatten =
        s.out ++ if isData f.opcode then f.payload else [] := by
      rw [dataOf_append, List.flatten_append, ← h.out, dataOf_cons]
      split <;> simp [dataOf]
    unfold handle
    split
    · rename_i hdata
      rw [if_pos hdata, List.tail_cons] at hheld
      rw [if_pos hdata] at hout
      exact ⟨hframes, hreadEq, h.stream, hout.symm, hheld⟩
    · rename_i hdata
      rw [if_neg hdata] at hheld
      rw [if_neg hdata, List.append_nil] at hout
      rw [if_neg (hclose f (by rw [h.frames]; simp))]
      have quiet {t : Shim} (hbuf : t.buf = rest) (hread : t.read = s.read)
          (hpending : t.pending = s.pending) (hunread : t.unread = s.unread) (hsame : t.out = s.out)
          (hheldt : t.mode = .ended ∨ t.mode = .next) : InStep fs (done ++ [f]) todo' t := by
        refine ⟨hframes, by rw [hread, hbuf, hreadEq],
          by rw [hread, hpending, hunread]; exact h.stream, by rw [hsame, hout], ?_⟩
        rcases hheldt with hend | hnext
        · rw [hend]
          trivial
        · rw [hnext, hbuf, hpending]
          exact hheld
      split
      · split
        · exact quiet rfl rfl rfl rfl rfl (.inr hmode)
        · exact quiet rfl rfl rfl rfl rfl (.inl rfl)
      · exact quiet rfl rfl rfl rfl rfl (.inr hmode)

theorem next (h : InStep fs done todo s) (hmode : s.mode = .select) :
    InStep fs done todo { s with mode := .next } := by
  refine ⟨h.frames, h.read, h.stream, h.out, ?_⟩
  have hheld := h.held
  rw [hmode] at hheld
  exact List.flatten_eq_nil_iff.mpr fun p hp =>
    List.flatten_eq_nil_iff.mp hheld p (List.mem_of_mem_tail hp)

theorem step (h : InStep fs done todo s) (hclose : ∀ f ∈ fs, f.opcode ≠ 0x8) (hsends : Sends fs s a)
    (happart : Apart fs s a) (hstep : step s a = some t) : ∃ done todo, InStep fs done todo t := by
  cases a with
  | arrive bytes =>
    simp only [Bridge.step] at hstep
    split at hstep <;> cases hstep
    refine ⟨done, todo, h.frames, h.read, ?_, h.out, h.held⟩
    simpa [Sends] using hsends
  | shut =>
    cases hstep
    exact ⟨done, todo, h.frames, h.read, h.stream, h.out, h.held⟩
  | input data mask =>
    simp only [Bridge.step] at hstep
    split at hstep <;> cases hstep
    exact ⟨done, todo, h.frames, h.read, h.stream, h.out, h.held⟩
  | inputEnd | hangup =>
    simp only [Bridge.step] at hstep
    split at hstep <;> cases hstep
    exact ⟨done, todo, h.frames, h.read, h.stream, h.out, trivial⟩
  | wake =>
    simp only [Bridge.step] at hstep
    split at hstep <;> cases hstep
    rename_i hready
    exact ⟨done, todo, h.next hready.1⟩
  | stir =>
    simp only [Bridge.step] at hstep
    split at hstep <;> cases hstep
    rename_i hmode
    exact ⟨done, todo, h.next hmode⟩
  | recv n =>
    simp only [Bridge.step] at hstep
    split at hstep
    · rename_i hready
      exact ⟨done, todo, h.recv hready.2.1 happart hready.1 hstep⟩
    · cases hstep
  | deliver mask =>
    simp only [Bridge.step] at hstep
    split at hstep
    · rename_i hmode
      obtain ⟨⟨⟨opcode, payload⟩, rest⟩, hread, rfl⟩ := Option.map_eq_some_iff.mp hstep
      exact h.deliver hclose hmode hread
    · cases hstep

theorem reachable (hclose : ∀ f ∈ fs, f.opcode ≠ 0x8)
    (hhead : readHead [] response = some (head, pending)) (hpending : pending <+: wire fs)
    (hclear : (dataOf (received fs pending)).flatten = [])
    (hs : (bridge response).Reachable (fun s a => Sends fs s a ∧ Apart fs s a) s) :
    ∃ done todo, InStep fs done todo s := by
  refine hs.invariant (I := fun s => ∃ done todo, InStep fs done todo s) ?_ ?_
  · rintro s ⟨head', leftover, pending', hhead', rfl⟩
    cases hhead.symm.trans hhead'
    rw [readHead_leftover rfl hhead]
    exact ⟨[], fs, .opened hpending hclear⟩
  · rintro s a t ⟨done, todo, h⟩ hok hstep
    exact h.step hclose hok.1 hok.2 hstep

end InStep

namespace Sample

def small (b : UInt8) : WsFrame :=
  ⟨0x82, .byte, none, [b], by simp [LengthForm.bound], WsFrame.keyed_none⟩

def frames : List WsFrame := [small 0x61, small 0x62]

def response : Bytes := lit "HTTP/1.1 101 Switching Protocols\r\n\r\n" ++ [0x82, 0x01]

def answered (response : Bytes) : Shim :=
  match readHead [] response with
  | some ((_, leftover), pending) => opened leftover pending
  | none => opened [] []

end Sample

end Grantd.Install.Bridge
