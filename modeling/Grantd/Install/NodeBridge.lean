import Grantd.Base.Double
import Grantd.Install.Bridge
import Mathlib.Data.List.Forall2

/-!
# The bridge of redeem.mjs

`wsFrame`, `wsReader` and `runBridge` of install/redeem.mjs. The reader pumps
its buffer after every chunk: it takes off frame after frame until one is not
complete, hands on the payloads of data frames, answers pings, and stops at
the first close frame, where `runBridge` ends the process. However the bytes
are cut into chunks, it has done so for exactly the frames that have come in
full.
-/

namespace Grantd.Install.NodeBridge

open Base
open Code (bigEndian ofBigEndian)
open Framing (completed Reads)
open Install.Bridge (WsFrame LengthForm xorMask readPayload readFrame wire received)

-- ---------------------------------------------------------------------------
-- Frames
-- ---------------------------------------------------------------------------

/-- A masked frame; `mask` is what `randomBytes` drew. -/
def wsFrame (mask payload : Bytes) (opcode : UInt8) : Bytes :=
  (if payload.length < 126 then [0x80 ||| opcode, 0x80 ||| .ofNat payload.length]
    else if payload.length < 65536 then (0x80 ||| opcode) :: 0xFE :: bigEndian 2 payload.length
    else (0x80 ||| opcode) :: 0xFF :: bigEndian 8 payload.length) ++ mask ++ xorMask mask payload

/-- The first half of a turn of `pump`: the opcode and the payload of the first
frame and what follows it. `none` is a return. `Number` rounds a length of
eight bytes. A Buffer has less than 2^53 bytes, and up to there its length
compares with the exact sum of offset and length as with the rounded one. -/
def takeFrame (buf : Bytes) : Option ((UInt8 × Bytes) × Bytes) :=
  match buf with
  | b0 :: b1 :: _ =>
    let masked := (b1 &&& 0x80) != 0
    let body :=
      if (b1 &&& 0x7F) = 126 then
        if buf.length < 4 then none
        else readPayload masked (ofBigEndian ((buf.drop 2).take 2)) 4 buf
      else if (b1 &&& 0x7F) = 127 then
        if buf.length < 10 then none
        else readPayload masked (Double.nearest (ofBigEndian ((buf.drop 2).take 8))) 10 buf
      else readPayload masked (b1 &&& 0x7F).toNat 2 buf
    body.map fun p => ((b0 &&& 0x0F, p.1), p.2)
  | _ => none

-- ---------------------------------------------------------------------------
-- wsReader
-- ---------------------------------------------------------------------------

/-- The reader's buffer and what it has done: the calls of `onMessage`, the
frames given to `sock.write` and whether it has called `onClose`. -/
structure WsReader where
  buf : Bytes
  messages : List Bytes := []
  written : List Bytes := []
  closed : Bool := false
  deriving DecidableEq, Repr

section Reader

-- The mask that `randomBytes` draws for the pong with this number.
variable (randomBytes : Nat → Bytes)

/-- `none` is a loop that did not come to its return within so many turns. -/
def pump : Nat → WsReader → Option WsReader
  | 0, _ => none
  | turns + 1, s =>
    match takeFrame s.buf with
    | none => some s
    | some ((opcode, payload), rest) =>
      let s := { s with buf := rest }
      if opcode = 0x8 then some { s with closed := true }
      else if opcode = 0x9 then
        let pong := wsFrame (randomBytes s.written.length) payload 0xA
        pump turns { s with written := s.written ++ [pong] }
      else if opcode = 0xA then pump turns s
      else pump turns { s with messages := s.messages ++ [payload] }

/-- Every turn takes off two bytes at least. -/
def pumpAll (s : WsReader) : Option WsReader := pump randomBytes (s.buf.length + 1) s

/-- The data event. `onClose` is `finish` of `runBridge`: the process has
exited. -/
def onData (s : WsReader) (d : Bytes) : Option WsReader :=
  if s.closed then some s else pumpAll randomBytes { s with buf := s.buf ++ d }

/-- `wsReader` on these bytes left over from the handshake, and the data events
that follow. -/
def wsReader (leftover : Bytes) (chunks : List Bytes) : Option WsReader :=
  (pumpAll randomBytes { buf := leftover }).bind fun s => chunks.foldlM (onData randomBytes) s

end Reader

-- ---------------------------------------------------------------------------
-- The reader reads frames
-- ---------------------------------------------------------------------------

theorem takeFrame_eq {buf : Bytes}
    (h : ∀ b0 b1 t, buf = b0 :: b1 :: t → b1 &&& 0x7F = 127 → ¬ buf.length < 10 →
      ofBigEndian ((buf.drop 2).take 8) < 2 ^ 53) : takeFrame buf = readFrame buf := by
  match buf, h with
  | [], _ => rfl
  | [_], _ => rfl
  | b0 :: b1 :: t, h =>
    simp only [takeFrame, readFrame]
    split
    · rfl
    · split
      · rename_i hlong
        split
        · rfl
        · rename_i hlen
          rw [Double.nearest_of_lt (h b0 b1 t rfl hlong hlen)]
      · rfl

/-- A frame whose length is the same as a Number. -/
structure Frame extends WsFrame where
  exact : payload.length < 2 ^ 53

namespace Frame

theorem form_of_lengthByte (f : WsFrame) (h : f.lengthByte = 127) : f.form = .long := by
  have hfits := f.fits
  cases hform : f.form with
  | byte =>
    rw [hform] at hfits
    have hn := congrArg UInt8.toNat h
    rw [WsFrame.lengthByte, hform, UInt8.toNat_ofNat'] at hn
    change f.payload.length < 126 at hfits
    change f.payload.length % 2 ^ 8 = 127 at hn
    omega
  | word =>
    rw [WsFrame.lengthByte, hform] at h
    exact absurd (show (126 : UInt8) = 127 from h) (by decide)
  | long => rfl

theorem long_length (f : Frame) (hb : b0 :: b1 :: t <+: f.encode ++ rest)
    (hlong : b1 &&& 0x7F = 127) (hlen : ¬ (b0 :: b1 :: t).length < 10) :
    ofBigEndian (((b0 :: b1 :: t).drop 2).take 8) < 2 ^ 53 := by
  obtain ⟨hlow, -⟩ := Bridge.second_byte f.mask.isSome f.lengthByte_lt
  simp only [WsFrame.encode, WsFrame.header, List.cons_append, List.append_assoc,
    List.cons_prefix_cons] at hb
  obtain ⟨rfl, rfl, ht⟩ := hb
  have hform := form_of_lengthByte f.toWsFrame (hlow.symm.trans hlong)
  simp only [WsFrame.lengthBytes, hform] at ht
  have hwhole : bigEndian 8 f.payload.length <+: t := by
    refine List.prefix_of_prefix_length_le (List.prefix_append _ _) ht ?_
    simp only [List.length_cons, Code.length_bigEndian] at hlen ⊢
    omega
  obtain ⟨t', rfl⟩ := hwhole
  have hfits : f.payload.length < 256 ^ 8 := Nat.lt_trans f.exact (by decide)
  rw [(WsFrame.extended _ _ Code.length_bigEndian t').2, Code.ofBigEndian_bigEndian hfits]
  exact f.exact

theorem takeFrame_eq_readFrame (f : Frame) (hb : b <+: f.encode ++ rest) :
    takeFrame b = readFrame b := by
  refine takeFrame_eq fun b0 b1 t ht hlong hlen => ?_
  subst ht
  exact f.long_length hb hlong hlen

end Frame

theorem reads : Reads (fun f : Frame => f.encode) (fun f => (f.opcode, f.payload)) takeFrame where
  whole f rest := by
    rw [f.takeFrame_eq_readFrame List.prefix_rfl, Bridge.reads.whole f.toWsFrame rest]
  part f b hb hlen := by
    rw [f.takeFrame_eq_readFrame (hb.trans (List.prefix_append _ [])),
      Bridge.reads.part f.toWsFrame b hb hlen]
  nil := rfl

def sent (mask payload : Bytes) (opcode : UInt8) (hmask : mask.length = 4)
    (hlen : payload.length < 2 ^ 53) : Frame where
  head := 0x80 ||| opcode
  form := if payload.length < 126 then .byte else if payload.length < 65536 then .word else .long
  mask := some mask
  payload := payload
  fits := by
    split
    · assumption
    · split
      · assumption
      · exact Nat.lt_trans hlen (by decide)
  keyed := by
    rintro m ⟨⟩
    exact hmask
  exact := hlen

theorem encode_sent (hmask : mask.length = 4) (hlen : payload.length < 2 ^ 53) :
    (sent mask payload opcode hmask hlen).encode = wsFrame mask payload opcode := by
  unfold wsFrame
  by_cases hbyte : payload.length < 126
  · simp [sent, WsFrame.encode, WsFrame.header, WsFrame.lengthByte, WsFrame.lengthBytes,
      WsFrame.body, hbyte]
  · by_cases hword : payload.length < 65536
    · simp [sent, WsFrame.encode, WsFrame.header, WsFrame.lengthByte, WsFrame.lengthBytes,
        WsFrame.body, hbyte, hword]
      rfl
    · simp [sent, WsFrame.encode, WsFrame.header, WsFrame.lengthByte, WsFrame.lengthBytes,
        WsFrame.body, hbyte, hword]
      rfl

theorem opcode_sent (hmask : mask.length = 4) (hlen : payload.length < 2 ^ 53)
    (hop : opcode < 16) : (sent mask payload opcode hmask hlen).opcode = opcode := by
  have hbyte := Code.forall_byte (p := fun b => !decide (b < 16) || ((0x80 ||| b) &&& 0x0F == b))
    (by decide +kernel) opcode
  simp only [hop, decide_true, Bool.not_true, Bool.false_or, beq_iff_eq] at hbyte
  exact hbyte

theorem takeFrame_wsFrame (hmask : mask.length = 4) (hlen : payload.length < 2 ^ 53)
    (hop : opcode < 16) :
    takeFrame (wsFrame mask payload opcode) = some ((opcode, payload), []) := by
  have hwhole := reads.whole (sent mask payload opcode hmask hlen) []
  rwa [List.append_nil, encode_sent, opcode_sent hmask hlen hop] at hwhole

-- ---------------------------------------------------------------------------
-- What the reader does with them
-- ---------------------------------------------------------------------------

def stream (fs : List Frame) : Bytes := fs.flatMap fun f => f.encode

theorem stream_append (fs gs : List Frame) : stream (fs ++ gs) = stream fs ++ stream gs :=
  List.flatMap_append

def arrived (fs : List Frame) (bytes : Bytes) : List Frame :=
  completed (fun f : Frame => f.encode) bytes.length fs

theorem arrived_cases (h : b <+: stream todo) :
    takeFrame b = none ∧ arrived todo b = [] ∨
    ∃ f rest todo', todo = f :: todo' ∧ b = f.encode ++ rest ∧
      takeFrame b = some ((f.opcode, f.payload), rest) ∧ rest <+: stream todo' :=
  reads.cases h

theorem arrived_cons (f : Frame) (todo : List Frame) (rest : Bytes) :
    arrived (f :: todo) (f.encode ++ rest) = f :: arrived todo rest := by
  rw [arrived, List.length_append]
  exact Framing.completed_cons f todo rest.length

theorem arrived_append (got todo : List Frame) (rest : Bytes) :
    arrived (got ++ todo) (stream got ++ rest) = got ++ arrived todo rest := by
  rw [arrived, List.length_append]
  exact Framing.completed_append got todo rest.length

theorem arrived_more (fs : List Frame) (bytes d : Bytes) :
    arrived fs bytes <+: arrived fs (bytes ++ d) := by
  refine Framing.completed_mono fs ?_
  rw [List.length_append]
  exact Nat.le_add_right _ _

def isClose (f : Frame) : Bool := f.opcode == 0x8

def isPing (f : Frame) : Bool := f.opcode == 0x9

def isMessage (f : Frame) : Bool := f.opcode != 0x8 && f.opcode != 0x9 && f.opcode != 0xA

def beforeClose (fs : List Frame) : List Frame := fs.takeWhile (!isClose ·)

def IsPong (payload bytes : Bytes) : Prop := takeFrame bytes = some ((0xA, payload), [])

structure Handled (got : List Frame) (s : WsReader) : Prop where
  messages : s.messages = ((beforeClose got).filter isMessage).map (·.payload)
  pongs : List.Forall₂ IsPong (((beforeClose got).filter isPing).map (·.payload)) s.written
  closed : s.closed = got.any isClose

theorem beforeClose_open {got : List Frame} (h : got.any isClose = false) (more : List Frame) :
    beforeClose (got ++ more) = got ++ beforeClose more := by
  refine List.takeWhile_append_of_pos fun f hf => ?_
  have := List.any_eq_false.mp h f hf
  simpa using this

theorem beforeClose_closed {got : List Frame} (h : got.any isClose = true) (more : List Frame) :
    beforeClose (got ++ more) = beforeClose got := by
  induction got with
  | nil => cases h
  | cons f got ih =>
    unfold beforeClose at ih ⊢
    rw [List.cons_append, List.takeWhile_cons, List.takeWhile_cons]
    cases hf : isClose f with
    | true => rfl
    | false =>
      rw [List.any_cons, hf, Bool.false_or] at h
      simp only [Bool.not_false, if_true, ih h]

theorem beforeClose_single {p : Frame → Bool} (f : Frame)
    (hp : p f = true → isClose f = false) :
    ((beforeClose [f]).filter p).map (·.payload) = if p f then [f.payload] else [] := by
  cases hf : p f with
  | true => simp [beforeClose, hp hf, hf]
  | false => cases hclose : isClose f <;> simp [beforeClose, hclose, hf]

theorem isClose_of_isMessage (f : Frame) (h : isMessage f = true) : isClose f = false := by
  simp only [isMessage, Bool.and_eq_true, bne_iff_ne, ne_eq] at h
  exact beq_false_of_ne h.1.1

theorem isClose_of_isPing (f : Frame) (h : isPing f = true) : isClose f = false := by
  rw [isClose, eq_of_beq h]
  rfl

namespace Handled

theorem append (h : Handled got s) (hclosed : s.closed = true) (more : List Frame) :
    Handled (got ++ more) s := by
  have hany : got.any isClose = true := h.closed.symm.trans hclosed
  refine ⟨?_, ?_, ?_⟩
  · rw [beforeClose_closed hany, h.messages]
  · rw [beforeClose_closed hany]
    exact h.pongs
  · rw [List.any_append, hany, hclosed, Bool.true_or]

theorem snoc (h : Handled got s) (hopen : s.closed = false) (f : Frame)
    (hmessages : t.messages = s.messages ++ if isMessage f then [f.payload] else [])
    (hpongs : ∃ pongs, t.written = s.written ++ pongs ∧
      List.Forall₂ IsPong (if isPing f then [f.payload] else []) pongs)
    (hclosed : t.closed = isClose f) : Handled (got ++ [f]) t := by
  have hany : got.any isClose = false := h.closed.symm.trans hopen
  have hgot : beforeClose got = got := by
    have := beforeClose_open hany []
    simpa [beforeClose] using this
  have hmessages' := h.messages
  have hpongs' := h.pongs
  rw [hgot] at hmessages' hpongs'
  obtain ⟨pongs, hwritten, hpong⟩ := hpongs
  refine ⟨?_, ?_, ?_⟩
  · rw [beforeClose_open hany, hmessages, hmessages', List.filter_append, List.map_append,
      beforeClose_single f (isClose_of_isMessage f)]
  · rw [beforeClose_open hany, hwritten, List.filter_append, List.map_append,
      beforeClose_single f (isClose_of_isPing f)]
    exact List.rel_append hpongs' hpong
  · rw [List.any_append, hany, hclosed, Bool.false_or, List.any_cons, List.any_nil, Bool.or_false]

end Handled

section Reader

variable {randomBytes : Nat → Bytes} (hrandom : ∀ i, (randomBytes i).length = 4)

include hrandom

theorem pump_frame (f : Frame) (h : Handled got s) (hopen : s.closed = false)
    (hclose : isClose f = false) (hread : takeFrame s.buf = some ((f.opcode, f.payload), rest)) :
    ∃ t, t.buf = rest ∧ t.closed = false ∧ Handled (got ++ [f]) t ∧
      ∀ turns, pump randomBytes (turns + 1) s = pump randomBytes turns t := by
  have hne : f.opcode ≠ 0x8 := ne_of_beq_false hclose
  by_cases hping : f.opcode = 0x9
  · have hpong : IsPong f.payload (wsFrame (randomBytes s.written.length) f.payload 0xA) :=
      takeFrame_wsFrame (hrandom _) f.exact (by decide)
    refine ⟨{ s with
        buf := rest
        written := s.written ++ [wsFrame (randomBytes s.written.length) f.payload 0xA] },
      rfl, hopen, ?_, fun turns => ?_⟩
    · refine h.snoc hopen f ?_ ⟨_, rfl, ?_⟩ (hopen.trans hclose.symm)
      · simp [isMessage, hping]
      · simp [isPing, hping, hpong]
    · simp [pump, hread, hping]
  · have hpings : isPing f = false := beq_false_of_ne hping
    by_cases hpong : f.opcode = 0xA
    · refine ⟨{ s with buf := rest }, rfl, hopen, ?_, fun turns => ?_⟩
      · refine h.snoc hopen f ?_ ⟨[], (List.append_nil _).symm, ?_⟩ (hopen.trans hclose.symm)
        · simp [isMessage, hpong]
        · simp [hpings]
      · simp [pump, hread, hpong]
    · refine ⟨{ s with buf := rest, messages := s.messages ++ [f.payload] }, rfl, hopen, ?_,
        fun turns => ?_⟩
      · refine h.snoc hopen f ?_ ⟨[], (List.append_nil _).symm, ?_⟩ (hopen.trans hclose.symm)
        · simp [isMessage, hne, hping, hpong]
        · simp [hpings]
      · simp [pump, hread, hne, hping, hpong]

theorem pump_handled (h : Handled got s) (hopen : s.closed = false) (hbuf : s.buf <+: stream todo)
    (hturns : s.buf.length < turns) :
    ∃ t, pump randomBytes turns s = some t ∧ Handled (got ++ arrived todo s.buf) t ∧
      (t.closed = false → s.buf = stream (arrived todo s.buf) ++ t.buf) := by
  induction turns generalizing got s todo with
  | zero => omega
  | succ turns ih =>
    rcases arrived_cases hbuf with ⟨hnone, hempty⟩ | ⟨f, rest, todo', rfl, hsplit, hread, hrest⟩
    · rw [hempty, List.append_nil]
      exact ⟨s, by simp only [pump, hnone], h, fun _ => rfl⟩
    · have harrived : arrived (f :: todo') s.buf = f :: arrived todo' rest := by
        rw [hsplit, arrived_cons]
      rw [harrived, List.append_cons]
      cases hclose : isClose f with
      | true =>
        have heq : f.opcode = 0x8 := eq_of_beq hclose
        have hlast : Handled (got ++ [f]) { s with buf := rest, closed := true } := by
          refine h.snoc hopen f ?_ ⟨[], (List.append_nil _).symm, ?_⟩ hclose.symm
          · simp [isMessage, heq]
          · simp [isPing, heq]
        exact ⟨_, by simp [pump, hread, heq], hlast.append rfl _, nofun⟩
      | false =>
        obtain ⟨t, rfl, hopen', hhandled, hpump⟩ := pump_frame hrandom f h hopen hclose hread
        have hshort : t.buf.length < turns := by
          have hlen := congrArg List.length hsplit
          simp only [WsFrame.encode, WsFrame.header, List.length_append, List.length_cons] at hlen
          omega
        obtain ⟨u, hu, hdone, hleft⟩ := ih hhandled hopen' hrest hshort
        refine ⟨u, (hpump turns).trans hu, hdone, fun hclosed => ?_⟩
        rw [hsplit, stream, List.flatMap_cons, List.append_assoc]
        exact congrArg _ (hleft hclosed)

structure InStep (fs : List Frame) (bytes : Bytes) (s : WsReader) : Prop where
  handled : Handled (arrived fs bytes) s
  rest : s.closed = false → bytes = stream (arrived fs bytes) ++ s.buf

omit hrandom in
theorem InStep.start (fs : List Frame) : InStep fs [] { buf := [] } := by
  have hnil : arrived fs [] = [] := by
    cases fs with
    | nil => rfl
    | cons f fs =>
      have hpos : ¬ f.encode.length ≤ ([] : Bytes).length := by
        simp [WsFrame.encode, WsFrame.header]
      rw [arrived, completed, if_neg hpos]
  refine ⟨?_, fun _ => ?_⟩
  · rw [hnil]
    exact ⟨rfl, .nil, rfl⟩
  · rw [hnil]
    rfl

theorem onData_inStep (h : InStep fs bytes s) (hstream : bytes ++ d <+: stream fs) :
    ∃ t, onData randomBytes s d = some t ∧ InStep fs (bytes ++ d) t := by
  cases hclosed : s.closed with
  | true =>
    obtain ⟨more, hmore⟩ := arrived_more fs bytes d
    refine ⟨s, by rw [onData, hclosed, if_pos rfl], ?_, fun hopen => ?_⟩
    · rw [← hmore]
      exact h.handled.append hclosed more
    · rw [hclosed] at hopen
      cases hopen
  | false =>
    obtain ⟨todo, htodo⟩ : arrived fs bytes <+: fs := Framing.completed_within fs bytes.length
    have hbytes := h.rest hclosed
    have hgot := h.handled
    generalize arrived fs bytes = got at htodo hbytes hgot
    subst htodo hbytes
    rw [List.append_assoc]
    have hbuf : s.buf ++ d <+: stream todo := by
      rw [List.append_assoc, stream_append] at hstream
      exact (List.prefix_append_right_inj _).mp hstream
    have hcopy : Handled got { s with buf := s.buf ++ d } :=
      ⟨hgot.messages, hgot.pongs, hgot.closed⟩
    obtain ⟨t, hpump, hhandled, hleft⟩ :=
      pump_handled hrandom hcopy hclosed hbuf (Nat.lt_succ_self _)
    refine ⟨t, ?_, ?_, fun hopen => ?_⟩
    · rw [onData, if_neg (by rw [hclosed]; exact Bool.false_ne_true)]
      exact hpump
    · rwa [arrived_append]
    · rw [arrived_append, stream_append, List.append_assoc]
      exact congrArg _ (hleft hopen)

theorem foldlM_inStep (chunks : List Bytes) (h : InStep fs bytes s)
    (hstream : bytes ++ chunks.flatten <+: stream fs) :
    ∃ t, chunks.foldlM (onData randomBytes) s = some t ∧ InStep fs (bytes ++ chunks.flatten) t := by
  induction chunks generalizing bytes s with
  | nil => exact ⟨s, rfl, by rwa [List.flatten_nil, List.append_nil]⟩
  | cons d chunks ih =>
    rw [List.flatten_cons, ← List.append_assoc] at hstream ⊢
    obtain ⟨t, ht, hstep⟩ := onData_inStep hrandom h ((List.prefix_append _ _).trans hstream)
    obtain ⟨u, hu, hdone⟩ := ih hstep hstream
    exact ⟨u, by rw [List.foldlM_cons, ht]; exact hu, hdone⟩

end Reader

/-- However a stream of frames is cut, the reader has handed on, answered and
closed what the bytes so far call for; and it reads what `wsFrame` writes. -/
theorem node_framing_exact (randomBytes : Nat → Bytes) (hrandom : ∀ i, (randomBytes i).length = 4)
    (fs : List Frame) (leftover : Bytes) (chunks : List Bytes)
    (hcut : leftover ++ chunks.flatten <+: stream fs) :
    (∃ s, wsReader randomBytes leftover chunks = some s ∧
      Handled (arrived fs (leftover ++ chunks.flatten)) s) ∧
    ∀ mask payload opcode, mask.length = 4 → payload.length < 2 ^ 53 → opcode < 16 →
      takeFrame (wsFrame mask payload opcode) = some ((opcode, payload), []) := by
  refine ⟨?_, fun mask payload opcode => takeFrame_wsFrame⟩
  obtain ⟨s, hs, hstep⟩ := foldlM_inStep hrandom (leftover :: chunks) (.start fs) hcut
  refine ⟨s, ?_, hstep.handled⟩
  rw [List.foldlM_cons] at hs
  exact hs

namespace Sample

def plain (head : UInt8) (payload : Bytes) (h : payload.length < 126) : Frame :=
  ⟨⟨head, .byte, none, payload, h, WsFrame.keyed_none⟩, Nat.lt_trans h (by decide)⟩

def frames : List Frame :=
  [plain 0x82 [0x61] (by decide), plain 0x89 [0x70, 0x71] (by decide), plain 0x88 [] (by decide),
    plain 0x82 [0x62] (by decide)]

def drawn (_ : Nat) : Bytes := [0x0A, 0x0B, 0x0C, 0x0D]

def leftover : Bytes := (stream frames).take 4

def chunks : List Bytes := [((stream frames).drop 4).take 5, (stream frames).drop 9]

end Sample

theorem node_framing_exact_sample :
    ∃ s, wsReader Sample.drawn Sample.leftover Sample.chunks = some s ∧
      s.messages = [[0x61]] ∧ s.closed = true ∧ s.written.length = 1 := by
  obtain ⟨⟨s, hs, hhandled⟩, -⟩ := node_framing_exact Sample.drawn (fun _ => rfl) Sample.frames
    Sample.leftover Sample.chunks (by decide +kernel)
  refine ⟨s, hs, hhandled.messages.trans ?_, hhandled.closed.trans ?_,
    hhandled.pongs.length_eq.symm.trans ?_⟩
  · decide +kernel
  · decide +kernel
  · decide +kernel

end Grantd.Install.NodeBridge
