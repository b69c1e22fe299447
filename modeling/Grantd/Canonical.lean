import Grantd.Base.Check
import Grantd.Base.Code
import Mathlib.Algebra.GroupWithZero.Nat
import Mathlib.Data.List.Forall2

/-!
# Canonical Binary Encoding

`encode` follows go/internal/canonical/canonical.go: a message is a flat,
ordered list of typed, named fields under a domain separation string. Go
strings are byte lists here, so the UTF-8 checks are real checks.

`encode_read` is what every signature and MAC rests on: with components below
2^32 bytes, the bytes determine the context, each field's name, tag and
tag-selected value, and whatever follows the encoding.
-/

namespace Grantd

open Base
open Base.Code (bigEndian UniquelyDecodable)

abbrev Bytes := List UInt8

/-- A Go string: any bytes at all. -/
abbrev GoString := List UInt8

/-- A string literal of the source, as the bytes Go stores for it. -/
def lit (s : String) : GoString := s.toUTF8.data.toList

namespace Canonical

-- ---------------------------------------------------------------------------
-- UTF-8
-- ---------------------------------------------------------------------------

def within (lo hi b : UInt8) : Bool := lo ≤ b && b ≤ hi

/-- `utf8.ValidString`: no overlong forms, no surrogates, nothing past
U+10FFFF. The second byte's range depends on the lead byte. -/
def validString : GoString → Bool
  | [] => true
  | b0 :: rest =>
    if b0 < 0x80 then validString rest
    else if within 0xC2 0xDF b0 then
      match rest with
      | b1 :: rest => within 0x80 0xBF b1 && validString rest
      | _ => false
    else if within 0xE0 0xEF b0 then
      match rest with
      | b1 :: b2 :: rest =>
        within (if b0 = 0xE0 then 0xA0 else 0x80) (if b0 = 0xED then 0x9F else 0xBF) b1 &&
          within 0x80 0xBF b2 && validString rest
      | _ => false
    else if within 0xF0 0xF4 b0 then
      match rest with
      | b1 :: b2 :: b3 :: rest =>
        within (if b0 = 0xF0 then 0x90 else 0x80) (if b0 = 0xF4 then 0x8F else 0xBF) b1 &&
          within 0x80 0xBF b2 && within 0x80 0xBF b3 && validString rest
      | _ => false
    else false

-- ---------------------------------------------------------------------------
-- Fields
-- ---------------------------------------------------------------------------

def tagString : UInt8 := 0x01
def tagU64 : UInt8 := 0x02
def tagBytes : UInt8 := 0x03
def tagBool : UInt8 := 0x04

/-- The largest U64 the protocol permits, `math.MaxInt64`. -/
def maxU64 : UInt64 := 0x7FFFFFFFFFFFFFFF

/-- One named, typed element of a message. The tag selects which one of the
last four members carries the value. -/
structure Field where
  name : GoString
  tag : UInt8
  str : GoString := []
  u64 : UInt64 := 0
  bytes : Bytes := []
  bool : Bool := false
  deriving DecidableEq, Repr

def S (name v : GoString) : Field := { name, tag := tagString, str := v }
def U (name : GoString) (v : UInt64) : Field := { name, tag := tagU64, u64 := v }
def B (name : GoString) (v : Bytes) : Field := { name, tag := tagBytes, bytes := v }

inductive EncodeError
  | emptyCtx
  | invalidUTF8Ctx
  | emptyName (field : Nat)
  | invalidUTF8Name (field : Nat)
  | invalidUTF8 (name : GoString)
  | nulInString (name : GoString)
  | u64Range (name : GoString)
  | unknownTag (name : GoString) (tag : UInt8)
  deriving DecidableEq, Repr

-- ---------------------------------------------------------------------------
-- The encoder
-- ---------------------------------------------------------------------------

/-- `uint32(n)`, big-endian. Lengths past 2^32 wrap, as in the source. -/
def u32be (n : Nat) : Bytes := bigEndian 4 (n % 2 ^ 32)

def writeLP (b : Bytes) : Bytes := u32be b.length ++ b

/-- The `switch f.Tag`: the value's bytes, before their length prefix. -/
def encodeValue (f : Field) : Except EncodeError Bytes :=
  if f.tag = tagString then do
    ensure (validString f.str) (.invalidUTF8 f.name)
    ensure (!f.str.contains 0) (.nulInString f.name)
    pure f.str
  else if f.tag = tagU64 then do
    ensure (f.u64 ≤ maxU64) (.u64Range f.name)
    pure (bigEndian 8 f.u64.toNat)
  else if f.tag = tagBytes then pure f.bytes
  else if f.tag = tagBool then pure [if f.bool then 0x01 else 0x00]
  else throw (.unknownTag f.name f.tag)

/-- The loop over the fields, `i` being the index errors are reported at. -/
def encodeFields : Nat → List Field → Except EncodeError Bytes
  | _, [] => pure []
  | i, f :: fs => do
    ensure (f.name != []) (.emptyName i)
    ensure (validString f.name) (.invalidUTF8Name i)
    let v ← encodeValue f
    let rest ← encodeFields (i + 1) fs
    pure (writeLP f.name ++ f.tag :: writeLP v ++ rest)

def encode (context : GoString) (fields : List Field) : Except EncodeError Bytes := do
  ensure (context != []) .emptyCtx
  ensure (validString context) .invalidUTF8Ctx
  let rest ← encodeFields 0 fields
  pure (writeLP context ++ u32be fields.length ++ rest)

-- ---------------------------------------------------------------------------
-- What an encoding says
-- ---------------------------------------------------------------------------

inductive Value
  | str (v : GoString)
  | u64 (v : UInt64)
  | bytes (v : Bytes)
  | bool (v : Bool)
  deriving DecidableEq, Repr

def Field.value (f : Field) : Option Value :=
  if f.tag = tagString then some (.str f.str)
  else if f.tag = tagU64 then some (.u64 f.u64)
  else if f.tag = tagBytes then some (.bytes f.bytes)
  else if f.tag = tagBool then some (.bool f.bool)
  else none

/-- A field's meaning: its name, its tag and its tag-selected value. The
other members are not part of a message. -/
def Field.content (f : Field) : GoString × UInt8 × Option Value := (f.name, f.tag, f.value)

/-- The length of the component whose length is not fixed by the tag. -/
def Field.payloadLength (f : Field) : Nat :=
  if f.tag = tagString then f.str.length else if f.tag = tagBytes then f.bytes.length else 0

def Field.Fits (f : Field) : Prop := f.name.length < 2 ^ 32 ∧ f.payloadLength < 2 ^ 32

def Fits (context : GoString) (fields : List Field) : Prop :=
  context.length < 2 ^ 32 ∧ fields.length < 2 ^ 32 ∧ ∀ f ∈ fields, f.Fits

instance (f : Field) : Decidable f.Fits := inferInstanceAs (Decidable (_ ∧ _))

instance (context : GoString) (fields : List Field) : Decidable (Fits context fields) :=
  inferInstanceAs (Decidable (_ ∧ _ ∧ _))

theorem encodeValue_cases (h : encodeValue f = .ok v) :
    (f.tag = tagString ∧ v = f.str) ∨
    (f.tag = tagU64 ∧ v = bigEndian 8 f.u64.toNat) ∨
    (f.tag = tagBytes ∧ v = f.bytes) ∨
    (f.tag = tagBool ∧ v = [if f.bool then 0x01 else 0x00]) := by
  unfold encodeValue at h
  split at h
  · rename_i ht
    simp only [bind_eq_ok, ensure_eq_ok, pure_eq_ok] at h
    obtain ⟨_, -, _, -, rfl⟩ := h
    exact .inl ⟨ht, rfl⟩
  · split at h
    · rename_i ht
      simp only [bind_eq_ok, ensure_eq_ok, pure_eq_ok] at h
      obtain ⟨_, -, rfl⟩ := h
      exact .inr (.inl ⟨ht, rfl⟩)
    · split at h
      · rename_i ht
        exact .inr (.inr (.inl ⟨ht, ((pure_eq_ok ..).mp h).symm⟩))
      · split at h
        · rename_i ht
          exact .inr (.inr (.inr ⟨ht, ((pure_eq_ok ..).mp h).symm⟩))
        · exact ((throw_eq_ok ..).mp h).elim

theorem encodeValue_value (hf : encodeValue f = .ok v) (hg : encodeValue g = .ok v)
    (ht : f.tag = g.tag) : f.value = g.value := by
  rcases encodeValue_cases hf with ⟨h, hv⟩ | ⟨h, hv⟩ | ⟨h, hv⟩ | ⟨h, hv⟩ <;>
    rcases encodeValue_cases hg with ⟨h', hv'⟩ | ⟨h', hv'⟩ | ⟨h', hv'⟩ | ⟨h', hv'⟩
  case inl.inl => simp [Field.value, h, h', ← hv, ← hv']
  case inr.inl.inr.inl =>
    have hn : f.u64.toNat = g.u64.toNat :=
      Code.bigEndian_inj f.u64.toNat_lt g.u64.toNat_lt (hv.symm.trans hv')
    have hu : f.u64 = g.u64 := UInt64.toNat_inj.mp hn
    simp [Field.value, h, h', hu, tagString, tagU64]
  case inr.inr.inl.inr.inr.inl =>
    simp [Field.value, h, h', ← hv, ← hv', tagString, tagU64, tagBytes]
  case inr.inr.inr.inr.inr.inr =>
    have hb : f.bool = g.bool := by
      have := hv.symm.trans hv'
      cases hf : f.bool <;> cases hg : g.bool <;> simp_all
    simp [Field.value, h, h', hb, tagString, tagU64, tagBytes, tagBool]
  -- The remaining pairs have two different tags.
  all_goals
    rw [h, h'] at ht
    exact absurd ht (by decide)

theorem encodeValue_length (h : encodeValue f = .ok v) (hf : f.Fits) : v.length < 2 ^ 32 := by
  rcases encodeValue_cases h with ⟨ht, rfl⟩ | ⟨ht, rfl⟩ | ⟨ht, rfl⟩ | ⟨ht, rfl⟩
  · simpa [Field.payloadLength, ht] using hf.2
  · simp
  · simpa [Field.payloadLength, ht, tagBytes, tagString] using hf.2
  · simp

-- ---------------------------------------------------------------------------
-- What can be encoded
-- ---------------------------------------------------------------------------

/-- A string value the encoder takes: UTF-8 without NUL. -/
def Text (s : GoString) : Prop := validString s = true ∧ s.contains 0 = false

instance (s : GoString) : Decidable (Text s) := inferInstanceAs (Decidable (_ ∧ _))

def Field.Encodable (f : Field) : Prop :=
  f.name ≠ [] ∧ validString f.name = true ∧
  match f.value with
  | some (.str v) => Text v
  | some (.u64 v) => v ≤ maxU64
  | some (.bytes _) | some (.bool _) => True
  | none => False

theorem encodeValue_isOk (f : Field) : (∃ v, encodeValue f = .ok v) ↔
    match f.value with
    | some (.str v) => Text v
    | some (.u64 v) => v ≤ maxU64
    | some (.bytes _) | some (.bool _) => True
    | none => False := by
  unfold encodeValue Field.value
  split
  · simp only [bind_eq_ok, ensure_eq_ok, pure_eq_ok]
    simp [Text]
  · split
    · simp only [bind_eq_ok, ensure_eq_ok, pure_eq_ok]
      simp
    · split
      · simp [pure_eq_ok]
      · split
        · simp [pure_eq_ok]
        · simp [throw_eq_ok]

theorem S_encodable : (S name v).Encodable ↔ name ≠ [] ∧ validString name = true ∧ Text v := Iff.rfl

theorem U_encodable : (U name v).Encodable ↔ name ≠ [] ∧ validString name = true ∧ v ≤ maxU64 :=
  Iff.rfl

theorem B_encodable : (B name v).Encodable ↔ name ≠ [] ∧ validString name = true ∧ True := Iff.rfl

theorem encodeFields_isOk (i : Nat) (fs : List Field) :
    (∃ out, encodeFields i fs = .ok out) ↔ ∀ f ∈ fs, f.Encodable := by
  induction fs generalizing i with
  | nil => simp [encodeFields, pure_eq_ok]
  | cons f fs ih =>
    rw [List.forall_mem_cons, ← ih (i + 1), Field.Encodable, ← encodeValue_isOk]
    simp only [encodeFields, bind_eq_ok, ensure_eq_ok, pure_eq_ok, bne_iff_ne]
    constructor
    · rintro ⟨_, _, hname, _, hutf8, v, hv, rest, hrest, -⟩
      exact ⟨⟨hname, hutf8, v, hv⟩, rest, hrest⟩
    · rintro ⟨⟨hname, hutf8, v, hv⟩, rest, hrest⟩
      exact ⟨_, (), hname, (), hutf8, v, hv, rest, hrest, rfl⟩

theorem encode_isOk (c : GoString) (fs : List Field) :
    (∃ out, encode c fs = .ok out) ↔
      c ≠ [] ∧ validString c = true ∧ ∀ f ∈ fs, f.Encodable := by
  simp only [encode, bind_eq_ok, ensure_eq_ok, pure_eq_ok, bne_iff_ne, ← encodeFields_isOk 0]
  constructor
  · rintro ⟨_, _, hc, _, hutf8, rest, hrest, -⟩
    exact ⟨hc, hutf8, rest, hrest⟩
  · rintro ⟨hc, hutf8, rest, hrest⟩
    exact ⟨_, (), hc, (), hutf8, rest, hrest, rfl⟩

-- ---------------------------------------------------------------------------
-- Reading an encoding back
-- ---------------------------------------------------------------------------

theorem u32be_decodable : UniquelyDecodable (· < 2 ^ 32) u32be := by
  intro a b r s ha hb h
  simp only [u32be, Nat.mod_eq_of_lt ha, Nat.mod_eq_of_lt hb] at h
  exact Code.uniquelyDecodable_bigEndian 4 (by simpa using ha) (by simpa using hb) h

theorem writeLP_decodable : UniquelyDecodable (fun b : Bytes => b.length < 2 ^ 32) writeLP :=
  u32be_decodable.sized

abbrev Item := GoString × UInt8 × Bytes

def Item.bytes (it : Item) : Bytes := writeLP it.1 ++ ([it.2.1] ++ writeLP it.2.2)

def Item.Fits (it : Item) : Prop := it.1.length < 2 ^ 32 ∧ True ∧ it.2.2.length < 2 ^ 32

theorem tag_decodable : UniquelyDecodable (fun _ : UInt8 => True) (fun tag => [tag]) :=
  .of_length (n := 1) (fun _ _ => rfl) fun _ _ _ _ h => by simpa using h

theorem item_decodable : UniquelyDecodable Item.Fits Item.bytes :=
  writeLP_decodable.append (tag_decodable.append writeLP_decodable)

def Item.Of (it : Item) (f : Field) : Prop :=
  it.1 = f.name ∧ it.2.1 = f.tag ∧ encodeValue f = .ok it.2.2

theorem Item.Of.fits {it : Item} (h : it.Of f) (hf : f.Fits) : it.Fits :=
  ⟨h.1 ▸ hf.1, trivial, encodeValue_length h.2.2 hf⟩

theorem Item.Of.content {it : Item} (h : it.Of f) (h' : it.Of g) : f.content = g.content := by
  have hname := h.1.symm.trans h'.1
  have htag := h.2.1.symm.trans h'.2.1
  simp only [Field.content, hname, htag, encodeValue_value h.2.2 h'.2.2 htag]

theorem encodeFields_items (h : encodeFields i fs = .ok out) :
    ∃ items : List Item, out = items.flatMap Item.bytes ∧ List.Forall₂ Item.Of items fs := by
  induction fs generalizing i out with
  | nil =>
    simp only [encodeFields, pure_eq_ok] at h
    exact ⟨[], by simp [← h], .nil⟩
  | cons f fs ih =>
    simp only [encodeFields, bind_eq_ok, ensure_eq_ok, pure_eq_ok] at h
    obtain ⟨_, -, _, -, v, hv, rest, hrest, rfl⟩ := h
    obtain ⟨items, rfl, hitems⟩ := ih hrest
    exact ⟨(f.name, f.tag, v) :: items, by simp [Item.bytes], .cons ⟨rfl, rfl, hv⟩ hitems⟩

theorem encode_items (h : encode c fs = .ok out) :
    ∃ items : List Item, out = writeLP c ++ (u32be items.length ++ items.flatMap Item.bytes) ∧
      List.Forall₂ Item.Of items fs := by
  simp only [encode, bind_eq_ok, ensure_eq_ok, pure_eq_ok] at h
  obtain ⟨_, -, _, -, rest, hrest, rfl⟩ := h
  obtain ⟨items, rfl, hitems⟩ := encodeFields_items hrest
  exact ⟨items, by simp [hitems.length_eq], hitems⟩

theorem items_fit {items : List Item} (h : List.Forall₂ Item.Of items fs)
    (hf : ∀ f ∈ fs, f.Fits) : ∀ it ∈ items, it.Fits := by
  induction h with
  | nil => simp
  | cons hit _ ih =>
    intro x hx
    rcases List.mem_cons.mp hx with rfl | hx
    · exact hit.fits (hf _ (by simp))
    · exact ih (fun f hm => hf f (by simp [hm])) x hx

theorem items_content {items : List Item} (h : List.Forall₂ Item.Of items fs)
    (h' : List.Forall₂ Item.Of items fs') : fs.map Field.content = fs'.map Field.content := by
  induction h generalizing fs' with
  | nil => cases h'; rfl
  | cons hit _ ih =>
    cases h' with
    | cons hit' h' => simp [hit.content hit', ih h']

/-- Equal bytes with anything behind them come from the same context and the
same contents in the same order, and the rest is the same. -/
theorem encode_read (h : encode c fs = .ok e) (h' : encode c' fs' = .ok e')
    (hfit : Fits c fs) (hfit' : Fits c' fs') (heq : e ++ r = e' ++ q) :
    c = c' ∧ fs.map Field.content = fs'.map Field.content ∧ r = q := by
  obtain ⟨items, rfl, hitems⟩ := encode_items h
  obtain ⟨items', rfl, hitems'⟩ := encode_items h'
  have hcode := writeLP_decodable.append (u32be_decodable.counted item_decodable)
  obtain ⟨hpair, hr⟩ := hcode (a := (c, items)) (b := (c', items'))
    ⟨hfit.1, hitems.length_eq ▸ hfit.2.1, items_fit hitems hfit.2.2⟩
    ⟨hfit'.1, hitems'.length_eq ▸ hfit'.2.1, items_fit hitems' hfit'.2.2⟩ heq
  obtain ⟨rfl, rfl⟩ := Prod.mk.inj hpair
  exact ⟨rfl, items_content hitems hitems', hr⟩

-- ---------------------------------------------------------------------------
-- Lengths
-- ---------------------------------------------------------------------------

theorem length_writeLP (b : Bytes) : (writeLP b).length = 4 + b.length := by
  simp [writeLP, u32be]

theorem Item.length_bytes (it : Item) : it.bytes.length = 9 + it.1.length + it.2.2.length := by
  simp only [Item.bytes, List.length_append, length_writeLP, List.length_singleton]
  omega

theorem Item.Of.payloadLength {it : Item} (h : it.Of f) :
    f.payloadLength ≤ it.2.2.length ∧ it.2.2.length ≤ f.payloadLength + 8 := by
  rcases encodeValue_cases h.2.2 with ⟨ht, hv⟩ | ⟨ht, hv⟩ | ⟨ht, hv⟩ | ⟨ht, hv⟩ <;>
    simp [Field.payloadLength, ht, hv, tagString, tagU64, tagBytes, tagBool]

def Field.size (f : Field) : Nat := 17 + f.name.length + f.payloadLength

theorem length_items {items : List Item} (h : List.Forall₂ Item.Of items fs) :
    (items.flatMap Item.bytes).length ≤ (fs.map Field.size).sum ∧
    items.length ≤ (items.flatMap Item.bytes).length ∧
    ∀ f ∈ fs, f.name.length ≤ (items.flatMap Item.bytes).length ∧
      f.payloadLength ≤ (items.flatMap Item.bytes).length := by
  induction h with
  | nil => simp
  | @cons it f items fs hit _ ih =>
    obtain ⟨hle, hcount, hall⟩ := ih
    have hname : it.1.length = f.name.length := congrArg List.length hit.1
    have hpay := hit.payloadLength
    have hlen := it.length_bytes
    simp only [List.flatMap_cons, List.length_append, List.map_cons, List.sum_cons,
      List.length_cons, Field.size]
    refine ⟨by omega, by omega, fun g hg => ?_⟩
    rcases List.mem_cons.mp hg with rfl | hg
    · omega
    · have := hall g hg
      omega

theorem length_encode (h : encode c fs = .ok e) :
    e.length ≤ 8 + c.length + (fs.map Field.size).sum := by
  obtain ⟨items, rfl, hitems⟩ := encode_items h
  have := (length_items hitems).1
  simp only [List.length_append, length_writeLP, u32be, Code.length_bigEndian]
  omega

theorem fits_of_length (h : encode c fs = .ok e) (hlen : e.length < 2 ^ 32) : Fits c fs := by
  obtain ⟨items, rfl, hitems⟩ := encode_items h
  obtain ⟨-, hcount, hall⟩ := length_items hitems
  simp only [List.length_append, length_writeLP, u32be, Code.length_bigEndian] at hlen
  refine ⟨by omega, ?_, fun f hf => ?_⟩
  · rw [← hitems.length_eq]
    omega
  · have := hall f hf
    exact ⟨by omega, by omega⟩

end Canonical

end Grantd
