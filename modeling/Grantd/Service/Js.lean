import Grantd.Protocol.SshKey

/-!
# JavaScript values and byte encodings

What cloudflare/src/crypto/encoding.ts and cloudflare/src/canonical/cbe.ts
work on: strings of UTF-16 code units, JSON values as `JSON.parse` builds
them, and the encoders. A stored or sent JSON text is kept as the value it
parses to.
-/

namespace Grantd.Service

open Base
open Canonical (writeLP u32be)

abbrev JsString := List UInt16

instance : LawfulBEq JsString := List.instLawfulBEq

/-- A string of single-byte characters. -/
def ofBytes (b : Bytes) : JsString := b.map UInt8.toUInt16

/-- A literal of the source. They are all ASCII. -/
def js (s : String) : JsString := ofBytes (lit s)

/-- A JSON number, up to what `Number.isSafeInteger` and `BigInt` see of it. -/
inductive JsNumber
  | integer (n : Int)
  | other
  deriving DecidableEq, Repr

inductive Json
  | null
  | bool (b : Bool)
  | num (n : JsNumber)
  | str (s : JsString)
  | arr (items : List Json)
  | obj (fields : List (JsString × Json))

/-- `Record<string, unknown>`. -/
abbrev Record := List (JsString × Json)

/-- `o[key]`; `none` is `undefined`. -/
def Record.get (o : Record) (key : JsString) : Option Json := (o.find? (·.1 == key)).map (·.2)

def maxSafeInteger : Int := 9007199254740991

def isSafeInteger : JsNumber → Bool
  | .integer n => -maxSafeInteger ≤ n && n ≤ maxSafeInteger
  | .other => false

def isJsSpace (c : UInt16) : Bool :=
  (0x09 ≤ c && c ≤ 0x0D) || c == 0x20 || c == 0xA0 || c == 0x1680 || (0x2000 ≤ c && c ≤ 0x200A) ||
    c == 0x2028 || c == 0x2029 || c == 0x202F || c == 0x205F || c == 0x3000 || c == 0xFEFF

def trim (s : JsString) : JsString := ((s.dropWhile isJsSpace).reverse.dropWhile isJsSpace).reverse

-- ---------------------------------------------------------------------------
-- TextEncoder
-- ---------------------------------------------------------------------------

def isHighSurrogate (c : UInt16) : Bool := 0xD800 ≤ c && c < 0xDC00
def isLowSurrogate (c : UInt16) : Bool := 0xDC00 ≤ c && c < 0xE000

/-- The code points `TextEncoder` sees: a lone surrogate becomes U+FFFD. -/
def codePoints : JsString → List Nat
  | [] => []
  | [c] => [if isHighSurrogate c || isLowSurrogate c then 0xFFFD else c.toNat]
  | c :: d :: rest =>
    if isHighSurrogate c && isLowSurrogate d then
      (0x10000 + (c.toNat - 0xD800) * 0x400 + (d.toNat - 0xDC00)) :: codePoints rest
    else
      (if isHighSurrogate c || isLowSurrogate c then 0xFFFD else c.toNat) :: codePoints (d :: rest)

def utf16 (c : Nat) : JsString :=
  if c < 0x10000 then [UInt16.ofNat c]
  else [UInt16.ofNat (0xD800 + (c - 0x10000) / 0x400),
    UInt16.ofNat (0xDC00 + (c - 0x10000) % 0x400)]

def utf8 (c : Nat) : Bytes :=
  if c < 0x80 then [UInt8.ofNat c]
  else if c < 0x800 then [UInt8.ofNat (0xC0 + c / 0x40), UInt8.ofNat (0x80 + c % 0x40)]
  else if c < 0x10000 then
    [UInt8.ofNat (0xE0 + c / 0x1000), UInt8.ofNat (0x80 + c / 0x40 % 0x40),
      UInt8.ofNat (0x80 + c % 0x40)]
  else
    [UInt8.ofNat (0xF0 + c / 0x40000), UInt8.ofNat (0x80 + c / 0x1000 % 0x40),
      UInt8.ofNat (0x80 + c / 0x40 % 0x40), UInt8.ofNat (0x80 + c % 0x40)]

def textEncode (s : JsString) : Bytes := (codePoints s).flatMap utf8

-- ---------------------------------------------------------------------------
-- crypto/encoding.ts
-- ---------------------------------------------------------------------------

def b32Char (value : UInt32) : UInt16 :=
  (ofBytes Protocol.b32Alphabet).getD (value &&& 31).toNat 0

def base32Drain (value : UInt32) (out : JsString) : Nat → Nat × JsString
  | bits + 5 => base32Drain value (out ++ [b32Char (value >>> UInt32.ofNat bits)]) bits
  | bits => (bits, out)

/-- The loop over the bytes. The accumulator is 32 bits wide and never
masked. -/
def base32Loop (out : JsString) (bits : Nat) (value : UInt32) : Bytes → JsString
  | [] => if bits > 0 then out ++ [b32Char (value <<< UInt32.ofNat (5 - bits))] else out
  | b :: rest =>
    let value := value <<< 8 ||| b.toUInt32
    let drained := base32Drain value out (bits + 8)
    base32Loop drained.2 drained.1 value rest

def base32Encode (bytes : Bytes) : JsString := base32Loop [] 0 0 bytes

def btoa (bytes : Bytes) : JsString := ofBytes (Protocol.stdEncoding bytes)

def dropPadding (s : JsString) : JsString := (s.reverse.dropWhile (· == 0x3D)).reverse

def b64uEncode (bytes : Bytes) : JsString :=
  dropPadding ((btoa bytes).map fun c => if c = 0x2B then 0x2D else if c = 0x2F then 0x5F else c)

def isAsciiWhitespace (c : UInt16) : Bool :=
  c == 0x09 || c == 0x0A || c == 0x0C || c == 0x0D || c == 0x20

def b64Digit (c : UInt16) : Option Nat :=
  let n := c.toNat
  if 0x41 ≤ n ∧ n ≤ 0x5A then some (n - 0x41)
  else if 0x61 ≤ n ∧ n ≤ 0x7A then some (n - 0x61 + 26)
  else if 0x30 ≤ n ∧ n ≤ 0x39 then some (n - 0x30 + 52)
  else if n = 0x2B then some 62
  else if n = 0x2F then some 63
  else none

/-- `atob`, the forgiving-base64 decode. -/
def atob (s : JsString) : Option Bytes :=
  let s := s.filter (!isAsciiWhitespace ·)
  let s := if s.length % 4 = 0 then
    (if [0x3D, 0x3D].isSuffixOf s then s.take (s.length - 2)
      else if [0x3D].isSuffixOf s then s.take (s.length - 1) else s) else s
  if s.length % 4 = 1 then none
  else (s.mapM b64Digit).map Rfc4648.sextets

def isB64uChar (c : UInt16) : Bool :=
  (0x41 ≤ c && c ≤ 0x5A) || (0x61 ≤ c && c ≤ 0x7A) || (0x30 ≤ c && c ≤ 0x39) ||
    c == 0x5F || c == 0x2D

/-- `b64uDecode`; `none` is a thrown `DecodeError`. -/
def b64uDecode (s : JsString) : Option Bytes :=
  if s = [] then none
  else if !s.all isB64uChar then none
  else
    let padded := s.map (fun c => if c = 0x2D then 0x2B else if c = 0x5F then 0x2F else c) ++
      List.replicate ((4 - s.length % 4) % 4) 0x3D
    match atob padded with
    | none => none
    | some out => if b64uEncode out != s then none else some out

def isB64Char (c : UInt16) : Bool :=
  (0x41 ≤ c && c ≤ 0x5A) || (0x61 ≤ c && c ≤ 0x7A) || (0x30 ≤ c && c ≤ 0x39) ||
    c == 0x2B || c == 0x2F

/-- The pattern `^[A-Za-z0-9+/]+={0,2}$`. -/
def b64StdRe (s : JsString) : Bool :=
  let body := s.takeWhile isB64Char
  let padding := s.dropWhile isB64Char
  body != [] && padding.length ≤ 2 && padding.all (· == 0x3D)

def b64StdDecode (s : JsString) : Option Bytes :=
  if !b64StdRe s || s.length % 4 != 0 then none else atob s

-- ---------------------------------------------------------------------------
-- canonical/cbe.ts
-- ---------------------------------------------------------------------------

/-- `bigint` values are integers of any size. -/
inductive Field
  | string (name value : JsString)
  | u64 (name : JsString) (value : Int)
  | bytes (name : JsString) (value : Bytes)
  | bool (name : JsString) (value : Bool)

def S (name : String) (value : JsString) : Field := .string (js name) value
def U (name : String) (value : Int) : Field := .u64 (js name) value
def B (name : String) (value : Bytes) : Field := .bytes (js name) value

def Field.name : Field → JsString
  | .string name _ | .u64 name _ | .bytes name _ | .bool name _ => name

def Field.tag : Field → UInt8
  | .string .. => 0x01
  | .u64 .. => 0x02
  | .bytes .. => 0x03
  | .bool .. => 0x04

def maxU64 : Int := 9223372036854775807

structure CanonicalError where
  message : JsString

/-- `encodeString`. What a UTF-8 round trip changes is exactly a lone
surrogate, so it is made on code points. -/
def encodeString (name s : JsString) : Except CanonicalError Bytes := do
  ensure (!s.contains 0) ⟨js "canonical: field " ++ name ++ js " contains U+0000"⟩
  let round := (codePoints s).flatMap utf16
  ensure (round == s) ⟨js "canonical: field " ++ name ++ js " is not valid UTF-8"⟩
  pure (textEncode s)

def encodeFieldValue : Field → Except CanonicalError Bytes
  | .string name value => do pure (writeLP (← encodeString name value))
  | .u64 name value => do
    ensure (0 ≤ value && value ≤ maxU64)
      ⟨js "canonical: field " ++ name ++ js " is out of u64 range"⟩
    pure (writeLP (Code.bigEndian 8 value.toNat))
  | .bytes _ value => pure (writeLP value)
  | .bool _ value => pure (writeLP [if value then 1 else 0])

def encodeField (f : Field) : Except CanonicalError Bytes := do
  ensure (f.name != []) ⟨js "canonical: field name is empty"⟩
  let name ← encodeString f.name f.name
  let value ← encodeFieldValue f
  pure (writeLP name ++ [f.tag] ++ value)

def encodeFields : List Field → Except CanonicalError Bytes
  | [] => pure []
  | f :: fs => do pure ((← encodeField f) ++ (← encodeFields fs))

def encode (context : JsString) (fields : List Field) : Except CanonicalError Bytes := do
  ensure (context != []) ⟨js "canonical: context is empty"⟩
  let ctx ← encodeString (js "<context>") context
  let body ← encodeFields fields
  pure (writeLP ctx ++ u32be fields.length ++ body)

end Grantd.Service
