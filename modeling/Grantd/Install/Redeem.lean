import Grantd.Service.Js
import Mathlib.Algebra.Group.Int.Defs

/-!
# The encoder of the visitor's script

The Canonical Binary Encoding of install/redeem.mjs. Buffers are written by
Node's `writeUInt32BE` and `writeBigUInt64BE`, which throw on a number that does
not fit; `none` is that.
-/

namespace Grantd.Install

open Base Service
open Code (bigEndian)

def u32 (n : Nat) : Option Bytes := if n < 2 ^ 32 then some (bigEndian 4 n) else none

/-- A number is turned into a `BigInt` first. -/
def u64 (n : Int) : Option Bytes :=
  if 0 ≤ n ∧ n < 2 ^ 64 then some (bigEndian 8 n.toNat) else none

def lp (b : Bytes) : Option Bytes := do
  pure ((← u32 b.length) ++ b)

def tagString : UInt8 := 0x01
def tagU64 : UInt8 := 0x02
def tagBytes : UInt8 := 0x03

/-- `Buffer.from(s, "utf8")` is what `TextEncoder` makes of `s`. -/
def fString (name v : JsString) : Option Bytes := do
  pure ((← lp (textEncode name)) ++ [tagString] ++ (← lp (textEncode v)))

def fU64 (name : JsString) (v : Int) : Option Bytes := do
  pure ((← lp (textEncode name)) ++ [tagU64] ++ (← lp (← u64 v)))

def fBytes (name : JsString) (v : Bytes) : Option Bytes := do
  pure ((← lp (textEncode name)) ++ [tagBytes] ++ (← lp v))

def cbe (context : JsString) (fields : List Bytes) : Option Bytes := do
  pure ((← lp (textEncode context)) ++ (← u32 fields.length) ++ fields.flatten)

theorem lp_eq (b : Bytes) :
    lp b = if b.length < 2 ^ 32 then some (Canonical.writeLP b) else none := by
  unfold lp u32 Canonical.writeLP Canonical.u32be
  split
  · rename_i h
    rw [Nat.mod_eq_of_lt h]
    rfl
  · rfl

theorem u32_eq (h : n < 2 ^ 32) : u32 n = some (Canonical.u32be n) := by
  rw [u32, if_pos h, Canonical.u32be, Nat.mod_eq_of_lt h]

end Grantd.Install
