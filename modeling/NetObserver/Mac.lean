import Mathlib.Data.List.Basic

/-! The fold of a printed MAC address to one spelling. -/

namespace NetObserver

def hexDigit (c : Char) : Option Nat :=
  if '0' ≤ c ∧ c ≤ '9' then some (c.toNat - '0'.toNat)
  else if 'a' ≤ c ∧ c ≤ 'f' then some (c.toNat - 'a'.toNat + 10)
  else if 'A' ≤ c ∧ c ≤ 'F' then some (c.toNat - 'A'.toNat + 10)
  else none

def hexByteFrom : Nat → List Char → Option Nat
  | value, [] => some value
  | value, c :: cs => do
    let digit ← hexDigit c
    if value * 16 + digit ≤ 255 then hexByteFrom (value * 16 + digit) cs else none

/-- `u8::from_str_radix(_, 16)`: one leading plus sign is allowed, no digits at all are not. -/
def hexByte : List Char → Option Nat
  | [] => none
  | ['+'] => none
  | '+' :: cs => hexByteFrom 0 cs
  | cs => hexByteFrom 0 cs

def hexPair (octet : Nat) : String :=
  String.ofList [Nat.digitChar (octet / 16), Nat.digitChar (octet % 16)]

/-- One lowercase padded spelling for a device address, `none` for anything else:
an unparseable token, the broadcast address, a multicast address. -/
def normalizeMac (raw : String) : Option String :=
  let parts := raw.toList.splitOn ':'
  if parts.length ≠ 6 then none
  else do
    let octets ← parts.mapM hexByte
    if octets.all (· == 255) || octets.headD 0 % 2 == 1 then none
    else some (":".intercalate (octets.map hexPair))

example : normalizeMac "0:1c:42:8:9:a" = some "00:1c:42:08:09:0a" := by decide

end NetObserver
