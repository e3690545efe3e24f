import MegaPanel.Lib.Ip

set_option autoImplicit false

/-! # Reading internet addresses

`ipaddress.ip_address` of Python's standard library: four decimal octets without leading zeros,
or hextets with at most one `::`, where the last two may be written as an IPv4 address and a
scope may follow a `%`.
-/

namespace MegaPanel.Lib

open Text

/-! ## IPv4 -/

/-- `_parse_octet` -/
def readOctet (text : List Char) : Option (Fin 256) :=
  if text = [] ∨ 3 < text.length ∨ (1 < text.length ∧ text.head? = some '0') then none
  else
    match readDigits 10 text.length 0 text with
    | some (n, _) => if h : n < 256 then some ⟨n, h⟩ else none
    | none => none

def IPv4.ofOctets (a b c d : Fin 256) : IPv4 where
  int := a * 2 ^ 24 + b * 2 ^ 16 + c * 2 ^ 8 + d
  lt := by omega

/-- `IPv4Address(text)`; `none` is `AddressValueError`. -/
def IPv4.ofText (text : List Char) : Option IPv4 :=
  match text.splitOn '.' with
  | [a, b, c, d] => do
    return .ofOctets (← readOctet a) (← readOctet b) (← readOctet c) (← readOctet d)
  | _ => none

/-! ## IPv6 -/

/-- `_parse_hextet` -/
def readHextet (text : List Char) : Option Nat :=
  if text = [] ∨ 4 < text.length then none
  else (readDigits 16 text.length 0 text).map (·.1)

/-- The parts between the colons, with an IPv4 address at the end written as two hextets. -/
def hextetParts (text : List Char) : Option (List (List Char)) :=
  let parts := text.splitOn ':'
  if parts.length < 3 then none
  else
    match parts.getLast? with
    | some last =>
      if '.' ∈ last then
        (IPv4.ofText last).map (fun a =>
          parts.dropLast ++ [Nat.toDigits 16 (a.int / 2 ^ 16), Nat.toDigits 16 (a.int % 2 ^ 16)])
      else some parts
    | none => none

/-- The places of the empty parts that are neither first nor last. -/
def skips (parts : List (List Char)) : List Nat :=
  (List.range parts.length).filter (fun i =>
    decide (1 ≤ i) && decide (i + 1 < parts.length) && decide (parts.getD i ['0'] = []))

/-- The eight hextets of `_ip_int_from_string`. -/
def readHextets (parts : List (List Char)) : Option (List Nat) :=
  if 9 < parts.length then none
  else
    match skips parts with
    | [] => if parts.length = 8 then parts.mapM readHextet else none
    | [i] =>
      let first := parts.getD 0 []
      let last := parts.getLastD []
      let high := if first = [] then i - 1 else i
      let low := if last = [] then parts.length - i - 2 else parts.length - i - 1
      if (first = [] ∧ high ≠ 0) ∨ (last = [] ∧ low ≠ 0) ∨ 8 ≤ high + low then none
      else do
        let before ← (parts.take high).mapM readHextet
        let behind ← (parts.drop (parts.length - low)).mapM readHextet
        return before ++ List.replicate (8 - (high + low)) 0 ++ behind
    | _ => none

/-- `IPv6Address(text)`; `none` is `AddressValueError`. -/
def IPv6.ofText (text : List Char) : Option IPv6 :=
  let address := text.takeWhile (· ≠ '%')
  let zone := text.dropWhile (· ≠ '%')
  if '/' ∈ text ∨ zone = ['%'] ∨ '%' ∈ zone.tail then none
  else do
    let hextets ← readHextets (← hextetParts address)
    let int := hextets.foldl (fun n h => n * 2 ^ 16 + h) 0
    if h : int < 2 ^ 128 then
      return ⟨int, h, if zone = [] then none else some zone.tail⟩
    else none

/-! ## Either -/

/-- `ip_address(text)`; `none` is `ValueError`. -/
def IpAddress.ofText (text : List Char) : Option IpAddress :=
  match IPv4.ofText text with
  | some a => some (.v4 a)
  | none => (IPv6.ofText text).map .v6

example : IpAddress.ofText "::ffff:192.0.2.1".toList
    = some (.v6 ⟨0xffffc0000201, by decide, none⟩) := by decide

example : IpAddress.ofText "2001:db8::1:0:0:1".toList
    = some (.v6 ⟨0x20010db8000000000001000000000001, by decide, none⟩) := by decide

end MegaPanel.Lib
