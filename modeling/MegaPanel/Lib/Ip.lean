import MegaPanel.Lib.Text

set_option autoImplicit false

/-! # Internet addresses

What a URL guard uses of Python's `ipaddress`: addresses of both families, networks, the text of
an address, and `is_global`. An IPv4-mapped IPv6 address (`::ffff:a.b.c.d`) is global when the
address in it is.

`IpAddress.Reachable` is the notion that such a guard is after: global unicast. Multicast is not
unicast although `is_global` calls it global, and an IPv6 address that only carries an IPv4 address
(mapped, behind the prefix of a translator, or 6to4) is as reachable as what it carries.
-/

namespace MegaPanel.Lib

structure IPv4 where
  int : Nat
  lt : int < 2 ^ 32
  deriving DecidableEq

structure IPv6 where
  int : Nat
  lt : int < 2 ^ 128
  scopeId : Option (List Char)
  deriving DecidableEq

inductive IpAddress
  | v4 (address : IPv4)
  | v6 (address : IPv6)
  deriving DecidableEq

/-- A network, by its address and the length of its prefix. -/
inductive IpNetwork
  | v4 (address prefixLen : Nat)
  | v6 (address prefixLen : Nat)
  deriving DecidableEq

/-- `ip in net`: the bits of the mask are those of the network. The scope does not count. -/
def IpNetwork.contains : IpNetwork → IpAddress → Bool
  | .v4 n p, .v4 a => a.int / 2 ^ (32 - p) * 2 ^ (32 - p) == n
  | .v6 n p, .v6 a => a.int / 2 ^ (128 - p) * 2 ^ (128 - p) == n
  | _, _ => false

/-! ## Embedded addresses -/

/-- The last 32 bits. -/
def IPv6.lastIPv4 (a : IPv6) : IPv4 := ⟨a.int % 2 ^ 32, Nat.mod_lt _ (by decide)⟩

/-- `ipv4_mapped` -/
def IPv6.ipv4Mapped (a : IPv6) : Option IPv4 :=
  if a.int / 2 ^ 32 = 0xffff then some a.lastIPv4 else none

/-- An address behind the prefix `64:ff9b::/96` of a translator, or a 6to4 address
(`2002::/16`, with the IPv4 address in the bits after the prefix). -/
def IPv6.translated (a : IPv6) : Option IPv4 :=
  if a.int / 2 ^ 32 = 0x64ff9b0000000000000000 then some a.lastIPv4
  else if a.int / 2 ^ 112 = 0x2002 then
    some ⟨a.int / 2 ^ 80 % 2 ^ 32, Nat.mod_lt _ (by decide)⟩
  else none

/-! ## Registries of special addresses -/

def privateNetworks4 : List IpNetwork :=
  [.v4 0x00000000 8, .v4 0x0a000000 8, .v4 0x7f000000 8, .v4 0xa9fe0000 16, .v4 0xac100000 12,
   .v4 0xc0000000 24, .v4 0xc00000aa 31, .v4 0xc0000200 24, .v4 0xc0a80000 16, .v4 0xc6120000 15,
   .v4 0xc6336400 24, .v4 0xcb007100 24, .v4 0xf0000000 4, .v4 0xffffffff 32]

def privateExceptions4 : List IpNetwork := [.v4 0xc0000009 32, .v4 0xc000000a 32]

/-- `100.64.0.0/10` -/
def sharedNetwork : IpNetwork := .v4 0x64400000 10

/-- `224.0.0.0/4` -/
def multicastNetwork4 : IpNetwork := .v4 0xe0000000 4

def privateNetworks6 : List IpNetwork :=
  [.v6 0x1 128, .v6 0x0 128, .v6 0xffff00000000 96, .v6 0x64ff9b000100000000000000000000 48,
   .v6 0x1000000000000000000000000000000 64, .v6 0x20010000000000000000000000000000 23,
   .v6 0x20010db8000000000000000000000000 32, .v6 0x20020000000000000000000000000000 16,
   .v6 0xfc000000000000000000000000000000 7, .v6 0xfe800000000000000000000000000000 10]

def privateExceptions6 : List IpNetwork :=
  [.v6 0x20010001000000000000000000000001 128, .v6 0x20010001000000000000000000000002 128,
   .v6 0x20010003000000000000000000000000 32, .v6 0x20010004011200000000000000000000 48,
   .v6 0x20010020000000000000000000000000 28, .v6 0x20010030000000000000000000000000 28]

def IPv4.isPrivate (a : IPv4) : Bool :=
  privateNetworks4.any (·.contains (.v4 a)) && privateExceptions4.all (!·.contains (.v4 a))

def IPv4.isGlobal (a : IPv4) : Bool := !sharedNetwork.contains (.v4 a) && !a.isPrivate

def IPv6.isGlobal (a : IPv6) : Bool :=
  match a.ipv4Mapped with
  | some b => b.isGlobal
  | none => !(privateNetworks6.any (·.contains (.v6 a)) &&
      privateExceptions6.all (!·.contains (.v6 a)))

def IpAddress.isGlobal : IpAddress → Bool
  | .v4 a => a.isGlobal
  | .v6 a => a.isGlobal

/-! ## Global unicast -/

/-- Global, and not multicast. -/
def IPv4.Reachable (a : IPv4) : Prop :=
  a.isGlobal = true ∧ multicastNetwork4.contains (.v4 a) = false

/-- `2000::/3`, what is assigned as global unicast. -/
def globalUnicast6 : IpNetwork := .v6 0x20000000000000000000000000000000 3

/-- Documentation addresses that the registry got later, `3fff::/20`. -/
def documentation6 : IpNetwork := .v6 0x3fff0000000000000000000000000000 20

def IPv6.Reachable (a : IPv6) : Prop :=
  match a.ipv4Mapped.or a.translated with
  | some b => b.Reachable
  | none => a.isGlobal = true ∧ globalUnicast6.contains (.v6 a) = true ∧
      documentation6.contains (.v6 a) = false

def IpAddress.Reachable : IpAddress → Prop
  | .v4 a => a.Reachable
  | .v6 a => a.Reachable

instance (a : IPv4) : Decidable a.Reachable := inferInstanceAs (Decidable (_ ∧ _))

instance (a : IPv6) : Decidable a.Reachable := by
  unfold IPv6.Reachable
  cases a.ipv4Mapped.or a.translated with
  | some b => exact inferInstanceAs (Decidable b.Reachable)
  | none => exact inferInstanceAs (Decidable (_ ∧ _))

instance (a : IpAddress) : Decidable a.Reachable :=
  match a with
  | .v4 a => inferInstanceAs (Decidable a.Reachable)
  | .v6 a => inferInstanceAs (Decidable a.Reachable)

/-! ## Text -/

/-- `sep.join(parts)` -/
def joinWith (sep : Char) : List (List Char) → List Char
  | [] => []
  | [part] => part
  | part :: next :: parts => part ++ sep :: joinWith sep (next :: parts)

def IPv4.text (a : IPv4) : List Char :=
  joinWith '.' ([24, 16, 8, 0].map (fun s => Nat.toDigits 10 (a.int / 2 ^ s % 256)))

/-- The run of zeros that is read now and the longest one so far, each by start and length. -/
structure ZeroRuns where
  index : Nat
  start : Nat
  len : Nat
  bestStart : Nat
  bestLen : Nat

def ZeroRuns.next (runs : ZeroRuns) (hextet : Nat) : ZeroRuns :=
  if hextet = 0 then
    let start := if runs.len = 0 then runs.index else runs.start
    let len := runs.len + 1
    if runs.bestLen < len then ⟨runs.index + 1, start, len, start, len⟩
    else ⟨runs.index + 1, start, len, runs.bestStart, runs.bestLen⟩
  else { runs with index := runs.index + 1, len := 0 }

/-- The hextets, with the longest run of at least two zeros written as `::`. -/
def IPv6.text (a : IPv6) : List Char :=
  let hextets := [112, 96, 80, 64, 48, 32, 16, 0].map (fun s => a.int / 2 ^ s % 2 ^ 16)
  let runs := hextets.foldl ZeroRuns.next ⟨0, 0, 0, 0, 0⟩
  let text := hextets.map (Nat.toDigits 16)
  let address :=
    if 1 < runs.bestLen then
      joinWith ':' (text.take runs.bestStart) ++ ':' :: ':' ::
        joinWith ':' (text.drop (runs.bestStart + runs.bestLen))
    else joinWith ':' text
  match a.scopeId with
  | some scopeId => address ++ '%' :: scopeId
  | none => address

/-- `str(ip)` -/
def IpAddress.text : IpAddress → List Char
  | .v4 a => a.text
  | .v6 a => a.text

example : (IpAddress.v6 ⟨0x20010db8000000000001000000000001, by decide, none⟩).text
    = "2001:db8::1:0:0:1".toList := by decide

end MegaPanel.Lib
