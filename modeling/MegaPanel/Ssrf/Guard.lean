import MegaPanel.Lib.Ip
import MegaPanel.Lib.Url

set_option autoImplicit false

/-! # The guard of outgoing requests

`SSRFGuard` (`packages/security/.../ssrf.py`): before a request leaves, the host of its URL is
resolved, every address of the answer is held against a list of networks, and the first one is
pinned: the request goes to that address, whatever the name resolves to later.

`getaddrinfo` is an input, `none` being its error. What `urlsplit` checks of a network location
and `str.lower` are parameters, as in `Lib/Url.lean`. The guard of `dispatch_webhook`, which sends
the leads, is the default one.
-/

namespace MegaPanel.Ssrf

open MegaPanel.Lib MegaPanel.Lib.Url

/-- `_BLOCKED_NETWORKS` -/
def blockedNetworks : List IpNetwork :=
  [.v4 0x7f000000 8, .v4 0x0a000000 8, .v4 0xac100000 12, .v4 0xc0a80000 16, .v4 0xa9fe0000 16,
   .v4 0x00000000 8, .v6 0x1 128, .v6 0xfe800000000000000000000000000000 10,
   .v6 0xfc000000000000000000000000000000 7]

/-- The address that `_is_blocked` looks at: the one in a mapped address. -/
def unmapped : IpAddress → IpAddress
  | .v4 a => .v4 a
  | .v6 a =>
    match a.ipv4Mapped with
    | some b => .v4 b
    | none => .v6 a

/-- `_is_blocked` -/
def isBlocked (ip : IpAddress) : Bool := blockedNetworks.any (·.contains (unmapped ip))

/-- `SSRFGuard`; limits of the response are left out. -/
structure SSRFGuard where
  requireGlobalIps : Bool
  allowedSchemes : List (List Char)
  allowedPorts : Option (List Nat)

/-- `SSRFGuard()` -/
def defaultGuard : SSRFGuard := ⟨false, ["http".toList, "https".toList], none⟩

inductive Refusal
  /-- `SSRFBlockedError` -/
  | blocked (message : List Char)
  /-- `ValueError` of `urlsplit` -/
  | valueError
  /-- An error of `getaddrinfo` -/
  | unresolved

/-- The checks of the library that stay open. -/
structure Library where
  netlocValid : List Char → Bool
  lower : List Char → List Char

/-- The guard does not let the address pass. -/
def SSRFGuard.refuses (guard : SSRFGuard) (ip : IpAddress) : Bool :=
  isBlocked ip || (guard.requireGlobalIps && !ip.isGlobal)

/-- `resolve_safe`; the caller takes the text of the address. -/
def SSRFGuard.resolveSafe (guard : SSRFGuard) (host : List Char)
    (answer : Option (List IpAddress)) : Except Refusal IpAddress :=
  match answer with
  | none => .error .unresolved
  | some [] => .error (.blocked ("Cannot resolve host: ".toList ++ host))
  | some (first :: others) =>
    match (first :: others).find? guard.refuses with
    | some ip => .error
        (.blocked ("Blocked non-public IP for ".toList ++ host ++ ": ".toList ++ ip.text))
    | none => .ok first

def defaultPort (scheme : List Char) : Nat := if scheme = "https".toList then 443 else 80

/-- What `validate_url` checks of the URL itself: the host and the port, or the error. -/
def SSRFGuard.checkTarget (guard : SSRFGuard) (lib : Library) (parsed : SplitResult) :
    Except Refusal (List Char × Nat) :=
  if parsed.scheme ∉ guard.allowedSchemes then
    .error (.blocked "URL scheme is not allowed".toList)
  else
    match parsed.hostname lib.lower with
    | none => .error (.blocked "Missing hostname".toList)
    | some [] => .error (.blocked "Missing hostname".toList)
    | some host =>
      if parsed.username.getD [] ≠ [] ∨ parsed.password.getD [] ≠ [] then
        .error (.blocked "URL credentials are not allowed".toList)
      else
        match parsed.port with
        | none => .error (.blocked "Invalid port".toList)
        | some port =>
          let port := if port.getD 0 = 0 then defaultPort parsed.scheme else port.getD 0
          if guard.allowedPorts.all (fun ports => port ∈ ports) then .ok (host, port)
          else .error (.blocked "URL port is not allowed".toList)

/-- `PinnedURL`, by the parts of its texts. -/
structure PinnedURL where
  scheme : List Char
  address : IpAddress
  port : Nat
  path : List Char
  query : List Char
  hostname : List Char

def portText (port : Nat) : List Char := ':' :: Nat.toDigits 10 port

/-- `transport_url`: where the request goes. -/
def PinnedURL.transportUrl (pinned : PinnedURL) : List Char :=
  let ip := pinned.address.text
  let host := if ':' ∈ ip then '[' :: ip ++ [']'] else ip
  pinned.scheme ++ "://".toList ++ host ++ portText pinned.port ++
    (if pinned.path = [] then ['/'] else pinned.path) ++
    (if pinned.query = [] then [] else '?' :: pinned.query)

/-- `pin_url` -/
def SSRFGuard.pinUrl (guard : SSRFGuard) (lib : Library) (url : List Char)
    (answer : Option (List IpAddress)) : Except Refusal PinnedURL :=
  match urlsplit lib.netlocValid url with
  | none => .error .valueError
  | some parsed =>
    match guard.checkTarget lib parsed with
    | .error e => .error e
    | .ok (host, port) =>
      match guard.resolveSafe host answer with
      | .error e => .error e
      | .ok address => .ok ⟨parsed.scheme, address, port, parsed.path, parsed.query, host⟩

end MegaPanel.Ssrf
