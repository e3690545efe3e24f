import MegaPanel.Lib.IpText
import MegaPanel.Lib.Strip
import MegaPanel.Ssrf.Guard

set_option autoImplicit false

/-! # The guard of provider endpoints

`EgressGuard` decides which hosts the panel may send AI requests to: an endpoint is an `https`
URL without credentials, query or fragment whose host is on the allowlist. A host that is an
address itself is judged by `assert_safe_endpoint`, a host name by the addresses it resolves to
in `assert_public_dns`; the two ask `ipaddress` different questions.

`getaddrinfo` is an input, `none` being its error. What `urlsplit` checks of a network location
and `str.lower` are parameters, as in `Lib/Url.lean`.
-/

namespace MegaPanel.Egress

open MegaPanel.Lib MegaPanel.Lib.Url MegaPanel.Ssrf

/-! ## Properties of addresses -/

/-- `169.254.0.0/16` -/
def linkLocalNetwork4 : IpNetwork := .v4 0xa9fe0000 16

/-- `127.0.0.0/8` -/
def loopbackNetwork4 : IpNetwork := .v4 0x7f000000 8

/-- `240.0.0.0/4` -/
def reservedNetwork4 : IpNetwork := .v4 0xf0000000 4

/-- `fe80::/10` -/
def linkLocalNetwork6 : IpNetwork := .v6 0xfe800000000000000000000000000000 10

/-- `_reserved_networks` of IPv6 -/
def reservedNetworks6 : List IpNetwork :=
  [.v6 0x0 8, .v6 0x01000000000000000000000000000000 8, .v6 0x02000000000000000000000000000000 7,
   .v6 0x04000000000000000000000000000000 6, .v6 0x08000000000000000000000000000000 5,
   .v6 0x10000000000000000000000000000000 4, .v6 0x40000000000000000000000000000000 3,
   .v6 0x60000000000000000000000000000000 3, .v6 0x80000000000000000000000000000000 3,
   .v6 0xa0000000000000000000000000000000 3, .v6 0xc0000000000000000000000000000000 3,
   .v6 0xe0000000000000000000000000000000 4, .v6 0xf0000000000000000000000000000000 5,
   .v6 0xf8000000000000000000000000000000 6, .v6 0xfe000000000000000000000000000000 9]

/-- `is_private or is_loopback or is_link_local or is_reserved` of an IPv4 address. -/
def isInternal4 (a : IPv4) : Bool :=
  a.isPrivate || loopbackNetwork4.contains (.v4 a) || linkLocalNetwork4.contains (.v4 a) ||
    reservedNetwork4.contains (.v4 a)

/-- The same of an IPv6 address; a mapped address has the properties of the address in it. -/
def isInternal6 (a : IPv6) : Bool :=
  match a.ipv4Mapped with
  | some b => isInternal4 b
  | none =>
    (privateNetworks6.any (·.contains (.v6 a)) && privateExceptions6.all (!·.contains (.v6 a))) ||
      decide (a.int = 1) || linkLocalNetwork6.contains (.v6 a) ||
      reservedNetworks6.any (·.contains (.v6 a))

def isInternal : IpAddress → Bool
  | .v4 a => isInternal4 a
  | .v6 a => isInternal6 a

/-! ## The guard -/

inductive Refusal
  /-- `PermissionError` -/
  | permission (message : String)
  /-- `ValueError` of `urllib` -/
  | valueError

/-- `EgressGuard` -/
structure EgressGuard where
  allowlist : List (List Char)

/-- `DEFAULT_ALLOWLIST` -/
def defaultAllowlist : List (List Char) :=
  ["api.deepseek.com".toList, "api.anthropic.com".toList, "api.openai.com".toList,
   "open.bigmodel.cn".toList, "openrouter.ai".toList, "api.groq.com".toList,
   "generativelanguage.googleapis.com".toList, "nominatim.openstreetmap.org".toList,
   "api.indexnow.org".toList, "yandex.com".toList, "www.bing.com".toList,
   "api.dataforseo.com".toList, "api.bukvarix.com".toList, "hooks.amocrm.ru".toList,
   "oauth.bitrix.info".toList, "api.telegram.org".toList]

/-- `__post_init__`, with the setting `ai_endpoint_allowlist`. -/
def EgressGuard.new (lib : Library) (configured : List Char) : EgressGuard :=
  let items := (configured.splitOn ',').filterMap (fun item =>
    let text := Text.stripBy Text.isSpace item
    if text = [] then none else some ((lib.lower text).rdropWhile (· = '.')))
  ⟨defaultAllowlist ++ items⟩

/-- `host.endswith("." + parent)` -/
def isBelow (host parent : List Char) : Bool := ('.' :: parent).isSuffixOf host

/-- `check`; the outer `none` is a `ValueError`. -/
def EgressGuard.check (guard : EgressGuard) (lib : Library) (url : List Char) : Option Bool :=
  (urlsplit lib.netlocValid url).map (fun parsed =>
    let host := lib.lower ((parsed.hostname lib.lower).getD [])
    decide (host ∈ guard.allowlist) || guard.allowlist.any (isBelow host))

/-- `assert_safe_endpoint`: the host. -/
def assertSafeEndpoint (lib : Library) (url : List Char) : Except Refusal (List Char) :=
  match urlsplit lib.netlocValid url with
  | none => .error .valueError
  | some parsed =>
    match parsed.hostname lib.lower with
    | none => .error (.permission
        "Provider endpoint must be HTTPS without credentials or query data")
    | some hostname =>
      if parsed.scheme ≠ "https".toList ∨ hostname = [] ∨ parsed.username.getD [] ≠ [] ∨
          parsed.password.getD [] ≠ [] ∨ parsed.query ≠ [] ∨ parsed.fragment ≠ [] then
        .error (.permission "Provider endpoint must be HTTPS without credentials or query data")
      else
        let host := lib.lower hostname
        if (IpAddress.ofText host).any isInternal then
          .error (.permission
            "Provider endpoint must not target a private or link-local address")
        else .ok host

/-- `urlparse(url).port or 443` is read without an error. -/
def portIsValid (lib : Library) (url : List Char) : Bool :=
  ((urlsplit lib.netlocValid url).bind SplitResult.port).isSome

/-- `assert_public_dns` -/
def assertPublicDns (lib : Library) (url : List Char) (answer : Option (List IpAddress)) :
    Except Refusal Unit :=
  match assertSafeEndpoint lib url with
  | .error refusal => .error refusal
  | .ok host =>
    if (IpAddress.ofText host).isSome then .ok ()
    else if !portIsValid lib url then .error .valueError
    else
      match answer with
      | none => .error (.permission "Provider endpoint hostname did not resolve")
      | some [] => .error (.permission "Provider endpoint hostname did not resolve")
      | some addresses =>
        if addresses.all IpAddress.isGlobal then .ok ()
        else .error (.permission "Provider endpoint resolves to a non-public address")

/-- `assert_allowed` -/
def EgressGuard.assertAllowed (guard : EgressGuard) (lib : Library) (url : List Char) :
    Except Refusal Unit :=
  match assertSafeEndpoint lib url with
  | .error refusal => .error refusal
  | .ok _ =>
    match guard.check lib url with
    | none => .error .valueError
    | some true => .ok ()
    | some false =>
      .error (.permission ("Egress blocked for host in URL: " ++ String.ofList url))

end MegaPanel.Egress
