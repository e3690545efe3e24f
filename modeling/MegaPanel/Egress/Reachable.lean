import MegaPanel.Egress.Guard
import MegaPanel.Ssrf.Pinned

set_option autoImplicit false

/-! # Which addresses the guard lets through

Both ways of judging an address are short of global unicast (`IpAddress.Reachable`). An address
that is the host itself passes unless it is private, loopback, link-local or reserved, which lets
shared and multicast addresses through, and site-local ones of IPv6; an answer of the resolver
passes when it is global, which lets multicast through, and IPv6 addresses that are not assigned
or translate to an IPv4 address that is not global. `egress_guard_iff` is the exact condition.
-/

namespace MegaPanel.Egress

open MegaPanel.Lib MegaPanel.Lib.Url MegaPanel.Ssrf

/-! ## What each of the judgements overlooks -/

variable {a : IpAddress}

/-- Among the hosts that are not internal, those that are not reachable. -/
def overlookedHost : IpAddress → Bool
  | .v4 a => sharedNetwork.contains (.v4 a) || multicastNetwork4.contains (.v4 a)
  | .v6 a =>
    match a.ipv4Mapped with
    | some b => sharedNetwork.contains (.v4 b) || multicastNetwork4.contains (.v4 b)
    | none => !globalUnicast6.contains (.v6 a) || documentation6.contains (.v6 a)

/-- Among the global answers, those that are not reachable. -/
def overlookedAnswer : IpAddress → Bool
  | .v4 a => multicastNetwork4.contains (.v4 a)
  | .v6 a =>
    match a.ipv4Mapped with
    | some b => multicastNetwork4.contains (.v4 b)
    | none =>
      match a.translated with
      | some b => !b.isGlobal || multicastNetwork4.contains (.v4 b)
      | none => !globalUnicast6.contains (.v6 a) || documentation6.contains (.v6 a)

theorem reachable4_of_external {a : IPv4} (h : isInternal4 a = false) :
    a.Reachable ↔
      (sharedNetwork.contains (.v4 a) || multicastNetwork4.contains (.v4 a)) = false := by
  simp only [isInternal4, Bool.or_eq_false_iff] at h
  simp [IPv4.Reachable, IPv4.isGlobal, h.1.1.1]

/-- A translated address is private or reserved. -/
theorem translated_of_external {a : IPv6} (hmapped : a.ipv4Mapped = none)
    (h : isInternal6 a = false) : a.translated = none := by
  have hlt := a.lt
  simp only [isInternal6, hmapped, Bool.or_eq_false_iff, privateNetworks6, privateExceptions6,
    reservedNetworks6, List.any_cons, List.any_nil, List.all_cons, List.all_nil,
    IpNetwork.contains] at h
  rw [IPv6.translated]
  split_ifs with h64 h6to4
  · exfalso
    simp at h
    omega
  · exfalso
    simp at h
    omega
  · rfl

theorem reachable_of_external (h : isInternal a = false) :
    a.Reachable ↔ overlookedHost a = false := by
  cases a with
  | v4 a => exact reachable4_of_external h
  | v6 a =>
    cases hmapped : a.ipv4Mapped with
    | some b =>
      have hb : isInternal4 b = false := by
        simpa only [isInternal, isInternal6, hmapped] using h
      simp only [IpAddress.Reachable, IPv6.Reachable, overlookedHost, hmapped, Option.some_or]
      exact reachable4_of_external hb
    | none =>
      have htranslated := translated_of_external hmapped h
      have hglobal : a.isGlobal = true := by
        simp only [isInternal, isInternal6, hmapped, Bool.or_eq_false_iff] at h
        simp only [IPv6.isGlobal, hmapped, h.1.1.1, Bool.not_false]
      simp [IpAddress.Reachable, IPv6.Reachable, overlookedHost, hmapped, htranslated, hglobal]

theorem reachable_of_global (h : a.isGlobal = true) : a.Reachable ↔ overlookedAnswer a = false := by
  cases a with
  | v4 a =>
    have hglobal : a.isGlobal = true := h
    simp [IpAddress.Reachable, IPv4.Reachable, overlookedAnswer, hglobal]
  | v6 a =>
    cases hmapped : a.ipv4Mapped with
    | some b =>
      have hb : b.isGlobal = true := by
        simpa only [IpAddress.isGlobal, IPv6.isGlobal, hmapped] using h
      simp [IpAddress.Reachable, IPv6.Reachable, overlookedAnswer, hmapped, IPv4.Reachable, hb]
    | none =>
      have hglobal : a.isGlobal = true := h
      cases htranslated : a.translated with
      | some b =>
        simp [IpAddress.Reachable, IPv6.Reachable, overlookedAnswer, hmapped, htranslated,
          IPv4.Reachable]
      | none =>
        simp [IpAddress.Reachable, IPv6.Reachable, overlookedAnswer, hmapped, htranslated,
          hglobal]

/-! ## What the guard promises of the URL -/

variable {host url : List Char} {lib : Library} {guard : EgressGuard} {parsed : SplitResult}
  {allowlist : List (List Char)}

/-- The host is on the allowlist, or below a host on it. -/
def OnAllowlist (allowlist : List (List Char)) (host : List Char) : Prop :=
  host ∈ allowlist ∨ ∃ parent ∈ allowlist, ∃ label, host = label ++ '.' :: parent

/-- An `https` URL without credentials, query or fragment, for a host of the allowlist. -/
structure SafeUrl (lib : Library) (allowlist : List (List Char)) (url host : List Char)
    (parsed : SplitResult) : Prop where
  splits : urlsplit lib.netlocValid url = some parsed
  hostname : ∃ hostname, parsed.hostname lib.lower = some hostname ∧ hostname ≠ [] ∧
    lib.lower hostname = host
  scheme : parsed.scheme = "https".toList
  username : parsed.username.getD [] = []
  password : parsed.password.getD [] = []
  query : parsed.query = []
  fragment : parsed.fragment = []
  allowed : OnAllowlist allowlist host

/-- The addresses that a host denotes: itself, or what the resolver answers. -/
def denoted (host : List Char) (answer : Option (List IpAddress)) : List IpAddress :=
  match IpAddress.ofText host with
  | some a => [a]
  | none => answer.getD []

/-- The guard refuses an address that the host denotes, or overlooks none of them. -/
def NothingOverlooked (lib : Library) (url host : List Char) (answer : Option (List IpAddress)) :
    Prop :=
  match IpAddress.ofText host with
  | some a => isInternal a = true ∨ overlookedHost a = false
  | none => portIsValid lib url = false ∨ (∃ a ∈ answer.getD [], a.isGlobal = false) ∨
      ∀ a ∈ answer.getD [], overlookedAnswer a = false

/-- Both checks return normally. -/
def Passes (guard : EgressGuard) (lib : Library) (url : List Char)
    (answer : Option (List IpAddress)) : Prop :=
  guard.assertAllowed lib url = .ok () ∧ assertPublicDns lib url answer = .ok ()

theorem isBelow_iff {parent : List Char} :
    isBelow host parent = true ↔ ∃ label, host = label ++ '.' :: parent := by
  rw [isBelow, List.isSuffixOf_iff_suffix]
  exact ⟨fun ⟨label, h⟩ => ⟨label, h.symm⟩, fun ⟨label, h⟩ => ⟨label, h.symm⟩⟩

/-- The endpoint passes the checks of its own text and is no internal address. -/
theorem assertSafeEndpoint_eq_ok :
    assertSafeEndpoint lib url = .ok host ↔ ∃ parsed hostname,
      urlsplit lib.netlocValid url = some parsed ∧ parsed.hostname lib.lower = some hostname ∧
        (parsed.scheme = "https".toList ∧ hostname ≠ [] ∧ parsed.username.getD [] = [] ∧
          parsed.password.getD [] = [] ∧ parsed.query = [] ∧ parsed.fragment = []) ∧
        lib.lower hostname = host ∧ (IpAddress.ofText host).any isInternal = false := by
  unfold assertSafeEndpoint
  constructor
  · intro h
    split at h
    · cases h
    next parsed hparsed =>
    split at h
    · cases h
    next hostname hhostname =>
    split at h
    · cases h
    next hwell =>
    dsimp only at h
    split_ifs at h with hexternal
    cases h
    simp only [not_or, not_not] at hwell
    exact ⟨parsed, hostname, hparsed, hhostname, hwell, rfl, by simpa using hexternal⟩
  · rintro ⟨parsed, hostname, hparsed, hhostname, hwell, rfl, hexternal⟩
    simp [hparsed, hhostname, hwell, hexternal]

theorem check_eq {hostname : List Char} (hparsed : urlsplit lib.netlocValid url = some parsed)
    (hhostname : parsed.hostname lib.lower = some hostname) :
    guard.check lib url = some true ↔ OnAllowlist guard.allowlist (lib.lower hostname) := by
  simp only [EgressGuard.check, hparsed, hhostname, Option.map_some, Option.getD_some,
    Option.some.injEq, Bool.or_eq_true, decide_eq_true_eq, List.any_eq_true, isBelow_iff,
    OnAllowlist]

theorem assertAllowed_eq_ok :
    guard.assertAllowed lib url = .ok () ↔ ∃ parsed host,
      SafeUrl lib guard.allowlist url host parsed ∧
        (IpAddress.ofText host).any isInternal = false := by
  unfold EgressGuard.assertAllowed
  constructor
  · intro h
    split at h
    · cases h
    next host hsafe =>
    split at h
    · cases h
    · next hcheck =>
      obtain ⟨parsed, hostname, hparsed, hhostname, hwell, rfl, hexternal⟩ :=
        assertSafeEndpoint_eq_ok.mp hsafe
      obtain ⟨hscheme, hne, husername, hpassword, hquery, hfragment⟩ := hwell
      exact ⟨parsed, _, ⟨hparsed, ⟨hostname, hhostname, hne, rfl⟩, hscheme, husername, hpassword,
        hquery, hfragment, (check_eq hparsed hhostname).mp hcheck⟩, hexternal⟩
    · cases h
  · rintro ⟨parsed, host, hurl, hexternal⟩
    obtain ⟨hostname, hhostname, hne, rfl⟩ := hurl.hostname
    have hsafe := assertSafeEndpoint_eq_ok.mpr ⟨parsed, hostname, hurl.splits, hhostname,
      ⟨hurl.scheme, hne, hurl.username, hurl.password, hurl.query, hurl.fragment⟩, rfl, hexternal⟩
    rw [hsafe]
    dsimp only
    rw [(check_eq hurl.splits hhostname).mpr hurl.allowed]

/-- The safe URLs of one text have one host. -/
theorem SafeUrl.host_unique {host' : List Char} {parsed' : SplitResult}
    (h : SafeUrl lib allowlist url host parsed) (h' : SafeUrl lib allowlist url host' parsed') :
    host = host' := by
  obtain ⟨hostname, hhostname, _, hlower⟩ := h.hostname
  obtain ⟨hostname', hhostname', _, hlower'⟩ := h'.hostname
  have hparsed : parsed = parsed' := Option.some.inj (h.splits.symm.trans h'.splits)
  subst hparsed
  have hsame : hostname = hostname' := Option.some.inj (hhostname.symm.trans hhostname')
  rw [← hlower, ← hlower', hsame]

theorem SafeUrl.assertSafeEndpoint (h : SafeUrl lib allowlist url host parsed)
    (hexternal : (IpAddress.ofText host).any isInternal = false) :
    Egress.assertSafeEndpoint lib url = .ok host := by
  obtain ⟨hostname, hhostname, hne, hlower⟩ := h.hostname
  exact assertSafeEndpoint_eq_ok.mpr ⟨parsed, hostname, h.splits, hhostname,
    ⟨h.scheme, hne, h.username, h.password, h.query, h.fragment⟩, hlower, hexternal⟩

/-- When both checks pass. -/
theorem passes_iff {answer : Option (List IpAddress)} :
    Passes guard lib url answer ↔ ∃ parsed host, SafeUrl lib guard.allowlist url host parsed ∧
      match IpAddress.ofText host with
      | some a => isInternal a = false
      | none => portIsValid lib url = true ∧ answer.getD [] ≠ [] ∧
          ∀ a ∈ answer.getD [], a.isGlobal = true := by
  rw [Passes, assertAllowed_eq_ok]
  constructor
  · rintro ⟨⟨parsed, host, hurl, hexternal⟩, hdns⟩
    refine ⟨parsed, host, hurl, ?_⟩
    unfold assertPublicDns at hdns
    rw [hurl.assertSafeEndpoint hexternal] at hdns
    cases htext : IpAddress.ofText host with
    | some a =>
      rw [htext] at hexternal
      simpa using hexternal
    | none =>
      simp only [htext, Option.isSome_none, Bool.false_eq_true, if_false] at hdns
      split_ifs at hdns with hport
      have hport : portIsValid lib url = true := by simpa using hport
      match answer, hdns with
      | some [], hdns => cases hdns
      | some (a :: as), hdns =>
        simp only at hdns
        split at hdns
        · next hall =>
          rw [List.all_eq_true] at hall
          exact ⟨hport, List.cons_ne_nil a as, hall⟩
        · cases hdns
  · rintro ⟨parsed, host, hurl, haddresses⟩
    cases htext : IpAddress.ofText host with
    | some a =>
      rw [htext] at haddresses
      have hexternal : (IpAddress.ofText host).any isInternal = false := by
        rw [htext]
        simpa using haddresses
      refine ⟨⟨parsed, host, hurl, hexternal⟩, ?_⟩
      simp [assertPublicDns, hurl.assertSafeEndpoint hexternal, htext]
    | none =>
      rw [htext] at haddresses
      obtain ⟨hport, hne, hglobal⟩ := haddresses
      have hexternal : (IpAddress.ofText host).any isInternal = false := by
        rw [htext]
        rfl
      refine ⟨⟨parsed, host, hurl, hexternal⟩, ?_⟩
      match answer, hne, hglobal with
      | none, hne, _ => exact absurd rfl hne
      | some [], hne, _ => exact absurd rfl hne
      | some (a :: as), _, hglobal =>
        have hall : (a :: as).all IpAddress.isGlobal = true := List.all_eq_true.mpr hglobal
        simp only [assertPublicDns, hurl.assertSafeEndpoint hexternal, htext,
          Option.isSome_none, Bool.false_eq_true, if_false, hport, Bool.not_true, hall, if_true]

/-- **When the guard keeps its promise.** For every allowlist, URL and answer of the resolver: an
endpoint that passes both checks is safe and everything it denotes is global unicast, exactly
when no address that a safe URL denotes passes its check and is overlooked by it. -/
theorem egress_guard_iff (guard : EgressGuard) (lib : Library) (url : List Char)
    (answer : Option (List IpAddress)) :
    (Passes guard lib url answer → ∃ parsed host, SafeUrl lib guard.allowlist url host parsed ∧
        ∀ a ∈ denoted host answer, a.Reachable) ↔
      (∀ parsed host, SafeUrl lib guard.allowlist url host parsed →
        NothingOverlooked lib url host answer) := by
  constructor
  · intro h parsed host hurl
    -- what passes is reachable, so it is not overlooked
    have hreachable : Passes guard lib url answer → ∀ a ∈ denoted host answer, a.Reachable := by
      intro hpasses
      obtain ⟨parsed', host', hurl', hall⟩ := h hpasses
      rwa [hurl.host_unique hurl']
    unfold NothingOverlooked
    unfold denoted at hreachable
    cases htext : IpAddress.ofText host with
    | some a =>
      cases hinternal : isInternal a with
      | true => exact .inl hinternal
      | false =>
        have hpasses : Passes guard lib url answer :=
          passes_iff.mpr ⟨parsed, host, hurl, by rw [htext]; exact hinternal⟩
        simp only [htext, List.mem_singleton, forall_eq] at hreachable
        exact .inr ((reachable_of_external hinternal).mp (hreachable hpasses))
    | none =>
      simp only [htext] at hreachable
      cases hport : portIsValid lib url with
      | false => exact .inl rfl
      | true =>
        refine .inr (or_iff_not_imp_left.mpr (fun hlocal a ha => ?_))
        have hglobal : ∀ b ∈ answer.getD [], b.isGlobal = true := fun b hb =>
          (Bool.not_eq_false _).mp (fun hfalse => hlocal ⟨b, hb, hfalse⟩)
        have hpasses : Passes guard lib url answer := passes_iff.mpr ⟨parsed, host, hurl, by
          rw [htext]
          exact ⟨hport, List.ne_nil_of_mem ha, hglobal⟩⟩
        exact (reachable_of_global (hglobal a ha)).mp (hreachable hpasses a ha)
  · intro h hpasses
    obtain ⟨parsed, host, hurl, haddresses⟩ := passes_iff.mp hpasses
    refine ⟨parsed, host, hurl, fun a ha => ?_⟩
    have hcovered := h parsed host hurl
    unfold NothingOverlooked at hcovered
    unfold denoted at ha
    cases htext : IpAddress.ofText host with
    | some b =>
      simp only [htext, List.mem_singleton] at ha hcovered haddresses
      subst ha
      rw [haddresses, or_iff_right Bool.false_ne_true] at hcovered
      exact (reachable_of_external haddresses).mpr hcovered
    | none =>
      simp only [htext] at ha hcovered haddresses
      obtain ⟨hport, _, hglobal⟩ := haddresses
      rcases hcovered with hbad | ⟨b, hb, hlocal⟩ | hnone
      · rw [hport] at hbad
        cases hbad
      · rw [hglobal b hb] at hlocal
        cases hlocal
      · exact (reachable_of_global (hglobal a ha)).mpr (hnone a ha)

/-- A shared address on the allowlist: the same address behind a host name is refused. -/
theorem egress_guard_shared :
    ¬ (Passes (.new asciiLibrary "100.64.0.1".toList) asciiLibrary "https://100.64.0.1/v1".toList
          none →
        ∃ parsed host, SafeUrl asciiLibrary
            (EgressGuard.new asciiLibrary "100.64.0.1".toList).allowlist
            "https://100.64.0.1/v1".toList host parsed ∧
          ∀ a ∈ denoted host none, a.Reachable) := by
  have hparsed : urlsplit asciiLibrary.netlocValid "https://100.64.0.1/v1".toList =
      some ⟨"https".toList, "100.64.0.1".toList, "/v1".toList, [], []⟩ := by decide +kernel
  have htext : IpAddress.ofText "100.64.0.1".toList = some (.v4 ⟨0x64400001, by decide⟩) := by
    decide +kernel
  intro h
  have hpasses : Passes (.new asciiLibrary "100.64.0.1".toList) asciiLibrary
      "https://100.64.0.1/v1".toList none :=
    passes_iff.mpr ⟨_, "100.64.0.1".toList, ⟨hparsed, ⟨"100.64.0.1".toList, by decide +kernel,
      by decide, by decide⟩, by decide, by decide, by decide, by decide, by decide,
      .inl (by decide +kernel)⟩, by rw [htext]; decide +kernel⟩
  obtain ⟨parsed, host, hurl, hall⟩ := h hpasses
  obtain ⟨hostname, hhostname, _, rfl⟩ := hurl.hostname
  have hsame := Option.some.inj (hparsed.symm.trans hurl.splits)
  subst hsame
  have hhost : hostname = "100.64.0.1".toList :=
    Option.some.inj (hhostname.symm.trans (by decide +kernel))
  subst hhost
  exact absurd (hall (.v4 ⟨0x64400001, by decide⟩) (by decide +kernel)) (by decide +kernel)

end MegaPanel.Egress
