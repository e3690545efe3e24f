import MegaPanel.Ssrf.Guard

set_option autoImplicit false

/-! # The pinned address

The list of networks is short of the registries that `Lib/Ip.lean` follows. `overlooked` says by how
much: among the addresses that are not blocked, it holds of those that are not global unicast
(`reachable_iff`). So a pinned address is reachable unless the guard accepts an answer that
begins with one of them (`pin_url_reachable`). The unspecified address `::` is one, although
`0.0.0.0/8` is blocked: connecting to it reaches the host itself.
-/

namespace MegaPanel.Ssrf

open MegaPanel.Lib MegaPanel.Lib.Url

/-! ## What the list of networks lacks -/

variable {ip : IpAddress}

/-- Shared addresses, protocol assignments, documentation (three networks), benchmarks,
multicast and reserved addresses. -/
def overlookedNetworks4 : List IpNetwork :=
  [.v4 0x64400000 10, .v4 0xc0000000 24, .v4 0xc0000200 24, .v4 0xc6120000 15, .v4 0xc6336400 24,
   .v4 0xcb007100 24, .v4 0xe0000000 4, .v4 0xf0000000 4]

/-- Protocol assignments and documentation. -/
def overlookedNetworks6 : List IpNetwork :=
  [.v6 0x20010000000000000000000000000000 23, .v6 0x20010db8000000000000000000000000 32,
   .v6 0x3fff0000000000000000000000000000 20]

def overlooked4 (a : IPv4) : Bool :=
  overlookedNetworks4.any (·.contains (.v4 a)) && privateExceptions4.all (!·.contains (.v4 a))

/-- An address of one of the two networks, or one that is not assigned as global unicast at all. -/
def overlooked6 (a : IPv6) : Bool :=
  (overlookedNetworks6.any (·.contains (.v6 a)) && privateExceptions6.all (!·.contains (.v6 a)))
    || !globalUnicast6.contains (.v6 a)

/-- The address in a translated one is not looked at, so here the blocked networks count, too. -/
def overlooked : IpAddress → Bool
  | .v4 a => overlooked4 a
  | .v6 a =>
    match a.ipv4Mapped with
    | some b => overlooked4 b
    | none =>
      match a.translated with
      | some b => isBlocked (.v4 b) || overlooked4 b
      | none => overlooked6 a

theorem reachable4_iff (a : IPv4) :
    a.Reachable ↔ isBlocked (.v4 a) = false ∧ overlooked4 a = false := by
  have hlt := a.lt
  simp [IPv4.Reachable, IPv4.isGlobal, IPv4.isPrivate, isBlocked, unmapped, overlooked4,
    overlookedNetworks4, blockedNetworks, privateNetworks4, privateExceptions4, sharedNetwork,
    multicastNetwork4, IpNetwork.contains]
  omega

theorem reachable6_iff {a : IPv6} (hmapped : a.ipv4Mapped = none) (hnone : a.translated = none) :
    a.Reachable ↔ isBlocked (.v6 a) = false ∧ overlooked6 a = false := by
  have hlt := a.lt
  have hnot : a.int / 2 ^ 32 ≠ 0xffff ∧ a.int / 2 ^ 32 ≠ 0x64ff9b0000000000000000 ∧
      a.int / 2 ^ 112 ≠ 0x2002 := by
    rw [IPv6.ipv4Mapped] at hmapped
    rw [IPv6.translated] at hnone
    split_ifs at hmapped hnone with hm hn h6
    exact ⟨hm, hn, h6⟩
  rw [IPv6.Reachable, hmapped, hnone, Option.or_none]
  simp [IPv6.isGlobal, hmapped, isBlocked, unmapped, overlooked6, overlookedNetworks6,
    blockedNetworks, privateNetworks6, privateExceptions6, globalUnicast6, documentation6,
    IpNetwork.contains]
  omega

/-- **Among the addresses that are not blocked, the overlooked ones are those that are not
reachable.** -/
theorem reachable_iff (h : isBlocked ip = false) : ip.Reachable ↔ overlooked ip = false := by
  cases ip with
  | v4 a =>
    rw [IpAddress.Reachable, reachable4_iff, overlooked]
    exact ⟨fun hr => hr.2, fun ho => ⟨h, ho⟩⟩
  | v6 a =>
    rw [IpAddress.Reachable, overlooked]
    cases hmapped : a.ipv4Mapped with
    | some b =>
      have hblocked : isBlocked (.v4 b) = false := by
        rw [isBlocked, unmapped, hmapped] at h
        exact h
      rw [IPv6.Reachable, hmapped, Option.some_or]
      exact (reachable4_iff b).trans ⟨fun hr => hr.2, fun ho => ⟨hblocked, ho⟩⟩
    | none =>
      cases htranslated : a.translated with
      | some b =>
        rw [IPv6.Reachable, hmapped, htranslated, Option.none_or]
        exact (reachable4_iff b).trans (Bool.or_eq_false_iff).symm
      | none =>
        rw [reachable6_iff hmapped htranslated]
        exact ⟨fun hr => hr.2, fun ho => ⟨h, ho⟩⟩

/-! ## The guard -/

variable {guard : SSRFGuard} {answer : Option (List IpAddress)}

/-- The URL passes the checks that come before the resolver. -/
def AllowsTarget (guard : SSRFGuard) (lib : Library) (url : List Char) : Prop :=
  ∃ parsed target, urlsplit lib.netlocValid url = some parsed ∧
    guard.checkTarget lib parsed = .ok target

/-- The guard refuses an address of the answer, or the first one is not overlooked. -/
def SafeAnswer (guard : SSRFGuard) (answer : Option (List IpAddress)) : Prop :=
  ∀ first others, answer = some (first :: others) →
    (∃ ip ∈ first :: others, guard.refuses ip = true) ∨ overlooked first = false

theorem resolveSafe_ok_iff {host : List Char} :
    guard.resolveSafe host answer = .ok ip ↔ ∃ others, answer = some (ip :: others) ∧
      ∀ other ∈ ip :: others, guard.refuses other = false := by
  have hno : ∀ {e : Refusal}, (Except.error e : Except Refusal IpAddress) ≠ .ok ip :=
    fun h => by cases h
  cases answer with
  | none =>
    refine ⟨fun h => absurd h hno, ?_⟩
    rintro ⟨others, heq, _⟩
    cases heq
  | some answers =>
    cases answers with
    | nil =>
      refine ⟨fun h => absurd h hno, ?_⟩
      rintro ⟨others, heq, _⟩
      cases heq
    | cons first others =>
      rw [SSRFGuard.resolveSafe]
      cases hfind : (first :: others).find? guard.refuses with
      | some other =>
        refine ⟨fun h => absurd h hno, ?_⟩
        rintro ⟨others', heq, hnone⟩
        cases heq
        have hrefuses := List.find?_some hfind
        rw [hnone other (List.mem_of_find?_eq_some hfind)] at hrefuses
        cases hrefuses
      | none =>
        rw [List.find?_eq_none] at hfind
        constructor
        · intro h
          cases h
          exact ⟨others, rfl, fun other hother => by simpa using hfind other hother⟩
        · rintro ⟨others', heq, _⟩
          cases heq
          rfl

/-- What the guard pins, and when it pins at all. -/
theorem pinUrl_ok {lib : Library} {url : List Char} :
    (∃ pinned, guard.pinUrl lib url answer = .ok pinned ∧ pinned.address = ip) ↔
      AllowsTarget guard lib url ∧ ∃ others, answer = some (ip :: others) ∧
        ∀ other ∈ ip :: others, guard.refuses other = false := by
  constructor
  · rintro ⟨pinned, hpin, rfl⟩
    rw [SSRFGuard.pinUrl] at hpin
    split at hpin
    · cases hpin
    rename_i parsed hparsed
    split at hpin
    · cases hpin
    rename_i host port htarget
    split at hpin
    · cases hpin
    rename_i address hresolve
    cases hpin
    exact ⟨⟨parsed, (host, port), hparsed, htarget⟩, resolveSafe_ok_iff.mp hresolve⟩
  · rintro ⟨⟨parsed, ⟨host, port⟩, hparsed, htarget⟩, hanswer⟩
    refine ⟨⟨parsed.scheme, ip, port, parsed.path, parsed.query, host⟩, ?_, rfl⟩
    simp only [SSRFGuard.pinUrl, hparsed, htarget, resolveSafe_ok_iff.mpr hanswer]

/-- **When a pinned address is global unicast.** For every URL and every answer of the resolver:
whatever is pinned is reachable exactly when the URL does not pass the checks, or the guard refuses
an address of the answer, or the first address is not one that the list overlooks. -/
theorem pin_url_reachable (guard : SSRFGuard) (lib : Library) (url : List Char)
    (answer : Option (List IpAddress)) :
    (∀ pinned, guard.pinUrl lib url answer = .ok pinned → pinned.address.Reachable) ↔
      (AllowsTarget guard lib url → SafeAnswer guard answer) := by
  have hblocked : ∀ {ip : IpAddress}, guard.refuses ip = false → isBlocked ip = false :=
    fun h => (Bool.or_eq_false_iff.mp h).1
  constructor
  · intro h htarget first others hanswer
    by_cases hrefuses : ∃ ip ∈ first :: others, guard.refuses ip = true
    · exact Or.inl hrefuses
    have hnone : ∀ ip ∈ first :: others, guard.refuses ip = false := fun ip hip =>
      Bool.eq_false_iff.mpr (fun htrue => hrefuses ⟨ip, hip, htrue⟩)
    obtain ⟨pinned, hpin, haddress⟩ := pinUrl_ok.mpr ⟨htarget, others, hanswer, hnone⟩
    have hreachable := h pinned hpin
    rw [haddress] at hreachable
    exact Or.inr ((reachable_iff (hblocked (hnone first (List.mem_cons_self ..)))).mp hreachable)
  · intro h pinned hpin
    obtain ⟨htarget, others, hanswer, hnone⟩ := pinUrl_ok.mp ⟨pinned, hpin, rfl⟩
    rcases h htarget _ others hanswer with ⟨ip, hip, hrefuses⟩ | hsafe
    · rw [hnone ip hip] at hrefuses
      cases hrefuses
    · exact (reachable_iff (hblocked (hnone _ (List.mem_cons_self ..)))).mpr hsafe

/-! The webhook of a lead: the host of the URL resolves to `::`, and the default guard pins it. -/

def asciiLibrary : Library := ⟨fun _ => true, fun host => host.map Char.toLower⟩

def unspecified : IpAddress := .v6 ⟨0, by decide, none⟩

theorem pin_url_reachable_unspecified :
    (∃ pinned, defaultGuard.pinUrl asciiLibrary "https://crm.test/lead".toList
        (some [unspecified]) = .ok pinned ∧
      pinned.transportUrl = "https://[::]:443/lead".toList) ∧
    ¬ ∀ pinned, defaultGuard.pinUrl asciiLibrary "https://crm.test/lead".toList
        (some [unspecified]) = .ok pinned → pinned.address.Reachable := by
  have hpin : defaultGuard.pinUrl asciiLibrary "https://crm.test/lead".toList (some [unspecified])
      = .ok ⟨"https".toList, unspecified, 443, "/lead".toList, [], "crm.test".toList⟩ := by rfl
  exact ⟨⟨_, hpin, by decide +kernel⟩, fun h => absurd (h _ hpin) (by decide +kernel)⟩

end MegaPanel.Ssrf
