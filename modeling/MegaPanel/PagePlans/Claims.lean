import MegaPanel.PagePlans.Catalog
import MegaPanel.PagePlans.Drafts

set_option autoImplicit false

/-! # The claims of a generated draft

`create_page_draft` places each claim that a plan binds, and `run_page_qa` looks for it with rules of
its own: the slot `unique_core` is one field of the page, any other slot belongs to its block. The
bindings have different targets, so a claim in a block is where QA looks for it. With
`unique_core` this depends on the blocks: a page has that field once, and a second block with a slot
of the name would compete for it. The kits of the repository have no such block.
-/

namespace MegaPanel.PagePlans

open MegaPanel.Lib
open MegaPanel.Rendering (Dict)
open MegaPanel.SiteManifest (Design)

namespace Claims

/-! ## What is resolved -/

variable {lib : Library} {kitKey : String} {blockIds : List String} {claims : List Json}
  {done : List ClaimSlotBinding} {r : ResolvedBinding} {rs : List ResolvedBinding}

/-- Where a claim is placed. -/
def target (b : ClaimSlotBinding) : String × String := (b.blockId, b.slot)

/-- A binding that is resolved has a target of its own, and a slot of the block library. -/
theorem resolveBinding_target {b : ClaimSlotBinding}
    (h : resolveBinding lib kitKey blockIds claims done b = .ok r) :
    (∀ d ∈ done, target d ≠ target b) ∧ ∃ n, lib.slotLength kitKey b.blockId b.slot = some n := by
  unfold resolveBinding at h
  split at h
  · cases h
  split at h
  · cases h
  next hfree =>
  split at h
  · cases h
  split at h
  · cases h
  next n hn =>
  refine ⟨fun d hd heq => hfree ?_, n, hn⟩
  exact List.any_eq_true.mpr ⟨d, hd, decide_eq_true heq⟩

/-- **The targets differ**, also from those before. -/
theorem resolveBindings_targets {bindings : List ClaimSlotBinding}
    (h : resolveBindings lib kitKey blockIds claims done bindings = .ok rs) :
    (bindings.map target).Nodup ∧ (∀ b ∈ bindings, ∀ d ∈ done, target d ≠ target b) ∧
      ∀ b ∈ bindings, ∃ n, lib.slotLength kitKey b.blockId b.slot = some n := by
  induction bindings generalizing done rs with
  | nil => exact ⟨List.nodup_nil, by simp, by simp⟩
  | cons b rest ih =>
    unfold resolveBindings at h
    split at h
    · cases h
    next r hr =>
    obtain ⟨others, hothers, -⟩ := map_eq_ok h
    obtain ⟨hnodup, hdone, hslots⟩ := ih hothers
    obtain ⟨hfirst, hslot⟩ := resolveBinding_target hr
    have hb : target b ∉ rest.map target := by
      intro hmem
      obtain ⟨b', hb', heq⟩ := List.mem_map.mp hmem
      exact hdone b' hb' b (List.mem_cons_self ..) heq.symm
    refine ⟨List.nodup_cons.mpr ⟨hb, hnodup⟩, ?_, ?_⟩
    · intro b' hb' d hd
      rcases List.mem_cons.mp hb' with rfl | hb'
      · exact hfirst d hd
      · exact hdone b' hb' d (List.mem_cons_of_mem _ hd)
    · intro b' hb'
      rcases List.mem_cons.mp hb' with rfl | hb'
      · exact hslot
      · exact hslots b' hb'

theorem resolveClaimSlotBindings_targets {selection : BlockSelection} {facts : List (String × Json)}
    (h : resolveClaimSlotBindings lib kitKey blockIds selection facts = .ok rs) :
    (rs.map (fun r => target r.binding)).Nodup ∧
      ∀ r ∈ rs, ∃ n, lib.slotLength kitKey r.binding.blockId r.binding.slot = some n := by
  have hmap := (resolveClaimSlotBindings_eq_ok h).1
  unfold resolveClaimSlotBindings at h
  split at h
  · cases h
  split at h
  · cases h
  obtain ⟨hnodup, -, hslots⟩ := resolveBindings_targets h
  constructor
  · rw [← hmap, List.map_map] at hnodup
    exact hnodup
  · intro r hr
    exact hslots r.binding (hmap ▸ List.mem_map_of_mem hr)

/-! ## Where the claims are placed -/

/-- The text of a slot, in the slots of all blocks. -/
def slotAt (values : Dict (Dict (Option String))) (blockId slot : String) :
    Option (Option String) :=
  (values.lookup blockId).bind (·.lookup slot)

theorem lookup_cons_ne {ν : Type} {key key' : String} (h : key ≠ key') (v : ν) (rest : Dict ν) :
    List.lookup key ((key', v) :: rest) = rest.lookup key := by
  rw [List.lookup_cons, beq_false_of_ne h]

theorem lookup_append_single (slots : Dict (Option String)) (slot key : String)
    (v : Option String) :
    List.lookup key (slots ++ [(slot, v)]) =
      (slots.lookup key).or (if key = slot then some v else none) := by
  induction slots with
  | nil =>
    by_cases hkey : key = slot
    · simp [hkey]
    · rw [List.nil_append, lookup_cons_ne hkey, if_neg hkey]
      rfl
  | cons e rest ih =>
    rw [List.cons_append, List.lookup_cons, List.lookup_cons, ih]
    by_cases hkey : (key == e.1) = true
    · rw [hkey]
      rfl
    · rw [Bool.not_eq_true] at hkey
      rw [hkey]

/-- Placing a text changes no other slot, and fills one that was free. -/
theorem slotAt_placeValue (values : Dict (Dict (Option String)))
    (blockId slot text blockId' slot' : String) :
    slotAt (placeValue values blockId slot text) blockId' slot' =
      (slotAt values blockId' slot').or
        (if (blockId', slot') = (blockId, slot) then some (some text) else none) := by
  induction values with
  | nil =>
    by_cases hblock : blockId' = blockId
    · by_cases hslot : slot' = slot
      · simp [slotAt, placeValue, hblock, hslot]
      · simp [slotAt, placeValue, lookup_cons_ne hslot, hblock, hslot]
    · simp [slotAt, placeValue, lookup_cons_ne hblock, hblock]
  | cons e rest ih =>
    obtain ⟨id, slots⟩ := e
    unfold placeValue
    by_cases hid : id = blockId
    · subst hid
      rw [if_pos rfl]
      by_cases hblock : blockId' = id
      · subst hblock
        simp only [slotAt, List.lookup_cons_self, Option.bind_some, lookup_append_single,
          Prod.mk.injEq, true_and]
      · rw [if_neg (fun heq => hblock (Prod.mk.inj heq).1), Option.or_none, slotAt, slotAt,
          lookup_cons_ne hblock, lookup_cons_ne hblock]
    · rw [if_neg hid]
      by_cases hblock : blockId' = id
      · subst hblock
        simp [slotAt, hid]
      · have hskip : ∀ v : Dict (Dict (Option String)),
            slotAt ((id, slots) :: v) blockId' slot' = slotAt v blockId' slot' := by
          intro v
          rw [slotAt, slotAt, lookup_cons_ne hblock]
        rw [hskip, hskip, ih]

/-- The claims that come later do not touch a slot that is not theirs. -/
theorem slotAt_foldl_of_ne {blockId slot : String}
    (h : ∀ r ∈ rs, target r.binding ≠ (blockId, slot)) (values : Dict (Dict (Option String))) :
    slotAt (rs.foldl (fun values r => placeValue values r.binding.blockId r.binding.slot r.claim)
      values) blockId slot = slotAt values blockId slot := by
  induction rs generalizing values with
  | nil => rfl
  | cons r rest ih =>
    rw [List.foldl_cons, ih (fun r' hr' => h r' (List.mem_cons_of_mem _ hr')),
      slotAt_placeValue, if_neg (fun heq => h r (List.mem_cons_self ..) heq.symm),
      Option.or_none]

theorem slotAt_foldl (hnodup : (rs.map (fun r => target r.binding)).Nodup)
    {values : Dict (Dict (Option String))}
    (hfree : ∀ r ∈ rs, slotAt values r.binding.blockId r.binding.slot = none) :
    ∀ r ∈ rs,
      slotAt (rs.foldl (fun values r => placeValue values r.binding.blockId r.binding.slot r.claim)
        values) r.binding.blockId r.binding.slot = some (some r.claim) := by
  induction rs generalizing values with
  | nil => simp
  | cons first rest ih =>
    rw [List.map_cons, List.nodup_cons] at hnodup
    have hother : ∀ r ∈ rest, target r.binding ≠ target first.binding := by
      intro r hr heq
      exact hnodup.1 (List.mem_map.mpr ⟨r, hr, heq⟩)
    intro r hr
    rw [List.foldl_cons]
    rcases List.mem_cons.mp hr with rfl | hr
    · rw [slotAt_foldl_of_ne hother, slotAt_placeValue, hfree r (List.mem_cons_self ..),
        if_pos rfl]
      rfl
    · refine ih hnodup.2 (fun r' hr' => ?_) r hr
      rw [slotAt_placeValue, hfree r' (List.mem_cons_of_mem _ hr')]
      exact if_neg (hother r' hr')

/-- **A claim of a block is in its slot.** -/
theorem slotAt_placeClaims (hnodup : (rs.map (fun r => target r.binding)).Nodup) (hr : r ∈ rs)
    (hslot : r.binding.slot ≠ "unique_core") :
    slotAt (placeClaims rs) r.binding.blockId r.binding.slot = some (some r.claim) := by
  refine slotAt_foldl ?_ (fun _ _ => rfl) r (List.mem_filter.mpr ⟨hr, by simpa using hslot⟩)
  exact hnodup.sublist (List.Sublist.map _ List.filter_sublist)

/-! ## What QA finds -/

variable {str : Json → String} {kits : String → Option Kit} {domain : Option String}
  {plan : PagePlan} {facts : Facts} {design : Option Design} {page : PageManifest}
  {snapshot : InputSnapshot}

/-- What a draft that is generated consists of, as far as QA looks at its claims. -/
theorem createPageDraft_claims
    (h : createPageDraft lib str kits domain plan facts design = .ok (page, snapshot)) :
    ∃ bindings,
      resolveClaimSlotBindings lib plan.kitKey (page.blocks.map (·.type)) plan.blockSelection
        facts.values = .ok bindings ∧
      page.blockSlotValues = placeClaims bindings ∧
      (∀ claim, (bindings.find? (fun r => r.binding.slot = "unique_core")).map (·.claim) =
        some claim → page.uniqueCore = some claim) ∧
      snapshot.kitKey = plan.kitKey ∧ snapshot.facts = facts.values := by
  unfold createPageDraft at h
  dsimp only at h
  split at h
  · cases h
  split at h
  · cases h
  split at h
  · cases h
  next bindings hbindings =>
  split at h
  · cases h
  cases h
  refine ⟨bindings, hbindings, rfl, ?_, rfl, rfl⟩
  intro claim hclaim
  dsimp only
  rw [hclaim]
  rfl

/-- The bindings alone decide what is resolved. -/
theorem resolveClaimSlotBindings_congr (lib : Library) (kitKey : String) (blockIds : List String)
    (selection : BlockSelection) (facts : List (String × Json)) :
    resolveClaimSlotBindings lib kitKey blockIds ⟨[], selection.claimSlotBindings⟩ facts =
      resolveClaimSlotBindings lib kitKey blockIds selection facts := rfl

/-- Two bindings of `unique_core` have the same text. -/
def OneCore (facts : List (String × Json)) (bindings : List ClaimSlotBinding) : Prop :=
  ∀ b ∈ bindings, ∀ b' ∈ bindings, b.slot = "unique_core" → b'.slot = "unique_core" →
    claimAt facts b.claimIndex = claimAt facts b'.claimIndex

/-- **When QA finds the claims of a draft**, for any catalog of kits. -/
theorem claimSlotContract_iff
    (h : createPageDraft lib str kits domain plan facts design = .ok (page, snapshot)) :
    claimSlotContract lib page snapshot = true ↔
      OneCore facts.values plan.blockSelection.claimSlotBindings := by
  obtain ⟨-, -, hsame⟩ := createPageDraft_eq_ok h
  obtain ⟨bindings, hresolved, hvalues, hcore, hkit, hfacts⟩ := createPageDraft_claims h
  obtain ⟨hmap, hclaims⟩ := resolveClaimSlotBindings_eq_ok hresolved
  have hnodup := (resolveClaimSlotBindings_targets hresolved).1
  have hcontract : claimSlotContract lib page snapshot = true ↔
      ∀ r ∈ bindings, placedClaim page r.binding = some r.claim := by
    unfold claimSlotContract
    dsimp only at hsame
    rw [hsame, hkit, hfacts, resolveClaimSlotBindings_congr, hresolved]
    split
    · next hnone =>
      rw [← hmap, List.map_eq_nil_iff] at hnone
      simp [hnone]
    · simp
  rw [hcontract]
  constructor
  · intro hplaced b hb b' hb' hslot hslot'
    obtain ⟨r, hr, rfl⟩ := List.mem_map.mp (hmap ▸ hb)
    obtain ⟨r', hr', rfl⟩ := List.mem_map.mp (hmap ▸ hb')
    have hr_core := hplaced r hr
    have hr_core' := hplaced r' hr'
    rw [placedClaim, if_pos hslot] at hr_core
    rw [placedClaim, if_pos hslot'] at hr_core'
    rw [hclaims r hr, hclaims r' hr', ← hr_core, ← hr_core']
  · intro hone r hr
    rw [placedClaim]
    split
    · next hslot =>
      cases hfind : bindings.find? (fun r => r.binding.slot = "unique_core") with
      | none =>
        exact absurd (decide_eq_true hslot) (List.find?_eq_none.mp hfind r hr)
      | some first =>
        have hfirst := List.mem_of_find?_eq_some hfind
        have hfirst_slot : first.binding.slot = "unique_core" := by
          simpa using List.find?_some hfind
        have heq := hone _ (hmap ▸ List.mem_map_of_mem hfirst) _
          (hmap ▸ List.mem_map_of_mem hr) hfirst_slot hslot
        rw [hclaims first hfirst, hclaims r hr] at heq
        rw [hcore first.claim (by rw [hfind]; rfl), heq]
    · next hslot =>
      have hplaced := slotAt_placeClaims hnodup hr hslot
      rw [slotAt, ← hvalues] at hplaced
      rw [hplaced]
      rfl

/-- **A draft keeps its own claims.** QA finds the claims of every draft that is generated from the
kits of the repository. -/
theorem draft_keeps_claims {package : Catalog.Package} {str : Json → String}
    {kits : String → Option Kit} {domain : Option String} {plan : PagePlan} {facts : Facts}
    {design : Option Design} {page : PageManifest} {snapshot : InputSnapshot}
    (h : createPageDraft package.library str kits domain plan facts design =
      .ok (page, snapshot)) :
    claimSlotContract package.library page snapshot = true := by
  rw [claimSlotContract_iff h]
  obtain ⟨bindings, hresolved, -⟩ := createPageDraft_claims h
  have hmap := (resolveClaimSlotBindings_eq_ok hresolved).1
  obtain ⟨hnodup, hslots⟩ := resolveClaimSlotBindings_targets hresolved
  have hhero : ∀ r ∈ bindings, r.binding.slot = "unique_core" →
      target r.binding = ("hero", "unique_core") := by
    intro r hr hslot
    obtain ⟨n, hn⟩ := hslots r hr
    rw [hslot] at hn
    rw [target, hslot, package.uniqueCore_block hn]
  intro b hb b' hb' hslot hslot'
  obtain ⟨r, hr, rfl⟩ := List.mem_map.mp (hmap ▸ hb)
  obtain ⟨r', hr', rfl⟩ := List.mem_map.mp (hmap ▸ hb')
  have hsame : r = r' := List.inj_on_of_nodup_map hnodup hr hr'
    ((hhero r hr hslot).trans (hhero r' hr' hslot').symm)
  rw [hsame]

/-! ## A page of the home repair kit -/

/-- The lines of `blocks/hero.html` with the slots that take a text. -/
def heroHtml : String :=
  "<p class=\"offer\">{unique_core}</p>\n  <p class=\"sp-muted\">{hero_supporting_text}</p>"

def homeRepair : Catalog.Package where
  dirOf := fun key => if key = "home-repair-v1" then some .homeRepairV1 else none
  html := fun _ blockType => if blockType = "hero" then heroHtml else ""

/-- A plan of two blocks that binds two claims. -/
def guaranteePlan : PagePlan :=
  newPlan 1 none "/remont" "Ремонт квартир" none none "home-repair-v1"
    ⟨[("blocks", .list [.str "contacts", .str "hero"])],
      [⟨"hero", "hero_supporting_text", 1⟩, ⟨"hero", "unique_core", 0⟩]⟩ []

def guaranteeFacts : Facts :=
  ⟨1, [("service", .str "Ремонт"),
    ("allowed_claims", .list [.str "Письменная гарантия", .str "Выезд в день обращения"])]⟩

def guaranteeKit : Kit :=
  ⟨[⟨"hero", "h1", heroHtml, "", 0⟩, ⟨"contacts", "c1", "<p>{phone}</p>", "", 13⟩], none⟩

theorem guarantee_draft_keeps_claims :
    ∃ made, createPageDraft homeRepair.library (fun _ => "") (fun _ => some guaranteeKit)
        (some "example.ru") guaranteePlan guaranteeFacts none = .ok made ∧
      made.1.uniqueCore = some "Письменная гарантия" ∧
      claimSlotContract homeRepair.library made.1 made.2 = true := by
  have hmade : (createPageDraft homeRepair.library (fun _ => "") (fun _ => some guaranteeKit)
      (some "example.ru") guaranteePlan guaranteeFacts none).toOption.any (fun made =>
        decide (made.1.uniqueCore = some "Письменная гарантия")) = true := by
    decide +kernel
  obtain ⟨made, hsome, hcore⟩ := (Option.any_eq_true _ _).mp hmade
  have hok := toOption_eq_some.mp hsome
  exact ⟨made, hok, of_decide_eq_true hcore, draft_keeps_claims hok⟩

end Claims

end MegaPanel.PagePlans
