import MegaPanel.PagePlans.Model
import MegaPanel.Rendering.Templates

set_option autoImplicit false

/-! # The catalog of curated kits

`catalog.py` of the block library: a kit is read from a directory of the package, and
`block_slot_schema` gives the slots of a block that take a text, after it has checked their names
and where they stand in the HTML of the block. The repository has two such directories. Which of
them a key names (as a path), and the HTML files, are parameters; the slots are those of `kit.json`.
-/

namespace MegaPanel.PagePlans

open MegaPanel.Rendering (isSlotChar)

namespace Catalog

/-! ## Kits -/

/-- `BlockSpec`; a slot has its `max_length`. -/
structure BlockSpec where
  type : String
  html : String
  editableSlots : List (String × Nat)

/-- `KitSpec` -/
structure KitSpec where
  key : String
  blocks : List BlockSpec

/-- The directories below `KITS_DIR`. -/
inductive KitDir
  | homeRepairV1
  | serviceLocalV1
  deriving DecidableEq

def KitDir.key : KitDir → String
  | .homeRepairV1 => "home-repair-v1"
  | .serviceLocalV1 => "service-local-v1"

/-- `blocks` of `kit.json`; both files list the same types. -/
def blockTypes : List String :=
  ["hero", "trust_bar", "services_grid", "pricing_table", "calculator", "process_steps", "team",
    "portfolio", "reviews", "guarantee", "faq", "cta_banner", "lead_form", "contacts", "footer"]

/-- `editable_slots` in the `block_meta` of `kit.json`, the same in both files. -/
def editableSlots (blockType : String) : List (String × Nat) :=
  if blockType = "hero" then [("unique_core", 8000), ("hero_supporting_text", 280)] else []

/-- What the package is installed as: the directory that a path names, and the files in it. -/
structure Package where
  dirOf : String → Option KitDir
  html : KitDir → String → String

/-- `load_kit`; `none` stands for the `FileNotFoundError`. -/
def Package.loadKit (package : Package) (key : String) : Option KitSpec :=
  (package.dirOf key).map (fun dir =>
    { key := dir.key
      blocks := blockTypes.map (fun blockType =>
        { type := blockType
          html := package.html dir blockType
          editableSlots := editableSlots blockType }) })

/-! ## Slots -/

inductive SchemaError
  | fileNotFound
  | valueError (message : String)
  deriving DecidableEq

/-- `_SLOT.fullmatch(name)`, with the braces; the first character is a letter. -/
def isSlotName (name : String) : Bool :=
  match name.toList with
  | [] => false
  | c :: cs => isSlotChar c && !c.isDigit && c != '_' && cs.all isSlotChar

/-- `_RESERVED_SLOT_NAMES` -/
def reservedSlotNames : List String :=
  ["domain", "locale", "service", "modifier", "method", "phone", "phone_href", "price",
    "lead_token", "lead_api_url", "site_id"]

def isReserved (name : String) : Bool :=
  reservedSlotNames.contains name || name.startsWith "city_"

/-- For each place of the marker, whether the last angle bracket before it closes a tag. -/
def markerPlaces (marker : List Char) : Bool → List Char → List Bool
  | _, [] => []
  | behindTag, c :: cs =>
    let rest := markerPlaces marker (c == '>' || (c != '<' && behindTag)) cs
    if marker.isPrefixOf (c :: cs) then behindTag :: rest else rest

/-- `_slot_is_in_html_text_node` -/
def slotIsInHtmlTextNode (html name : String) : Bool :=
  let places := markerPlaces ("\x7b" ++ name ++ "\x7d").toList false html.toList
  !places.isEmpty && places.all id

/-- The checks of `block_slot_schema` on one slot. -/
def checkSlot (html name : String) : Except SchemaError Unit :=
  if isSlotName name = false then .error (.valueError "Curated editable slot name is invalid")
  else if isReserved name = true then
    .error (.valueError "Curated editable slot overrides server context")
  else if slotIsInHtmlTextNode html name = false then
    .error (.valueError "Curated editable slot must be a text-node placeholder")
  else .ok ()

/-- `block_slot_schema`, for any catalog -/
def blockSlotSchema (loadKit : String → Option KitSpec) (key blockType : String) :
    Except SchemaError (List (String × Nat)) :=
  match (loadKit key).bind (fun kit => kit.blocks.find? (fun block => block.type = blockType)) with
  | none => .error .fileNotFound
  | some block =>
    if block.editableSlots.length > 20 then
      .error (.valueError "Curated block declares too many editable slots")
    else
      (block.editableSlots.forM (fun slot => checkSlot block.html slot.1)).map
        (fun _ => block.editableSlots)

/-- `max_length` of a slot; an exception leaves the block without slots. -/
def slotLength (loadKit : String → Option KitSpec) (key blockType slot : String) : Option Nat :=
  (blockSlotSchema loadKit key blockType).toOption.bind (·.lookup slot)

/-- What the plans read of the package. -/
def Package.library (package : Package) : Library where
  kitKeys := [KitDir.key .homeRepairV1, KitDir.key .serviceLocalV1]
  blocks := fun key => (package.loadKit key).map (fun kit => kit.blocks.map (·.type))
  slotLength := slotLength package.loadKit
  commercial := by decide

/-! ## The slots that take a text -/

/-- A block that loads has the slots that it declares. -/
theorem slotLength_eq_some {loadKit : String → Option KitSpec} {key blockType slot : String}
    {n : Nat} (h : slotLength loadKit key blockType slot = some n) :
    ∃ kit, loadKit key = some kit ∧ ∃ block ∈ kit.blocks, block.type = blockType ∧
      block.editableSlots.lookup slot = some n := by
  obtain ⟨slots, hslots, hn⟩ := Option.bind_eq_some_iff.mp h
  unfold blockSlotSchema at hslots
  split at hslots
  · cases hslots
  next block hblock =>
  obtain ⟨kit, hkit, hfind⟩ := Option.bind_eq_some_iff.mp hblock
  refine ⟨kit, hkit, block, List.mem_of_find?_eq_some hfind, ?_, ?_⟩
  · simpa using List.find?_some hfind
  split at hslots
  · cases hslots
  cases hchecked : block.editableSlots.forM (fun slot => checkSlot block.html slot.1) with
  | error e =>
    rw [hchecked] at hslots
    cases hslots
  | ok u =>
    rw [hchecked] at hslots
    cases hslots
    exact hn

/-- **Only the hero takes the text of the page.** In the kits of the repository no other block
declares the slot `unique_core`. -/
theorem Package.uniqueCore_block (package : Package) {key blockType : String} {n : Nat}
    (h : package.library.slotLength key blockType "unique_core" = some n) : blockType = "hero" := by
  obtain ⟨kit, hkit, block, hblock, htype, hslot⟩ := slotLength_eq_some h
  obtain ⟨dir, -, rfl⟩ := Option.map_eq_some_iff.mp hkit
  obtain ⟨declared, -, rfl⟩ := List.mem_map.mp hblock
  dsimp only at htype hslot
  subst htype
  by_contra hother
  rw [editableSlots, if_neg hother] at hslot
  cases hslot

end Catalog

end MegaPanel.PagePlans
