import MegaPanel.AiRuns.Model
import MegaPanel.Lib.Like
import MegaPanel.SiteStructure.Schema

set_option autoImplicit false

/-! # Geography proposals

A model proposes districts, metro stations and landmarks of a city. The operator may change the
proposal; `apply_geo_proposal` (`api/v1/geo.py`) validates it and places its nodes one after the
other, each below the place that its parent key denotes, until no node is pending. The request is
one transaction.

The query for an existing place compares names with `ILIKE`. The model tests the places of the
kind and parent in the order of the table and takes the first match, as `LIMIT 1` does; `lower()`
of the database is a parameter (`Collation`), and so is `str.casefold`.
-/

namespace MegaPanel.Geo

open MegaPanel.Lib
open MegaPanel.SiteStructure (lengthIn isPageKey)

abbrev PlaceId := Nat

/-! ## Places -/

inductive Kind
  | country
  | region
  | city
  | district
  | metro
  | landmark
  | street
  deriving DecidableEq

def Kind.text : Kind → String
  | .country => "country"
  | .region => "region"
  | .city => "city"
  | .district => "district"
  | .metro => "metro"
  | .landmark => "landmark"
  | .street => "street"

/-- `geo_places`; the names' forms and the coordinates are left out. -/
structure Place where
  kind : Kind
  name : String
  parentId : Option PlaceId
  deriving DecidableEq

abbrev Places := Table PlaceId Place

inductive Failure
  /-- An answer of the route. -/
  | http (e : HttpError)
  /-- An exception that the route does not handle. -/
  | valueError (message : String)
  | validationError
  | databaseError
  deriving DecidableEq

/-- `_PARENT_KINDS`, each set sorted. -/
def parentKinds : Kind → List Kind
  | .country => []
  | .region => [.country]
  | .city => []
  | .district => [.city]
  | .metro => [.city]
  | .landmark => [.city, .district, .metro]
  | .street => [.city, .district]

def requiresParent (kind : Kind) : String :=
  kind.text ++ " requires a parent of type: "
    ++ ", ".intercalate ((parentKinds kind).map Kind.text)

/-- `validate_parent` of a new place. -/
def validateParent (places : Places) (kind : Kind) (parentId : Option PlaceId) :
    Except Failure Unit :=
  if parentKinds kind = [] then
    if parentId = none then .ok () else .error (.valueError (kind.text ++ " cannot have a parent"))
  else
    match parentId with
    | none => .error (.valueError (requiresParent kind))
    | some id =>
      match places.get id with
      | none => .error (.valueError "Geography parent not found")
      | some parent =>
        if parent.kind ∈ parentKinds kind then .ok ()
        else .error (.valueError (requiresParent kind))

/-- `uuid4()`: an identifier that no place has. -/
def newId (places : Places) : PlaceId := places.keys.foldl max 0 + 1

/-- `upsert_place` without an external identifier. -/
def upsertPlace (places : Places) (kind : Kind) (name : String) (parentId : Option PlaceId) :
    Except Failure (Places × PlaceId) :=
  match validateParent places kind parentId with
  | .error failure => .error failure
  | .ok _ =>
    let id := newId places
    .ok (places.set id ⟨kind, name, parentId⟩, id)

/-! ## Names -/

/-- `lower()` of the database, character by character. -/
structure Collation where
  lower : Char → Char
  idem : ∀ c, lower (lower c) = lower c
  lower_x : lower 'x' = 'x'

def Collation.fold (coll : Collation) (name : String) : List Char := name.toList.map coll.lower

/-- `name ILIKE pattern` over some places, up to the first match. -/
def firstMatch (coll : Collation) (pattern : List Char) :
    List (PlaceId × Place) → Except Failure (Option PlaceId)
  | [] => .ok none
  | (id, place) :: rest =>
    match like pattern (coll.fold place.name) with
    | none => .error .databaseError
    | some true => .ok (some id)
    | some false => firstMatch coll pattern rest

/-- The query of `apply_geo_proposal` for an existing place. -/
def existingPlace (coll : Collation) (places : Places) (kind : Kind) (name : String)
    (parentId : PlaceId) : Except Failure (Option PlaceId) :=
  firstMatch coll (coll.fold name)
    (places.rows.filter (fun row => row.2.kind = kind && row.2.parentId = some parentId))

/-! ## Proposals -/

inductive NodeKind
  | district
  | metro
  | landmark
  deriving DecidableEq

def NodeKind.toKind : NodeKind → Kind
  | .district => .district
  | .metro => .metro
  | .landmark => .landmark

/-- `GeoAIProposalNode` -/
structure Node where
  key : String
  kind : NodeKind
  name : String
  parentKey : String
  notes : List String
  deriving DecidableEq

/-- The fields of `GeoAIProposalNode`. -/
def nodeValid (node : Node) : Bool :=
  lengthIn 1 64 node.key && isPageKey node.key && lengthIn 1 255 node.name
    && lengthIn 1 64 node.parentKey && isPageKey node.parentKey && node.notes.length ≤ 10

/-- A name without markup and control characters. -/
def plainText (name : String) : Bool :=
  !name.toList.any (fun c => c ∈ ['<', '>', '\x7b', '\x7d'] || c.toNat < 32)

/-- The loop of `_validate_geo_proposal`. -/
def checkNodes (casefold : String → String) (nodes : List Node) :
    List Node → List (NodeKind × String × String) → Except Failure Unit
  | [], _ => .ok ()
  | node :: rest, seenNames =>
    if !plainText node.name then .error (.valueError "Geo proposal name must be plain text")
    else if node.kind ≠ .landmark ∧ node.parentKey ≠ "city" then
      .error (.valueError "District and metro proposals must be direct city children")
    else if node.kind = .landmark ∧ node.parentKey ≠ "city" ∧
        !nodes.any (fun parent => parent.key = node.parentKey && parent.kind ≠ .landmark) then
      .error (.valueError "Landmark proposal has an invalid parent key")
    else
      let identity := (node.kind, casefold node.name, node.parentKey)
      if identity ∈ seenNames then
        .error (.valueError "Geo proposal contains duplicate places")
      else checkNodes casefold nodes rest (identity :: seenNames)

/-- `_validate_geo_proposal` on the nodes of a proposal. -/
def validateGeoProposal (casefold : String → String) (nodes : List Node) (maxPlaces : Nat) :
    Except Failure (List Node) :=
  if nodes.length > 50 ∨ !nodes.all nodeValid then .error .validationError
  else if nodes.length > maxPlaces then
    .error (.valueError "Geo proposal exceeds the requested place limit")
  else if ¬ (nodes.map Node.key).Nodup then
    .error (.valueError "Geo proposal contains duplicate keys")
  else
    match checkNodes casefold nodes nodes [] with
    | .error failure => .error failure
    | .ok _ => .ok nodes

/-! ## Placing the nodes -/

/-- The place of a node: `reused` tells an existing place from a new one. -/
structure Usage where
  node : Node
  place : PlaceId
  reused : Bool
  deriving DecidableEq

/-- The variables of the loop; `used` holds `created_ids` and `skipped_ids`. -/
structure State where
  places : Places
  parents : Table String PlaceId
  used : List Usage

/-- The body of the inner loop for a node whose parent is placed. -/
def placeNode (coll : Collation) (s : State) (node : Node) (parent : PlaceId) :
    Except Failure State :=
  match existingPlace coll s.places node.kind.toKind node.name parent with
  | .error failure => .error failure
  | .ok (some id) =>
    .ok { s with parents := s.parents.set node.key id, used := s.used ++ [⟨node, id, true⟩] }
  | .ok none =>
    match upsertPlace s.places node.kind.toKind node.name (some parent) with
    | .error failure => .error failure
    | .ok (places, id) =>
      .ok ⟨places, s.parents.set node.key id, s.used ++ [⟨node, id, false⟩]⟩

/-- The inner loop, and the nodes that are still pending after it. -/
def onePass (coll : Collation) : List Node → State → Except Failure (State × List Node)
  | [], s => .ok (s, [])
  | node :: rest, s =>
    match s.parents.get node.parentKey with
    | none => (onePass coll rest s).map (fun result => (result.1, node :: result.2))
    | some parent =>
      match placeNode coll s node parent with
      | .error failure => .error failure
      | .ok s => onePass coll rest s

/-- The outer loop. -/
def placeAll (coll : Collation) (pending : List Node) (s : State) : Except Failure State :=
  if pending = [] then .ok s
  else
    match onePass coll pending s with
    | .error failure => .error failure
    | .ok (s', left) =>
      if left.length < pending.length then placeAll coll left s'
      else .error (.http ⟨422, "Geo proposal has unresolved parent keys"⟩)
termination_by pending.length

/-! ## The route -/

/-- `ai_runs`, as far as the route reads and writes it: of `output` the nodes and, once the
proposal has been applied, the identifiers of new and existing places. -/
structure GeoRun where
  tenantId : TenantId
  action : AiBudget.Kind
  status : AiRuns.Status
  operatorDecision : Option AiRuns.Decision
  cityId : PlaceId
  nodes : List Node
  applied : Option (List PlaceId × List PlaceId)

/-- What the request has written, and where it has placed the nodes. -/
structure Applied where
  run : GeoRun
  places : Places
  used : List Usage

/-- `body.nodes or run.output["nodes"]` -/
def chosenNodes (run : GeoRun) (body : Option (List Node)) : List Node :=
  match body with
  | some (node :: rest) => node :: rest
  | _ => run.nodes

/-- The start of the loop. -/
def startPlacing (places : Places) (cityId : PlaceId) : State :=
  ⟨places, Table.empty.set "city" cityId, []⟩

/-- `apply_geo_proposal` -/
def applyGeoProposal (coll : Collation) (casefold : String → String) (tenantId : TenantId)
    (run : Option GeoRun) (body : Option (List Node)) (places : Places) :
    Except Failure Applied :=
  match run.filter (fun r => decide (r.tenantId = tenantId)) with
  | none => .error (.http ⟨404, "AI run not found"⟩)
  | some run =>
    if run.action ≠ .cityHierarchy then
      .error (.http ⟨409, "AI run is not a geography proposal"⟩)
    else if run.status ≠ .approved ∨ run.operatorDecision ≠ some .approve then
      .error (.http ⟨409, "Approve the geography proposal first"⟩)
    else if run.applied.isSome then
      .error (.http ⟨409, "Geography proposal was already applied"⟩)
    else
      match validateGeoProposal casefold (chosenNodes run body) 50 with
      | .error failure => .error failure
      | .ok nodes =>
        match places.get run.cityId with
        | none => .error (.http ⟨409, "Proposal city is no longer available"⟩)
        | some city =>
          if city.kind ≠ .city then
            .error (.http ⟨409, "Proposal city is no longer available"⟩)
          else
            match placeAll coll nodes (startPlacing places run.cityId) with
            | .error failure => .error failure
            | .ok s =>
              let created := (s.used.filter (fun u => !u.reused)).map Usage.place
              let skipped := (s.used.filter Usage.reused).map Usage.place
              .ok ⟨{ run with applied := some (created, skipped) }, s.places, s.used⟩

end MegaPanel.Geo
