import MegaPanel.Geo.Placement
import MegaPanel.Lib.Forest
import MegaPanel.Lib.Run
import MegaPanel.Lib.UnitOfWork

set_option autoImplicit false

/-! # The hierarchy of places

`create_geo` and `update_geo` (`api/v1/geo.py`), run at the same time. A request reads the committed
places and validates its parent, in one step here; what it writes is seen when it commits. No
request writes the kind of a place. So a place is of a smaller rank than those below it whatever
requests overlap, and `validate_parent` never finds a cycle (`hierarchy_rooted`).
-/

namespace MegaPanel.Geo

open MegaPanel.Lib

/-! ## Requests -/

def parentsOf (places : Places) : List (PlaceId × Option PlaceId) :=
  places.rows.map (fun row => (row.1, row.2.parentId))

/-- `validate_parent` of a place that exists. -/
def validateMove (places : Places) (kind : Kind) (parentId : Option PlaceId) (childId : PlaceId) :
    Except Failure Unit :=
  match validateParent places kind parentId with
  | .error failure => .error failure
  | .ok _ =>
    match follow (parentsOf places) [childId] parentId with
    | .back key =>
      .error (.valueError (if key = childId then "Geography parent would create a cycle"
        else "Existing geography hierarchy contains a cycle"))
    | _ => .ok ()

/-- What a request has flushed. -/
inductive Pending
  | insert (place : Place)
  /-- `loaded` is the parent that the request has read. -/
  | move (id : PlaceId) (loaded parentId : Option PlaceId)

structure World where
  places : Places
  pending : Table Nat Pending

inductive Action
  | create (request : Nat) (place : Place)
  | update (request : Nat) (id : PlaceId) (parentId : Option PlaceId)
  | commit (request : Nat)

def World.flush (w : World) (request : Nat) (p : Pending) : World :=
  { w with pending := w.pending.set request p }

def World.store (w : World) (request : Nat) (id : PlaceId) (place : Place) : World :=
  ⟨w.places.set id place, w.pending.erase request⟩

def step (w : World) : Action → Option World
  | .create request place =>
    match validateParent w.places place.kind place.parentId with
    | .error _ => none
    | .ok _ => some (w.flush request (.insert place))
  | .update request id parentId => (w.places.get id).bind (fun place =>
    match validateMove w.places place.kind parentId id with
    | .error _ => none
    | .ok _ => some (w.flush request (.move id place.parentId parentId)))
  | .commit request => (w.pending.get request).bind (fun
    | .insert place => some (w.store request (newId w.places) place)
    | .move id loaded parentId => (w.places.get id).map (fun place => w.store request id
        { place with parentId := writeCol loaded parentId place.parentId }))

/-! ## Ranks -/

def Kind.rank : Kind → Nat
  | .country | .city => 0
  | .region | .district | .metro => 1
  | .landmark | .street => 2

def kindOf (places : Places) (id : PlaceId) : Option Kind := (places.get id).map Place.kind

def rankOf (places : Places) (id : PlaceId) : Nat := (kindOf places id).elim 0 Kind.rank

/-- The parent is a place of a kind that the kind allows. -/
def Below (places : Places) (kind : Kind) (parentId : Option PlaceId) : Prop :=
  ∀ id, parentId = some id → ∃ k, kindOf places id = some k ∧ k ∈ parentKinds kind

/-- Places stay and keep their kinds. -/
def Keeps (places places' : Places) : Prop :=
  ∀ id k, kindOf places id = some k → kindOf places' id = some k

variable {places places' : Places} {kind : Kind} {parentId : Option PlaceId} {w t : World}
  {request : Nat} {id : PlaceId} {place : Place}

theorem kindOf_of_get (h : places.get id = some place) : kindOf places id = some place.kind :=
  congrArg (Option.map Place.kind) h

theorem below_of_validate (h : validateParent places kind parentId = .ok ()) :
    Below places kind parentId := by
  rintro id rfl
  unfold validateParent at h
  split_ifs at h with hnone hid
  · cases hid
  dsimp only at h
  split at h
  · cases h
  next parent hget =>
  split_ifs at h with hmem
  exact ⟨parent.kind, kindOf_of_get hget, hmem⟩

theorem Below.rank_lt (h : Below places kind parentId) (hid : parentId = some id) :
    rankOf places id < kind.rank := by
  obtain ⟨k, hk, hmem⟩ := h id hid
  rw [rankOf, hk]
  revert hmem
  cases kind <;> cases k <;> decide

theorem Below.keep (hkeeps : Keeps places places') (h : Below places kind parentId) :
    Below places' kind parentId := by
  intro id hid
  obtain ⟨k, hk, hmem⟩ := h id hid
  exact ⟨k, hkeeps id k hk, hmem⟩

/-! ## The invariant -/

def Pending.Sound (places : Places) : Pending → Prop
  | .insert place => Below places place.kind place.parentId
  | .move id _ parentId => ∃ k, kindOf places id = some k ∧ Below places k parentId

structure Sound (w : World) : Prop where
  rows : ∀ id place, w.places.get id = some place → Below w.places place.kind place.parentId
  pending : ∀ request p, w.pending.get request = some p → p.Sound w.places

theorem Sound.store (hs : Sound w) (hkind : ∀ k, kindOf w.places id = some k → place.kind = k)
    (hbelow : Below w.places place.kind place.parentId) : Sound (w.store request id place) := by
  have hkeeps : Keeps w.places (w.places.set id place) := by
    intro j k hk
    rw [kindOf, Table.get_set]
    split
    · next hj => exact congrArg some (hkind k (hj ▸ hk))
    · exact hk
  refine ⟨Table.forall_set (fun j x hx => (hs.rows j x hx).keep hkeeps) (hbelow.keep hkeeps), ?_⟩
  intro r p hp
  have hsound := hs.pending r p (Table.get_erase_eq_some.mp hp).2
  cases p with
  | insert place => exact Below.keep hkeeps hsound
  | move id loaded parentId =>
    obtain ⟨k, hk, hparent⟩ := hsound
    exact ⟨k, hkeeps id k hk, hparent.keep hkeeps⟩

theorem Sound.step {a : Action} (hs : Sound w) (h : Geo.step w a = some t) : Sound t := by
  cases a with
  | create request place =>
    rw [Geo.step] at h
    split at h
    · cases h
    next hvalid =>
    cases h
    exact ⟨hs.rows, Table.forall_set hs.pending (below_of_validate hvalid)⟩
  | update request id parentId =>
    obtain ⟨place, hget, h⟩ := Option.bind_eq_some_iff.mp h
    split at h
    · cases h
    next hmove =>
    cases h
    unfold validateMove at hmove
    split at hmove
    · cases hmove
    next hvalid =>
    exact ⟨hs.rows, Table.forall_set hs.pending
      ⟨place.kind, kindOf_of_get hget, below_of_validate hvalid⟩⟩
  | commit request =>
    obtain ⟨p, hp, h⟩ := Option.bind_eq_some_iff.mp h
    have hsound := hs.pending request p hp
    cases p with
    | insert place =>
      cases h
      refine hs.store (fun k hk => ?_) hsound
      rw [kindOf, newId_notMem] at hk
      cases hk
    | move id loaded parentId =>
      obtain ⟨place, hget, rfl⟩ := Option.map_eq_some_iff.mp h
      obtain ⟨k, hk, hbelow⟩ := hsound
      cases (kindOf_of_get hget).symm.trans hk
      refine hs.store (fun k hk => Option.some.inj ((kindOf_of_get hget).symm.trans hk)) ?_
      -- the parent that is stored may be that of another request
      dsimp only [writeCol]
      split
      · exact hs.rows id place hget
      · exact hbelow

/-! ## The theorem -/

/-- No place is above itself, and the search for a cycle makes no difference. -/
structure Rooted (places : Places) : Prop where
  acyclic : ∀ id, ¬ Relation.TransGen (IsParent (parentsOf places)) id id
  searched : ∀ id place parentId, places.get id = some place →
    validateMove places place.kind parentId id = validateParent places place.kind parentId

theorem Sound.rank_lt (hs : Sound w) (child parent : PlaceId)
    (h : IsParent (parentsOf w.places) child parent) :
    rankOf w.places parent < rankOf w.places child := by
  obtain ⟨⟨id, place⟩, hrow, heq⟩ := List.mem_map.mp (dictGet_eq_some h)
  obtain ⟨rfl, hparent⟩ := Prod.mk.inj heq
  have hget := Table.mem_rows.mp hrow
  rw [rankOf, rankOf, kindOf_of_get hget]
  exact (hs.rows id place hget).rank_lt hparent

theorem Sound.rooted (hs : Sound w) : Rooted w.places where
  acyclic := by
    intro id hcycle
    have hgt : Relation.TransGen (· > ·) (rankOf w.places id) (rankOf w.places id) :=
      hcycle.lift _ hs.rank_lt
    rw [Relation.transGen_eq_self] at hgt
    exact Nat.lt_irrefl _ hgt
  searched := by
    intro id place parentId hget
    unfold validateMove
    cases hvalid : validateParent w.places place.kind parentId with
    | error failure => rfl
    | ok u =>
      dsimp only
      split
      · next key hback =>
        refine absurd hback (follow_ne_back hs.rank_lt (fun k hk => List.forall_mem_singleton.mpr ?_))
        rw [rankOf, rankOf, kindOf_of_get hget]
        exact (below_of_validate hvalid).rank_lt hk
      · rfl

/-- **The hierarchy stays a forest**, and no search of a request finds a cycle. -/
theorem hierarchy_rooted (as : List Action) :
    Along step (fun _ _ t => Rooted t.places) ⟨Table.empty, Table.empty⟩ as :=
  along_rule (I := Sound) (fun _ _ _ hs _ h => ⟨hs.step h, (hs.step h).rooted⟩)
    ⟨fun _ _ h => (by cases h), fun _ _ h => (by cases h)⟩
    (along_of_forall (Q := fun _ => True) (fun _ _ => trivial) _)

end MegaPanel.Geo
