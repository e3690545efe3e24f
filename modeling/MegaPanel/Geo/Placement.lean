import MegaPanel.Geo.Model

set_option autoImplicit false

/-! # Where the nodes are placed

A proposal that has been validated is a forest of height two below its city, and the loop places
all of it if two things hold. No node that hangs directly from the city comes after a node with
the key `city` (`CityKeyLate`): such a node takes the city's entry in the map of parents. And no
name is more than a name when it is read as a pattern (`isPlain`). Otherwise there are places for
which the loop fails or goes wrong (`proposal_placed_iff`).
-/

namespace MegaPanel.Geo

open MegaPanel.Lib

/-! ## Accepted proposals -/

/-- What validation says about the keys. -/
structure Accepted (nodes : List Node) : Prop where
  distinct : (nodes.map Node.key).Nodup
  direct : ∀ node ∈ nodes, node.kind ≠ .landmark → node.parentKey = "city"
  below : ∀ node ∈ nodes, node.kind = .landmark → node.parentKey ≠ "city" →
    ∃ parent ∈ nodes, parent.key = node.parentKey ∧ parent.kind ≠ .landmark

theorem checkNodes_ok {casefold : String → String} {nodes rest : List Node}
    {seenNames : List (NodeKind × String × String)}
    (h : checkNodes casefold nodes rest seenNames = .ok ()) :
    ∀ node ∈ rest, (node.kind ≠ .landmark → node.parentKey = "city") ∧
      (node.kind = .landmark → node.parentKey ≠ "city" →
        ∃ parent ∈ nodes, parent.key = node.parentKey ∧ parent.kind ≠ .landmark) := by
  induction rest generalizing seenNames with
  | nil => exact fun node hnode => by cases hnode
  | cons node rest ih =>
    rw [checkNodes] at h
    split at h
    · cases h
    split at h
    · cases h
    · next hdirect =>
      split at h
      · cases h
      · next hbelow =>
        dsimp only at h
        split_ifs at h
        refine List.forall_mem_cons.mpr ⟨⟨fun hkind => ?_, fun hkind hkey => ?_⟩, ih h⟩
        · by_contra hkey
          exact hdirect ⟨hkind, hkey⟩
        · by_contra hnone
          refine hbelow ⟨hkind, hkey, ?_⟩
          rw [Bool.not_eq_true', List.any_eq_false]
          intro parent hparent hmatch
          rw [Bool.and_eq_true, decide_eq_true_eq, decide_eq_true_eq] at hmatch
          exact hnone ⟨parent, hparent, hmatch⟩

theorem accepted_of_validate {casefold : String → String} {nodes result : List Node}
    {maxPlaces : Nat} (h : validateGeoProposal casefold nodes maxPlaces = .ok result) :
    result = nodes ∧ Accepted nodes := by
  unfold validateGeoProposal at h
  split at h
  · cases h
  split at h
  · cases h
  split at h
  · cases h
  · next hnodup =>
    split at h
    · cases h
    · next hcheck =>
      cases h
      have hnodes := checkNodes_ok hcheck
      exact ⟨rfl, not_not.mp hnodup, fun node hnode => (hnodes node hnode).1,
        fun node hnode => (hnodes node hnode).2⟩

/-- The node of a key. -/
theorem Accepted.unique {nodes : List Node} (h : Accepted nodes) {a b : Node} (ha : a ∈ nodes)
    (hb : b ∈ nodes) (hkey : a.key = b.key) : a = b :=
  List.inj_on_of_nodup_map h.distinct ha hb hkey

/-! ## The query -/

theorem firstMatch_eq_some {coll : Collation} {pattern : List Char}
    {rows : List (PlaceId × Place)} {id : PlaceId}
    (h : firstMatch coll pattern rows = .ok (some id)) :
    ∃ place, (id, place) ∈ rows ∧ like pattern (coll.fold place.name) = some true := by
  induction rows with
  | nil => cases h
  | cons row rows ih =>
    obtain ⟨id', place⟩ := row
    rw [firstMatch] at h
    split at h
    · cases h
    · next hlike =>
      cases h
      exact ⟨place, List.mem_cons_self, hlike⟩
    · obtain ⟨place, hmem, hlike⟩ := ih h
      exact ⟨place, List.mem_cons_of_mem _ hmem, hlike⟩

/-- A plain pattern raises no error. -/
theorem firstMatch_plain {coll : Collation} {pattern : List Char} (h : isPlain pattern = true)
    (rows : List (PlaceId × Place)) : ∃ found, firstMatch coll pattern rows = .ok found := by
  induction rows with
  | nil => exact ⟨none, rfl⟩
  | cons row rows ih =>
    obtain ⟨id, place⟩ := row
    rw [firstMatch, like_plain h]
    by_cases heq : pattern = coll.fold place.name
    · rw [decide_eq_true heq]
      exact ⟨some id, rfl⟩
    · rw [decide_eq_false heq]
      exact ih

/-- A first row that is not rejected is what the query finds. -/
theorem firstMatch_head {coll : Collation} {pattern : List Char} {id : PlaceId} {place : Place}
    {rows : List (PlaceId × Place)} {found : Option PlaceId}
    (h : firstMatch coll pattern ((id, place) :: rows) = .ok found)
    (hlike : like pattern (coll.fold place.name) ≠ some false) : found = some id := by
  rw [firstMatch] at h
  split at h
  · cases h
  · cases h
    rfl
  · next hfalse => exact absurd hfalse hlike

theorem existingPlace_eq_some {coll : Collation} {places : Places} {kind : Kind} {name : String}
    {parentId id : PlaceId} (h : existingPlace coll places kind name parentId = .ok (some id)) :
    ∃ place, places.get id = some place ∧ place.kind = kind ∧ place.parentId = some parentId ∧
      like (coll.fold name) (coll.fold place.name) = some true := by
  obtain ⟨place, hmem, hlike⟩ := firstMatch_eq_some h
  rw [List.mem_filter, Bool.and_eq_true, decide_eq_true_eq, decide_eq_true_eq] at hmem
  exact ⟨place, Table.mem_rows.mp hmem.1, hmem.2.1, hmem.2.2, hlike⟩

/-! ## One node -/

theorem newId_notMem (places : Places) : places.get (newId places) = none := by
  have hle : ∀ (keys : List PlaceId) (start : PlaceId), start ≤ keys.foldl max start ∧
      ∀ id ∈ keys, id ≤ keys.foldl max start := by
    intro keys
    induction keys with
    | nil => exact fun start => ⟨Nat.le_refl _, fun id hid => by cases hid⟩
    | cons key keys ih =>
      intro start
      obtain ⟨hstart, hkeys⟩ := ih (max start key)
      refine ⟨(Nat.le_max_left _ _).trans hstart, List.forall_mem_cons.mpr ⟨?_, hkeys⟩⟩
      exact (Nat.le_max_right _ _).trans hstart
  by_contra hsome
  have hmem := (places.mem_keys _).mpr (Option.isSome_iff_ne_none.mpr hsome)
  have hbound := (hle places.keys 0).2 _ hmem
  rw [newId] at hbound
  exact Nat.not_succ_le_self _ hbound

/-- **What placing a node does.** -/
structure Step (coll : Collation) (s : State) (node : Node) (parent : PlaceId) (s' : State)
    (id : PlaceId) (reused : Bool) (place : Place) : Prop where
  parents : s'.parents = s.parents.set node.key id
  used : s'.used = s.used ++ [⟨node, id, reused⟩]
  row : s'.places.get id = some place
  kind : place.kind = node.kind.toKind
  parentId : place.parentId = some parent
  named : reused = true → like (coll.fold node.name) (coll.fold place.name) = some true
  kept : ∃ rows, s'.places.rows = s.places.rows ++ rows

theorem placeNode_step {coll : Collation} {s s' : State} {node : Node} {parent : PlaceId}
    (h : placeNode coll s node parent = .ok s') :
    ∃ id reused place, Step coll s node parent s' id reused place := by
  unfold placeNode at h
  split at h
  · cases h
  · next id hfound =>
    cases h
    obtain ⟨place, hget, hkind, hparent, hlike⟩ := existingPlace_eq_some hfound
    exact ⟨id, true, place, rfl, rfl, hget, hkind, hparent, fun _ => hlike,
      [], (List.append_nil _).symm⟩
  · unfold upsertPlace at h
    split at h
    · cases h
    · next places id hnew =>
      split at hnew
      · cases hnew
      cases hnew
      cases h
      exact ⟨_, false, _, rfl, rfl, Table.get_set_self _ _ _, rfl, rfl, nofun, _,
        Table.rows_set_of_none (newId_notMem s.places) _⟩

/-- Rows stay. -/
theorem Step.get {coll : Collation} {s s' : State} {node : Node} {parent id : PlaceId}
    {reused : Bool} {place : Place} (h : Step coll s node parent s' id reused place) {i : PlaceId}
    {p : Place} (hget : s.places.get i = some p) : s'.places.get i = some p := by
  obtain ⟨rows, hrows⟩ := h.kept
  rw [← Table.mem_rows, hrows]
  exact List.mem_append_left _ (Table.mem_rows.mpr hget)

/-- A plain name below a place of an allowed kind can be placed. -/
theorem exists_placeNode {coll : Collation} {s : State} {node : Node} {parent : PlaceId}
    {p : Place} (hplain : isPlain (coll.fold node.name) = true)
    (hparent : s.places.get parent = some p) (hkind : p.kind ∈ parentKinds node.kind.toKind) :
    ∃ s', placeNode coll s node parent = .ok s' := by
  obtain ⟨found, hfound⟩ := firstMatch_plain hplain
    (s.places.rows.filter (fun row => row.2.kind = node.kind.toKind
      && row.2.parentId = some parent))
  have hexisting : existingPlace coll s.places node.kind.toKind node.name parent = .ok found :=
    hfound
  rw [placeNode, hexisting]
  cases found with
  | some id => exact ⟨_, rfl⟩
  | none =>
    have hne : parentKinds node.kind.toKind ≠ [] := List.ne_nil_of_mem hkind
    have hvalid : validateParent s.places node.kind.toKind (some parent) = .ok () := by
      rw [validateParent, if_neg hne, hparent]
      exact if_pos hkind
    rw [upsertPlace, hvalid]
    exact ⟨_, rfl⟩

/-! ## What the claims of the nodes come to -/

/-- The place that a parent key denotes: `city` is the city of the run, any other key the place of
the node with that key. -/
def Denotes (cityId : PlaceId) (used : List Usage) (key : String) (id : PlaceId) : Prop :=
  (key = "city" ∧ id = cityId) ∨ (key ≠ "city" ∧ ∃ u ∈ used, u.node.key = key ∧ u.place = id)

/-- The place of a node has its kind and the parent that its parent key denotes; an existing place
has its name, up to the case of letters. -/
def Fits (coll : Collation) (cityId : PlaceId) (places : Places) (used : List Usage) (u : Usage) :
    Prop :=
  ∃ place parent, places.get u.place = some place ∧ place.kind = u.node.kind.toKind ∧
    place.parentId = some parent ∧ Denotes cityId used u.node.parentKey parent ∧
    (u.reused = true → coll.fold place.name = coll.fold u.node.name)

/-- Every node has one place, and the place fits. -/
def Fulfilled (coll : Collation) (nodes : List Node) (cityId : PlaceId) (places : Places)
    (used : List Usage) : Prop :=
  (used.map Usage.node).Perm nodes ∧ ∀ u ∈ used, Fits coll cityId places used u

theorem Denotes.append {cityId id : PlaceId} {used : List Usage} {key : String}
    (h : Denotes cityId used key id) (more : List Usage) :
    Denotes cityId (used ++ more) key id :=
  h.imp_right (fun ⟨hkey, u, hu, hnode⟩ => ⟨hkey, u, List.mem_append_left more hu, hnode⟩)

/-! ## The loop under the conditions -/

/-- **The invariant** of the loop: what is used fits, and the map of parents holds the city and
the places used so far. -/
structure Placing (coll : Collation) (nodes : List Node) (cityId : PlaceId) (s : State)
    (pending : List Node) : Prop where
  perm : (s.used.map Usage.node ++ pending).Perm nodes
  city : ∃ place, s.places.get cityId = some place ∧ place.kind = .city
  cityKey : (s.parents.get "city").isSome = true
  placed : ∀ u ∈ s.used, (s.parents.get u.node.key).isSome = true
  parents : ∀ key id, s.parents.get key = some id →
    (key = "city" ∧ id = cityId) ∨ ∃ u ∈ s.used, u.node.key = key ∧ u.place = id
  fits : ∀ u ∈ s.used, Fits coll cityId s.places s.used u

/-- The order of the pending nodes keeps the city's entry for those that need it. -/
structure Ready (cityId : PlaceId) (s : State) (pending : List Node) : Prop where
  city : (∃ v ∈ pending, v.parentKey = "city") → s.parents.get "city" = some cityId
  late : ∀ before node after, pending = before ++ node :: after → node.key = "city" →
    (s.parents.get node.parentKey).isSome = true ∨ node.parentKey ∈ before.map Node.key →
    ∀ v ∈ after, v.parentKey ≠ "city"

theorem Ready.of_noCity {cityId : PlaceId} {s : State} {pending : List Node}
    (h : ∀ v ∈ pending, v.parentKey ≠ "city") : Ready cityId s pending where
  city := fun ⟨v, hv, hkey⟩ => absurd hkey (h v hv)
  late before node _ heq _ _ v hv :=
    h v (heq ▸ List.mem_append_right before (List.mem_cons_of_mem node hv))

theorem Ready.skip {cityId : PlaceId} {s : State} {node : Node} {rest : List Node}
    (h : Ready cityId s (node :: rest)) : Ready cityId s rest where
  city := fun ⟨v, hv, hkey⟩ => h.city ⟨v, List.mem_cons_of_mem node hv, hkey⟩
  late before n after heq hkey hready :=
    h.late (node :: before) n after (by rw [heq, List.cons_append]) hkey
      (hready.imp_right (List.mem_cons_of_mem node.key))

theorem Ready.step {cityId : PlaceId} {s s' : State} {node : Node} {rest : List Node}
    {id : PlaceId} (h : Ready cityId s (node :: rest))
    (hready : (s.parents.get node.parentKey).isSome = true)
    (hparents : s'.parents = s.parents.set node.key id) : Ready cityId s' rest where
  city := by
    rintro ⟨v, hv, hkey⟩
    have hne : node.key ≠ "city" := fun heq => h.late [] node rest rfl heq (.inl hready) v hv hkey
    rw [hparents, Table.get_set_ne _ (Ne.symm hne)]
    exact h.city ⟨v, List.mem_cons_of_mem node hv, hkey⟩
  late before n after heq hkey hn := by
    refine h.late (node :: before) n after (by rw [heq, List.cons_append]) hkey ?_
    rcases hn with hn | hn
    · rw [hparents] at hn
      by_cases hself : n.parentKey = node.key
      · exact .inr (by rw [hself]; exact List.mem_cons_self)
      · rw [Table.get_set_ne _ hself] at hn
        exact .inl hn
    · exact .inr (List.mem_cons_of_mem _ hn)

theorem Placing.mem_nodes {coll : Collation} {nodes : List Node} {cityId : PlaceId} {s : State}
    {pending : List Node} (h : Placing coll nodes cityId s pending) :
    (∀ u ∈ s.used, u.node ∈ nodes) ∧ ∀ node ∈ pending, node ∈ nodes :=
  ⟨fun _ hu => h.perm.subset (List.mem_append_left _ (List.mem_map_of_mem hu)),
    fun _ hnode => h.perm.subset (List.mem_append_right _ hnode)⟩

/-- The parent of a pending node is of a kind that it may have. -/
theorem Placing.parent {coll : Collation} {nodes : List Node} {cityId : PlaceId} {s : State}
    {pending : List Node} (h : Placing coll nodes cityId s pending) (hacc : Accepted nodes)
    {node : Node} (hnode : node ∈ pending) {parent : PlaceId}
    (hget : s.parents.get node.parentKey = some parent)
    (hcity : node.parentKey = "city" → parent = cityId) :
    Denotes cityId s.used node.parentKey parent ∧
      ∃ place, s.places.get parent = some place ∧ place.kind ∈ parentKinds node.kind.toKind := by
  by_cases hkey : node.parentKey = "city"
  · obtain rfl := hcity hkey
    obtain ⟨place, hplace, hkind⟩ := h.city
    refine ⟨.inl ⟨hkey, rfl⟩, place, hplace, ?_⟩
    rw [hkind]
    cases node.kind <;> decide
  · rcases h.parents _ _ hget with ⟨heq, _⟩ | ⟨u, hu, hukey, rfl⟩
    · exact absurd heq hkey
    · have hmem := h.mem_nodes.2 node hnode
      have hlandmark : node.kind = .landmark := by
        by_contra hkind
        exact hkey (hacc.direct node hmem hkind)
      obtain ⟨p, hp, hpkey, hpkind⟩ := hacc.below node hmem hlandmark hkey
      obtain rfl := hacc.unique (h.mem_nodes.1 u hu) hp (hukey.trans hpkey.symm)
      obtain ⟨place, _, hplace, hkind, _⟩ := h.fits u hu
      refine ⟨.inr ⟨hkey, u, hu, hukey, rfl⟩, place, hplace, ?_⟩
      rw [hkind, hlandmark]
      cases hk : u.node.kind with
      | landmark => exact absurd hk hpkind
      | district | metro => decide

/-- One node, placed, is in its place. -/
theorem Placing.step {coll : Collation} {nodes : List Node} {cityId : PlaceId} {s s' : State}
    {skipped rest : List Node} {node : Node} {parent id : PlaceId} {reused : Bool} {place : Place}
    (h : Placing coll nodes cityId s (skipped ++ node :: rest))
    (hplain : isPlain (coll.fold node.name) = true)
    (hdenotes : Denotes cityId s.used node.parentKey parent)
    (hstep : Step coll s node parent s' id reused place) :
    Placing coll nodes cityId s' (skipped ++ rest) where
  perm := by
    rw [hstep.used, List.map_append, List.map_singleton, List.append_assoc]
    refine (List.Perm.append_left _ ?_).trans h.perm
    show (node :: (skipped ++ rest)).Perm (skipped ++ node :: rest)
    exact List.perm_middle.symm
  city := by
    obtain ⟨city, hget, hkind⟩ := h.city
    exact ⟨city, hstep.get hget, hkind⟩
  cityKey := by
    rw [hstep.parents, Table.get_set]
    split
    · rfl
    · exact h.cityKey
  placed := by
    intro u hu
    rw [hstep.parents, Table.get_set]
    split
    · rfl
    · next hne =>
      rw [hstep.used, List.mem_append, List.mem_singleton] at hu
      rcases hu with hu | rfl
      · exact h.placed u hu
      · exact absurd rfl hne
  parents := by
    intro key i hget
    rw [hstep.parents, Table.get_set_eq_some] at hget
    rw [hstep.used]
    rcases hget with ⟨rfl, rfl⟩ | ⟨_, hget⟩
    · exact .inr ⟨_, List.mem_append_right _ (List.mem_singleton.mpr rfl), rfl, rfl⟩
    · exact (h.parents key i hget).imp_right
        (fun ⟨u, hu, hnode⟩ => ⟨u, List.mem_append_left _ hu, hnode⟩)
  fits := by
    intro u hu
    rw [hstep.used, List.mem_append, List.mem_singleton] at hu
    rw [hstep.used]
    rcases hu with hu | rfl
    · obtain ⟨p, q, hget, hkind, hparent, hden, hnamed⟩ := h.fits u hu
      exact ⟨p, q, hstep.get hget, hkind, hparent, hden.append _, hnamed⟩
    · refine ⟨place, parent, hstep.row, hstep.kind, hstep.parentId, hdenotes.append _,
        fun hreused => ?_⟩
      have hlike := hstep.named hreused
      rw [like_plain hplain, Option.some.injEq, decide_eq_true_eq] at hlike
      exact hlike.symm

/-- **One pass**: it raises nothing and leaves no node that hangs from the city. -/
theorem onePass_placing {coll : Collation} {nodes : List Node} {cityId : PlaceId}
    (hacc : Accepted nodes) (hplain : ∀ node ∈ nodes, isPlain (coll.fold node.name) = true)
    (rest : List Node) :
    ∀ (s : State) (skipped : List Node), Placing coll nodes cityId s (skipped ++ rest) →
      Ready cityId s rest →
      ∃ s' left, onePass coll rest s = .ok (s', left) ∧
        Placing coll nodes cityId s' (skipped ++ left) ∧ ∀ v ∈ left, v.parentKey ≠ "city" := by
  induction rest with
  | nil => exact fun s skipped h _ => ⟨s, [], rfl, h, fun v hv => by cases hv⟩
  | cons node rest ih =>
    intro s skipped h hready
    have hmem : node ∈ skipped ++ node :: rest :=
      List.mem_append_right _ List.mem_cons_self
    rw [onePass]
    cases hget : s.parents.get node.parentKey with
    | none =>
      have hkey : node.parentKey ≠ "city" := by
        intro heq
        have hsome := h.cityKey
        rw [← heq, hget] at hsome
        cases hsome
      rw [List.append_cons] at h
      obtain ⟨s', left, hpass, hplacing, hleft⟩ := ih s (skipped ++ [node]) h hready.skip
      refine ⟨s', node :: left, ?_, ?_, List.forall_mem_cons.mpr ⟨hkey, hleft⟩⟩
      · dsimp only
        rw [hpass]
        rfl
      · rw [List.append_assoc] at hplacing
        exact hplacing
    | some parent =>
      have hcity : node.parentKey = "city" → parent = cityId := by
        intro hkey
        have hentry := hready.city ⟨node, List.mem_cons_self, hkey⟩
        rw [hkey, hentry] at hget
        exact (Option.some.inj hget).symm
      obtain ⟨hdenotes, p, hp, hkind⟩ := h.parent hacc hmem hget hcity
      have hname := hplain node (h.mem_nodes.2 node hmem)
      obtain ⟨s₁, hplace⟩ := exists_placeNode hname hp hkind
      obtain ⟨id, reused, place, hstep⟩ := placeNode_step hplace
      have hready₁ := hready.step (by rw [hget]; rfl) hstep.parents
      obtain ⟨s', left, hpass, hplacing, hleft⟩ :=
        ih s₁ skipped (h.step hname hdenotes hstep) hready₁
      refine ⟨s', left, ?_, hplacing, hleft⟩
      dsimp only
      rw [hplace]
      exact hpass

/-- A pass leaves some of the nodes, all of them only if no node had a place for its parent. -/
theorem onePass_left {coll : Collation} {pending left : List Node} {s s' : State}
    (h : onePass coll pending s = .ok (s', left)) :
    left.Sublist pending ∧ (left.length = pending.length →
      ∀ node ∈ pending, s.parents.get node.parentKey = none) := by
  induction pending generalizing s left with
  | nil =>
    cases h
    exact ⟨List.Sublist.refl _, fun _ node hnode => by cases hnode⟩
  | cons node rest ih =>
    rw [onePass] at h
    cases hget : s.parents.get node.parentKey with
    | none =>
      rw [hget] at h
      obtain ⟨⟨_, left'⟩, hpass, hpair⟩ := map_eq_ok h
      obtain ⟨rfl, rfl⟩ := Prod.mk.inj hpair
      obtain ⟨hsub, hall⟩ := ih hpass
      refine ⟨hsub.cons_cons node, fun hlength => List.forall_mem_cons.mpr ⟨hget, ?_⟩⟩
      exact hall (Nat.succ.inj hlength)
    | some parent =>
      rw [hget] at h
      dsimp only at h
      split at h
      · cases h
      obtain ⟨hsub, _⟩ := ih h
      refine ⟨hsub.cons node, fun hlength => ?_⟩
      have hle := hsub.length_le
      rw [List.length_cons] at hlength
      omega

/-- While nodes are pending, one of them can be placed. -/
theorem Placing.exists_ready {coll : Collation} {nodes : List Node} {cityId : PlaceId} {s : State}
    {pending : List Node} (h : Placing coll nodes cityId s pending) (hacc : Accepted nodes)
    (hne : pending ≠ []) : ∃ node ∈ pending, (s.parents.get node.parentKey).isSome = true := by
  obtain ⟨node, hnode⟩ := List.exists_mem_of_ne_nil pending hne
  by_cases hkey : node.parentKey = "city"
  · exact ⟨node, hnode, hkey ▸ h.cityKey⟩
  have hmem := h.mem_nodes.2 node hnode
  have hlandmark : node.kind = .landmark := by
    by_contra hkind
    exact hkey (hacc.direct node hmem hkind)
  obtain ⟨p, hp, hpkey, hpkind⟩ := hacc.below node hmem hlandmark hkey
  rcases List.mem_append.mp (h.perm.symm.subset hp) with hused | hpending
  · obtain ⟨u, hu, rfl⟩ := List.mem_map.mp hused
    exact ⟨node, hnode, hpkey ▸ h.placed u hu⟩
  · exact ⟨p, hpending, hacc.direct p hp hpkind ▸ h.cityKey⟩

/-- **The whole loop** places all nodes. -/
theorem placeAll_placing {coll : Collation} {nodes : List Node} {cityId : PlaceId}
    (hacc : Accepted nodes) (hplain : ∀ node ∈ nodes, isPlain (coll.fold node.name) = true)
    (n : Nat) :
    ∀ (pending : List Node) (s : State), pending.length = n →
      Placing coll nodes cityId s pending → Ready cityId s pending →
      ∃ s', placeAll coll pending s = .ok s' ∧ Placing coll nodes cityId s' [] := by
  induction n using Nat.strong_induction_on with
  | h n ih =>
    intro pending s hlength h hready
    rw [placeAll]
    by_cases hnil : pending = []
    · subst hnil
      exact ⟨s, if_pos rfl, h⟩
    obtain ⟨s', left, hpass, hplacing, hleft⟩ :=
      onePass_placing hacc hplain pending s [] h hready
    have hshorter : left.length < pending.length := by
      obtain ⟨hsub, hall⟩ := onePass_left hpass
      refine lt_of_le_of_ne hsub.length_le (fun heq => ?_)
      obtain ⟨node, hnode, hsome⟩ := h.exists_ready hacc hnil
      rw [hall heq node hnode] at hsome
      cases hsome
    rw [if_neg hnil, hpass]
    dsimp only
    rw [if_pos hshorter]
    exact ih left.length (hlength ▸ hshorter) left s' rfl hplacing (Ready.of_noCity hleft)

/-! ## The condition -/

/-- No node that hangs from the city comes after a node with the key `city`, unless that node has
to wait for its parent. -/
def CityKeyLate (nodes : List Node) : Prop :=
  ∀ before node after, nodes = before ++ node :: after → node.key = "city" →
    node.parentKey = "city" ∨ node.parentKey ∈ before.map Node.key →
    ∀ v ∈ after, v.parentKey ≠ "city"

theorem startPlacing_placing {coll : Collation} {nodes : List Node} {cityId : PlaceId}
    {places : Places} {city : Place} (hcity : places.get cityId = some city)
    (hkind : city.kind = .city) :
    Placing coll nodes cityId (startPlacing places cityId) nodes where
  perm := List.Perm.refl _
  city := ⟨city, hcity, hkind⟩
  cityKey := by
    rw [startPlacing, Table.get_set_self]
    rfl
  placed u hu := by cases hu
  parents key id hget := by
    rw [startPlacing, Table.get_set_eq_some] at hget
    rcases hget with ⟨rfl, rfl⟩ | ⟨_, hget⟩
    · exact .inl ⟨rfl, rfl⟩
    · cases hget
  fits u hu := by cases hu

theorem startPlacing_ready {nodes : List Node} {cityId : PlaceId} {places : Places}
    (h : CityKeyLate nodes) : Ready cityId (startPlacing places cityId) nodes where
  city := fun _ => Table.get_set_self _ _ _
  late before node after heq hkey hready := by
    refine h before node after heq hkey (hready.imp_left (fun hsome => ?_))
    by_contra hne
    rw [startPlacing, Table.get_set_ne _ hne] at hsome
    cases hsome

/-- **Under the condition** the nodes are placed as they should be. -/
theorem placeAll_fulfilled {coll : Collation} {nodes : List Node} (hacc : Accepted nodes)
    (hlate : CityKeyLate nodes) (hplain : ∀ node ∈ nodes, isPlain (coll.fold node.name) = true)
    {places : Places} {cityId : PlaceId} {city : Place} (hcity : places.get cityId = some city)
    (hkind : city.kind = .city) :
    ∃ s, placeAll coll nodes (startPlacing places cityId) = .ok s ∧
      Fulfilled coll nodes cityId s.places s.used := by
  obtain ⟨s, hall, hplacing⟩ := placeAll_placing hacc hplain nodes.length nodes _ rfl
    (startPlacing_placing hcity hkind) (startPlacing_ready hlate)
  refine ⟨s, hall, ?_, hplacing.fits⟩
  have hperm := hplacing.perm
  rwa [List.append_nil] at hperm

end MegaPanel.Geo
