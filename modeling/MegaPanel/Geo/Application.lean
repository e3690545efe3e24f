import MegaPanel.Geo.Placement

set_option autoImplicit false

/-! # Applying a geography proposal

For each way to miss the condition of `Placement` there are places that show it. A node that
hangs from the city after a node with the key `city` gets that node's place as its parent, or
`validate_parent` raises an error. A name with a wildcard or a backslash takes a place of another
name, or the database raises an error.
-/

namespace MegaPanel.Geo

open MegaPanel.Lib

/-! ## Runs of the loop -/

/-- Nothing that is there is lost. -/
structure Extends (s s' : State) : Prop where
  rows : ∃ rows, s'.places.rows = s.places.rows ++ rows
  used : s.used ⊆ s'.used
  parents : ∀ key, (s.parents.get key).isSome = true → (s'.parents.get key).isSome = true

theorem Extends.refl (s : State) : Extends s s :=
  ⟨⟨[], (List.append_nil _).symm⟩, List.Subset.refl _, fun _ h => h⟩

theorem Extends.trans {s t r : State} (h : Extends s t) (h' : Extends t r) : Extends s r where
  rows := by
    obtain ⟨rows, hrows⟩ := h.rows
    obtain ⟨rows', hrows'⟩ := h'.rows
    exact ⟨rows ++ rows', by rw [hrows', hrows, List.append_assoc]⟩
  used := List.Subset.trans h.used h'.used
  parents key hkey := h'.parents key (h.parents key hkey)

theorem Extends.get {s t : State} (h : Extends s t) {id : PlaceId} {place : Place}
    (hget : s.places.get id = some place) : t.places.get id = some place := by
  obtain ⟨rows, hrows⟩ := h.rows
  rw [← Table.mem_rows, hrows]
  exact List.mem_append_left _ (Table.mem_rows.mpr hget)

theorem Step.extends {coll : Collation} {s s' : State} {node : Node} {parent id : PlaceId}
    {reused : Bool} {place : Place} (h : Step coll s node parent s' id reused place) :
    Extends s s' where
  rows := h.kept
  used := by
    rw [h.used]
    exact List.subset_append_left _ _
  parents key hkey := by
    rw [h.parents, Table.get_set]
    split
    · rfl
    · exact hkey

/-- The usage that a step adds. -/
theorem Step.mem_used {coll : Collation} {s s' : State} {node : Node} {parent id : PlaceId}
    {reused : Bool} {place : Place} (h : Step coll s node parent s' id reused place) :
    ⟨node, id, reused⟩ ∈ s'.used := by
  rw [h.used]
  exact List.mem_append_right _ (List.mem_singleton.mpr rfl)

/-- A node was placed somewhere in a run from `s` to `t`. -/
def Visited (coll : Collation) (s t : State) (node : Node) : Prop :=
  ∃ before parent after id reused place, Extends s before ∧
    before.parents.get node.parentKey = some parent ∧
    placeNode coll before node parent = .ok after ∧
    Step coll before node parent after id reused place ∧ Extends after t

theorem Visited.mono {coll : Collation} {r s t u : State} {node : Node}
    (h : Visited coll s t node) (hr : Extends r s) (ht : Extends t u) : Visited coll r u node := by
  obtain ⟨before, parent, after, id, reused, place, hs, hget, hplace, hstep, hafter⟩ := h
  exact ⟨before, parent, after, id, reused, place, hr.trans hs, hget, hplace, hstep,
    hafter.trans ht⟩

theorem onePass_run {coll : Collation} {pending left : List Node} {s s' : State}
    (h : onePass coll pending s = .ok (s', left)) :
    Extends s s' ∧ ∀ node ∈ pending, node ∈ left ∨ Visited coll s s' node := by
  induction pending generalizing s left with
  | nil =>
    cases h
    exact ⟨Extends.refl _, fun node hnode => by cases hnode⟩
  | cons node rest ih =>
    rw [onePass] at h
    cases hget : s.parents.get node.parentKey with
    | none =>
      rw [hget] at h
      obtain ⟨⟨_, left'⟩, hpass, hpair⟩ := map_eq_ok h
      obtain ⟨rfl, rfl⟩ := Prod.mk.inj hpair
      obtain ⟨hext, hvisited⟩ := ih hpass
      exact ⟨hext, List.forall_mem_cons.mpr ⟨.inl List.mem_cons_self, fun v hv =>
        (hvisited v hv).imp_left (List.mem_cons_of_mem node)⟩⟩
    | some parent =>
      rw [hget] at h
      dsimp only at h
      split at h
      · cases h
      · next s₁ hplace =>
        obtain ⟨id, reused, place, hstep⟩ := placeNode_step hplace
        obtain ⟨hext, hvisited⟩ := ih h
        refine ⟨hstep.extends.trans hext, List.forall_mem_cons.mpr ⟨.inr ?_, fun v hv =>
          (hvisited v hv).imp_right (fun hv => hv.mono hstep.extends (Extends.refl s'))⟩⟩
        exact ⟨s, parent, s₁, id, reused, place, Extends.refl s, hget, hplace, hstep, hext⟩

/-- The first pass of a loop that succeeds. -/
theorem placeAll_eq_ok {coll : Collation} {pending : List Node} {s t : State}
    (h : placeAll coll pending s = .ok t) (hne : pending ≠ []) :
    ∃ s' left, onePass coll pending s = .ok (s', left) ∧ left.length < pending.length ∧
      placeAll coll left s' = .ok t := by
  rw [placeAll, if_neg hne] at h
  split at h
  · cases h
  · next s' left hpass =>
    split at h
    · next hshorter => exact ⟨s', left, hpass, hshorter, h⟩
    · cases h

theorem placeAll_run {coll : Collation} (n : Nat) :
    ∀ {pending : List Node} {s t : State}, pending.length = n → placeAll coll pending s = .ok t →
      Extends s t ∧ ∀ node ∈ pending, Visited coll s t node := by
  induction n using Nat.strong_induction_on with
  | h n ih =>
    intro pending s t hlength h
    by_cases hne : pending = []
    · subst hne
      rw [placeAll, if_pos rfl] at h
      cases h
      exact ⟨Extends.refl _, fun node hnode => by cases hnode⟩
    · obtain ⟨s', left, hpass, hshorter, hrest⟩ := placeAll_eq_ok h hne
      obtain ⟨hext, hvisited⟩ := onePass_run hpass
      obtain ⟨hext', hvisited'⟩ := ih left.length (hlength ▸ hshorter) rfl hrest
      refine ⟨hext.trans hext', fun node hnode => ?_⟩
      rcases hvisited node hnode with hleft | hnow
      · exact (hvisited' node hleft).mono hext (Extends.refl t)
      · exact hnow.mono (Extends.refl s) hext'

/-! ## A node with the key of the city -/

theorem onePass_append {coll : Collation} (ns : List Node) :
    ∀ {ms left : List Node} {s s' : State}, onePass coll (ns ++ ms) s = .ok (s', left) →
      ∃ s₁ left₁ left₂, onePass coll ns s = .ok (s₁, left₁) ∧
        onePass coll ms s₁ = .ok (s', left₂) ∧ left = left₁ ++ left₂ := by
  induction ns with
  | nil => exact fun {_ left s _} h => ⟨s, [], left, rfl, h, rfl⟩
  | cons node ns ih =>
    intro ms left s s' h
    rw [List.cons_append, onePass] at h
    rw [onePass]
    cases hget : s.parents.get node.parentKey with
    | none =>
      rw [hget] at h
      obtain ⟨⟨_, left'⟩, hpass, hpair⟩ := map_eq_ok h
      obtain ⟨rfl, rfl⟩ := Prod.mk.inj hpair
      obtain ⟨s₁, left₁, left₂, hfirst, hsecond, rfl⟩ := ih hpass
      refine ⟨s₁, node :: left₁, left₂, ?_, hsecond, rfl⟩
      dsimp only
      rw [hfirst]
      rfl
    | some parent =>
      rw [hget] at h
      dsimp only at h
      split at h
      · cases h
      · next hplace =>
        obtain ⟨s₁, left₁, left₂, hfirst, hsecond, rfl⟩ := ih h
        refine ⟨s₁, left₁, left₂, ?_, hsecond, rfl⟩
        dsimp only
        rw [hplace]
        exact hfirst

/-- A node whose parent is known at the start of a pass is placed in it. -/
theorem onePass_key {coll : Collation} {ns left : List Node} {s s' : State}
    (h : onePass coll ns s = .ok (s', left)) {node : Node} (hnode : node ∈ ns)
    (hready : (s.parents.get node.parentKey).isSome = true) :
    (s'.parents.get node.key).isSome = true := by
  obtain ⟨ns₁, ns₂, rfl⟩ := List.append_of_mem hnode
  obtain ⟨s₁, _, _, hfirst, hsecond, _⟩ := onePass_append ns₁ h
  obtain ⟨parent, hget⟩ := Option.isSome_iff_exists.mp ((onePass_run hfirst).1.parents _ hready)
  rw [onePass, hget] at hsecond
  dsimp only at hsecond
  split at hsecond
  · cases hsecond
  · next hplace =>
    obtain ⟨id, reused, place, hstep⟩ := placeNode_step hplace
    refine (onePass_run hsecond).1.parents _ ?_
    rw [hstep.parents, Table.get_set_self]
    rfl

/-- Nodes that hang from the city get what the entry of the city says. -/
theorem onePass_city {coll : Collation} {ns left : List Node} {s s' : State} {p : PlaceId}
    (h : onePass coll ns s = .ok (s', left)) (hkeys : ∀ node ∈ ns, node.key ≠ "city")
    (hcity : s.parents.get "city" = some p) {v : Node} (hv : v ∈ ns)
    (hvkey : v.parentKey = "city") :
    ∃ u ∈ s'.used, u.node = v ∧
      ∃ place, s'.places.get u.place = some place ∧ place.parentId = some p := by
  induction ns generalizing s left with
  | nil => cases hv
  | cons node rest ih =>
    obtain ⟨hkey, hrest⟩ := List.forall_mem_cons.mp hkeys
    rw [onePass] at h
    cases hget : s.parents.get node.parentKey with
    | none =>
      rw [hget] at h
      obtain ⟨⟨_, left'⟩, hpass, hpair⟩ := map_eq_ok h
      obtain ⟨rfl, rfl⟩ := Prod.mk.inj hpair
      rcases List.mem_cons.mp hv with rfl | hv
      · rw [hvkey, hcity] at hget
        cases hget
      · exact ih hpass hrest hcity hv
    | some parent =>
      rw [hget] at h
      dsimp only at h
      split at h
      · cases h
      · next s₁ hplace =>
        obtain ⟨id, reused, place, hstep⟩ := placeNode_step hplace
        rcases List.mem_cons.mp hv with rfl | hv
        · rw [hvkey, hcity] at hget
          cases hget
          have hext := (onePass_run h).1
          exact ⟨_, hext.used hstep.mem_used, rfl, place, hext.get hstep.row,
            hstep.parentId⟩
        · refine ih h hrest ?_ hv
          rw [hstep.parents, Table.get_set_ne _ (Ne.symm hkey), hcity]

/-- The entry of the city is gone before a node needs it: the node is misplaced, or an error is
raised. -/
theorem not_fulfilled_of_cityKey {coll : Collation} {nodes : List Node} (hacc : Accepted nodes)
    (hnot : ¬ CityKeyLate nodes) {places : Places} {cityId : PlaceId} {city : Place}
    (hcity : places.get cityId = some city) (hkind : city.kind = .city) {t : State}
    (h : placeAll coll nodes (startPlacing places cityId) = .ok t) :
    ¬ Fulfilled coll nodes cityId t.places t.used := by
  intro hfulfilled
  apply hnot
  intro before node after hnodes hkey hready v hv hvkey
  have hmem : node ∈ nodes := by rw [hnodes]; simp
  have hvmem : v ∈ nodes := by rw [hnodes]; simp [hv]
  obtain ⟨s', left, hpass, _, hrest⟩ := placeAll_eq_ok h (List.ne_nil_of_mem hmem)
  rw [hnodes] at hpass
  obtain ⟨s₁, _, _, hbefore, hpass, _⟩ := onePass_append before hpass
  have hstart : ((startPlacing places cityId).parents.get "city").isSome = true :=
    (@startPlacing_placing coll nodes cityId places city hcity hkind).cityKey
  -- the node with the key `city` is placed when its turn comes
  have hsome : (s₁.parents.get node.parentKey).isSome = true := by
    by_cases hcitykey : node.parentKey = "city"
    · rw [hcitykey]
      exact (onePass_run hbefore).1.parents _ hstart
    rcases hready with heq | hin
    · exact absurd heq hcitykey
    · obtain ⟨d, hd, hdkey⟩ := List.mem_map.mp hin
      have hlandmark : node.kind = .landmark := by
        by_contra hkind
        exact hcitykey (hacc.direct node hmem hkind)
      obtain ⟨p, hp, hpkey, hpkind⟩ := hacc.below node hmem hlandmark hcitykey
      have hdmem : d ∈ nodes := by rw [hnodes]; exact List.mem_append_left _ hd
      obtain rfl := hacc.unique hdmem hp (hdkey.trans hpkey.symm)
      rw [← hdkey]
      exact onePass_key hbefore hd (by rw [hacc.direct d hdmem hpkind]; exact hstart)
  obtain ⟨parent, hget⟩ := Option.isSome_iff_exists.mp hsome
  rw [onePass, hget] at hpass
  dsimp only at hpass
  split at hpass
  · cases hpass
  · next s₂ hplace =>
    obtain ⟨id, reused, place, hstep⟩ := placeNode_step hplace
    have hentry : s₂.parents.get "city" = some id := by
      rw [hstep.parents, hkey, Table.get_set_self]
    have hothers : ∀ n ∈ after, n.key ≠ "city" := by
      intro n hn heq
      have hdistinct := hacc.distinct
      rw [hnodes, List.map_append, List.map_cons] at hdistinct
      have hnodup := (List.nodup_append.mp hdistinct).2.1
      exact (List.nodup_cons.mp hnodup).1 (by rw [hkey, ← heq]; exact List.mem_map_of_mem hn)
    obtain ⟨u, hu, rfl, q, hq, hparent⟩ := onePass_city hpass hothers hentry hv hvkey
    have hext := (placeAll_run left.length rfl hrest).1
    obtain ⟨q', p, hq', _, hparent', hdenotes, _⟩ := hfulfilled.2 u (hext.used hu)
    rw [hext.get hq, Option.some.injEq] at hq'
    subst hq'
    rw [hparent, Option.some.injEq] at hparent'
    -- so the place of the node `city` would be the city
    have hid : id = cityId := by
      rcases hdenotes with ⟨_, hp⟩ | ⟨hne, _⟩
      · exact hparent'.trans hp
      · exact absurd hvkey hne
    have hrow := ((onePass_run hpass).1.trans hext).get hstep.row
    have hcityrow := (placeAll_run nodes.length rfl h).1.get hcity
    rw [hid, hcityrow, Option.some.injEq] at hrow
    have hnodekind := hstep.kind
    rw [← hrow, hkind] at hnodekind
    cases hk : node.kind <;> rw [hk] at hnodekind <;> cases hnodekind

/-! ## Names that are patterns -/

/-- A name that the query takes for this one, or fails on. -/
def misreadName (coll : Collation) (name : String) : String :=
  String.ofList (misread (coll.fold name))

theorem fold_misreadName (coll : Collation) (name : String) :
    coll.fold (misreadName coll name) = misread (coll.fold name) := by
  rw [Collation.fold, misreadName, String.toList_ofList]
  refine (List.map_congr_left (fun c hc => ?_)).trans (List.map_id _)
  rcases mem_misread hc with hc | rfl
  · obtain ⟨d, _, rfl⟩ := List.mem_map.mp hc
    exact coll.idem d
  · exact coll.lower_x

/-- When the first place of its kind and parent has such a name, a node takes that place. -/
theorem placeNode_first {coll : Collation} {s s₁ s₂ : State} {node : Node} {parent id : PlaceId}
    {before after : List (PlaceId × Place)}
    (hrows : s.places.rows
      = before ++ (id, ⟨node.kind.toKind, misreadName coll node.name, some parent⟩) :: after)
    (hbefore : ∀ row ∈ before, row.2.kind ≠ node.kind.toKind ∨ row.2.parentId ≠ some parent)
    (hext : Extends s s₁) (h : placeNode coll s₁ node parent = .ok s₂) :
    ⟨node, id, true⟩ ∈ s₂.used := by
  obtain ⟨more, hmore⟩ := hext.rows
  have hfilter : s₁.places.rows.filter
      (fun row => row.2.kind = node.kind.toKind && row.2.parentId = some parent)
      = (id, ⟨node.kind.toKind, misreadName coll node.name, some parent⟩)
        :: (after ++ more).filter
          (fun row => row.2.kind = node.kind.toKind && row.2.parentId = some parent) := by
    have hnil : before.filter
        (fun row => row.2.kind = node.kind.toKind && row.2.parentId = some parent) = [] := by
      refine List.filter_eq_nil_iff.mpr (fun row hrow hmatch => ?_)
      rw [Bool.and_eq_true, decide_eq_true_eq, decide_eq_true_eq] at hmatch
      exact (hbefore row hrow).elim (fun hne => hne hmatch.1) (fun hne => hne hmatch.2)
    rw [hmore, hrows, List.append_assoc, List.filter_append, hnil, List.nil_append,
      List.cons_append, List.filter_cons_of_pos (by simp)]
  unfold placeNode at h
  split at h
  · cases h
  · next found hfound =>
    cases h
    rw [existingPlace, hfilter] at hfound
    have hlike := like_misread (coll.fold node.name)
    rw [← fold_misreadName] at hlike
    obtain rfl : found = id := Option.some.inj (firstMatch_head hfound hlike)
    exact List.mem_append_right _ (List.mem_singleton.mpr rfl)
  · next hnone =>
    rw [existingPlace, hfilter] at hnone
    have hlike := like_misread (coll.fold node.name)
    rw [← fold_misreadName] at hlike
    exact absurd (firstMatch_head hnone hlike).symm (Option.some_ne_none id)

/-- A reused place of that name means that the name is no pattern. -/
theorem plain_of_fits {coll : Collation} {cityId : PlaceId} {places : Places} {used : List Usage}
    {node : Node} {id : PlaceId} {kind : Kind} {parentId : Option PlaceId}
    (hrow : places.get id = some ⟨kind, misreadName coll node.name, parentId⟩)
    (h : Fits coll cityId places used ⟨node, id, true⟩) : isPlain (coll.fold node.name) = true := by
  obtain ⟨place, _, hget, _, _, _, hnamed⟩ := h
  rw [hrow, Option.some.injEq] at hget
  have hname := hnamed rfl
  rw [← hget, fold_misreadName] at hname
  exact isPlain_of_misread_eq hname

/-- A node that hangs from the city was placed below it. -/
theorem Visited.city {coll : Collation} {s t : State} {node : Node} {nodes : List Node}
    {cityId : PlaceId} (h : Visited coll s t node) (hkey : node.parentKey = "city")
    (hfulfilled : Fulfilled coll nodes cityId t.places t.used) :
    ∃ before after, Extends s before ∧ placeNode coll before node cityId = .ok after ∧
      Extends after t := by
  obtain ⟨before, parent, after, id, reused, place, hs, _, hplace, hstep, ht⟩ := h
  obtain ⟨place', p, hget, _, hparent, hdenotes, _⟩ :=
    hfulfilled.2 _ (ht.used hstep.mem_used)
  rw [ht.get hstep.row, Option.some.injEq] at hget
  rw [← hget, hstep.parentId, Option.some.injEq] at hparent
  have hcity : parent = cityId := by
    rcases hdenotes with ⟨_, hp⟩ | ⟨hne, _⟩
    · exact hparent.trans hp
    · exact absurd hkey hne
  exact ⟨before, after, hs, hcity ▸ hplace, ht⟩

/-! ### Places that show it -/

def someCity : Place := ⟨.city, "", none⟩

/-- A city with a place that a node hanging from it takes. -/
def decoy (coll : Collation) (cityId : PlaceId) (node : Node) : Places :=
  (Table.empty.set cityId someCity).set (cityId + 1)
    ⟨node.kind.toKind, misreadName coll node.name, some cityId⟩

/-- The same, and below that place one that a landmark takes. -/
def decoyBelow (coll : Collation) (cityId : PlaceId) (parent node : Node) : Places :=
  (decoy coll cityId parent).set (cityId + 2)
    ⟨node.kind.toKind, misreadName coll node.name, some (cityId + 1)⟩

theorem ids_ne (n : Nat) : n + 2 ≠ n + 1 ∧ n + 2 ≠ n := by omega

theorem decoy_city (coll : Collation) (cityId : PlaceId) (node : Node) :
    (decoy coll cityId node).get cityId = some someCity := by
  rw [decoy, Table.get_set_ne _ (Nat.succ_ne_self cityId).symm, Table.get_set_self]

theorem rows_city (cityId : PlaceId) :
    (Table.empty.set cityId someCity : Places).rows = [(cityId, someCity)] := by
  rw [Table.rows_set_of_none (Table.get_empty cityId)]
  rfl

theorem decoy_rows (coll : Collation) (cityId : PlaceId) (node : Node) :
    (decoy coll cityId node).rows = [(cityId, someCity)] ++
      [(cityId + 1, ⟨node.kind.toKind, misreadName coll node.name, some cityId⟩)] := by
  have hnew : (Table.empty.set cityId someCity : Places).get (cityId + 1) = none := by
    rw [Table.get_set_ne _ (Nat.succ_ne_self cityId), Table.get_empty]
  rw [decoy, Table.rows_set_of_none hnew, rows_city]

theorem decoyBelow_rows (coll : Collation) (cityId : PlaceId) (parent node : Node) :
    (decoyBelow coll cityId parent node).rows = (decoy coll cityId parent).rows ++
      [(cityId + 2, ⟨node.kind.toKind, misreadName coll node.name, some (cityId + 1)⟩)] := by
  have hnew : (decoy coll cityId parent).get (cityId + 2) = none := by
    rw [decoy, Table.get_set_ne _ (ids_ne cityId).1,
      Table.get_set_ne _ (ids_ne cityId).2, Table.get_empty]
  rw [decoyBelow, Table.rows_set_of_none hnew]

/-- If all goes well for all places, the name of every node is plain. -/
theorem plain_of_always {coll : Collation} {nodes : List Node} {cityId : PlaceId}
    (hacc : Accepted nodes)
    (h : ∀ places city, places.get cityId = some city → city.kind = .city →
      ∃ t, placeAll coll nodes (startPlacing places cityId) = .ok t ∧
        Fulfilled coll nodes cityId t.places t.used) :
    ∀ node ∈ nodes, isPlain (coll.fold node.name) = true := by
  have hcityRow : ∀ kind : NodeKind, ∀ row ∈ [(cityId, someCity)],
      row.2.kind ≠ kind.toKind ∨ row.2.parentId ≠ some cityId := by
    intro kind row hrow
    rw [List.mem_singleton.mp hrow]
    exact .inr nofun
  -- a node that hangs from the city takes the decoy
  have htaken : ∀ places t, placeAll coll nodes (startPlacing places cityId) = .ok t →
      Fulfilled coll nodes cityId t.places t.used → ∀ node ∈ nodes, node.parentKey = "city" →
      (∃ after, places.rows = (decoy coll cityId node).rows ++ after) →
      ⟨node, cityId + 1, true⟩ ∈ t.used := by
    intro places t hall hfulfilled node hnode hkey ⟨after, hrows⟩
    obtain ⟨before, after', hs, hplace, ht⟩ :=
      ((placeAll_run nodes.length rfl hall).2 node hnode).city hkey hfulfilled
    rw [decoy_rows, List.append_assoc, List.singleton_append] at hrows
    exact ht.used (placeNode_first hrows (hcityRow node.kind) hs hplace)
  intro node hnode
  by_cases hkey : node.parentKey = "city"
  · obtain ⟨t, hall, hfulfilled⟩ := h (decoy coll cityId node) someCity (decoy_city _ _ _) rfl
    have hused := htaken _ t hall hfulfilled node hnode hkey ⟨[], (List.append_nil _).symm⟩
    have hrow : (decoy coll cityId node).get (cityId + 1)
        = some ⟨node.kind.toKind, misreadName coll node.name, some cityId⟩ :=
      Table.get_set_self _ _ _
    exact plain_of_fits ((placeAll_run nodes.length rfl hall).1.get hrow)
      (hfulfilled.2 _ hused)
  · have hlandmark : node.kind = .landmark := by
      by_contra hkind
      exact hkey (hacc.direct node hnode hkind)
    obtain ⟨d, hd, hdkey, hdkind⟩ := hacc.below node hnode hlandmark hkey
    let places := decoyBelow coll cityId d node
    have hcity : places.get cityId = some someCity := by
      rw [show places = decoyBelow coll cityId d node from rfl, decoyBelow,
        Table.get_set_ne _ (ids_ne cityId).2.symm, decoy_city]
    obtain ⟨t, hall, hfulfilled⟩ := h places someCity hcity rfl
    obtain ⟨hext, hvisited⟩ := placeAll_run nodes.length rfl hall
    have hdused := htaken _ t hall hfulfilled d hd (hacc.direct d hd hdkind)
      ⟨_, decoyBelow_rows coll cityId d node⟩
    obtain ⟨before, parent, after, id, reused, place, hs, _, hplace, hstep, ht⟩ :=
      hvisited node hnode
    -- the landmark hangs from the place that its parent has taken
    obtain ⟨place', p, hget, _, hparent, hdenotes, _⟩ := hfulfilled.2 _ (ht.used hstep.mem_used)
    rw [ht.get hstep.row, Option.some.injEq] at hget
    rw [← hget, hstep.parentId, Option.some.injEq] at hparent
    have hbelow : parent = cityId + 1 := by
      rcases hdenotes with ⟨heq, _⟩ | ⟨_, u, hu, hukey, hplaceu⟩
      · exact absurd heq hkey
      have hnode' := hacc.unique (hfulfilled.1.subset (List.mem_map_of_mem hu)) hd
        (hukey.trans hdkey.symm)
      have hnodup : (t.used.map Usage.node).Nodup :=
        hfulfilled.1.nodup_iff.mpr hacc.distinct.of_map
      have hsame := List.inj_on_of_nodup_map hnodup hu hdused hnode'
      rw [hparent, ← hplaceu, hsame]
    subst hbelow
    have hused : ⟨node, cityId + 2, true⟩ ∈ t.used := by
      refine ht.used (placeNode_first (decoyBelow_rows coll cityId d node) (fun row hrow => ?_)
        hs hplace)
      rw [decoy_rows, List.mem_append, List.mem_singleton, List.mem_singleton] at hrow
      rcases hrow with rfl | rfl
      · exact .inr nofun
      refine .inl ?_
      rw [hlandmark]
      cases hk : d.kind with
      | landmark => exact absurd hk hdkind
      | district | metro => exact nofun
    have hrow : places.get (cityId + 2)
        = some ⟨node.kind.toKind, misreadName coll node.name, some (cityId + 1)⟩ :=
      Table.get_set_self _ _ _
    exact plain_of_fits (hext.get hrow) (hfulfilled.2 _ hused)

/-! ## The request -/

/-- A run whose proposal has been approved and not yet applied. -/
structure GeoRun.Approved (run : GeoRun) (tenantId : TenantId) : Prop where
  tenant : run.tenantId = tenantId
  action : run.action = .cityHierarchy
  status : run.status = .approved
  decision : run.operatorDecision = some .approve
  fresh : run.applied = none

/-- For an approved proposal that is accepted, the request runs the loop. -/
theorem applyGeoProposal_approved {coll : Collation} {casefold : String → String}
    {tenantId : TenantId} {run : GeoRun} {body : Option (List Node)} {nodes : List Node}
    (happroved : run.Approved tenantId)
    (hvalid : validateGeoProposal casefold (chosenNodes run body) 50 = .ok nodes)
    {places : Places} {city : Place} (hcity : places.get run.cityId = some city)
    (hkind : city.kind = .city) :
    (∀ failure, placeAll coll nodes (startPlacing places run.cityId) = .error failure →
        applyGeoProposal coll casefold tenantId (some run) body places = .error failure) ∧
      ∀ t, placeAll coll nodes (startPlacing places run.cityId) = .ok t →
        ∃ applied, applyGeoProposal coll casefold tenantId (some run) body places = .ok applied ∧
          applied.places = t.places ∧ applied.used = t.used := by
  have hstart : ∀ result, placeAll coll nodes (startPlacing places run.cityId) = result →
      applyGeoProposal coll casefold tenantId (some run) body places
        = result.map (fun s =>
            ⟨{ run with applied := some ((s.used.filter (fun u => !u.reused)).map Usage.place,
              (s.used.filter Usage.reused).map Usage.place) }, s.places, s.used⟩) := by
    intro result hresult
    have hfilter : (some run).filter (fun r => decide (r.tenantId = tenantId)) = some run := by
      rw [Option.filter_some, if_pos (decide_eq_true happroved.tenant)]
    rw [applyGeoProposal, hfilter]
    dsimp only
    rw [if_neg (not_not.mpr happroved.action),
      if_neg (not_or.mpr ⟨not_not.mpr happroved.status, not_not.mpr happroved.decision⟩),
      if_neg (by simp [happroved.fresh]), hvalid]
    dsimp only
    rw [hcity]
    dsimp only
    refine (if_neg (not_not.mpr hkind)).trans ?_
    cases result <;> simp only [hresult, Except.map]
  constructor
  · intro failure hfailure
    exact hstart _ hfailure
  · intro t ht
    exact ⟨_, hstart _ ht, rfl, rfl⟩

/-- **When a proposal is placed.** An approved proposal that is accepted is placed as it should be,
whatever places there are, if and only if no node that hangs from the city comes after a placed
node with the key `city`, and no name means something else when it is read as a pattern. -/
theorem proposal_placed_iff (coll : Collation) (casefold : String → String) {tenantId : TenantId}
    {run : GeoRun} {body : Option (List Node)} {nodes : List Node}
    (happroved : run.Approved tenantId)
    (hvalid : validateGeoProposal casefold (chosenNodes run body) 50 = .ok nodes) :
    (∀ places city, places.get run.cityId = some city → city.kind = .city →
        ∃ applied, applyGeoProposal coll casefold tenantId (some run) body places = .ok applied ∧
          Fulfilled coll nodes run.cityId applied.places applied.used) ↔
      CityKeyLate nodes ∧ ∀ node ∈ nodes, isPlain (coll.fold node.name) = true := by
  obtain ⟨rfl, hacc⟩ := accepted_of_validate hvalid
  constructor
  · intro h
    have hloop : ∀ places city, places.get run.cityId = some city → city.kind = .city →
        ∃ t, placeAll coll (chosenNodes run body) (startPlacing places run.cityId) = .ok t ∧
          Fulfilled coll (chosenNodes run body) run.cityId t.places t.used := by
      intro places city hcity hkind
      obtain ⟨applied, hresult, hfulfilled⟩ := h places city hcity hkind
      obtain ⟨herror, hok⟩ := @applyGeoProposal_approved coll _ _ _ _ _ happroved hvalid _ _
        hcity hkind
      cases hall : placeAll coll (chosenNodes run body) (startPlacing places run.cityId) with
      | error failure =>
        rw [herror failure hall] at hresult
        cases hresult
      | ok t =>
        obtain ⟨applied', hresult', hplaces, hused⟩ := hok t hall
        rw [hresult, Except.ok.injEq] at hresult'
        subst hresult'
        rw [hplaces, hused] at hfulfilled
        exact ⟨t, rfl, hfulfilled⟩
    refine ⟨?_, plain_of_always hacc hloop⟩
    by_contra hlate
    have hcity : (Table.empty.set run.cityId someCity : Places).get run.cityId = some someCity :=
      Table.get_set_self _ _ _
    obtain ⟨t, hall, hfulfilled⟩ := hloop _ someCity hcity rfl
    exact not_fulfilled_of_cityKey hacc hlate hcity rfl hall hfulfilled
  · rintro ⟨hlate, hplain⟩ places city hcity hkind
    obtain ⟨t, hall, hfulfilled⟩ := placeAll_fulfilled hacc hlate hplain hcity hkind
    obtain ⟨applied, hresult, hplaces, hused⟩ :=
      (applyGeoProposal_approved happroved hvalid hcity hkind).2 t hall
    exact ⟨applied, hresult, by rw [hplaces, hused]; exact hfulfilled⟩

def asciiCollation : Collation where
  lower := Char.toLower
  idem c := by
    unfold Char.toLower
    split
    · next h =>
      have hge : 65 ≤ c.val.toNat := UInt32.le_iff_toNat_le.mp h.1
      have hle : c.val.toNat ≤ 90 := UInt32.le_iff_toNat_le.mp h.2
      rw [dif_neg]
      rintro ⟨-, hle'⟩
      have hsum : (c.val + 32).toNat ≤ 90 := UInt32.le_iff_toNat_le.mp hle'
      rw [UInt32.toNat_add] at hsum
      have h32 : (32 : UInt32).toNat = 32 := rfl
      omega
    · next h => rfl
  lower_x := rfl

/-- An approved run with these nodes, for the city 1. -/
def approvedRun (nodes : List Node) : GeoRun where
  tenantId := 1
  action := .cityHierarchy
  status := .approved
  operatorDecision := some .approve
  cityId := 1
  nodes := nodes
  applied := none

def lakeNodes : List Node :=
  [⟨"lake", .landmark, "Lake", "north", []⟩, ⟨"north", .district, "North", "city", []⟩]

theorem proposal_placed_lake :
    (∀ places city, places.get (approvedRun lakeNodes).cityId = some city → city.kind = .city →
        ∃ applied,
          applyGeoProposal asciiCollation id 1 (some (approvedRun lakeNodes)) none places
              = .ok applied ∧
            Fulfilled asciiCollation lakeNodes (approvedRun lakeNodes).cityId applied.places
              applied.used) ↔
      CityKeyLate lakeNodes ∧ ∀ node ∈ lakeNodes, isPlain (asciiCollation.fold node.name) = true :=
  proposal_placed_iff asciiCollation id ⟨rfl, rfl, rfl, rfl, rfl⟩ (by rfl)

/-- The first node has the key of the city. -/
def cityNodes : List Node :=
  [⟨"city", .district, "North", "city", []⟩, ⟨"line-1", .metro, "Centre", "city", []⟩]

theorem proposal_not_placed :
    (validateGeoProposal id cityNodes 50).isOk = true ∧
      applyGeoProposal asciiCollation id 1 (some (approvedRun cityNodes)) none
          (Table.empty.set 1 someCity)
        = .error (.valueError "metro requires a parent of type: city") := by
  refine ⟨rfl, ?_⟩
  have hpass : onePass asciiCollation cityNodes (startPlacing
      (Table.empty.set (approvedRun cityNodes).cityId someCity) (approvedRun cityNodes).cityId)
      = .error (.valueError "metro requires a parent of type: city") := by rfl
  refine (@applyGeoProposal_approved asciiCollation id 1 (approvedRun cityNodes) none cityNodes
    ⟨rfl, rfl, rfl, rfl, rfl⟩ rfl _ someCity (Table.get_set_self _ _ _) rfl).1 _ ?_
  rw [placeAll, if_neg (show cityNodes ≠ [] from List.cons_ne_nil _ _), hpass]

end MegaPanel.Geo
