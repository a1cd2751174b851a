import Polaris.DependencyTree
import Polaris.Lib.Checks
import Polaris.Lib.Runs

namespace Polaris.DependencyCycles

open Polaris.Cidr Polaris.DependencyTree Polaris.Lib.Checks Polaris.Lib.Reach Polaris.Lib.Runs

section Rows

def Has (rows : List Row) (source : Source) (child parent : String) : Prop :=
  ∃ r ∈ rows, r.assetId = child ∧ r.parentAssetId = parent ∧ r.source = source

variable {rows data : List Row} {source : Source} {child parent id : String}

theorem mem_parentsFrom : parent ∈ parentsFrom rows source child ↔ Has rows source child parent := by
  simp only [parentsFrom, List.mem_map, List.mem_filter, Bool.and_eq_true, decide_eq_true_eq, Has]
  exact ⟨fun ⟨r, ⟨hr, hs, hc⟩, hp⟩ => ⟨r, hr, hc, hp, hs⟩, fun ⟨r, hr, hc, hp, hs⟩ => ⟨r, ⟨hr, hs, hc⟩, hp⟩⟩

theorem parentsFrom_nil : parentsFrom rows source child = [] ↔ ∀ p, ¬ Has rows source child p := by
  simp only [List.eq_nil_iff_forall_not_mem, mem_parentsFrom]

theorem mem_effectiveParentsOf : parent ∈ effectiveParentsOf rows child ↔
    Has rows .override child parent ∨ (∀ p, ¬ Has rows .override child p) ∧
      Has rows .computed child parent := by
  rw [effectiveParentsOf]
  split
  next h =>
    rw [parentsFrom_nil] at h
    rw [mem_parentsFrom]
    exact ⟨fun hp => .inr ⟨h, hp⟩, fun hp => (hp.resolve_left (h parent)).2⟩
  next h =>
    rw [mem_parentsFrom]
    exact ⟨.inl, fun hp => hp.resolve_right fun ⟨hnone, _⟩ => h (parentsFrom_nil.mpr hnone)⟩

theorem has_append : Has (rows ++ data) source child parent ↔ Has rows source child parent ∨
    Has data source child parent := by
  simp only [Has, List.mem_append, or_and_right, exists_or]

theorem has_insertRows : Has (insertRows rows data) source child parent ↔
    Has rows source child parent ∨ Has data source child parent := by
  induction data generalizing rows with
  | nil => simp [insertRows, Has]
  | cons r data ih =>
    have hcons : Has (r :: data) source child parent ↔ Has [r] source child parent ∨
      Has data source child parent :=
      @has_append [r] data source child parent
    change Has (insertRows (if rows.any (sameRow r) then rows else rows ++ [r]) data) source child parent ↔ _
    rw [ih, hcons, ← or_assoc]
    refine or_congr_left ?_
    split
    next h =>
      refine ⟨.inl, fun hp => hp.elim id fun hr => ?_⟩
      obtain ⟨r', hr', hc, hparent, hs⟩ := hr
      obtain rfl := List.mem_singleton.mp hr'
      obtain ⟨old, hold, hsame⟩ := List.any_eq_true.mp h
      simp only [sameRow, Bool.and_eq_true, decide_eq_true_eq] at hsame
      exact ⟨old, hold, hsame.1.1.symm.trans hc, hsame.1.2.symm.trans hparent, hsame.2.symm.trans hs⟩
    next => exact has_append

theorem has_withoutOverride : Has (withoutOverride rows id) source child parent ↔
    Has rows source child parent ∧ ¬ (child = id ∧ source = .override) := by
  simp only [Has, withoutOverride, List.mem_filter, decide_eq_true_eq]
  constructor
  · rintro ⟨r, ⟨hr, hne⟩, rfl, rfl, rfl⟩
    exact ⟨⟨r, hr, rfl, rfl, rfl⟩, hne⟩
  · rintro ⟨⟨r, hr, rfl, rfl, rfl⟩, hne⟩
    exact ⟨r, ⟨hr, hne⟩, rfl, rfl, rfl⟩

theorem has_nodes (h : effectiveParentsOf rows child ≠ []) : child ∈ rows.map Row.assetId := by
  obtain ⟨p, hp⟩ := List.exists_mem_of_ne_nil _ h
  obtain ⟨r, hr, hc, -⟩ | ⟨-, r, hr, hc, -⟩ := mem_effectiveParentsOf.mp hp
  · exact List.mem_map.mpr ⟨r, hr, hc⟩
  · exact List.mem_map.mpr ⟨r, hr, hc⟩

end Rows

section Kept

variable {layers : Layers} {e : DependencyEdge} {kept edges : List DependencyEdge}

/-- A parent lies one layer above its child. -/
def Climbs (layers : Layers) (e : DependencyEdge) : Prop :=
  ∃ parentLayer, layers e.parentAssetId = some parentLayer ∧ layers e.childAssetId = some (parentLayer + 1)

theorem climbs_keepEdge (h : ∀ k ∈ kept, Climbs layers k) (e : DependencyEdge) :
    ∀ k ∈ keepEdge layers kept e, Climbs layers k := by
  unfold keepEdge
  split
  next childLayer parentLayer hchild hparent =>
    split
    next => exact h
    next hstep =>
      have he : Climbs layers e := ⟨parentLayer, hparent, by rw [hchild, not_not.mp hstep]⟩
      split
      next =>
        intro k hk
        obtain ⟨k', hk', rfl⟩ := List.mem_map.mp hk
        split
        next => exact he
        next => exact h k' hk'
      next =>
        intro k hk
        obtain hk | hk := List.mem_append.mp hk
        · exact h k hk
        · exact List.mem_singleton.mp hk ▸ he
  next => exact h

theorem climbs_foldl (h : ∀ k ∈ kept, Climbs layers k) :
    ∀ k ∈ edges.foldl (keepEdge layers) kept, Climbs layers k := by
  induction edges generalizing kept with
  | nil => exact h
  | cons e edges ih => exact ih (climbs_keepEdge h e)

variable {toLowerCase : String → String} {signals : Signals} {integrationId : Option String}

theorem climbs_scopedKept (h : e ∈ signals.scopedKept toLowerCase integrationId) :
    Climbs (signals.assignment toLowerCase).layers e :=
  climbs_foldl (fun _ hk => absurd hk List.not_mem_nil) e (List.mem_filter.mp h).1

end Kept

section Clear

variable (toLowerCase : String → String) (s : State)

/-- The check of the override route, made on parents of a child. -/
def Unreached (next : String → List String) (nodes : List String) (child : String)
    (parents : List String) : Prop :=
  cycleCheck next nodes child parents ≠ .error cycleFailure

/-- The parents that a recompute leaves in force, with those it brings. -/
def nextParents (signals : Signals) (integrationId : Option String) (child : String) : List String :=
  if child ∈ signals.inScope integrationId ∧ parentsFrom s.rows .override child = [] then
    ((signals.scopedKept toLowerCase integrationId).filter (·.childAssetId = child)).map
      DependencyEdge.parentAssetId
  else effectiveParentsOf s.rows child

def nextNodes (signals : Signals) (integrationId : Option String) : List String :=
  s.rows.map Row.assetId ++ (signals.scopedKept toLowerCase integrationId).map DependencyEdge.childAssetId

/-- Where parents come into force without the route's check, the check
would pass. -/
def Clear : Op → Prop
  | .putOverride assets id parentAssetIds =>
    parentAssetIds = [] → assets.any (·.id = id) →
      Unreached (effectiveParentsOf s.rows) (s.rows.map Row.assetId) id (parentsFrom s.rows .computed id)
  | .deleteOverride assets id =>
    assets.any (·.id = id) →
      Unreached (effectiveParentsOf s.rows) (s.rows.map Row.assetId) id (parentsFrom s.rows .computed id)
  | .recompute signals integrationId =>
    ∀ r ∈ s.rows, r.parentAssetId ∈ effectiveParentsOf s.rows r.assetId →
      (r.assetId ∈ signals.inScope integrationId → parentsFrom s.rows .override r.assetId ≠ []) →
        Unreached (nextParents toLowerCase s signals integrationId)
          (nextNodes toLowerCase s signals integrationId)
          r.assetId [r.parentAssetId]

end Clear

section Steps

open Relation

/-- A child depends on its effective parents. -/
def Depends (s : State) : String → String → Prop := Follows (effectiveParentsOf s.rows)

variable {toLowerCase : String → String} {s s' : State} {assets : List Asset} {id : String}
  {parentAssetIds proposed : List String} {signals : Signals} {integrationId : Option String}

theorem unreached_iff {next : String → List String} {nodes parents : List String} {child : String}
    (hnodes : ∀ a, next a ≠ [] → a ∈ nodes) :
    Unreached next nodes child parents ↔ ∀ p ∈ parents, ¬ ReflTransGen (Follows next) p child := by
  rw [Unreached, cycleCheck, ne_eq, search_error_iff hnodes]
  simp only [not_exists, not_and]

theorem putOverride_ok (h : putOverride assets id parentAssetIds s = .ok (s', proposed)) :
    assets.any (·.id = id) = true ∧ proposed = parentAssetIds.eraseDups ∧
      s'.rows = insertRows (withoutOverride s.rows id)
        (proposed.map fun parentId => ⟨id, parentId, .override, .manual⟩) ∧
      (proposed ≠ [] → checkParents assets id s proposed = .ok ()) := by
  unfold putOverride at h
  dsimp only at h
  split at h
  next => cases h
  next =>
    split at h
    next => cases h
    next hasset =>
      split at h
      next => cases h
      next =>
        obtain ⟨⟨⟩, hcheck, hs⟩ := map_ok h
        cases hs
        refine ⟨by simpa using hasset, rfl, rfl, fun hne => ?_⟩
        rwa [if_neg hne] at hcheck

theorem putOverride_nil (h : assets.any (·.id = id) = true) :
    putOverride assets id [] s = .ok ({ s with rows := insertRows (withoutOverride s.rows id) [] }, []) := by
  rw [putOverride, h]
  rfl

theorem checkParents_ok (h : checkParents assets id s proposed = .ok ()) :
    Unreached (effectiveParentsOf s.rows) (s.rows.map Row.assetId) id proposed := by
  unfold checkParents at h
  dsimp only at h
  split at h
  next => cases h
  next =>
    split at h
    next => cases h
    next =>
      intro he
      rw [he] at h
      cases h

/-- The override rows of one child replaced: the others keep their parents. -/
theorem depends_replace (hrows : s'.rows = insertRows (withoutOverride s.rows id)
      (proposed.map fun parentId => ⟨id, parentId, .override, .manual⟩)) (a b : String) (ha : a ≠ id) :
    Depends s' a b ↔ Depends s a b := by
  have hhas : ∀ source b, Has s'.rows source a b ↔ Has s.rows source a b := by
    intro source b
    rw [hrows, has_insertRows, has_withoutOverride]
    refine ⟨fun h => ?_, fun h => .inl ⟨h, fun hc => ha hc.1⟩⟩
    obtain h | ⟨r, hr, hc, -⟩ := h
    · exact h.1
    · obtain ⟨q, -, rfl⟩ := List.mem_map.mp hr
      exact absurd hc.symm ha
  simp only [Depends, Follows, mem_effectiveParentsOf, hhas]

theorem depends_replaced (hrows : s'.rows = insertRows (withoutOverride s.rows id)
      (proposed.map fun parentId => ⟨id, parentId, .override, .manual⟩)) (b : String) :
    Depends s' id b ↔ if proposed = [] then b ∈ parentsFrom s.rows .computed id else b ∈ proposed := by
  have hoverride : ∀ b, Has s'.rows .override id b ↔ b ∈ proposed := by
    intro b
    rw [hrows, has_insertRows, has_withoutOverride]
    refine ⟨fun h => ?_, fun h => .inr ⟨_, List.mem_map_of_mem h, rfl, rfl, rfl⟩⟩
    obtain h | ⟨r, hr, -, hp, -⟩ := h
    · exact absurd ⟨rfl, rfl⟩ h.2
    · obtain ⟨q, hq, rfl⟩ := List.mem_map.mp hr
      exact hp ▸ hq
  have hcomputed : Has s'.rows .computed id b ↔ Has s.rows .computed id b := by
    rw [hrows, has_insertRows, has_withoutOverride]
    refine ⟨fun h => ?_, fun h => .inl ⟨h, nofun⟩⟩
    obtain h | ⟨r, hr, -, -, hs⟩ := h
    · exact h.1
    · obtain ⟨q, -, rfl⟩ := List.mem_map.mp hr
      cases hs
  rw [Depends, Follows, mem_effectiveParentsOf, mem_parentsFrom, hcomputed]
  simp only [hoverride]
  split
  next h =>
    subst h
    simp
  next h =>
    obtain ⟨q, hq⟩ := List.exists_mem_of_ne_nil _ h
    exact ⟨fun hp => hp.elim (fun hp => hp) fun hp => absurd hq (hp.1 q), .inl⟩

/-- The route keeps the graph acyclic just when the climb from the parents it
puts in force would pass its check. -/
theorem acyclic_replaced (h : Acyclic (Depends s)) (hrows : s'.rows = insertRows (withoutOverride s.rows id)
      (proposed.map fun parentId => ⟨id, parentId, .override, .manual⟩)) :
    Acyclic (Depends s') ↔ Unreached (effectiveParentsOf s.rows) (s.rows.map Row.assetId) id
      (if proposed = [] then parentsFrom s.rows .computed id else proposed) := by
  rw [unreached_iff fun _ => has_nodes, acyclic_replace h (depends_replace hrows) (depends_replaced hrows)]
  simp only [Depends]
  split <;> rfl

theorem acyclic_withoutOverride (h : Acyclic (Depends s)) (hrows : s'.rows = withoutOverride s.rows id) :
    Acyclic (Depends s') ↔
      Unreached (effectiveParentsOf s.rows) (s.rows.map Row.assetId) id (parentsFrom s.rows .computed id) :=
  @acyclic_replaced s s' id [] h hrows

theorem acyclic_putOverride (h : Acyclic (Depends s)) :
    Acyclic (Depends (step toLowerCase s (.putOverride assets id parentAssetIds))) ↔
      Clear toLowerCase s (.putOverride assets id parentAssetIds) := by
  cases hput : putOverride assets id parentAssetIds s with
  | error e =>
    simp only [step, hput, Clear]
    refine ⟨fun _ hnil hasset => ?_, fun _ => h⟩
    subst hnil
    rw [putOverride_nil hasset] at hput
    cases hput
  | ok r =>
    obtain ⟨s', proposed⟩ := r
    obtain ⟨hasset, hproposed, hrows, hcheck⟩ := putOverride_ok hput
    simp only [step, hput, Clear]
    rw [acyclic_replaced h hrows]
    by_cases hnil : parentAssetIds = []
    · have hnone : proposed = [] := by rw [hproposed, hnil, List.eraseDups_nil]
      rw [if_pos hnone]
      exact ⟨fun hu _ _ => hu, fun hu => hu hnil hasset⟩
    · have hsome : proposed ≠ [] := by
        obtain ⟨p, hp⟩ := List.exists_mem_of_ne_nil _ hnil
        rw [hproposed]
        exact List.ne_nil_of_mem (List.mem_eraseDups.mpr hp)
      rw [if_neg hsome]
      exact ⟨fun _ hn => absurd hn hnil, fun _ => checkParents_ok (hcheck hsome)⟩

theorem acyclic_deleteOverride (h : Acyclic (Depends s)) :
    Acyclic (Depends (step toLowerCase s (.deleteOverride assets id))) ↔
      Clear toLowerCase s (.deleteOverride assets id) := by
  simp only [step, Clear]
  by_cases hasset : assets.any (·.id = id) = true
  · rw [deleteOverride, hasset]
    exact (acyclic_withoutOverride h rfl).trans ⟨fun hu _ => hu, fun hu => hu rfl⟩
  · rw [Bool.not_eq_true] at hasset
    rw [deleteOverride, hasset]
    exact ⟨fun _ hne => absurd hne Bool.false_ne_true, fun _ => h⟩

theorem has_recompute {source : Source} {child parent : String} :
    Has (recomputeDependencyTree toLowerCase signals integrationId s).1.rows source child parent ↔
      (Has s.rows source child parent ∧ ¬ (source = .computed ∧ child ∈ signals.inScope integrationId)) ∨
      (source = .computed ∧ ∃ e ∈ signals.scopedKept toLowerCase integrationId,
        e.childAssetId = child ∧ e.parentAssetId = parent) := by
  rw [recomputeDependencyTree]
  split
  next hempty =>
    have hscope : signals.inScope integrationId = [] := by
      rw [Signals.inScope, hempty]
      split <;> rfl
    have hkept : signals.scopedKept toLowerCase integrationId = [] := by
      rw [Signals.scopedKept, hscope]
      simp
    rw [hscope, hkept]
    simp
  next =>
    rw [has_insertRows]
    refine or_congr ?_ ?_
    · simp only [Has, List.mem_filter, decide_eq_true_eq]
      constructor
      · rintro ⟨r, ⟨hr, hne⟩, rfl, rfl, rfl⟩
        exact ⟨⟨r, hr, rfl, rfl, rfl⟩, hne⟩
      · rintro ⟨⟨r, hr, rfl, rfl, rfl⟩, hne⟩
        exact ⟨r, ⟨hr, hne⟩, rfl, rfl, rfl⟩
    · constructor
      · rintro ⟨r, hr, rfl, rfl, rfl⟩
        obtain ⟨e, he, rfl⟩ := List.mem_map.mp hr
        exact ⟨rfl, e, he, rfl, rfl⟩
      · rintro ⟨rfl, e, he, rfl, rfl⟩
        exact ⟨computedRow e, List.mem_map_of_mem he, rfl, rfl, rfl⟩

theorem depends_recompute (a b : String) :
    Depends (step toLowerCase s (.recompute signals integrationId)) a b ↔
      Follows (nextParents toLowerCase s signals integrationId) a b := by
  have hoverride :
    ∀ b, Has (recomputeDependencyTree toLowerCase signals integrationId s).1.rows .override a b ↔
      Has s.rows .override a b := by
    intro b
    rw [has_recompute]
    refine ⟨fun h => ?_, fun h => .inl ⟨h, nofun⟩⟩
    obtain h | h := h
    · exact h.1
    · cases h.1
  change b ∈ effectiveParentsOf (recomputeDependencyTree toLowerCase signals integrationId s).1.rows a ↔
    b ∈ nextParents toLowerCase s signals integrationId a
  rw [mem_effectiveParentsOf, nextParents]
  simp only [hoverride]
  by_cases hscope : a ∈ signals.inScope integrationId
  · by_cases hnone : parentsFrom s.rows .override a = []
    · rw [if_pos ⟨hscope, hnone⟩]
      rw [parentsFrom_nil] at hnone
      simp only [has_recompute, hnone, hscope, List.mem_map, List.mem_filter, decide_eq_true_eq]
      simp [and_assoc]
    · rw [if_neg fun h => hnone h.2, mem_effectiveParentsOf]
      obtain ⟨p, hp⟩ := List.exists_mem_of_ne_nil _ hnone
      rw [mem_parentsFrom] at hp
      have hno : ¬ ∀ p, ¬ Has s.rows .override a p := fun h => h p hp
      simp only [hno, false_and, or_false]
  · rw [if_neg fun h => hscope h.1, mem_effectiveParentsOf, has_recompute]
    have hkept : ¬ ∃ e ∈ signals.scopedKept toLowerCase integrationId, e.childAssetId = a ∧
      e.parentAssetId = b := by
      rintro ⟨e, he, rfl, -⟩
      exact hscope (by simpa using (List.mem_filter.mp he).2)
    simp [hscope, hkept]

theorem nextNodes_cover (a : String) (h : nextParents toLowerCase s signals integrationId a ≠ []) :
    a ∈ nextNodes toLowerCase s signals integrationId := by
  rw [nextParents] at h
  split at h
  next =>
    obtain ⟨p, hp⟩ := List.exists_mem_of_ne_nil _ h
    obtain ⟨e, he, -⟩ := List.mem_map.mp hp
    obtain ⟨hmem, hchild⟩ := List.mem_filter.mp he
    exact List.mem_append_right _ (List.mem_map.mpr ⟨e, hmem, by simpa using hchild⟩)
  next => exact List.mem_append_left _ (has_nodes h)

/-- The edges that a recompute brings climb its layers, so a cycle needs a
row that it leaves in force. -/
theorem acyclic_recompute :
    Acyclic (Depends (step toLowerCase s (.recompute signals integrationId))) ↔
      Clear toLowerCase s (.recompute signals integrationId) := by
  have hrel : Depends (step toLowerCase s (.recompute signals integrationId)) =
      Follows (nextParents toLowerCase s signals integrationId) := by
    funext a b
    exact propext (depends_recompute a b)
  rw [hrel, Clear]
  simp only [unreached_iff nextNodes_cover]
  constructor
  · intro hacyclic r hr heff hstays p hp
    obtain rfl := List.mem_singleton.mp hp
    refine acyclic_no_return hacyclic ?_
    rw [Follows, nextParents, if_neg fun hc => hstays hc.1 hc.2]
    exact heff
  · intro hclear
    let layers := (signals.assignment toLowerCase).layers
    refine acyclic_of_changed
      (S := fun a => a ∈ signals.inScope integrationId → parentsFrom s.rows .override a ≠ [])
      (r := fun a b => (layers b).getD 0 < (layers a).getD 0) (fun a b ha hab => ?_)
      (acyclic_of_rank fun _ _ hlt => hlt) fun c d hc hcd => ?_
    · obtain ⟨hscope, hnone⟩ := Classical.not_imp.mp ha
      rw [Follows, nextParents, if_pos ⟨hscope, not_not.mp hnone⟩] at hab
      obtain ⟨e, he, rfl⟩ := List.mem_map.mp hab
      obtain ⟨hmem, hchild⟩ := List.mem_filter.mp he
      obtain ⟨parentLayer, hparent, hlayer⟩ := climbs_scopedKept hmem
      rw [of_decide_eq_true hchild] at hlayer
      simp only [layers, hparent, hlayer, Option.getD_some]
      exact Nat.lt_succ_self _
    · rw [Follows, nextParents, if_neg fun h => hc h.1 h.2] at hcd
      have hrow : ∃ r ∈ s.rows, r.assetId = c ∧ r.parentAssetId = d := by
        obtain ⟨r, hr, h1, h2, -⟩ | ⟨-, r, hr, h1, h2, -⟩ := mem_effectiveParentsOf.mp hcd
        · exact ⟨r, hr, h1, h2⟩
        · exact ⟨r, hr, h1, h2⟩
      obtain ⟨r, hr, rfl, rfl⟩ := hrow
      exact hclear r hr hcd hc _ (List.mem_singleton.mpr rfl)

theorem acyclic_step (h : Acyclic (Depends s)) (op : Op) :
    Acyclic (Depends (step toLowerCase s op)) ↔ Clear toLowerCase s op := by
  cases op with
  | putOverride assets id parentAssetIds => exact acyclic_putOverride h
  | deleteOverride assets id => exact acyclic_deleteOverride h
  | recompute signals integrationId => exact acyclic_recompute

end Steps

section Claims

theorem acyclic_empty : Acyclic (Depends {}) := by
  intro a ha
  obtain ⟨b, hab, -⟩ := Relation.TransGen.head'_iff.mp ha
  exact absurd hab List.not_mem_nil

/-- The effective graph has no cycle in any state of a run just when every
step that brings parents into force unchecked would have passed the check. -/
theorem effective_graph_acyclic (toLowerCase : String → String) (ops : List Op) :
    (∀ k, Acyclic (Depends (run toLowerCase {} (ops.take k)))) ↔
      Along (step toLowerCase) (Clear toLowerCase) {} ops :=
  along_iff_reached (I := fun s => Acyclic (Depends s)) (fun _ op h => acyclic_step h op) acyclic_empty

def plainLower (s : String) : String := String.ofList (s.toList.map Char.toLower)

def officeAssets : List Asset :=
  [{ id := "fg1", assetType := .firewall }, { id := "sw1", assetType := .switch },
    { id := "sw2", assetType := .switch }]

def officeSignals : Signals := { assets := officeAssets, interfaceEdges := [⟨"fg1", "sw1"⟩, ⟨"sw1", "sw2"⟩] }

/-- The switches end up as each other's parents. -/
theorem unchecked_parents_close_cycle :
    ¬ Acyclic (Depends (run plainLower {}
        [.putOverride officeAssets "sw1" ["sw2"], .recompute officeSignals none])) ∧
      ¬ Acyclic (Depends (run plainLower {}
        [.recompute officeSignals none, .putOverride officeAssets "sw2" ["fg1"],
          .putOverride officeAssets "sw1" ["sw2"], .deleteOverride officeAssets "sw2"])) := by
  have hcycle : ∀ s, "sw2" ∈ effectiveParentsOf (State.rows s) "sw1" →
    "sw1" ∈ effectiveParentsOf s.rows "sw2" →
      ¬ Acyclic (Depends s) := fun s h h' hs => acyclic_no_return (a := "sw1") hs h (.single h')
  exact ⟨hcycle _ (by decide +kernel) (by decide +kernel), hcycle _ (by decide +kernel) (by decide +kernel)⟩

end Claims

end Polaris.DependencyCycles
