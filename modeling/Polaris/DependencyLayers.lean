import Polaris.DependencyCycles

namespace Polaris.DependencyLayers

open Relation Polaris.DependencyTree Polaris.DependencyCycles Polaris.Lib.Reach Polaris.Lib.Runs

section Edges

variable {toLowerCase : String → String} {assets : List Asset} {interfaceEdges : List InterfaceEdge}
  {lldpEdges : List (String × String)} {e : DependencyEdge} {raw edges : List DependencyEdge}

theorem mem_addEdges : e ∈ raw.foldl addEdge edges ↔ e ∈ edges ∨ e ∈ raw ∧
    e.childAssetId ≠ e.parentAssetId := by
  induction raw generalizing edges with
  | nil => simp
  | cons r raw ih =>
    rw [List.foldl_cons, ih, addEdge, List.mem_cons]
    split_ifs with h
    · constructor
      · rintro (he | ⟨he, hne⟩)
        · exact .inl he
        · exact .inr ⟨.inr he, hne⟩
      · rintro (he | ⟨rfl | he, hne⟩)
        · exact .inl he
        · exact .inl (h.resolve_left hne)
        · exact .inr ⟨he, hne⟩
    · rw [not_or] at h
      rw [List.mem_append, List.mem_singleton]
      constructor
      · rintro ((he | rfl) | ⟨he, hne⟩)
        · exact .inl he
        · exact .inr ⟨.inl rfl, h.1⟩
        · exact .inr ⟨.inr he, hne⟩
      · rintro (he | ⟨rfl | he, hne⟩)
        · exact .inl (.inl he)
        · exact .inl (.inr rfl)
        · exact .inr ⟨he, hne⟩

def Known (assets : List Asset) (id : String) : Prop := ∃ a ∈ assets, a.id = id

theorem controlledBy_ends {host : Option String} {type : AssetType} {a : Asset}
    (h : e ∈ controlledBy toLowerCase assets host type a) :
    e.childAssetId = a.id ∧ Known assets e.parentAssetId ∧ isPhysical e.detectedVia = false := by
  rw [controlledBy] at h
  split_ifs at h
  · cases h
  · split at h
    next => cases h
    next parent hparent =>
      split_ifs at h
      · obtain rfl := List.mem_singleton.mp h
        exact ⟨rfl, ⟨parent, List.mem_reverse.mp (List.mem_of_find?_eq_some hparent), rfl⟩, rfl⟩
      · cases h

theorem controllerEdges_ends {a : Asset} (h : e ∈ controllerEdges toLowerCase assets a) :
    e.childAssetId = a.id ∧ Known assets e.parentAssetId ∧ isPhysical e.detectedVia = false := by
  rw [controllerEdges] at h
  split at h
  next => cases h
  next =>
    split at h
    next => exact controlledBy_ends h
    next =>
      split_ifs at h
      · exact controlledBy_ends h
      · exact controlledBy_ends h
    next => cases h

theorem bothWays_ends {a b : String} {detectedVia : DetectedVia} (h : e ∈ bothWays assets a b detectedVia) :
    Known assets e.childAssetId ∧ Known assets e.parentAssetId ∧
      ⟨e.parentAssetId, e.childAssetId, e.detectedVia⟩ ∈ bothWays assets a b detectedVia := by
  rw [bothWays] at h ⊢
  split_ifs at h ⊢ with hknown
  · rw [Bool.and_eq_true, List.any_eq_true, List.any_eq_true] at hknown
    obtain ⟨⟨x, hx, hxa⟩, y, hy, hyb⟩ := hknown
    rw [decide_eq_true_eq] at hxa hyb
    obtain rfl | h := List.mem_cons.mp h
    · exact ⟨⟨x, hx, hxa⟩, ⟨y, hy, hyb⟩, List.mem_cons_of_mem _ List.mem_cons_self⟩
    · obtain rfl := List.mem_singleton.mp h
      exact ⟨⟨y, hy, hyb⟩, ⟨x, hx, hxa⟩, List.mem_cons_self⟩
  · cases h

/-- The edges run between assets, and every cable runs both ways. -/
structure Wired (assets : List Asset) (edges : List DependencyEdge) : Prop where
  ends : ∀ e ∈ edges, Known assets e.childAssetId ∧ Known assets e.parentAssetId
  symm : ∀ e ∈ edges, isPhysical e.detectedVia = true → ⟨e.parentAssetId, e.childAssetId, e.detectedVia⟩ ∈
    edges

theorem wired_buildDependencyEdges :
    Wired assets (buildDependencyEdgesFromInputs toLowerCase assets interfaceEdges lldpEdges) := by
  have hmem : ∀ e, e ∈ buildDependencyEdgesFromInputs toLowerCase assets interfaceEdges lldpEdges ↔
      ((∃ a ∈ assets, e ∈ controllerEdges toLowerCase assets a) ∨
        (∃ i ∈ interfaceEdges, e ∈ bothWays assets i.sourceAssetId i.targetAssetId .interface) ∨
          ∃ l ∈ lldpEdges, e ∈ bothWays assets l.1 l.2 .lldp) ∧ e.childAssetId ≠ e.parentAssetId := by
    intro e
    rw [buildDependencyEdgesFromInputs, mem_addEdges]
    simp only [List.mem_append, List.mem_flatMap, List.not_mem_nil, false_or, or_assoc]
  refine ⟨fun e he => ?_, fun e he hphysical => ?_⟩
  · obtain ⟨⟨a, ha, hc⟩ | ⟨i, -, hi⟩ | ⟨l, -, hl⟩, -⟩ := (hmem e).mp he
    · obtain ⟨hchild, hparent, -⟩ := controllerEdges_ends hc
      exact ⟨⟨a, ha, hchild.symm⟩, hparent⟩
    · exact ⟨(bothWays_ends hi).1, (bothWays_ends hi).2.1⟩
    · exact ⟨(bothWays_ends hl).1, (bothWays_ends hl).2.1⟩
  · obtain ⟨hcases, hne⟩ := (hmem e).mp he
    refine (hmem _).mpr ⟨?_, Ne.symm hne⟩
    obtain ⟨a, -, hc⟩ | ⟨i, hi, hboth⟩ | ⟨l, hl, hboth⟩ := hcases
    · rw [(controllerEdges_ends hc).2.2] at hphysical
      cases hphysical
    · exact .inr (.inl ⟨i, hi, (bothWays_ends hboth).2.2⟩)
    · exact .inr (.inr ⟨l, hl, (bothWays_ends hboth).2.2⟩)

def Linked (edges : List DependencyEdge) (a b : String) : Prop :=
  ∃ e ∈ edges, e.childAssetId = a ∧ e.parentAssetId = b ∨ e.childAssetId = b ∧ e.parentAssetId = a

theorem mem_adjacent_iff {physical : Bool} {a b : String} : b ∈ adjacent edges physical a ↔
    ∃ e ∈ edges, isPhysical e.detectedVia = physical ∧
      (e.childAssetId = a ∧ e.parentAssetId = b ∨ e.childAssetId = b ∧ e.parentAssetId = a) := by
  rw [adjacent, List.mem_eraseDups, List.mem_flatMap]
  constructor
  · rintro ⟨e, he, hb⟩
    obtain ⟨hmem, hphysical⟩ := List.mem_filter.mp he
    refine ⟨e, hmem, of_decide_eq_true hphysical, ?_⟩
    obtain hb | hb := List.mem_append.mp hb
    · split_ifs at hb with hchild
      · exact .inl ⟨hchild, (List.mem_singleton.mp hb).symm⟩
      · cases hb
    · split_ifs at hb with hparent
      · exact .inr ⟨(List.mem_singleton.mp hb).symm, hparent⟩
      · cases hb
  · rintro ⟨e, hmem, hphysical, ⟨hchild, hparent⟩ | ⟨hchild, hparent⟩⟩
    · refine ⟨e, List.mem_filter.mpr ⟨hmem, decide_eq_true hphysical⟩, List.mem_append_left _ ?_⟩
      rw [if_pos hchild, hparent]
      exact List.mem_cons_self
    · refine ⟨e, List.mem_filter.mpr ⟨hmem, decide_eq_true hphysical⟩, List.mem_append_right _ ?_⟩
      rw [if_pos hparent, hchild]
      exact List.mem_cons_self

theorem linked_iff {a b : String} : Linked edges a b ↔ ∃ physical, b ∈ adjacent edges physical a := by
  simp only [mem_adjacent_iff]
  exact ⟨fun ⟨e, he, h⟩ => ⟨_, e, he, rfl, h⟩, fun ⟨_, e, he, _, h⟩ => ⟨e, he, h⟩⟩

theorem Linked.symm {a b : String} (h : Linked edges a b) : Linked edges b a := by
  obtain ⟨e, he, h⟩ := h
  exact ⟨e, he, h.symm⟩

/-- A cable gives an edge from either end. -/
theorem Wired.cable (h : Wired assets edges) {a b : String} (hb : b ∈ adjacent edges true a) :
    ∃ e ∈ edges, e.childAssetId = b ∧ e.parentAssetId = a := by
  obtain ⟨e, he, hphysical, ⟨hchild, hparent⟩ | ⟨hchild, hparent⟩⟩ := mem_adjacent_iff.mp hb
  · exact ⟨_, h.symm e he hphysical, hparent, hchild⟩
  · exact ⟨e, he, hchild, hparent⟩

end Edges

section Attachments

variable (toLowerCase : String → String) (assets : List Asset) (edges : List DependencyEdge)

/-- The members of a bucket that a round writes a layer for. -/
def seeds (memberIds : List String) : List String :=
  if isSimpleChain edges memberIds then (chainHead toLowerCase assets edges memberIds).toList else memberIds

/-- An edge up to a layer, to an asset that is not being written. -/
def UpBeside (written : List String) (layers : Layers) (child : String) (layer : Nat) : Prop :=
  ∃ e ∈ edges, e.childAssetId = child ∧ e.parentAssetId ∉ written ∧ layers e.parentAssetId = some layer

/-- What is written hangs by an edge of its own on the layer of the bucket's
controller, and whoever hangs on a written asset keeps that layer above it or
another edge to it. -/
def Attaches (layers : Layers) (bucket : String × List String) : Prop :=
  ∀ parentLayer ∈ layers bucket.1,
    (∀ id ∈ seeds toLowerCase assets edges bucket.2,
      UpBeside edges (seeds toLowerCase assets edges bucket.2) layers id parentLayer) ∧
    ∀ e ∈ edges, e.parentAssetId ∈ seeds toLowerCase assets edges bucket.2 →
      e.childAssetId ∉ seeds toLowerCase assets edges bucket.2 → ∀ l ∈ layers e.parentAssetId,
        layers e.childAssetId = some (l + 1) → l = parentLayer + 1 ∨
          UpBeside edges (seeds toLowerCase assets edges bucket.2) layers e.childAssetId l

/-- Every attachment of the controller pass is such a one. -/
def AttachesAll : Nat → Layers → Prop
  | 0, _ => True
  | n + 1, layers =>
    Along (attachBucket toLowerCase assets edges) (Attaches toLowerCase assets edges) layers
      (buckets assets edges layers) ∧
      AttachesAll n ((buckets assets edges layers).foldl (attachBucket toLowerCase assets edges) layers)

instance decidableUpBeside (written : List String) (layers : Layers) (child : String) (layer : Nat) :
    Decidable (UpBeside edges written layers child layer) :=
  inferInstanceAs (Decidable (∃ e ∈ edges, _ ∧ _ ∧ _))

instance decidableAttaches (layers : Layers) (bucket : String × List String) :
    Decidable (Attaches toLowerCase assets edges layers bucket) :=
  inferInstanceAs (Decidable (∀ parentLayer ∈ layers bucket.1, _ ∧ ∀ e ∈ edges, _ → _ →
    ∀ l ∈ layers e.parentAssetId, _ → _))

instance decidableAttachesAll : ∀ n layers, Decidable (AttachesAll toLowerCase assets edges n layers)
  | 0, _ => isTrue trivial
  | n + 1, layers =>
    haveI := decidableAttachesAll n
      ((buckets assets edges layers).foldl (attachBucket toLowerCase assets edges) layers)
    inferInstanceAs (Decidable
      (Along (attachBucket toLowerCase assets edges) (Attaches toLowerCase assets edges) layers
      (buckets assets edges layers) ∧ _))

/-- The layers by cable alone, before the controller pass. -/
def cabled : Layers :=
  physicalBfs edges (rootLayers assets) (sortTexts ((assets.filter (·.assetType = .firewall)).map Asset.id))

def HasParents (layers : Layers) : Prop :=
  ∀ id l, layers id = some l → l ≠ 1 → ∃ e ∈ edges, e.childAssetId = id ∧ Climbs layers e

end Attachments

section Search

variable {edges : List DependencyEdge} {layers layers' : Layers} {seed : List String}

theorem layerNeighbor_foldl_spec (curLayer : Nat) (ns : List String) (s : Layers × List String) :
    (∀ id, (ns.foldl (layerNeighbor curLayer) s).1 id =
      if s.1 id = none ∧ id ∈ ns then some (curLayer + 1) else s.1 id) ∧
      ∀ id, id ∈ (ns.foldl (layerNeighbor curLayer) s).2 ↔ id ∈ s.2 ∨ s.1 id = none ∧ id ∈ ns := by
  induction ns generalizing s with
  | nil => simp
  | cons n ns ih =>
    obtain ⟨hlayers, hqueue⟩ := ih (layerNeighbor curLayer s n)
    rw [List.foldl_cons]
    by_cases hn : (s.1 n).isSome
    · have hstep : layerNeighbor curLayer s n = s := if_pos hn
      rw [hstep] at hlayers hqueue ⊢
      have hfresh : ∀ id, s.1 id = none ∧ id ∈ n :: ns ↔ s.1 id = none ∧ id ∈ ns := by
        refine fun id => and_congr_right fun hid => List.mem_cons.trans (or_iff_right fun heq => ?_)
        rw [← heq, hid] at hn
        cases hn
      simp only [hfresh]
      exact ⟨hlayers, hqueue⟩
    · have hstep : layerNeighbor curLayer s n = (Function.update s.1 n (some (curLayer + 1)),
        s.2 ++ [n]) := if_neg hn
      rw [Option.not_isSome_iff_eq_none] at hn
      rw [hstep] at hlayers hqueue ⊢
      refine ⟨fun id => ?_, fun id => ?_⟩
      · rw [hlayers]
        by_cases hid : id = n
        · simp [hid, hn]
        · simp [hid]
      · rw [hqueue]
        by_cases hid : id = n
        · simp [hid, hn]
        · simp [hid]

theorem visitLayer_cases {a : String} {more : List String}
    (h : visitLayer edges layers a = .ok (layers', more)) :
    (layers a = none ∧ layers' = layers ∧ more = []) ∨ ∃ l, layers a = some l ∧
      (∀ id, layers' id = if layers id = none ∧ id ∈ adjacent edges true a then some (l + 1) else layers id) ∧
      ∀ id, id ∈ more ↔ layers id = none ∧ id ∈ adjacent edges true a := by
  rw [visitLayer] at h
  split at h
  next ha =>
    cases h
    exact .inl ⟨ha, rfl, rfl⟩
  next l ha =>
    obtain ⟨hlayers, hqueue⟩ := layerNeighbor_foldl_spec l (adjacent edges true a) (layers, [])
    rw [Except.ok.inj h] at hlayers hqueue
    exact .inr ⟨l, ha, hlayers, fun id => (hqueue id).trans (or_iff_right List.not_mem_nil)⟩

theorem physicalBfs_invariant {I : Layers → List String → Prop}
    (hvisit : ∀ s a queue s' more, I s (a :: queue) → visitLayer edges s a = .ok (s', more) →
      I s' (queue ++ more))
    (h : I layers seed) : I (physicalBfs edges layers seed) [] := by
  cases hd : drain (visitLayer edges) ((endpoints edges).length + seed.length) layers seed with
  | error e => exact e.elim
  | ok r =>
    obtain ⟨layers', rest⟩ := r
    rw [physicalBfs, hd]
    have hend := drain_invariant hvisit h hd
    rwa [physicalBfs_ends hd] at hend

/-- A search keeps every layer, and what it adds hangs one layer below a
neighbour. -/
theorem physicalBfs_grows (edges : List DependencyEdge) (layers : Layers) (seed : List String) :
    (∀ id, layers id ≠ none → physicalBfs edges layers seed id = layers id) ∧
      ∀ id l, layers id = none → physicalBfs edges layers seed id = some l →
      ∃ n l', id ∈ adjacent edges true n ∧
        physicalBfs edges layers seed n = some l' ∧ l = l' + 1 := by
  refine physicalBfs_invariant (I := fun s _ => (∀ id, layers id ≠ none → s id = layers id) ∧
    ∀ id l, layers id = none → s id = some l → ∃ n l', id ∈ adjacent edges true n ∧ s n = some l' ∧
      l = l' + 1)
    (fun s a queue s' more ⟨hkeep, hfresh⟩ hv => ?_) ⟨fun _ _ => rfl, fun id l hnone hsome => ?_⟩
  · obtain ⟨-, rfl, -⟩ | ⟨la, ha, hlayers, -⟩ := visitLayer_cases hv
    · exact ⟨hkeep, hfresh⟩
    · have hstays : ∀ id, s id ≠ none → s' id = s id := fun id hid => by rw [hlayers, if_neg fun h => hid h.1]
      refine ⟨fun id hid => ?_, fun id l hnone hsome => ?_⟩
      · rw [hstays id (by rwa [hkeep id hid]), hkeep id hid]
      · rw [hlayers] at hsome
        split_ifs at hsome with hnew
        · refine ⟨a, la, hnew.2, ?_, (Option.some.inj hsome).symm⟩
          rw [hstays a (by rw [ha]; exact Option.some_ne_none _), ha]
        · obtain ⟨n, l', hn, hl', heq⟩ := hfresh id l hnone hsome
          refine ⟨n, l', hn, ?_, heq⟩
          rw [hstays n (by rw [hl']; exact Option.some_ne_none _), hl']
  · rw [hnone] at hsome
    cases hsome

/-- What is true of the layers given so far, and passes to a neighbour on the
next layer, is true after a search. -/
theorem physicalBfs_spreads {Q : String → Nat → Prop}
    (hq : ∀ a b l, Q a l → b ∈ adjacent edges true a → Q b (l + 1))
    (h : ∀ a l, layers a = some l → Q a l) : ∀ a l, physicalBfs edges layers seed a = some l → Q a l := by
  refine physicalBfs_invariant (I := fun s _ => ∀ a l, s a = some l →
    Q a l) (fun s a queue s' more hs hv => ?_) h
  obtain ⟨-, rfl, -⟩ | ⟨la, ha, hlayers, -⟩ := visitLayer_cases hv
  · exact hs
  · intro b l hb
    rw [hlayers] at hb
    split_ifs at hb with hnew
    · rw [← Option.some.inj hb]
      exact hq a b la (hs a la ha) hnew.2
    · exact hs b l hb

/-- Whoever has a layer shares it with its neighbours by cable. -/
def Saturated (edges : List DependencyEdge) (layers : Layers) : Prop :=
  ∀ a, layers a ≠ none → ∀ b ∈ adjacent edges true a, layers b ≠ none

theorem physicalBfs_saturates
    (h : ∀ a, layers a ≠ none → a ∈ seed ∨ ∀ b ∈ adjacent edges true a, layers b ≠ none) :
    Saturated edges (physicalBfs edges layers seed) := by
  let I : Layers → List String → Prop := fun s queue =>
    ∀ a, s a ≠ none → a ∈ queue ∨ ∀ b ∈ adjacent edges true a, s b ≠ none
  suffices I (physicalBfs edges layers seed) [] from fun a ha => (this a ha).resolve_left List.not_mem_nil
  refine physicalBfs_invariant (fun s a queue s' more hs hv => ?_) h
  · obtain ⟨hnone, rfl, rfl⟩ | ⟨la, ha, hlayers, hmore⟩ := visitLayer_cases hv
    · intro x hx
      rw [List.append_nil]
      obtain hmem | hdone := hs x hx
      · obtain rfl | hmem := List.mem_cons.mp hmem
        · exact absurd hnone hx
        · exact .inl hmem
      · exact .inr hdone
    · have hgrows : ∀ id, s id ≠ none → s' id ≠ none :=
        fun id hid => by rwa [hlayers, if_neg fun h => hid h.1]
      have hgiven : ∀ id, id ∈ adjacent edges true a → s' id ≠ none := by
        intro id hid
        by_cases hnone : s id = none
        · rw [hlayers, if_pos ⟨hnone, hid⟩]
          exact Option.some_ne_none _
        · exact hgrows id hnone
      intro x hx
      by_cases hold : s x = none
      · have hnew : id x ∈ adjacent edges true a := by
          by_contra hno
          rw [hlayers, if_neg fun h => hno h.2] at hx
          exact hx hold
        exact .inl (List.mem_append_right _ ((hmore x).mpr ⟨hold, hnew⟩))
      · obtain hmem | hdone := hs x hold
        · obtain rfl | hmem := List.mem_cons.mp hmem
          · exact .inr hgiven
          · exact .inl (List.mem_append_left _ hmem)
        · exact .inr fun b hb => hgrows b (hdone b hb)

end Search

section Rounds

variable {toLowerCase : String → String} {assets : List Asset} {edges : List DependencyEdge}
  {layers start : Layers}
  {bucket : String × List String} {id controller : String}

theorem written_eq {v : Nat} (ids : List String) (id : String) :
    ids.foldl (fun layers n => Function.update layers n (some v)) layers id =
      if id ∈ ids then some v else layers id := by
  induction ids generalizing layers with
  | nil => rfl
  | cons n ids ih =>
    rw [List.foldl_cons, ih]
    by_cases hid : id = n
    · simp [hid]
    · simp [hid]

theorem attachBucket_eq {parentLayer : Nat} (h : layers bucket.1 = some parentLayer) :
    attachBucket toLowerCase assets edges layers bucket =
      physicalBfs edges ((seeds toLowerCase assets edges bucket.2).foldl
        (fun layers n => Function.update layers n (some (parentLayer + 1))) layers) (seeds toLowerCase assets
          edges bucket.2) := by
  rw [attachBucket, h, seeds]
  dsimp only
  split_ifs with hchain
  · obtain ⟨head, -, hhead⟩ : ∃ head ∈ bucket.2, chainHead toLowerCase assets edges bucket.2 = some head :=
      chainHead_mem hchain
    rw [hhead]
    rfl
  · rfl

theorem seeds_subset {ms : List String} (h : id ∈ seeds toLowerCase assets edges ms) : id ∈ ms := by
  rw [seeds] at h
  split_ifs at h with hchain
  · obtain ⟨head, hmem, hhead⟩ : ∃ head ∈ ms, chainHead toLowerCase assets edges ms = some head :=
      chainHead_mem hchain
    rw [hhead] at h
    exact List.mem_singleton.mp h ▸ hmem
  · exact h

theorem mem_closest {ns : List String} {best : Option (String × Nat)} :
    ∀ b ∈ ns.foldl (closest layers) best, b ∈ best ∨ b.1 ∈ ns := by
  induction ns generalizing best with
  | nil => exact fun b hb => .inl hb
  | cons n ns ih =>
    intro b hb
    obtain hbest | hmem := ih b hb
    · rw [closest] at hbest
      split at hbest
      next => exact .inl hbest
      next =>
        split at hbest
        next => exact .inr (Option.some.inj hbest ▸ List.mem_cons_self)
        next => exact .inl hbest
    · exact .inr (List.mem_cons_of_mem _ hmem)

theorem closest_none {ns : List String} {best : Option (String × Nat)}
    (h : ns.foldl (closest layers) best = none) :
    best = none ∧ ∀ n ∈ ns, layers n = none := by
  induction ns generalizing best with
  | nil => exact ⟨h, fun n hn => absurd hn List.not_mem_nil⟩
  | cons n ns ih =>
    obtain ⟨hbest, hns⟩ := ih h
    cases hn : layers n with
    | none =>
      rw [closest, hn] at hbest
      refine ⟨hbest, fun m hm => ?_⟩
      obtain rfl | hm := List.mem_cons.mp hm
      · exact hn
      · exact hns m hm
    | some l =>
      rw [closest, hn] at hbest
      dsimp only at hbest
      split_ifs at hbest with hall
      subst hbest
      refine absurd (fun b hb => ?_) hall
      cases hb

theorem attachable_adjacent {a p : String} (h : (a, p) ∈ attachable assets edges layers) :
    p ∈ adjacent edges false a := by
  obtain ⟨asset, -, hattached⟩ := List.mem_filterMap.mp h
  obtain ⟨best, hbest, heq⟩ := Option.map_eq_some_iff.mp hattached
  cases heq
  exact (mem_closest best hbest).resolve_left fun h => nomatch h

theorem buckets_nil (h : buckets assets edges layers = []) {a p : String} (ha : Known assets a)
    (hnone : layers a = none)
    (hp : p ∈ adjacent edges false a) : layers p = none := by
  obtain ⟨asset, hasset, rfl⟩ := ha
  cases hclosest : (adjacent edges false asset.id).foldl (closest layers) none with
  | none => exact (closest_none hclosest).2 p hp
  | some best =>
    have hattached : (asset.id, best.1) ∈ attachable assets edges layers := by
      refine List.mem_filterMap.mpr ⟨asset, List.mem_filter.mpr ⟨hasset, ?_⟩, by rw [hclosest]; rfl⟩
      rw [hnone]
      rfl
    have hentry : (best.1, ((attachable assets edges layers).filter (·.2 = best.1)).map Prod.fst) ∈
      buckets assets edges layers := by
      rw [buckets, List.mem_insertionSort]
      exact List.mem_map.mpr ⟨best.1, List.mem_eraseDups.mpr (List.mem_map_of_mem hattached), rfl⟩
    rw [h] at hentry
    cases hentry

def Root (assets : List Asset) (id : String) : Prop := ∃ a ∈ assets, a.id = id ∧ a.assetType = .firewall

def Connected (assets : List Asset) (edges : List DependencyEdge) (id : String) : Prop :=
  ∃ root, Root assets root ∧ ReflTransGen (Linked edges) id root

/-- What holds of the layers throughout: the first is that of the firewalls. -/
structure Rooted (assets : List Asset) (edges : List DependencyEdge) (layers : Layers) : Prop where
  roots : ∀ id, Root assets id → layers id = some 1
  placed : ∀ id l, layers id = some l → l ≠ 0 ∧ (l = 1 → Root assets id) ∧ Connected assets edges id
  saturated : Saturated edges layers

theorem placed_spreads (a b : String) (l : Nat) (h : l ≠ 0 ∧ (l = 1 → Root assets a) ∧
    Connected assets edges a)
    (hb : b ∈ adjacent edges true a) : l + 1 ≠ 0 ∧ (l + 1 = 1 → Root assets b) ∧
      Connected assets edges b := by
  obtain ⟨hpos, -, root, hroot, hreach⟩ := h
  refine ⟨Nat.succ_ne_zero l, fun heq => absurd (Nat.succ.inj heq) hpos, root, hroot, .head ?_ hreach⟩
  exact Linked.symm (linked_iff.mpr ⟨true, hb⟩)

theorem rootLayers_eq_some {l : Nat} : rootLayers assets id = some l ↔ l = 1 ∧ Root assets id := by
  rw [rootLayers]
  have hany : (assets.any fun a => a.id = id && a.assetType = .firewall) = true ↔ Root assets id := by
    simp [List.any_eq_true, Root]
  by_cases hroot : Root assets id
  · rw [if_pos (hany.mpr hroot), Option.some.injEq]
    exact ⟨fun h => ⟨h.symm, hroot⟩, fun h => h.1.symm⟩
  · rw [if_neg (mt hany.mp hroot)]
    exact ⟨(fun h => nomatch h), fun h => absurd h.2 hroot⟩

theorem rooted_cabled : Rooted assets edges (cabled assets edges) := by
  refine ⟨fun id hroot => ?_, physicalBfs_spreads placed_spreads fun id l h => ?_,
    physicalBfs_saturates fun id h => .inl ?_⟩
  · have hlayer : rootLayers assets id = some 1 := rootLayers_eq_some.mpr ⟨rfl, hroot⟩
    rw [cabled, (physicalBfs_grows _ _ _).1 id (by rw [hlayer]; exact Option.some_ne_none _), hlayer]
  · obtain ⟨rfl, hroot⟩ := rootLayers_eq_some.mp h
    exact ⟨Nat.one_ne_zero, fun _ => hroot, id, hroot, .refl⟩
  · obtain ⟨l, hl⟩ := Option.ne_none_iff_exists'.mp h
    obtain ⟨a, ha, rfl, hfirewall⟩ := (rootLayers_eq_some.mp hl).2
    rw [sortTexts, List.mem_insertionSort]
    exact List.mem_map_of_mem (List.mem_filter.mpr ⟨ha, decide_eq_true hfirewall⟩)

theorem hasParents_cabled (hwired : Wired assets edges) : HasParents edges (cabled assets edges) := by
  intro id l hl hne
  obtain ⟨-, hfresh⟩ := physicalBfs_grows edges (rootLayers assets)
    (sortTexts ((assets.filter (·.assetType = .firewall)).map Asset.id))
  cases hroot : rootLayers assets id with
  | none =>
    obtain ⟨n, l', hn, hl', rfl⟩ := hfresh id l hroot hl
    obtain ⟨e, he, rfl, rfl⟩ := hwired.cable hn
    exact ⟨e, he, rfl, l', hl', hl⟩
  | some l' =>
    obtain ⟨rfl, hr⟩ := rootLayers_eq_some.mp hroot
    rw [rooted_cabled.roots id hr] at hl
    exact absurd (Option.some.inj hl).symm hne

theorem rooted_attachBucket (hmem : bucket ∈ buckets assets edges start) (hstart : Rooted assets edges start)
    (hkeep : ∀ id, start id ≠ none → layers id = start id) (h : Rooted assets edges layers) :
    Rooted assets edges (attachBucket toLowerCase assets edges layers bucket) ∧
      ∀ id, start id ≠ none → attachBucket toLowerCase assets edges layers bucket id = start id := by
  obtain ⟨hmembers, hne⟩ := mem_buckets hmem
  obtain ⟨m, hm⟩ := List.exists_mem_of_ne_nil _ hne
  obtain ⟨parentLayer, hparent⟩ := Option.isSome_iff_exists.mp (mem_attachable (hmembers m hm)).2.2
  have hnow : layers bucket.1 = some parentLayer := by
    rw [hkeep _ (by rw [hparent]; exact Option.some_ne_none _), hparent]
  have hfresh : ∀ id ∈ seeds toLowerCase assets edges bucket.2, start id = none := fun id hid =>
    (mem_attachable (hmembers id (seeds_subset hid))).2.1
  have hstays : ∀ id, start id ≠ none →
    attachBucket toLowerCase assets edges layers bucket id = start id := by
    intro id hid
    have hwritten := @written_eq layers (parentLayer + 1) (seeds toLowerCase assets edges bucket.2) id
    rw [if_neg fun hs => hid (hfresh id hs), hkeep id hid] at hwritten
    rw [attachBucket_eq hnow, (physicalBfs_grows _ _ _).1 id (by rwa [hwritten]), hwritten]
  refine ⟨⟨fun id hroot => ?_, ?_, ?_⟩, hstays⟩
  · rw [hstays id (by rw [hstart.roots id hroot]; exact Option.some_ne_none _), hstart.roots id hroot]
  · rw [attachBucket_eq hnow]
    refine physicalBfs_spreads placed_spreads fun id l hl => ?_
    rw [written_eq] at hl
    split_ifs at hl with hid
    · obtain ⟨hpos, -, root, hroot, hreach⟩ := hstart.placed bucket.1 parentLayer hparent
      obtain rfl := Option.some.inj hl
      refine ⟨Nat.succ_ne_zero _, fun heq => absurd (Nat.succ.inj heq) hpos, root, hroot, .head ?_ hreach⟩
      exact linked_iff.mpr ⟨false, attachable_adjacent (hmembers id (seeds_subset hid))⟩
    · exact h.placed id l hl
  · rw [attachBucket_eq hnow]
    refine physicalBfs_saturates fun id hid => ?_
    rw [written_eq] at hid
    split_ifs at hid with hseed
    · exact .inl hseed
    · refine .inr fun b hb => ?_
      rw [written_eq]
      split_ifs
      · exact Option.some_ne_none _
      · exact h.saturated id hid b hb

theorem rooted_round (h : Rooted assets edges layers) :
    Rooted assets edges ((buckets assets edges layers).foldl (attachBucket toLowerCase assets edges)
      layers) := by
  let I : Layers → Prop := fun l => Rooted assets edges l ∧ ∀ id, layers id ≠ none → l id = layers id
  suffices I ((buckets assets edges layers).foldl (attachBucket toLowerCase assets edges) layers) from this.1
  exact List.foldlRecOn (motive := I) _ _ ⟨h, fun _ _ => rfl⟩ fun l hl bucket hmem =>
    rooted_attachBucket hmem h hl.2 hl.1

theorem attach_succ (n : Nat) (layers : Layers) : attach toLowerCase assets edges (n + 1) layers =
    attach toLowerCase assets edges n
      ((buckets assets edges layers).foldl (attachBucket toLowerCase assets edges)
      layers) := by
  rw [attach]
  split
  next hnil =>
    rw [hnil, List.foldl_nil]
    cases n with
    | zero => rfl
    | succ n => rw [attach, hnil]
  next hbuckets => rw [hbuckets]

theorem rooted_attach (n : Nat) (h : Rooted assets edges layers) :
    Rooted assets edges (attach toLowerCase assets edges n layers) := by
  induction n generalizing layers with
  | zero => exact h
  | succ n ih =>
    rw [attach_succ]
    exact ih (rooted_round h)

/-- An attachment that breaks no edge leaves everyone a parent. -/
theorem hasParents_attachBucket (hwired : Wired assets edges) (h : HasParents edges layers)
    (hattaches : Attaches toLowerCase assets edges layers bucket) :
    HasParents edges (attachBucket toLowerCase assets edges layers bucket) := by
  cases hparent : layers bucket.1 with
  | none => rwa [attachBucket, hparent]
  | some parentLayer =>
    obtain ⟨hup, hbelow⟩ := hattaches parentLayer hparent
    rw [attachBucket_eq hparent]
    generalize hseeds : seeds toLowerCase assets edges bucket.2 = written at hup hbelow ⊢
    let after : Layers := written.foldl
      (fun layers n => Function.update layers n (some (parentLayer + 1))) layers
    have hafter : ∀ id, after id = if id ∈ written then some (parentLayer + 1) else layers id :=
      written_eq written
    have hbeside : ∀ id l, UpBeside edges written layers id l → after id = some (l + 1) →
        ∃ e ∈ edges, e.childAssetId = id ∧ Climbs after e := by
      rintro id l ⟨e, he, rfl, hout, hl⟩ hid
      exact ⟨e, he, rfl, l, by rw [hafter, if_neg hout, hl], hid⟩
    have hwritten : HasParents edges after := by
      intro id l hid hne
      by_cases hmem : id ∈ written
      · refine hbeside id parentLayer (hup id hmem) ?_
        rw [hafter, if_pos hmem]
      · have hold := hid
        rw [hafter, if_neg hmem] at hold
        obtain ⟨e, he, rfl, l', hl', hchild⟩ := h id l hold hne
        by_cases hparentWritten : e.parentAssetId ∈ written
        · obtain rfl | hbesides := hbelow e he hparentWritten hmem l' hl' hchild
          · exact ⟨e, he, rfl, parentLayer + 1, by rw [hafter, if_pos hparentWritten],
              by rw [hafter, if_neg hmem, hchild]⟩
          · refine hbeside _ l' hbesides ?_
            rw [hafter, if_neg hmem, hchild]
        · exact ⟨e, he, rfl, l', by rw [hafter, if_neg hparentWritten, hl'],
            by rw [hafter, if_neg hmem, hchild]⟩
    obtain ⟨hkeep, hfresh⟩ := physicalBfs_grows edges after written
    intro id l hl hne
    cases hid : after id with
    | none =>
      obtain ⟨n, l', hn, hl', rfl⟩ := hfresh id l hid hl
      obtain ⟨e, he, rfl, rfl⟩ := hwired.cable hn
      exact ⟨e, he, rfl, l', hl', hl⟩
    | some l₀ =>
      have hsame := hkeep id (by rw [hid]; exact Option.some_ne_none _)
      rw [hsame] at hl
      obtain ⟨e, he, rfl, l', hl', hchild⟩ := hwritten id l hl hne
      refine ⟨e, he, rfl, l', ?_, by rw [hsame, hchild]⟩
      rw [hkeep _ (by rw [hl']; exact Option.some_ne_none _), hl']

theorem hasParents_attach (hwired : Wired assets edges) (n : Nat) (h : HasParents edges layers)
    (hattaches : AttachesAll toLowerCase assets edges n layers) :
    HasParents edges (attach toLowerCase assets edges n layers) := by
  induction n generalizing layers with
  | zero => exact h
  | succ n ih =>
    rw [attach_succ]
    exact ih (foldl_invariant (fun _ _ hs hc => hasParents_attachBucket hwired hs hc) h hattaches.1)
      hattaches.2

theorem attachable_single
    (hsingle : ∀ e ∈ edges, isPhysical e.detectedVia = false → e.parentAssetId = controller)
    (hlayer : layers controller ≠ none) {a p : String} (h : (a, p) ∈ attachable assets edges layers) :
    layers a = none ∧ p = controller ∧ ∃ e ∈ edges, e.childAssetId = a ∧ e.parentAssetId = controller := by
  obtain ⟨-, hnone, -⟩ := mem_attachable h
  obtain ⟨e, he, hphysical, ⟨rfl, rfl⟩ | ⟨rfl, rfl⟩⟩ := mem_adjacent_iff.mp (attachable_adjacent h)
  · exact ⟨hnone, hsingle e he hphysical, e, he, rfl, hsingle e he hphysical⟩
  · exact absurd (hsingle e he hphysical ▸ hnone) hlayer

theorem buckets_single (h : ∀ q ∈ attachable assets edges layers, q.2 = controller) :
    buckets assets edges layers = [] ∨ ∃ bucket, buckets assets edges layers = [bucket] := by
  cases hkeys : (attachable assets edges layers).map Prod.snd with
  | nil => exact .inl (by rw [buckets, hkeys]; rfl)
  | cons p ps =>
    have hall : ∀ q ∈ p :: ps, q = controller := by
      rw [← hkeys]
      exact List.forall_mem_map.mpr h
    have hrest : ps.filter (fun q => !q == p) = [] := by
      refine List.filter_eq_nil_iff.mpr fun q hq => ?_
      simp [hall q (List.mem_cons_of_mem p hq), hall p List.mem_cons_self]
    exact .inr ⟨_, by rw [buckets, hkeys, List.eraseDups_cons, hrest]; rfl⟩

/-- Where every controller edge leads up to one firewall no attachment breaks an
edge. -/
theorem attachesAll_of_single (hroot : Root assets controller)
    (hsingle : ∀ e ∈ edges, isPhysical e.detectedVia = false → e.parentAssetId = controller) (n : Nat)
    (h : Rooted assets edges layers) : AttachesAll toLowerCase assets edges n layers := by
  induction n generalizing layers with
  | zero => trivial
  | succ n ih =>
    have hlayer : layers controller ≠ none := by simp [h.roots controller hroot]
    have hattach : ∀ bucket ∈ buckets assets edges layers, Attaches toLowerCase assets edges layers bucket := by
      intro bucket hmem parentLayer hparent
      obtain ⟨hmembers, hne⟩ := mem_buckets hmem
      have hfresh : ∀ id ∈ seeds toLowerCase assets edges bucket.2, layers id = none := fun id hid =>
        (mem_attachable (hmembers id (seeds_subset hid))).2.1
      refine ⟨fun id hid => ?_, fun e _ hup _ l hl => ?_⟩
      · obtain ⟨-, hkey, e, he, hchild, hup⟩ :=
          attachable_single hsingle hlayer (hmembers id (seeds_subset hid))
        exact ⟨e, he, hchild, fun hs => hlayer (hfresh _ (hup ▸ hs)), by rw [hup, ← hkey]; exact hparent⟩
      · rw [hfresh _ hup] at hl
        cases hl
    refine ⟨?_, ih (rooted_round h)⟩
    obtain hnil | ⟨bucket, hbucket⟩ :=
      buckets_single fun q hq => (attachable_single (a := q.1) (p := q.2) hsingle hlayer hq).2.1
    · rw [hnil]
      trivial
    · rw [hbucket]
      exact ⟨hattach bucket (hbucket ▸ List.mem_cons_self), trivial⟩

end Rounds

section Assignment

variable {layers : Layers} {edges kept : List DependencyEdge}

theorem keepEdge_pairs {child parent : String} (e : DependencyEdge)
    (h : (∃ k ∈ kept, k.childAssetId = child ∧ k.parentAssetId = parent) ∨
      e.childAssetId = child ∧ e.parentAssetId = parent ∧ Climbs layers e) :
    ∃ k ∈ keepEdge layers kept e, k.childAssetId = child ∧ k.parentAssetId = parent := by
  have hpast : (∃ k ∈ kept, k.childAssetId = child ∧ k.parentAssetId = parent) →
      ∃ k ∈ keepEdge layers kept e, k.childAssetId = child ∧ k.parentAssetId = parent := by
    rintro ⟨k, hk, hchild, hparent⟩
    rw [keepEdge]
    split
    · split_ifs
      · exact ⟨k, hk, hchild, hparent⟩
      · refine ⟨_, List.mem_map_of_mem hk, ?_⟩
        split_ifs with hsame
        · exact ⟨hsame.1.symm.trans hchild, hsame.2.1.symm.trans hparent⟩
        · exact ⟨hchild, hparent⟩
      · exact ⟨k, List.mem_append_left _ hk, hchild, hparent⟩
    · exact ⟨k, hk, hchild, hparent⟩
  obtain h | ⟨rfl, rfl, l, hparent, hchild⟩ := h
  · exact hpast h
  · by_cases hany : kept.any (fun k => k.childAssetId = e.childAssetId && k.parentAssetId =
      e.parentAssetId) = true
    · obtain ⟨k, hk, hsame⟩ := List.any_eq_true.mp hany
      rw [Bool.and_eq_true, decide_eq_true_eq, decide_eq_true_eq] at hsame
      exact hpast ⟨k, hk, hsame⟩
    · refine ⟨e, ?_, rfl, rfl⟩
      rw [keepEdge, hchild, hparent]
      dsimp only
      rw [if_neg (not_not.mpr rfl), if_neg hany]
      exact List.mem_append_right _ List.mem_cons_self

theorem kept_of_climbs {e : DependencyEdge} (he : e ∈ edges) (h : Climbs layers e) :
    ∃ k ∈ edges.foldl (keepEdge layers) kept, k.childAssetId = e.childAssetId ∧
      k.parentAssetId = e.parentAssetId := by
  induction edges generalizing kept with
  | nil => cases he
  | cons d edges ih =>
    rw [List.foldl_cons]
    obtain rfl | he := List.mem_cons.mp he
    · have hnow := @keepEdge_pairs layers kept _ _ e (.inr ⟨rfl, rfl, h⟩)
      generalize keepEdge layers kept e = kept' at hnow
      clear ih he
      induction edges generalizing kept' with
      | nil => exact hnow
      | cons d edges ih => exact ih _ (keepEdge_pairs d (.inl hnow))
    · exact ih he

/-- What the assignment guarantees for any input: both loops end, and the
layers are those of a forest over the firewalls, save that one may hang free. -/
structure Layered (assets : List Asset) (edges : List DependencyEdge) (r : LayerAssignment) : Prop where
  searches : ∀ layers seed layers' rest,
    drain (visitLayer edges) ((endpoints edges).length + seed.length) layers seed = .ok (layers', rest) →
      rest = []
  ends : buckets assets edges r.layers = []
  roots : ∀ a ∈ assets, r.layers a.id = some 1 ↔ a.assetType = .firewall
  climbs : ∀ e ∈ r.keptEdges, Climbs r.layers e
  acyclic : Acyclic fun child parent => ∃ e ∈ r.keptEdges, e.childAssetId = child ∧ e.parentAssetId = parent
  unresolved : ∀ a ∈ assets, a.id ∈ r.unresolved ↔
    ¬ ∃ f ∈ assets, f.assetType = .firewall ∧ ReflTransGen (Linked edges) a.id f.id

def ParentAbove (r : LayerAssignment) : Prop :=
  ∀ id l, 1 < l → r.layers id = some l → ∃ e ∈ r.keptEdges, e.childAssetId = id ∧
    r.layers e.parentAssetId = some (l - 1)

variable {toLowerCase : String → String} {assets : List Asset}

theorem acyclic_climbs {kept : List DependencyEdge} (h : ∀ e ∈ kept, Climbs layers e) :
    Acyclic fun child parent => ∃ e ∈ kept, e.childAssetId = child ∧ e.parentAssetId = parent := by
  let rank : String → Nat := fun id => (layers id).getD 0
  refine @acyclic_of_rank _ _ rank ?_
  rintro _ _ ⟨e, he, rfl, rfl⟩
  obtain ⟨l, hparent, hchild⟩ := h e he
  dsimp only [rank]
  rw [hparent, hchild]
  exact Nat.lt_succ_self l

theorem connected_layered (hwired : Wired assets edges) (hrooted : Rooted assets edges layers)
    (hends : buckets assets edges layers = []) {id : String} (h : Connected assets edges id) :
    layers id ≠ none := by
  obtain ⟨root, hroot, hreach⟩ := h
  induction hreach using ReflTransGen.head_induction_on with
  | refl =>
    rw [hrooted.roots root hroot]
    exact Option.some_ne_none 1
  | @head a b hab _ ih =>
    intro hnone
    have hknown : Known assets a := by
      obtain ⟨e, he, ⟨rfl, -⟩ | ⟨-, rfl⟩⟩ := hab
      · exact (hwired.ends e he).1
      · exact (hwired.ends e he).2
    obtain ⟨physical, hb⟩ := linked_iff.mp hab
    cases physical with
    | false => exact ih (buckets_nil hends hknown hnone hb)
    | true =>
      have ha : a ∈ adjacent edges true b := by
        obtain ⟨e, he, hphysical, h⟩ := mem_adjacent_iff.mp hb
        exact mem_adjacent_iff.mpr ⟨e, he, hphysical, h.symm⟩
      exact hrooted.saturated b ih a ha hnone

theorem layered_assignLayers (hids : (assets.map Asset.id).Nodup) (hwired : Wired assets edges) :
    Layered assets edges (assignLayers toLowerCase assets edges) := by
  have hrooted : Rooted assets edges (assignLayers toLowerCase assets edges).layers :=
    rooted_attach _ rooted_cabled
  have hclimbs : ∀ e ∈ (assignLayers toLowerCase assets edges).keptEdges,
    Climbs (assignLayers toLowerCase assets edges).layers e :=
    climbs_foldl fun _ hk => absurd hk List.not_mem_nil
  refine ⟨fun _ _ _ _ hd => physicalBfs_ends hd, assignLayers_ends, fun a ha => ⟨fun hone => ?_,
    fun hfirewall => ?_⟩, hclimbs,
    acyclic_climbs hclimbs, fun a ha => ?_⟩
  · obtain ⟨f, hf, hid, hfirewall⟩ := (hrooted.placed a.id 1 hone).2.1 rfl
    rwa [List.inj_on_of_nodup_map hids hf ha hid] at hfirewall
  · exact hrooted.roots a.id ⟨a, ha, rfl, hfirewall⟩
  · have hnone : a.id ∈ (assignLayers toLowerCase assets edges).unresolved ↔
        (assignLayers toLowerCase assets edges).layers a.id = none := by
      constructor
      · intro hmem
        obtain ⟨b, hb, hid⟩ := List.mem_map.mp hmem
        have hlayer := (List.mem_filter.mp hb).2
        rwa [hid, Option.isNone_iff_eq_none] at hlayer
      · intro hlayer
        refine List.mem_map_of_mem (List.mem_filter.mpr ⟨ha, ?_⟩)
        exact Option.isNone_iff_eq_none.mpr hlayer
    have hconnected : Connected assets edges a.id ↔
        ∃ f ∈ assets, f.assetType = .firewall ∧ ReflTransGen (Linked edges) a.id f.id := by
      constructor
      · rintro ⟨_, ⟨f, hf, rfl, hfirewall⟩, hreach⟩
        exact ⟨f, hf, hfirewall, hreach⟩
      · rintro ⟨f, hf, hfirewall, hreach⟩
        exact ⟨f.id, ⟨f, hf, rfl, hfirewall⟩, hreach⟩
    rw [hnone, ← hconnected]
    constructor
    · exact fun hlayer hc => connected_layered hwired hrooted assignLayers_ends hc hlayer
    · intro hc
      by_contra hlayer
      obtain ⟨l, hl⟩ := Option.ne_none_iff_exists'.mp hlayer
      exact hc (hrooted.placed a.id l hl).2.2

/-- Everything but the parent one layer up holds for any input, and that too
where no attachment breaks an edge. -/
theorem layered_with_parents (toLowerCase : String → String) (assets : List Asset)
    (interfaceEdges : List InterfaceEdge)
    (lldpEdges : List (String × String)) (hids : (assets.map Asset.id).Nodup) :
    let edges := buildDependencyEdgesFromInputs toLowerCase assets interfaceEdges lldpEdges
    let r := assignLayers toLowerCase assets edges
    Layered assets edges r ∧
      (AttachesAll toLowerCase assets edges assets.length (cabled assets edges) → ParentAbove r) := by
  intro edges r
  have hwired : Wired assets edges := wired_buildDependencyEdges
  refine ⟨layered_assignLayers hids hwired, fun hattaches id l hlt hl => ?_⟩
  obtain ⟨e, he, rfl, hclimbs⟩ :=
    hasParents_attach hwired assets.length (hasParents_cabled hwired) hattaches id l hl
    (Nat.ne_of_gt hlt)
  obtain ⟨k, hk, hchild, hparent⟩ : ∃ k ∈ r.keptEdges, k.childAssetId = e.childAssetId ∧
    k.parentAssetId = e.parentAssetId :=
    kept_of_climbs he hclimbs
  obtain ⟨l', hl', hchildLayer⟩ := hclimbs
  refine ⟨k, hk, hchild, ?_⟩
  obtain rfl := Option.some.inj (hchildLayer.symm.trans hl)
  rw [hparent]
  exact hl'

def daisyChain : List Asset :=
  [⟨"fg", some "fg", .firewall, none, none⟩, ⟨"s1", some "sw-1", .switch, some ⟨some "fg", none⟩, none⟩,
    ⟨"s2", some "sw-2", .switch, some ⟨some "fg", none⟩, none⟩,
      ⟨"s3", some "sw-3", .switch, some ⟨some "fg", none⟩, none⟩]

theorem daisy_chain_layered :
    let edges := buildDependencyEdgesFromInputs id daisyChain [] [("s1", "s2"), ("s2", "s3")]
    Layered daisyChain edges (assignLayers id daisyChain edges) ∧
      ParentAbove (assignLayers id daisyChain edges) := by
  obtain ⟨hlayered, hparents⟩ :=
    layered_with_parents id daisyChain [] [("s1", "s2"), ("s2", "s3")] (by decide)
  have hroot : Root daisyChain "fg" := ⟨_, List.mem_cons_self, rfl, rfl⟩
  exact ⟨hlayered, hparents (attachesAll_of_single hroot (by decide) _ rooted_cabled)⟩

/-- Switches of two firewalls, cabled in a row with a third that has no
controller of its own. -/
def twoControllers : List Asset :=
  [⟨"f1", some "fg-1", .firewall, none, none⟩, ⟨"f2", some "fg-2", .firewall, none, none⟩,
    ⟨"a", some "sw-a", .switch, some ⟨some "fg-1", none⟩, none⟩,
      ⟨"b", some "sw-b", .switch, some ⟨some "fg-2", none⟩, none⟩,
    ⟨"c", some "sw-c", .switch, none, none⟩]

theorem overwritten_layer_leaves_child_free :
    ¬ ParentAbove (assignLayers id twoControllers
      (buildDependencyEdgesFromInputs id twoControllers [] [("a", "b"), ("b", "c")])) := by
  intro h
  have hlayer : (assignLayers id twoControllers
      (buildDependencyEdgesFromInputs id twoControllers [] [("a", "b"), ("b", "c")])).layers "c" =
        some 4 := by
    decide +kernel
  have hkept : ∀ e ∈ (assignLayers id twoControllers
      (buildDependencyEdgesFromInputs id twoControllers [] [("a", "b"), ("b", "c")])).keptEdges,
      e.childAssetId ≠ "c" := by
    decide +kernel
  obtain ⟨e, he, hchild, -⟩ := h "c" 4 (by decide) hlayer
  exact hkept e he hchild

end Assignment

end Polaris.DependencyLayers
