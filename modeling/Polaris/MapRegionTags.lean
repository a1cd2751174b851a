import Polaris.Lib.Checks
import Polaris.MapRegions

namespace Polaris.MapRegionTags

open Polaris.Lib.Checks Polaris.Lib.Runs Polaris.Lib.Text Polaris.MapRegions

section Tags

variable {R : Type} {E : Env R} {s : State R} {assets : List (Asset R)} {names before after : List String}
  {old n name : String}

/-- Every region tag of an asset names one of the regions. -/
def Named (names : List String) (assets : List (Asset R)) : Prop :=
  ∀ a ∈ assets, ∀ n, regionTag n ∈ a.tags → n ∈ names

theorem regionTag_inj {a b : String} (h : regionTag a = regionTag b) : a = b := by
  have hlist := congrArg String.toList h
  rw [regionTag, regionTag, String.toList_append, String.toList_append] at hlist
  exact String.toList_inj.mp (List.append_cancel_left hlist)

theorem Named.mono (h : Named before assets) (hsub : ∀ n ∈ before, n ∈ names) : Named names assets :=
  fun a ha n hn => hsub n (h a ha n hn)

theorem named_addTag {ids : List String} (h : Named names assets) (hname : name ∈ names) :
    Named names (addTagToAssets ids (regionTag name) assets) := by
  intro a ha n hn
  obtain ⟨b, hb, rfl⟩ := List.mem_map.mp ha
  split_ifs at hn
  · obtain hn | hn := List.mem_append.mp hn
    · exact h b hb n hn
    · rwa [regionTag_inj (List.mem_singleton.mp hn)]
  · exact h b hb n hn

theorem named_applyOneRegion {region : MapRegion R} (h : Named names s.assets) (hname : region.name ∈ names) :
    Named names (applyOneRegion E s region).assets := named_addTag h hname

theorem named_removeTag (h : Named (before ++ old :: after) assets) :
    Named (before ++ after) (removeTagFromAllAssets (regionTag old) assets) := by
  intro a ha n hn
  obtain ⟨b, hb, rfl⟩ := List.mem_map.mp ha
  obtain ⟨hn, hne⟩ := List.mem_filter.mp hn
  rw [decide_eq_true_eq] at hne
  obtain hmem | hmem := List.mem_append.mp (h b hb n hn)
  · exact List.mem_append_left _ hmem
  · obtain rfl | hmem := List.mem_cons.mp hmem
    · exact absurd rfl hne
    · exact List.mem_append_right _ hmem

theorem mem_addTag {ids : List String} {tag : String} {a : Asset R} (ha : a ∈ addTagToAssets ids tag assets)
    (hid : a.id ∈ ids) :
    tag ∈ a.tags := by
  obtain ⟨b, hb, rfl⟩ := List.mem_map.mp ha
  split_ifs at hid ⊢ with hadd
  · exact List.mem_append_right _ (List.mem_singleton_self _)
  · by_contra hnot
    exact hadd ⟨hid, hnot⟩

def bare (a : Asset R) : Asset R := { a with tags := [] }

theorem membership_bare (region : MapRegion R) {assets' : List (Asset R)}
    (h : assets.map bare = assets'.map bare) :
    computeMembership E region assets = computeMembership E region assets' := by
  have hfilter : ∀ (p : Asset R → Bool), (∀ a, p (bare a) = p a) → ∀ (β : Type) (f : Asset R → β),
    (∀ a, f (bare a) = f a) →
      (assets.filter p).map f = (assets'.filter p).map f := by
    intro p hp β f hf
    have hmap : ∀ l : List (Asset R), (l.filter p).map f = ((l.map bare).filter p).map f := by
      intro l
      rw [List.filter_map, List.map_map]
      have hpb : p ∘ bare = p := funext hp
      have hfb : f ∘ bare = f := funext hf
      rw [hpb, hfb]
    rw [hmap assets, h, ← hmap assets']
  have henclosed : ∀ a : Asset R, isEnclosed E region (bare a) = isEnclosed E region a := fun _ => rfl
  rw [computeMembership, computeMembership]
  rw [hfilter _ henclosed _ (·.id) fun _ => rfl,
    hfilter _ henclosed _ (fun f => trim (f.hostname.getD "")) fun _ => rfl,
    hfilter _ (fun _ => rfl) _ (·.id) fun _ => rfl]

theorem addTag_bare (ids : List String) (tag : String) (assets : List (Asset R)) :
    (addTagToAssets ids tag assets).map bare = assets.map bare := by
  rw [addTagToAssets, List.map_map]
  apply List.map_congr_left
  intro a _
  rw [Function.comp]
  split_ifs <;> rfl

/-- Every current member of the region carries its tag. -/
def Tagged (E : Env R) (region : MapRegion R) (s : State R) : Prop :=
  ∀ a ∈ s.assets, a.id ∈ computeMembership E region s.assets → regionTag region.name ∈ a.tags

theorem tagged_applyOneRegion (region : MapRegion R) (s : State R) :
    Tagged E region (applyOneRegion E s region) := by
  intro a ha hid
  have hassets : (applyOneRegion E s region).assets =
      addTagToAssets (computeMembership E region s.assets) (regionTag region.name) s.assets := rfl
  rw [hassets, membership_bare region (addTag_bare _ _ _)] at hid
  exact mem_addTag ha hid

end Tags

section Requests

variable {R : Type} {E : Env R} {s s' : State R} {region : MapRegion R} {id now : String}

def names (s : State R) : List String := s.regions.map (·.name)

theorem names_loadAll (s : State R) : (loadAll E s).map (·.name) = names s := by
  rw [loadAll, List.map_map]
  rfl

/-- Names that differ only in case are taken for one. -/
def Distinct (E : Env R) (names : List String) : Prop := (names.map E.toLowerCase).Nodup

theorem taken_iff {l : List (MapRegion R)} {name : String} :
    (l.any fun r => sameName E r.name name) = true ↔
      E.toLowerCase name ∈ (l.map (·.name)).map E.toLowerCase := by
  simp only [List.any_eq_true, sameName, decide_eq_true_eq, List.mem_map, exists_exists_and_eq_and]

theorem postRegion_ok {body : CreateBody R} {actor : Option String} {saved : MapRegion R × State R}
    (h : postRegion E s body id now actor = .ok saved) :
    ∃ created : State R, E.toLowerCase saved.1.name ∉ (names s).map E.toLowerCase ∧
      names created = names s ++ [saved.1.name] ∧ created.assets = s.assets ∧
        saved.2 = applyOneRegion E created saved.1 := by
  obtain ⟨_, _, h⟩ := bind_ok h
  obtain ⟨⟨created, state⟩, hcreate, h⟩ := bind_ok h
  obtain rfl := Except.ok.inj h
  obtain ⟨name, _, hcreate⟩ := bind_ok hcreate
  obtain ⟨polygon, _, hcreate⟩ := bind_ok hcreate
  obtain ⟨color, _, hcreate⟩ := bind_ok hcreate
  split_ifs at hcreate with htaken
  obtain ⟨rfl, rfl⟩ := Prod.mk.inj (Except.ok.inj hcreate)
  rw [taken_iff, names_loadAll] at htaken
  refine ⟨{ s with
    regions := loadAll E s ++ [⟨id, name, polygon, some color, actor, now, now⟩]
    registry := upsertTagRegistry E name s.registry }, htaken, ?_, rfl, rfl⟩
  rw [names, List.map_append, names_loadAll]
  rfl

theorem found_split {l : List (MapRegion R)} {idx : Nat} {existing : MapRegion R}
    (h : l[idx]? = some existing) :
    ∃ before after, l = before ++ existing :: after ∧ l.eraseIdx idx = before ++ after ∧
      ∀ updated, l.set idx updated = before ++ updated :: after := by
  obtain ⟨hlt, rfl⟩ := List.getElem?_eq_some_iff.mp h
  refine ⟨l.take idx, l.drop (idx + 1), ?_, ?_, fun updated => ?_⟩
  · rw [List.getElem_cons_drop, List.take_append_drop]
  · exact List.eraseIdx_eq_take_drop_succ l idx
  · exact List.set_eq_take_append_cons_drop .. |>.trans (if_pos hlt)

theorem find_loadAll {idx : Nat} {existing : MapRegion R}
    (hidx : (loadAll E s).findIdx? (·.id = id) = some idx)
    (hexisting : (loadAll E s)[idx]? = some existing) :
    ∃ stored, s.regions.find? (·.id = id) = some stored ∧ stored.name = existing.name := by
  have hfind : (loadAll E s).find? (·.id = id) = some existing := by
    rw [List.find?_eq_bind_findIdx?_getElem?, hidx, Option.bind_some, hexisting]
  rw [loadAll, List.find?_map] at hfind
  obtain ⟨stored, hstored, rfl⟩ := Option.map_eq_some_iff.mp hfind
  exact ⟨stored, hstored, rfl⟩

theorem given_name {given : Option String} {old name : String}
    (h : given.elim (.ok old) validateName = .ok name) :
    name = (given.map trim).getD old := by
  cases given with
  | none => exact (Except.ok.inj h).symm
  | some raw =>
    rw [Option.elim_some, validateName] at h
    split_ifs at h
    exact (Except.ok.inj h).symm

theorem updateRegion_ok {body : UpdateBody R} {result : Updated R}
    (h : updateRegion E s id body now = .ok result) :
    ∃ before after : List String, (s.regions.find? (·.id = id)).map (·.name) = some result.previousName ∧
      result.region.name = (body.name.map trim).getD result.previousName ∧
      names s = before ++ result.previousName :: after ∧ names result.state = before ++
        result.region.name :: after ∧
      result.state.assets = s.assets ∧ result.renamed = !sameName E result.region.name result.previousName ∧
      (result.renamed = true → E.toLowerCase result.region.name ∉ (before ++ after).map E.toLowerCase) := by
  rw [updateRegion] at h
  split at h
  · cases h
  next idx hidx =>
    split at h
    · cases h
    next existing hexisting =>
      obtain ⟨name, hname, hcolor⟩ := bind_ok h
      obtain ⟨polygon, _, hcolor⟩ := bind_ok hcolor
      obtain ⟨color, _, hdone⟩ := bind_ok hcolor
      obtain ⟨before, after, hall, herase, hset⟩ := found_split hexisting
      obtain ⟨stored, hstored, hsame⟩ := find_loadAll hidx hexisting
      clear h hcolor
      dsimp only at hdone
      split at hdone
      · cases hdone
      next htaken =>
        obtain rfl := Except.ok.inj hdone
        refine ⟨before.map (·.name), after.map (·.name), ?_, given_name hname, ?_, ?_, rfl, rfl,
          fun hrenamed => ?_⟩
        · rw [hstored, Option.map_some, hsame]
        · rw [← names_loadAll (E := E), hall, List.map_append, List.map_cons]
        · change ((loadAll E s).set idx _).map (·.name) = _
          rw [hset, List.map_append, List.map_cons]
        · change (!sameName E name existing.name) = true at hrenamed
          rw [hrenamed, Bool.true_and, taken_iff, herase, List.map_append] at htaken
          exact htaken

theorem putRegion_ok {body : UpdateBody R} {saved : MapRegion R × State R}
    (h : putRegion E s id body now = .ok saved) :
    ∃ (updated : State R) (old : String) (before after : List String),
      (s.regions.find? (·.id = id)).map (·.name) = some old ∧ saved.1.name = (body.name.map trim).getD old ∧
      names s = before ++ old :: after ∧ names updated = before ++ saved.1.name :: after ∧
        updated.assets = s.assets ∧
      (E.toLowerCase saved.1.name = E.toLowerCase old ∧ saved.2 = applyOneRegion E updated saved.1 ∨
        E.toLowerCase saved.1.name ≠ E.toLowerCase old ∧
          E.toLowerCase saved.1.name ∉ (before ++ after).map E.toLowerCase ∧
            saved.2 = applyRename E updated saved.1 old) := by
  obtain ⟨_, _, h⟩ := bind_ok h
  obtain ⟨result, hupdate, h⟩ := bind_ok h
  obtain rfl := Except.ok.inj h
  obtain ⟨before, after, hfound, hgiven, hold, hnew, hassets, hrenamed, hfree⟩ := updateRegion_ok hupdate
  refine ⟨result.state, result.previousName, before, after, hfound, hgiven, hold, hnew, hassets, ?_⟩
  by_cases hcase : E.toLowerCase result.region.name = E.toLowerCase result.previousName
  · rw [sameName, decide_eq_true hcase, Bool.not_true] at hrenamed
    rw [hrenamed, if_neg Bool.false_ne_true]
    exact .inl ⟨hcase, rfl⟩
  · rw [sameName, decide_eq_false hcase, Bool.not_false] at hrenamed
    rw [hrenamed, if_pos rfl]
    exact .inr ⟨hcase, hfree hrenamed, rfl⟩

theorem deleteRegionRoute_ok (h : deleteRegionRoute E s id = .ok s') :
    ∃ (name : String) (before after : List String), names s = before ++ name :: after ∧
      names s' = before ++ after ∧
      s'.assets = removeTagFromAllAssets (regionTag name) s.assets := by
  obtain ⟨⟨removed, state⟩, hdelete, h⟩ := bind_ok h
  obtain rfl := Except.ok.inj h
  rw [deleteRegion] at hdelete
  split at hdelete
  · cases hdelete
  · split at hdelete
    · cases hdelete
    next found hremoved =>
      obtain ⟨rfl, rfl⟩ := Prod.mk.inj (Except.ok.inj hdelete)
      obtain ⟨before, after, hall, herase, -⟩ := found_split hremoved
      refine ⟨found.name, before.map (·.name), after.map (·.name), ?_, ?_, rfl⟩
      · rw [← names_loadAll (E := E), hall, List.map_append, List.map_cons]
      · rw [names, applyDelete]
        dsimp only
        rw [herase, List.map_append]

theorem mem_listRegions (h : region ∈ listRegions E s) : region.name ∈ names s := by
  rw [← names_loadAll (E := E)]
  exact List.mem_map_of_mem ((List.perm_insertionSort _ _).mem_iff.mp h)

theorem regions_applyAll (regions : List (MapRegion R)) (s : State R) :
    (regions.foldl (applyOneRegion E) s).regions = s.regions := by
  induction regions generalizing s with
  | nil => rfl
  | cons region regions ih => exact ih (applyOneRegion E s region)

theorem named_applyAll {known : List String} {regions : List (MapRegion R)}
    (hall : ∀ region ∈ regions, region.name ∈ known)
    (h : Named known s.assets) : Named known (regions.foldl (applyOneRegion E) s).assets := by
  induction regions generalizing s with
  | nil => exact h
  | cons region regions ih =>
    exact ih (fun r hr => hall r (List.mem_cons_of_mem _ hr))
      (named_applyOneRegion h (hall region List.mem_cons_self))

end Requests

section Accepted

variable {R : Type} {E : Env R} {s : State R} {id old : String} {body : UpdateBody R}

/-- A body that passes the checks of the route and of the service. -/
def fits (E : Env R) (body : UpdateBody R) : Bool :=
  body.name.all nameFits && body.polygon.all polygonFits && body.color.all isHexColor &&
    (body.name.all fun name => (validateName name).isOk) &&
    (body.polygon.all fun polygon => (validatePolygon E polygon).isOk) &&
    body.color.all fun color => (validateColor E color).isOk

theorem elim_ok {α β : Type} {given : Option α} {f : α → Except Denied β} {d : β} :
    (∃ b, given.elim (.ok d) f = .ok b) ↔ given.all (fun a => (f a).isOk) = true := by
  cases given with
  | none => exact ⟨fun _ => rfl, fun _ => ⟨d, rfl⟩⟩
  | some a =>
    rw [Option.all_some, Option.elim_some]
    cases f a with
    | ok b => exact ⟨fun _ => rfl, fun _ => ⟨b, rfl⟩⟩
    | error _ => simp [Except.isOk, Except.toBool]

theorem parseBody_ok {name : Option String} {polygon : Option (List (R × R))} {color : Option String} :
    parseBody name polygon color = .ok () ↔
      name.all nameFits = true ∧ polygon.all polygonFits = true ∧ color.all isHexColor = true := by
  rw [parseBody]
  cases name.all nameFits <;> cases polygon.all polygonFits <;> cases color.all isHexColor <;> simp

theorem isOk_map (r : Except Denied String) : (r.map some).isOk = r.isOk := by cases r <;> rfl

theorem fits_of_putRegion {now : String} {result : MapRegion R × State R}
    (h : putRegion E s id body now = .ok result) :
    fits E body = true := by
  obtain ⟨_, hparse, h⟩ := bind_ok h
  obtain ⟨_, hupdate, _⟩ := bind_ok h
  rw [updateRegion] at hupdate
  split at hupdate
  · cases hupdate
  · split at hupdate
    · cases hupdate
    next existing _ =>
      obtain ⟨name, hname, hrest⟩ := bind_ok hupdate
      obtain ⟨polygon, hpolygon, hrest⟩ := bind_ok hrest
      obtain ⟨color, hcolor, _⟩ := bind_ok hrest
      have hhex := elim_ok.mp ⟨color, hcolor⟩
      simp only [isOk_map] at hhex
      rw [fits, elim_ok.mp ⟨name, hname⟩, elim_ok.mp ⟨polygon, hpolygon⟩, hhex]
      obtain ⟨hname, hpolygon, hcolor⟩ := parseBody_ok.mp hparse
      rw [hname, hpolygon, hcolor]
      rfl

theorem putRegion_recased (now : String) (hfits : fits E body = true)
    (hfound : old ∈ (s.regions.find? (·.id = id)).map (·.name))
    (hcase : E.toLowerCase ((body.name.map trim).getD old) = E.toLowerCase old) :
    ∃ region s', putRegion E s id body now = .ok (region, s') := by
  simp only [fits, Bool.and_eq_true] at hfits
  obtain ⟨⟨⟨⟨⟨hname, hpolygon⟩, hcolor⟩, hvalid⟩, hclosed⟩, hhex⟩ := hfits
  have hparse := parseBody_ok.mpr ⟨hname, hpolygon, hcolor⟩
  have hall : ((loadAll E s).find? (·.id = id)).map (·.name) = some old := by
    rw [loadAll, List.find?_map, Option.map_map]
    exact hfound
  rw [List.find?_eq_bind_findIdx?_getElem?] at hall
  obtain ⟨existing, hexisting, rfl⟩ := Option.map_eq_some_iff.mp hall
  obtain ⟨idx, hidx, hget⟩ := Option.bind_eq_some_iff.mp hexisting
  obtain ⟨name, hgiven⟩ := elim_ok (d := existing.name).mpr hvalid
  obtain ⟨polygon, hpoints⟩ := elim_ok (d := existing.polygon).mpr hclosed
  simp only [← isOk_map] at hhex
  obtain ⟨color, hpaint⟩ := elim_ok (d := existing.color).mpr hhex
  have hrenamed : (!sameName E name existing.name) = false := by
    rw [given_name hgiven, sameName, decide_eq_true hcase, Bool.not_true]
  rw [putRegion, hparse, updateRegion]
  simp only [hidx, hget, hgiven, hpoints, hpaint, bind, Except.bind, hrenamed, Bool.false_and]
  exact ⟨_, _, rfl⟩

end Accepted

section Runs

variable {R : Type} (E : Env R)

/-- Assets move in any way, but a tag that appears on one is the tag of a
region. -/
def Permitted (s : State R) : Event R → Prop
  | .change assets => ∀ a ∈ assets, ∀ n, regionTag n ∈ a.tags → n ∈ names s ∨ ∃ b ∈ s.assets, b.id = a.id ∧
    regionTag n ∈ b.tags
  | _ => True

/-- A region whose name changes in case alone has its old tag on no asset. -/
def KeepsTags (s : State R) : Event R → Prop
  | .put id body _ => fits E body = true → ∀ old ∈ (s.regions.find? (·.id = id)).map (·.name),
      E.toLowerCase ((body.name.map trim).getD old) = E.toLowerCase old →
        (body.name.map trim).getD old = old ∨ ∀ a ∈ s.assets, regionTag old ∉ a.tags
  | _ => True

variable {E} {s : State R} {e : Event R}

theorem distinct_step (h : Distinct E (names s)) : Distinct E (names (step E s e)) := by
  cases e with
  | post body id now actor =>
    rw [step]
    cases hpost : postRegion E s body id now actor with
    | error _ => exact h
    | ok saved =>
      obtain ⟨created, hfree, hnames, _, hs⟩ := postRegion_ok hpost
      change Distinct E (names saved.2)
      rw [hs]
      change Distinct E (names created)
      rw [hnames, Distinct, List.map_append]
      exact List.nodup_append.mpr ⟨h, List.nodup_singleton _, fun a ha b hb hab => hfree (by simp_all)⟩
  | put id body now =>
    rw [step]
    cases hput : putRegion E s id body now with
    | error _ => exact h
    | ok saved =>
      obtain ⟨updated, old, before, after, _, _, hold, hnew, _, hcase⟩ := putRegion_ok hput
      have hnames : names saved.2 = names updated := by
        obtain ⟨_, hs⟩ | ⟨_, _, hs⟩ := hcase <;> rw [hs] <;> rfl
      change Distinct E (names saved.2)
      rw [Distinct, hold] at h
      rw [hnames, hnew, Distinct]
      simp only [List.map_append, List.map_cons] at h ⊢
      obtain ⟨hsame, _⟩ | ⟨_, hfree, _⟩ := hcase
      · rwa [hsame]
      · rw [List.map_append] at hfree
        exact List.nodup_middle.mpr (List.nodup_cons.mpr ⟨hfree,
          (List.nodup_cons.mp (List.nodup_middle.mp h)).2⟩)
  | delete id =>
    rw [step]
    cases hdelete : deleteRegionRoute E s id with
    | error _ => exact h
    | ok next =>
      obtain ⟨name, before, after, hold, hnew, _⟩ := deleteRegionRoute_ok hdelete
      change Distinct E (names next)
      rw [Distinct, hold] at h
      rw [hnew, Distinct]
      simp only [List.map_append, List.map_cons] at h ⊢
      exact (List.nodup_cons.mp (List.nodup_middle.mp h)).2
  | reconcile =>
    rw [step, reconcileMapRegions, names, regions_applyAll]
    exact h
  | change assets => exact h

theorem Distinct.not_mem {before after : List String} {old : String}
    (h : Distinct E (before ++ old :: after)) :
    E.toLowerCase old ∉ (before ++ after).map E.toLowerCase := by
  rw [Distinct, List.map_append, List.map_cons] at h
  rw [List.map_append]
  exact (List.nodup_cons.mp (List.nodup_middle.mp h)).1

/-- Where a name is written anew, the tag with the old spelling must be gone. -/
theorem named_respelled {before after : List String} {old : String} {region : MapRegion R}
    (hold : names s = before ++ old :: after)
    (hfree : region.name = old ∨ old ∉ before ++ after) (h : Named (names s) s.assets) :
    Named (before ++ region.name :: after) (applyOneRegion E s region).assets ↔
      (region.name = old ∨ ∀ a ∈ s.assets, regionTag old ∉ a.tags) := by
  refine ⟨fun hafter => ?_, fun hgone => ?_⟩
  · by_cases hsame : region.name = old
    · exact .inl hsame
    · refine .inr fun a ha htag => ?_
      obtain ⟨b, hb, htags⟩ : ∃ b ∈ (applyOneRegion E s region).assets, regionTag old ∈ b.tags := by
        refine ⟨_, List.mem_map_of_mem ha, ?_⟩
        split_ifs
        · exact List.mem_append_left _ htag
        · exact htag
      have hmem := hafter b hb old htags
      rw [List.mem_append, List.mem_cons] at hmem
      obtain hmem | rfl | hmem := hmem
      · exact hfree.resolve_left hsame (List.mem_append_left _ hmem)
      · exact hsame rfl
      · exact hfree.resolve_left hsame (List.mem_append_right _ hmem)
  · refine named_applyOneRegion (fun a ha n hn => ?_) (List.mem_append_right _ List.mem_cons_self)
    have hmem := h a ha n hn
    rw [hold, List.mem_append, List.mem_cons] at hmem
    rw [List.mem_append, List.mem_cons]
    obtain hmem | rfl | hmem := hmem
    · exact .inl hmem
    · obtain hsame | hgone := hgone
      · exact .inr (.inl hsame.symm)
      · exact absurd hn (hgone a ha)
    · exact .inr (.inr hmem)

theorem named_put {id now : String} {body : UpdateBody R} (hdistinct : Distinct E (names s))
    (h : Named (names s) s.assets) :
    Named (names (step E s (.put id body now))) (step E s (.put id body now)).assets ↔
      KeepsTags E s (.put id body now) := by
  rw [step]
  cases hput : putRegion E s id body now with
  | error denied =>
    refine ⟨fun _ hfits old hfound hcase => ?_, fun _ => h⟩
    obtain ⟨region, s', hok⟩ := putRegion_recased now hfits hfound hcase
    rw [hput] at hok
    cases hok
  | ok saved =>
    obtain ⟨updated, old, before, after, hfound, hgiven, hold, hnew, hassets, hcase⟩ :=
      putRegion_ok hput
    change Named (names saved.2) saved.2.assets ↔ _
    have hkeeps : KeepsTags E s (.put id body now) ↔
        (fits E body = true → E.toLowerCase saved.1.name = E.toLowerCase old →
          saved.1.name = old ∨ ∀ a ∈ s.assets, regionTag old ∉ a.tags) := by
      rw [KeepsTags, hfound, hgiven]
      exact forall_congr' fun _ => ⟨fun hall => hall old rfl,
        fun hold o ho => by obtain rfl := Option.some.inj ho; exact hold⟩
    rw [hkeeps]
    obtain ⟨hsame, hs⟩ | ⟨hdiffers, _, hs⟩ := hcase
    · have hfree : saved.1.name = old ∨ old ∉ before ++ after :=
        .inr fun hmem => (hold ▸ hdistinct).not_mem (List.mem_map_of_mem hmem)
      have hassets' : saved.2.assets = (applyOneRegion E s saved.1).assets := by
        rw [hs, applyOneRegion, applyOneRegion, hassets]
      have hnames : names saved.2 = before ++ saved.1.name :: after := by
        rw [hs, ← hnew]
        rfl
      rw [hassets', hnames, named_respelled hold hfree h]
      exact ⟨fun hkept _ _ => hkept, fun hall => hall (fits_of_putRegion hput) hsame⟩
    · refine ⟨fun _ _ hsame => absurd hsame hdiffers, fun _ => ?_⟩
      rw [hs]
      change Named (names updated) _
      rw [hnew]
      refine named_applyOneRegion ?_ (List.mem_append_right _ List.mem_cons_self)
      change Named _ (removeTagFromAllAssets (regionTag old) updated.assets)
      rw [hassets]
      rw [hold] at h
      exact (named_removeTag h).mono fun n hn => by
        rw [List.mem_append] at hn ⊢
        exact hn.imp_right (List.mem_cons_of_mem _)

theorem named_step (hdistinct : Distinct E (names s)) (h : Named (names s) s.assets)
    (hpermitted : Permitted s e) :
    Named (names (step E s e)) (step E s e).assets ↔ KeepsTags E s e := by
  cases e with
  | put id body now => exact named_put hdistinct h
  | post body id now actor =>
    refine ⟨fun _ => trivial, fun _ => ?_⟩
    rw [step]
    cases hpost : postRegion E s body id now actor with
    | error _ => exact h
    | ok saved =>
      obtain ⟨created, _, hnames, hassets, hs⟩ := postRegion_ok hpost
      change Named (names saved.2) saved.2.assets
      rw [hs]
      change Named (names created) _
      rw [hnames]
      refine named_applyOneRegion ?_ (List.mem_append_right _ (List.mem_singleton_self _))
      rw [hassets]
      exact h.mono fun n hn => List.mem_append_left _ hn
  | delete id =>
    refine ⟨fun _ => trivial, fun _ => ?_⟩
    rw [step]
    cases hdelete : deleteRegionRoute E s id with
    | error _ => exact h
    | ok next =>
      obtain ⟨name, before, after, hold, hnew, hassets⟩ := deleteRegionRoute_ok hdelete
      change Named (names next) next.assets
      rw [hnew, hassets]
      exact named_removeTag (hold ▸ h)
  | reconcile =>
    refine ⟨fun _ => trivial, fun _ => ?_⟩
    rw [step, reconcileMapRegions]
    have hnames : names ((listRegions E s).foldl (applyOneRegion E) s) = names s := by
      rw [names, regions_applyAll, names]
    rw [hnames]
    exact named_applyAll (fun region hregion => mem_listRegions hregion) h
  | change assets =>
    refine ⟨fun _ => trivial, fun _ a ha n hn => ?_⟩
    obtain hmem | ⟨b, hb, _, htag⟩ := hpermitted a ha n hn
    · exact hmem
    · exact h b hb n htag

theorem tagged_step {region : MapRegion R} (h : saved E s e = some region) :
    Tagged E region (step E s e) := by
  cases e with
  | post body id now actor =>
    rw [saved] at h
    rw [step]
    cases hpost : postRegion E s body id now actor with
    | error _ =>
      rw [hpost] at h
      cases h
    | ok result =>
      rw [hpost] at h
      obtain rfl := Option.some.inj h
      obtain ⟨created, _, _, _, hs⟩ := postRegion_ok hpost
      change Tagged E result.1 result.2
      rw [hs]
      exact tagged_applyOneRegion _ _
  | put id body now =>
    rw [saved] at h
    rw [step]
    cases hput : putRegion E s id body now with
    | error _ =>
      rw [hput] at h
      cases h
    | ok result =>
      rw [hput] at h
      obtain rfl := Option.some.inj h
      obtain ⟨updated, old, _, _, _, _, _, _, _, hcase⟩ := putRegion_ok hput
      change Tagged E result.1 result.2
      obtain ⟨_, hs⟩ | ⟨_, _, hs⟩ := hcase
      · rw [hs]
        exact tagged_applyOneRegion _ _
      · rw [hs]
        exact tagged_applyOneRegion _ _
  | delete _ => cases h
  | reconcile => cases h
  | change _ => cases h

/-- Regions with names of their own, and no tag of a region that is gone. -/
structure Sound (E : Env R) (s : State R) : Prop where
  distinct : Distinct E (names s)
  named : Named (names s) s.assets

theorem sound_step (s : State R) (e : Event R) (h : Sound E s) (hpermitted : Permitted s e) :
    Sound E (step E s e) ↔ KeepsTags E s e :=
  ⟨fun hsound => (named_step h.distinct h.named hpermitted).mp hsound.named,
    fun hkeeps => ⟨distinct_step h.distinct, (named_step h.distinct h.named hpermitted).mpr hkeeps⟩⟩

theorem distinct_run {events : List (Event R)} (h : Distinct E (names s)) :
    Distinct E (names (events.foldl (step E) s)) :=
  foldl_invariant (I := fun s => Distinct E (names s)) (fun _ _ hs _ => distinct_step hs) h along_true

end Runs

section Claim

variable {R : Type} (E : Env R)

/-- No asset carries the tag of a region that is gone, and the members of a
region that was just saved carry its tag. -/
def Fresh (s : State R) (events : List (Event R)) (k : Nat) : Prop :=
  Named (names ((events.take k).foldl (step E) s)) ((events.take k).foldl (step E) s).assets ∧
    ∀ e ∈ events[k]?, ∀ region ∈ saved E ((events.take k).foldl (step E) s) e,
      Tagged E region ((events.take (k + 1)).foldl (step E) s)

theorem no_stale_tags_iff {s : State R} (hsound : Sound E s) (events : List (Event R))
    (hpermitted : Along (step E) Permitted s events) :
    (∀ k, Fresh E s events k) ↔ Along (step E) (KeepsTags E) s events := by
  rw [← along_iff_reached_of (I := Sound E) sound_step hsound hpermitted]
  refine ⟨fun h k => ⟨distinct_run hsound.distinct, (h k).1⟩,
    fun h k => ⟨(h k).named, fun e he region hregion => ?_⟩⟩
  have hnext : (events.take (k + 1)).foldl (step E) s = step E ((events.take k).foldl (step E) s) e := by
    rw [List.take_add_one, he, List.foldl_append]
    rfl
  rw [hnext]
  exact tagged_step hregion

def rationals : Floats Rat :=
  ⟨fun a b => decide (a < b), (· + ·), (· - ·), (· * ·), (· / ·), fun n => n, 1 / 1000000000000,
    fun _ => true⟩

def floor : Env Rat :=
  ⟨rationals, fun s => String.ofList (s.toList.map Char.toLower), fun a b => decide (a ≤ b),
    fun _ => "#4fc3f7"⟩

def square : List (Rat × Rat) := [(0, 0), (0, 10), (10, 10), (10, 0)]

/-- One firewall, whose pin is inside the square. -/
def pinned : State Rat := ⟨[], [],
    [{ id := "fg1", assetType := "firewall", latitude := some 5, longitude := some 5 }]⟩

def founded : Event Rat := .post ⟨"Atlanta", square, none⟩ "r1" "t1" none

theorem sound_pinned : Sound floor pinned := ⟨List.nodup_nil, by simp [Named, pinned]⟩

theorem region_renamed_keeps_tags : Sound floor pinned ∧
    ∀ k, Fresh floor pinned [founded, .put "r1" { name := some "Boston" } "t2", .delete "r1"] k := by
  refine ⟨sound_pinned, (no_stale_tags_iff floor sound_pinned
    [founded, .put "r1" { name := some "Boston" } "t2", .delete "r1"]
    ⟨trivial, trivial, trivial, trivial⟩).mpr ⟨trivial, fun _ old hold hcase => ?_, trivial, trivial⟩⟩
  have hfound : ((step floor pinned founded).regions.find? (·.id = "r1")).map (·.name) = some "Atlanta" := by
    decide +kernel
  rw [hfound] at hold
  obtain rfl := Option.some.inj hold
  exact absurd hcase (by decide +kernel)

def respelled : List (Event Rat) := [founded, .put "r1" { name := some "ATLANTA" } "t2"]

/-- The tag keeps the old spelling, which no region has any more. -/
theorem respelled_region_leaves_tag : Along (step floor) Permitted pinned respelled ∧
    (respelled.foldl (step floor) pinned).assets.map (·.tags) = [["region:Atlanta", "region:ATLANTA"]] ∧
    names (respelled.foldl (step floor) pinned) = ["ATLANTA"] ∧ ¬ Fresh floor pinned respelled 2 := by
  have htags : (respelled.foldl (step floor) pinned).assets.map (·.tags) =
    [["region:Atlanta", "region:ATLANTA"]] := by
    decide +kernel
  have hnames : names (respelled.foldl (step floor) pinned) = ["ATLANTA"] := by decide +kernel
  refine ⟨⟨trivial, trivial, trivial⟩, htags, hnames, fun h => ?_⟩
  obtain ⟨a, ha, hatags⟩ := List.mem_map.mp (htags ▸ List.mem_singleton_self _ : _ ∈ _)
  have hmem := h.1 a ha "Atlanta" (by rw [hatags]; decide)
  change "Atlanta" ∈ names (respelled.foldl (step floor) pinned) at hmem
  rw [hnames] at hmem
  exact absurd hmem (by decide)

end Claim

end Polaris.MapRegionTags
