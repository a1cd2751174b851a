import Polaris.OidScope
import Polaris.Lib.Rounds

namespace Polaris.OidPrecedence

open Polaris.Lib.Worklist Polaris.Lib.Rounds Polaris.OidRegistry Polaris.OidScope

section Names

def ready (x : Pending) (known : String → Bool) : Bool :=
  x.entry.parts ≠ [] && (symbols x.entry.parts).all known

def nameOf (x : Pending) : String := x.entry.name

def hasName (t : Table) (n : String) : Bool := (t.numeric n).isSome

def tagOf (t : Table) (n : String) : Option (Option String × Option String × Layer) :=
  (t.provenance n).map fun r => (r.fromMibId, r.fromModuleName, r.fromScope)

def label (layer : Layer) (x : Pending) : Option String × Option String × Layer :=
  (some x.mib.id, some x.mib.moduleName, layer)

variable {layer : Layer} {t t' : Table} {x : Pending}

theorem ready_iff : ready x (hasName t) = true ↔ (tryResolveParts x.entry.parts t.numeric).isSome := by
  rw [tryResolveParts_isSome_iff]
  simp [ready, hasName]

theorem supplies_resolveEntry (layer : Layer) :
    Supplies (resolveEntry layer) ready nameOf (label layer) hasName tagOf where
  monotone := by
    intro x A B hAB hx
    simp only [ready, Bool.and_eq_true, List.all_eq_true] at hx ⊢
    exact ⟨hx.1, fun p hp => hAB p (hx.2 p hp)⟩
  applies := by
    intro x t
    rw [Bool.eq_iff_iff, ready_iff, resolveEntry, Option.isSome_map]
  has_apply := by
    intro x t t' h
    obtain ⟨oid, -, rfl⟩ := resolveEntry_eq_some.mp h
    funext n
    by_cases hn : n = nameOf x
    · rw [hn, Function.update_self, hasName, nameOf, set_numeric_self]
      rfl
    · have hname : n ≠ x.entry.name := hn
      rw [Function.update_of_ne hn, hasName, (set_sameAt _ hname).1]
      rfl
  tag_apply := by
    intro x t t' h
    obtain ⟨oid, -, rfl⟩ := resolveEntry_eq_some.mp h
    funext n
    by_cases hn : n = nameOf x
    · rw [hn, Function.update_self, tagOf, nameOf, set_provenance_self]
      rfl
    · have hname : n ≠ x.entry.name := hn
      rw [Function.update_of_ne hn, tagOf, (set_sameAt _ hname).2]
      rfl

/-- An entry of the table was there before the layer, or is what a definition
of the layer gave in a table met on the way. -/
theorem drains_written {items rest : List Pending} (h : Drains (resolveEntry layer) items t rest t')
    (n : String) :
    t'.provenance n = t.provenance n ∨
      ∃ i ∈ items, nameOf i = n ∧ ∃ mid t₀ oid, Drains (resolveEntry layer) items t mid t₀ ∧
        Drains (resolveEntry layer) mid t₀ rest t' ∧
        tryResolveParts i.entry.parts t₀.numeric = some oid ∧
          t'.provenance n = some (sourced layer i oid) := by
  induction h with
  | done => exact .inl rfl
  | @take items i others rest t t₁ t' hi happly h ih =>
    have hii : i ∈ items := hi.mem_iff.mpr List.mem_cons_self
    obtain hsame | ⟨j, hj, hname, mid, t₀, oid, hbefore, hafter, hoid, hlast⟩ := ih
    · obtain ⟨oid, hoid, rfl⟩ := resolveEntry_eq_some.mp happly
      by_cases hn : n = nameOf i
      · refine .inr ⟨i, hii, hn.symm, items, t, oid, .done _ _, .take hi happly h, hoid, ?_⟩
        rw [hsame, hn, nameOf, set_provenance_self]
      · exact .inl (hsame.trans (set_sameAt _ hn).2)
    · exact .inr ⟨j, hi.mem_iff.mpr (List.mem_cons_of_mem i hj), hname, mid, t₀, oid,
        .take hi happly hbefore, hafter, hoid, hlast⟩

theorem drains_resolves {items rest : List Pending} (h : Drains (resolveEntry layer) items t rest t')
    {parts : List String} (hp : (tryResolveParts parts t.numeric).isSome) :
    (tryResolveParts parts t'.numeric).isSome := by
  rw [tryResolveParts_isSome_iff] at hp ⊢
  exact ⟨hp.1, fun p hps => drains_mono h (hp.2 p hps)⟩

theorem mem_pendingOf {mibs : List LoadedMib} :
    x ∈ pendingOf mibs ↔ x.mib ∈ mibs ∧ x.entry ∈ x.mib.entries := by
  simp only [pendingOf, List.mem_flatMap, List.mem_map]
  constructor
  · rintro ⟨mib, hm, e, he, rfl⟩
    exact ⟨hm, he⟩
  · rintro ⟨hm, he⟩
    exact ⟨x.mib, hm, x.entry, he, rfl⟩

end Names

section Layers

variable (layers : List (Layer × List LoadedMib))

def mibsAt (i : Nat) : List LoadedMib := ((layers[i]?).map (·.2)).getD []

/-- A module of the layer defines the symbol with parts that all resolve. -/
def Defines (i : Nat) (n : String) (m : LoadedMib) : Prop :=
  ∃ e ∈ m.entries, e.name = n ∧ (tryResolveParts e.parts (stage layers (i + 1)).numeric).isSome

/-- The last module that defines the symbol in the highest layer that does. -/
structure LastDefining (i : Nat) (n : String) (m : LoadedMib) : Prop where
  last : ∃ before after, mibsAt layers i = before ++ m :: after ∧ ∀ m' ∈ after, ¬ Defines layers i n m'
  defines : Defines layers i n m
  top : ∀ j > i, ∀ m' ∈ mibsAt layers j, ¬ Defines layers j n m'

/-- The table is met while the layer is resolved. -/
def Reached (i : Nat) (t : Table) : Prop :=
  ∃ rest, Drains (resolveEntry (tagAt layers i)) (itemsAt layers i) (stage layers i) rest t

/-- In the pass with that number the definition resolves for the first
time, given those behind it, which have their turn before. -/
def OpensAt (i k : Nat) (x : Pending) (behind : List Pending) : Prop :=
  Opens ready nameOf (itemsAt layers i) (hasName (stage layers i)) k x behind

instance OpensAt.decidable (layers : List (Layer × List LoadedMib)) (i k : Nat) (x : Pending)
    (behind : List Pending) :
    Decidable (OpensAt layers i k x behind) := inferInstanceAs (Decidable (_ ∧ _))

/-- The module has a definition of the symbol that resolves in a later pass
than those of all other modules. -/
def OpensLast (i : Nat) (n : String) (m : LoadedMib) : Prop :=
  ∃ k, (∃ x behind, x :: behind <:+ itemsAt layers i ∧ nameOf x = n ∧ x.mib = m ∧
      OpensAt layers i k x behind) ∧
    ∀ j y behind, y :: behind <:+ itemsAt layers i → nameOf y = n → y.mib ≠ m →
      OpensAt layers i j y behind → j < k

variable {layers} {i : Nat} {n : String} {m : LoadedMib} {x : Pending}

theorem itemsAt_eq (i : Nat) : itemsAt layers i = pendingOf (mibsAt layers i) := by
  rw [itemsAt, mibsAt]
  cases layers[i]? <;> rfl

theorem stage_succ (i : Nat) : stage layers (i + 1) =
    settle (resolveEntry (tagAt layers i)) (itemsAt layers i).length (itemsAt layers i) (stage layers i) := by
  rw [stage, stage, tagAt, itemsAt, List.take_add_one]
  cases layers[i]? with
  | none => simp [settle]
  | some l => simp [resolveLayer]

variable (layers) in
theorem stage_tag (i : Nat) (n : String) : tagOf (stage layers (i + 1)) n =
    ((writer ready nameOf (itemsAt layers i) (hasName (stage layers i)) n (itemsAt layers i).length).map
      (label (tagAt layers i))).or (tagOf (stage layers i) n) := by
  rw [stage_succ]
  exact settle_tag (supplies_resolveEntry _) n

theorem resolves_iff_opens {behind : List Pending} (hx : x :: behind <:+ itemsAt layers i) :
    (tryResolveParts x.entry.parts (stage layers (i + 1)).numeric).isSome ↔
      ∃ k, OpensAt layers i k x behind := by
  rw [← ready_iff, stage_succ]
  exact settle_ready_iff (supplies_resolveEntry (tagAt layers i)) hx

theorem OpensAt.lt {k : Nat} {behind : List Pending} (hx : x :: behind <:+ itemsAt layers i)
    (h : OpensAt layers i k x behind) : k < (itemsAt layers i).length :=
  opens_lt (supplies_resolveEntry (tagAt layers i)) hx h

theorem defines_of_opens {k : Nat} {behind : List Pending} (hx : x :: behind <:+ itemsAt layers i)
    (h : OpensAt layers i k x behind) : Defines layers i (nameOf x) x.mib := by
  have hmem : x ∈ pendingOf (mibsAt layers i) := by
    rw [← itemsAt_eq]
    exact hx.subset List.mem_cons_self
  exact ⟨x.entry, (mem_pendingOf.mp hmem).2, rfl, (resolves_iff_opens hx).mpr ⟨k, h⟩⟩

theorem stage_stays (hno : ∀ m ∈ mibsAt layers i, ¬ Defines layers i n m) :
    (stage layers (i + 1)).provenance n = (stage layers i).provenance n := by
  obtain ⟨rest, hd, -⟩ := stage_ran layers i
  obtain hsame | ⟨x, hx, hname, mid, t₀, oid, -, hafter, hoid, -⟩ := drains_written hd n
  · exact hsame
  · rw [itemsAt_eq] at hx
    obtain ⟨hm, he⟩ := mem_pendingOf.mp hx
    refine absurd ⟨x.entry, he, hname, ?_⟩ (hno x.mib hm)
    exact drains_resolves hafter (Option.isSome_of_eq_some hoid)

theorem exists_writer (hm : m ∈ mibsAt layers i) (h : Defines layers i n m) :
    ∃ x, writer ready nameOf (itemsAt layers i) (hasName (stage layers i)) n (itemsAt layers i).length =
      some x := by
  obtain ⟨e, he, rfl, hres⟩ := h
  have hx : (⟨e, m⟩ : Pending) ∈ itemsAt layers i := by
    rw [itemsAt_eq]
    exact mem_pendingOf.mpr ⟨hm, he⟩
  obtain ⟨ahead, behind, hitems⟩ := List.append_of_mem hx
  have hsuffix : (⟨e, m⟩ : Pending) :: behind <:+ itemsAt layers i := ⟨ahead, hitems.symm⟩
  obtain ⟨k, hopens⟩ := (resolves_iff_opens hsuffix).mp hres
  cases hw : writer ready nameOf (itemsAt layers i) (hasName (stage layers i)) e.name
      (itemsAt layers i).length with
  | some x => exact ⟨x, rfl⟩
  | none => exact absurd hopens (writer_eq_none hw (hopens.lt hsuffix) hsuffix rfl)

/-- Behind a definition of a module stand those of the module itself and of
the ones after it. -/
theorem mib_behind {before after : List LoadedMib} (hmibs : mibsAt layers i = before ++ m :: after)
    (hids : ((mibsAt layers i).map (·.id)).Nodup) {behind : List Pending}
    (hx : x :: behind <:+ itemsAt layers i) (hxm : x.mib = m) :
    ∀ y ∈ behind, y.mib = m ∨ y.mib ∈ after := by
  obtain ⟨ahead, hahead⟩ := hx
  have hnodup : (before ++ m :: after).Nodup := hmibs ▸ List.Nodup.of_map _ hids
  have hitems : itemsAt layers i = pendingOf before ++ pendingOf (m :: after) := by
    rw [itemsAt_eq, hmibs, pendingOf, List.flatMap_append]
    rfl
  have hout : x ∉ pendingOf before := by
    intro hmem
    have hm : m ∈ before := hxm ▸ (mem_pendingOf.mp hmem).1
    exact (List.nodup_append.mp hnodup).2.2 m hm m List.mem_cons_self rfl
  intro y hy
  have hlater : y ∈ pendingOf (m :: after) := by
    obtain ⟨c, hbefore, hc⟩ | ⟨c, -, hc⟩ := List.append_eq_append_iff.mp (hahead.trans hitems)
    · cases c with
      | nil =>
        rw [List.nil_append] at hc
        exact hc ▸ List.mem_cons_of_mem x hy
      | cons a c =>
        obtain ⟨rfl, -⟩ := List.cons.inj hc
        exact absurd (hbefore ▸ List.mem_append_right ahead List.mem_cons_self) hout
    · rw [hc]
      exact List.mem_append_right c (List.mem_cons_of_mem x hy)
  exact List.mem_cons.mp (mem_pendingOf.mp hlater).1

end Layers

section Precedence

def height : Layer → Nat
  | .seed => 0
  | .generic => 1
  | .vendor => 2
  | .device => 3

variable (layers : List (Layer × List LoadedMib)) (map : String → Option ResolvedSymbol)

/-- The entry of a symbol is what its definition in the last module of the
highest layer gave. -/
def LastWins : Prop :=
  ∀ i n m, LastDefining layers i n m → ∃ e ∈ m.entries, e.name = n ∧ ∃ t oid, Reached layers i t ∧
    tryResolveParts e.parts t.numeric = some oid ∧
    map n = some ⟨oid, some m.id, some m.moduleName, tagAt layers i⟩

/-- No entry comes from below a layer that defines its symbol. -/
def HigherWins : Prop :=
  ∀ i n, (∃ m ∈ mibsAt layers i, Defines layers i n m) →
    ∃ r, map n = some r ∧ height (tagAt layers i) ≤ height r.fromScope

/-- Three layers over the seed, each of modules with ids of their own. -/
structure Stacked : Prop where
  ranked : ∀ i, ∀ m ∈ mibsAt layers i, i < 3 ∧ height (tagAt layers i) = i + 1
  ids : ∀ i, ((mibsAt layers i).map (·.id)).Nodup

variable {layers} {i k : Nat} {n : String} {m : LoadedMib}

theorem ranked_item (h : Stacked layers) {x : Pending} (hx : x ∈ itemsAt layers i) :
    i < 3 ∧ height (tagAt layers i) = i + 1 := by
  rw [itemsAt_eq] at hx
  exact h.ranked i x.mib (mem_pendingOf.mp hx).1

/-- The entries of a stage come from the layers that are done. -/
theorem stage_height (h : Stacked layers) {r : ResolvedSymbol}
    (hr : (stage layers k).provenance n = some r) : height r.fromScope ≤ k := by
  induction k generalizing r with
  | zero =>
    obtain ⟨oid, -, rfl⟩ := Option.map_eq_some_iff.mp hr
    exact Nat.le_refl 0
  | succ k ih =>
    obtain ⟨rest, hd, -⟩ := stage_ran layers k
    obtain hsame | ⟨x, hx, -, -, -, oid, -, -, -, hlast⟩ := drains_written hd n
    · exact Nat.le_succ_of_le (ih (hsame ▸ hr))
    · rw [hlast] at hr
      cases hr
      exact (ranked_item h hx).2.le

theorem written_entry (h : Stacked layers) {x : Pending}
    (hw : writer ready nameOf (itemsAt layers i) (hasName (stage layers i)) n (itemsAt layers i).length =
      some x) :
    ∃ y ∈ itemsAt layers i, nameOf y = n ∧ y.mib = x.mib ∧ ∃ t oid, Reached layers i t ∧
      tryResolveParts y.entry.parts t.numeric = some oid ∧
      (stage layers (i + 1)).provenance n = some (sourced (tagAt layers i) y oid) := by
  obtain ⟨k, -, ahead, behind, hitems, -, -, -⟩ := writer_eq_some hw
  have hx : x ∈ itemsAt layers i := by
    rw [hitems]
    exact List.mem_append_right ahead List.mem_cons_self
  have htag := stage_tag layers i n
  rw [hw, Option.map_some, Option.some_or] at htag
  obtain ⟨r, hr, hlabel⟩ := Option.map_eq_some_iff.mp htag
  simp only [label, Prod.mk.injEq] at hlabel
  obtain ⟨hid, -, hscope⟩ := hlabel
  obtain ⟨rest, hd, -⟩ := stage_ran layers i
  obtain hsame | ⟨y, hy, hname, mid, t₀, oid, hbefore, -, hoid, hlast⟩ := drains_written hd n
  · have hlow := stage_height h (hsame ▸ hr)
    rw [hscope, (ranked_item h hx).2] at hlow
    omega
  · refine ⟨y, hy, hname, ?_, t₀, oid, ⟨mid, hbefore⟩, hoid, hlast⟩
    rw [hr] at hlast
    cases hlast
    rw [itemsAt_eq] at hx hy
    exact List.inj_on_of_nodup_map (h.ids i) (mem_pendingOf.mp hy).1 (mem_pendingOf.mp hx).1
      (Option.some.inj hid)

theorem stage_top (htop : ∀ j > i, ∀ m' ∈ mibsAt layers j, ¬ Defines layers j n m') (hk : i < k) :
    (stage layers k).provenance n = (stage layers (i + 1)).provenance n := by
  induction hk with
  | refl => rfl
  | @step k hik ih => exact (stage_stays (htop k hik)).trans ih

theorem LastDefining.mem (h : LastDefining layers i n m) : m ∈ mibsAt layers i := by
  obtain ⟨before, after, hmibs, -⟩ := h.last
  rw [hmibs]
  exact List.mem_append_right before List.mem_cons_self

theorem writer_mib_iff (hs : Stacked layers) (h : LastDefining layers i n m) {x : Pending}
    (hw : writer ready nameOf (itemsAt layers i) (hasName (stage layers i)) n (itemsAt layers i).length =
      some x) : x.mib = m ↔ OpensLast layers i n m := by
  obtain ⟨k, -, ahead, behind, hitems, hname, hopens, hlast⟩ := writer_eq_some hw
  have hx : x :: behind <:+ itemsAt layers i := ⟨ahead, hitems.symm⟩
  constructor
  · intro hxm
    refine ⟨k, ⟨x, behind, hx, hname, hxm, hopens⟩, fun j y after hy hyn hym hj => ?_⟩
    obtain ⟨hle, hbehind⟩ := hlast j (OpensAt.lt hy hj) y after hy hyn hj
    refine Nat.lt_of_le_of_ne hle fun hjk => ?_
    obtain heq | hy' := List.suffix_cons_iff.mp (hbehind hjk)
    · cases heq
      exact hym hxm
    · obtain ⟨before, later, hmibs, hnone⟩ := h.last
      have hmem : y ∈ behind := hy'.subset List.mem_cons_self
      have hdef := defines_of_opens hy hj
      rw [hyn] at hdef
      obtain hsame | hlater := mib_behind hmibs (hs.ids i) hx hxm y hmem
      · exact hym hsame
      · exact hnone y.mib hlater hdef
  · rintro ⟨j, ⟨y, after, hy, hyn, -, hj⟩, hothers⟩
    by_contra hxm
    have hlt := hothers k x behind hx hname hxm hopens
    have hle := (hlast j (OpensAt.lt hy hj) y after hy hyn hj).1
    omega

theorem last_entry_iff (hs : Stacked layers) (h : LastDefining layers i n m) :
    (∃ e ∈ m.entries, e.name = n ∧ ∃ t oid, Reached layers i t ∧
      tryResolveParts e.parts t.numeric = some oid ∧ (stage layers 3).provenance n =
        some ⟨oid, some m.id, some m.moduleName, tagAt layers i⟩) ↔ OpensLast layers i n m := by
  obtain ⟨x, hw⟩ := exists_writer h.mem h.defines
  obtain ⟨y, hy, hname, hmib, t, oid, hreached, hoid, hentry⟩ := written_entry hs hw
  rw [← writer_mib_iff hs h hw, stage_top h.top (hs.ranked i m h.mem).1, hentry]
  rw [itemsAt_eq] at hy
  obtain ⟨hmem, hey⟩ := mem_pendingOf.mp hy
  constructor
  · rintro ⟨e, -, -, t', oid', -, -, hsame⟩
    have hid : y.mib.id = m.id := by
      simpa [sourced] using congrArg (Option.map (·.fromMibId)) hsame
    rw [← hmib]
    exact List.inj_on_of_nodup_map (hs.ids i) hmem h.mem hid
  · intro hxm
    rw [← hmib] at hxm
    subst hxm
    exact ⟨y.entry, hey, hname, t, oid, hreached, hoid, rfl⟩

theorem higherWins_stage (hs : Stacked layers) : HigherWins layers (stage layers 3).provenance := by
  rintro i n ⟨m, hm, hdef⟩
  obtain ⟨x, hw⟩ := exists_writer hm hdef
  obtain ⟨y, -, -, -, -, oid, -, -, hentry⟩ := written_entry hs hw
  obtain ⟨hi, hheight⟩ := hs.ranked i m hm
  have hkept : ∀ k, i < k → ∃ r, (stage layers k).provenance n = some r ∧
      height (tagAt layers i) ≤ height r.fromScope := by
    intro k hk
    induction hk with
    | refl => exact ⟨_, hentry, Nat.le_refl _⟩
    | @step k hik ih =>
      obtain ⟨rest, hd, -⟩ := stage_ran layers k
      obtain hsame | ⟨z, hz, -, -, -, oid', -, -, -, hlast⟩ := drains_written hd n
      · rw [hsame]
        exact ih
      · refine ⟨_, hlast, ?_⟩
        change _ ≤ height (tagAt layers k)
        have hik' : i < k := hik
        rw [hheight, (ranked_item hs hz).2]
        omega
  exact hkept 3 hi

end Precedence

section Scope

variable {toLowerCase : String → String} {mibs : List LoadedMib} {manufacturer model : Option String}

theorem mibsAt_sublist (i : Nat) :
    (mibsAt (layersOf toLowerCase mibs manufacturer model) i).Sublist mibs := by
  obtain _ | _ | _ | i := i
  · exact List.filter_sublist
  · simp only [mibsAt, layersOf, List.getElem?_cons_succ, List.getElem?_cons_zero, Option.map_some,
      Option.getD_some]
    split
    · exact List.filter_sublist
    · exact List.nil_sublist _
  · simp only [mibsAt, layersOf, List.getElem?_cons_succ, List.getElem?_cons_zero, Option.map_some,
      Option.getD_some]
    split
    · exact List.filter_sublist
    · exact List.nil_sublist _
  · exact List.nil_sublist _

theorem stacked_layersOf (hids : (mibs.map (·.id)).Nodup) :
    Stacked (layersOf toLowerCase mibs manufacturer model) where
  ranked i m hm := by
    obtain _ | _ | _ | i := i
    · exact ⟨by omega, rfl⟩
    · exact ⟨by omega, rfl⟩
    · exact ⟨by omega, rfl⟩
    · cases hm
  ids i := hids.sublist ((mibsAt_sublist i).map _)

/-- In the map of a scope the last module of a layer wins just when its
definition resolves in a later pass than those of the others, while no lower
layer ever wins over a higher one. -/
theorem precedence_iff (toLowerCase : String → String) (manufacturer model : Option String)
    (hids : (mibs.map (·.id)).Nodup) :
    (LastWins (layersOf toLowerCase mibs manufacturer model)
        (resolveScope toLowerCase (some mibs) manufacturer model) ∧
      HigherWins (layersOf toLowerCase mibs manufacturer model)
        (resolveScope toLowerCase (some mibs) manufacturer model)) ↔
    ∀ i n m, LastDefining (layersOf toLowerCase mibs manufacturer model) i n m →
      OpensLast (layersOf toLowerCase mibs manufacturer model) i n m := by
  have hs : Stacked (layersOf toLowerCase mibs manufacturer model) := stacked_layersOf hids
  rw [resolveScope_eq_stage]
  constructor
  · rintro ⟨hlast, -⟩ i n m hm
    exact (last_entry_iff hs hm).mp (hlast i n m hm)
  · intro h
    exact ⟨fun i n m hm => (last_entry_iff hs hm).mpr (h i n m hm), higherWins_stage hs⟩

end Scope

section Uploads

def oldMib : LoadedMib := ⟨"old", "ACME-MIB", none, none, [⟨"acme", ["enterprises", "1"]⟩]⟩

/-- The module uploaded later waits for a symbol of its own. -/
def movedMib : LoadedMib :=
  ⟨"new", "ACME-MIB", none, none, [⟨"acmeRoot", ["enterprises", "2"]⟩, ⟨"acme", ["acmeRoot", "0"]⟩]⟩

def movedLayers : List (Layer × List LoadedMib) := layersOf id [oldMib, movedMib] none none

theorem opensLast_moved {e : ParsedAssignment} (k : Nat) (behind : List Pending)
    (hx : ⟨e, movedMib⟩ :: behind <:+ itemsAt movedLayers 0)
    (ho : OpensAt movedLayers 0 k ⟨e, movedMib⟩ behind)
    (hk : e.name = "acme" → 0 < k) : OpensLast movedLayers 0 e.name movedMib := by
  refine ⟨k, ⟨_, behind, hx, rfl, rfl, ho⟩, fun j y rest hy hname hother hopens => ?_⟩
  have hitems : itemsAt movedLayers 0 = [⟨⟨"acme", ["enterprises", "1"]⟩, oldMib⟩,
    ⟨⟨"acmeRoot", ["enterprises", "2"]⟩, movedMib⟩, ⟨⟨"acme", ["acmeRoot", "0"]⟩, movedMib⟩] := rfl
  have hlt : j < 3 := hopens.lt hy
  rw [hitems, List.suffix_cons_iff, List.suffix_cons_iff, List.suffix_cons_iff] at hy
  obtain hy | hy | hy | hy := hy
  · cases hy
    have hj : j = 0 := by
      by_contra hj
      obtain rfl | rfl : j = 1 ∨ j = 2 := by omega
      · exact absurd hopens (by decide +kernel)
      · exact absurd hopens (by decide +kernel)
    rw [hj]
    exact hk hname.symm
  · cases hy
    exact absurd rfl hother
  · cases hy
    exact absurd rfl hother
  · cases List.suffix_nil.mp hy

/-- The module uploaded later wins. -/
theorem precedence_iff_uploads :
    LastWins movedLayers (resolveScope id (some [oldMib, movedMib]) none none) ∧
      HigherWins movedLayers (resolveScope id (some [oldMib, movedMib]) none none) := by
  refine (precedence_iff id none none (by decide)).mpr fun i n m h => ?_
  have hm := h.mem
  obtain _ | _ | _ | i := i
  · obtain ⟨e, he, rfl, -⟩ := h.defines
    obtain rfl | rfl : m = oldMib ∨ m = movedMib := by simpa [mibsAt, layersOf, oldMib, movedMib] using hm
    · obtain ⟨before, after, hmibs, hnone⟩ := h.last
      have hsplit : [oldMib, movedMib] = before ++ oldMib :: after := hmibs
      have hmoved : Defines movedLayers 0 e.name movedMib := by
        rw [List.mem_singleton.mp he]
        exact ⟨⟨"acme", ["acmeRoot", "0"]⟩, by decide, rfl, by decide +kernel⟩
      obtain _ | ⟨a, before⟩ := before
      · cases hsplit
        exact absurd hmoved (hnone movedMib List.mem_cons_self)
      · have hmem : oldMib ∈ [movedMib] := by
          rw [(List.cons.inj hsplit).2]
          exact List.mem_append_right before List.mem_cons_self
        exact absurd hmem (by decide)
    · obtain rfl | rfl : e = ⟨"acmeRoot", ["enterprises", "2"]⟩ ∨ e = ⟨"acme", ["acmeRoot", "0"]⟩ := by
        simpa [movedMib] using he
      · exact opensLast_moved 0 [⟨⟨"acme", ["acmeRoot", "0"]⟩, movedMib⟩]
          ⟨[⟨⟨"acme", ["enterprises", "1"]⟩, oldMib⟩], rfl⟩ (by decide +kernel) (by decide)
      · exact opensLast_moved 1 []
          ⟨[⟨⟨"acme", ["enterprises", "1"]⟩, oldMib⟩, ⟨⟨"acmeRoot", ["enterprises", "2"]⟩, movedMib⟩], rfl⟩
          (by decide +kernel) (by decide)
  · cases hm
  · cases hm
  · cases hm

/-- The module uploaded later, with another number for the same symbol. -/
def newMib : LoadedMib := ⟨"new", "ACME-MIB", none, none, [⟨"acme", ["enterprises", "2"]⟩]⟩

/-- The older of two modules wins. -/
theorem older_upload_wins :
    LastDefining (layersOf id [oldMib, newMib] none none) 0 "acme" newMib ∧
      resolveScope id (some [oldMib, newMib]) none none "acme" =
        some ⟨"1.3.6.1.4.1.1", some "old", some "ACME-MIB", .generic⟩ ∧
      ¬ LastWins (layersOf id [oldMib, newMib] none none)
        (resolveScope id (some [oldMib, newMib]) none none) := by
  have hlast : LastDefining (layersOf id [oldMib, newMib] none none) 0 "acme" newMib := by
    refine ⟨⟨[oldMib], [], rfl, by simp⟩, ⟨⟨"acme", ["enterprises", "2"]⟩, by decide, rfl, ?_⟩, ?_⟩
    · decide +kernel
    · intro j hj m' hm'
      obtain _ | _ | _ | j := j
      · omega
      · cases hm'
      · cases hm'
      · cases hm'
  have hold : resolveScope id (some [oldMib, newMib]) none none "acme" =
      some ⟨"1.3.6.1.4.1.1", some "old", some "ACME-MIB", .generic⟩ := by decide +kernel
  refine ⟨hlast, hold, fun h => ?_⟩
  obtain ⟨e, -, -, t, oid, -, -, hentry⟩ := h 0 "acme" newMib hlast
  rw [hold] at hentry
  simp [newMib] at hentry

end Uploads

end Polaris.OidPrecedence
