import Polaris.OidRegistry

namespace Polaris.OidScope

open Polaris.Lib.Worklist Polaris.OidRegistry

section Parts

variable {numeric numeric' : String → Option String} {parts : List String} {oid : String}

def symbols (parts : List String) : List String := parts.filter fun p => !isInteger p

theorem partText_congr {p : String} (h : isInteger p = false → numeric p = numeric' p) :
    partText numeric p = partText numeric' p := by
  unfold partText
  split
  · rfl
  · rename_i hp
    exact h (by simpa using hp)

theorem tryResolveParts_congr (h : ∀ p ∈ symbols parts, numeric p = numeric' p) :
    tryResolveParts parts numeric = tryResolveParts parts numeric' := by
  have hp : ∀ p ∈ parts, partText numeric p = partText numeric' p := fun p hp =>
    partText_congr fun hi => h p (List.mem_filter.mpr ⟨hp, by simp [hi]⟩)
  cases parts with
  | nil => rfl
  | cons head rest =>
    have hfold : ∀ base, rest.foldlM (fun acc p => do return acc ++ "." ++ (← partText numeric p)) base =
        rest.foldlM (fun acc p => do return acc ++ "." ++ (← partText numeric' p)) base := by
      have hr : ∀ p ∈ rest, partText numeric p = partText numeric' p :=
        fun p h => hp p (List.mem_cons_of_mem head h)
      clear hp h
      induction rest with
      | nil => exact fun _ => rfl
      | cons q rest ih =>
        intro base
        rw [List.foldlM_cons, List.foldlM_cons, hr q List.mem_cons_self]
        exact congrArg _ (funext fun b => ih (fun p h => hr p (List.mem_cons_of_mem q h)) b)
    simp only [tryResolveParts, hp head List.mem_cons_self, hfold]

theorem tryResolveParts_isSome_iff :
    (tryResolveParts parts numeric).isSome ↔ parts ≠ [] ∧ ∀ p ∈ symbols parts, (numeric p).isSome := by
  have htext : ∀ p, (partText numeric p).isSome ↔ (isInteger p = false → (numeric p).isSome) := by
    intro p
    cases hp : isInteger p <;> simp [partText, hp]
  have hfold : ∀ (rest : List String) (base : String),
      (rest.foldlM (fun acc p => do return acc ++ "." ++ (← partText numeric p)) base).isSome ↔
        ∀ p ∈ rest, (partText numeric p).isSome := by
    intro rest
    induction rest with
    | nil => simp
    | cons q rest ih =>
      intro base
      rw [List.foldlM_cons, List.forall_mem_cons]
      cases hq : partText numeric q with
      | none => simp
      | some text => simpa using ih _
  have hall : (tryResolveParts parts numeric).isSome ↔
      parts ≠ [] ∧ ∀ p ∈ parts, (partText numeric p).isSome := by
    cases parts with
    | nil => simp [tryResolveParts]
    | cons head rest =>
      rw [List.forall_mem_cons]
      cases hh : partText numeric head with
      | none => simp [tryResolveParts, hh]
      | some base => simpa [tryResolveParts, hh] using hfold rest base
  simp only [hall, htext, symbols, List.mem_filter, Bool.not_eq_true', and_imp]

theorem tryResolveParts_mono (h : tryResolveParts parts numeric = some oid)
    (hkeep : ∀ p ∈ symbols parts, ∀ o, numeric p = some o → numeric' p = some o) :
    tryResolveParts parts numeric' = some oid := by
  rw [← h]
  refine (tryResolveParts_congr fun p hp => ?_).symm
  have hsome := (tryResolveParts_isSome_iff.mp (Option.isSome_of_eq_some h)).2 p hp
  obtain ⟨o, ho⟩ := Option.isSome_iff_exists.mp hsome
  rw [ho, hkeep p hp o ho]

end Parts

section Layers

variable {layer : Layer} {items rest : List Pending} {t t' : Table} {V : String → Option String}

def names (items : List Pending) : List String := items.map (·.entry.name)

def sourced (layer : Layer) (i : Pending) (oid : String) : ResolvedSymbol :=
  ⟨oid, some i.mib.id, some i.mib.moduleName, layer⟩

/-- Two tables say the same of a name. -/
def SameAt (t t' : Table) (n : String) : Prop :=
  t'.numeric n = t.numeric n ∧ t'.provenance n = t.provenance n

theorem resolveEntry_eq_some {i : Pending} :
    resolveEntry layer i t = some t' ↔ ∃ oid, tryResolveParts i.entry.parts t.numeric = some oid ∧
      t' = t.set i.entry.name (sourced layer i oid) := by
  rw [resolveEntry, Option.map_eq_some_iff]
  exact exists_congr fun oid => and_congr_right fun _ => eq_comm

theorem resolveEntry_eq_none {i : Pending} :
    resolveEntry layer i t = none ↔ tryResolveParts i.entry.parts t.numeric = none :=
  Option.map_eq_none_iff

theorem set_sameAt {n name : String} (r : ResolvedSymbol) (h : n ≠ name) :
    SameAt t (t.set name r) n :=
  ⟨Function.update_of_ne h _ _, Function.update_of_ne h _ _⟩

@[simp]
theorem set_numeric_self (name : String) (r : ResolvedSymbol) :
    (t.set name r).numeric name = some r.oid := Function.update_self ..

@[simp]
theorem set_provenance_self (name : String) (r : ResolvedSymbol) :
    (t.set name r).provenance name = some r := Function.update_self ..

theorem SameAt.trans {t'' : Table} {n : String} (h : SameAt t t' n) (h' : SameAt t' t'' n) :
    SameAt t t'' n := ⟨h'.1.trans h.1, h'.2.trans h.2⟩

theorem names_cons {i : Pending} {others : List Pending} (hi : items.Perm (i :: others)) {n : String} :
    n ∈ names items ↔ n = i.entry.name ∨ n ∈ names others := by
  rw [names, (hi.map (·.entry.name)).mem_iff, List.map_cons, List.mem_cons]
  rfl

theorem names_nodup {i : Pending} {others : List Pending} (hi : items.Perm (i :: others)) :
    (names items).Nodup ↔ i.entry.name ∉ names others ∧ (names others).Nodup := by
  rw [names, (hi.map (·.entry.name)).nodup_iff, List.map_cons, List.nodup_cons]
  rfl

theorem drains_frame (h : Drains (resolveEntry layer) items t rest t') {n : String}
    (hn : n ∉ names items) : SameAt t t' n := by
  induction h with
  | done => exact ⟨rfl, rfl⟩
  | take hi happly _ ih =>
    obtain ⟨oid, -, rfl⟩ := resolveEntry_eq_some.mp happly
    rw [names_cons hi, not_or] at hn
    exact (set_sameAt _ hn.1).trans (ih hn.2)

theorem drains_mono (h : Drains (resolveEntry layer) items t rest t') {n : String}
    (hn : (t.numeric n).isSome) : (t'.numeric n).isSome := by
  induction h with
  | done => exact hn
  | @take items i others rest t _ _ _ happly _ ih =>
    obtain ⟨oid, -, rfl⟩ := resolveEntry_eq_some.mp happly
    apply ih
    by_cases hname : n = i.entry.name
    · rw [hname, set_numeric_self]
      rfl
    · rwa [(set_sameAt _ hname).1]

/-- What a table holds of the agreed names is what was agreed. -/
def Agrees (V : String → Option String) (t : Table) : Prop :=
  ∀ n o v, t.numeric n = some o → V n = some v → o = v

/-- A definition of an agreed name gives what was agreed. -/
def Keeps (V : String → Option String) (e : ParsedAssignment) : Prop :=
  (V e.name).isSome → tryResolveParts e.parts V = V e.name

theorem Agrees.resolve {e : ParsedAssignment} {oid v : String} (ht : Agrees V t) (he : Keeps V e)
    (hr : tryResolveParts e.parts t.numeric = some oid) (hv : V e.name = some v) : oid = v := by
  have hV := he (Option.isSome_of_eq_some hv)
  have hdef := (tryResolveParts_isSome_iff.mp (Option.isSome_of_eq_some (hV.trans hv))).2
  have hkeep : tryResolveParts e.parts V = some oid := by
    refine tryResolveParts_mono hr fun p hp o ho => ?_
    obtain ⟨w, hw⟩ := Option.isSome_iff_exists.mp (hdef p hp)
    rw [hw, ht p o w ho hw]
  exact Option.some.inj (hkeep.symm.trans (hV.trans hv))

theorem drains_agrees (h : Drains (resolveEntry layer) items t rest t')
    (hk : ∀ i ∈ items, Keeps V i.entry) (ht : Agrees V t) : Agrees V t' := by
  induction h with
  | done => exact ht
  | @take items i others rest t _ _ hi happly _ ih =>
    obtain ⟨oid, hr, rfl⟩ := resolveEntry_eq_some.mp happly
    have hik := hk i (hi.mem_iff.mpr List.mem_cons_self)
    refine ih (fun j hj => hk j (hi.mem_iff.mpr (List.mem_cons_of_mem i hj))) ?_
    intro n o v ho hv
    by_cases hname : n = i.entry.name
    · subst hname
      rw [set_numeric_self] at ho
      exact (Option.some.inj ho) ▸ ht.resolve hik hr hv
    · rw [(set_sameAt _ hname).1] at ho
      exact ht n o v ho hv

/-- A symbol whose value, once there, stays what it is while a layer is
resolved: an agreed one, or one that the layer does not define anew. -/
def Steady (V : String → Option String) (items : List Pending) (t : Table) (p : String) : Prop :=
  (V p).isSome ∨ (p ∈ names items → t.numeric p = none)

theorem steady_keeps (h : Drains (resolveEntry layer) items t rest t')
    (hk : ∀ i ∈ items, Keeps V i.entry) (ht : Agrees V t) {p o : String}
    (hp : Steady V items t p) (ho : t.numeric p = some o) : t'.numeric p = some o := by
  obtain hV | hn := hp
  · obtain ⟨v, hv⟩ := Option.isSome_iff_exists.mp hV
    obtain ⟨o', ho'⟩ := Option.isSome_iff_exists.mp (drains_mono h (Option.isSome_of_eq_some ho))
    rw [ho', drains_agrees h hk ht p o' v ho' hv, ht p o v ho hv]
  · have hfree : p ∉ names items := fun hm => by rw [hn hm] at ho; cases ho
    rw [(drains_frame h hfree).1, ho]

/-- What a layer leaves at the name of one of its definitions. -/
def Settled (layer : Layer) (t t' : Table) (i : Pending) : Prop :=
  match tryResolveParts i.entry.parts t'.numeric with
  | some oid => t'.numeric i.entry.name = some oid ∧
      t'.provenance i.entry.name = some (sourced layer i oid)
  | none => SameAt t t' i.entry.name

theorem drains_settled (h : Drains (resolveEntry layer) items t rest t')
    (hstuck : ∀ i ∈ rest, resolveEntry layer i t' = none) (hnd : (names items).Nodup)
    (hk : ∀ i ∈ items, Keeps V i.entry) (ht : Agrees V t)
    (hs : ∀ i ∈ items, ∀ p ∈ symbols i.entry.parts, Steady V items t p) :
    ∀ i ∈ items, Settled layer t t' i := by
  induction h with
  | done items t =>
    intro i hi
    rw [Settled, resolveEntry_eq_none.mp (hstuck i hi)]
    exact ⟨rfl, rfl⟩
  | @take items i others rest t t₁ t' hi happly h ih =>
    have hdrains := Drains.take hi happly h
    obtain ⟨oid, hr, rfl⟩ := resolveEntry_eq_some.mp happly
    have hmem : ∀ j ∈ others, j ∈ items := fun j hj => hi.mem_iff.mpr (List.mem_cons_of_mem i hj)
    have hii : i ∈ items := hi.mem_iff.mpr List.mem_cons_self
    obtain ⟨hnot, hnd'⟩ := (names_nodup hi).mp hnd
    have hne : ∀ n ∈ names others, n ≠ i.entry.name := fun n hn he => hnot (he ▸ hn)
    have ht₁ := drains_agrees (Drains.take hi happly (.done others _)) hk ht
    have hs₁ : ∀ j ∈ others, ∀ p ∈ symbols j.entry.parts,
        Steady V others (t.set i.entry.name (sourced layer i oid)) p := by
      intro j hj p hp
      refine (hs j (hmem j hj) p hp).imp id fun hn hm => ?_
      rw [(set_sameAt _ (hne p hm)).1]
      exact hn ((names_cons hi).mpr (.inr hm))
    intro j hj
    obtain rfl | hj := List.mem_cons.mp (hi.mem_iff.mp hj)
    · have hresolve : tryResolveParts j.entry.parts t'.numeric = some oid :=
        tryResolveParts_mono hr fun p hp o ho => steady_keeps hdrains hk ht (hs j hii p hp) ho
      have hframe := drains_frame h hnot
      rw [Settled, hresolve]
      exact ⟨by rw [hframe.1, set_numeric_self]; rfl, by rw [hframe.2, set_provenance_self]⟩
    · have hlater := ih hstuck hnd' (fun j hj => hk j (hmem j hj)) ht₁ hs₁ j hj
      have hname := hne _ (List.mem_map_of_mem hj)
      unfold Settled at hlater ⊢
      split
      · rename_i hresolve
        rwa [hresolve] at hlater
      · rename_i hresolve
        rw [hresolve] at hlater
        exact (set_sameAt _ hname).trans hlater

/-- What a definition says, and what the table shows of its module. -/
def keyOf (i : Pending) : ParsedAssignment × String × String :=
  (i.entry, i.mib.id, i.mib.moduleName)

theorem sourced_congr {i j : Pending} (h : keyOf i = keyOf j) : sourced layer i = sourced layer j := by
  simp only [keyOf, Prod.mk.injEq] at h
  funext oid
  rw [sourced, sourced, h.2.1, h.2.2]

/-- A layer was resolved: definitions were taken until none of those left
applies. -/
def Ran (layer : Layer) (items : List Pending) (t t' : Table) : Prop :=
  ∃ rest, Drains (resolveEntry layer) items t rest t' ∧ ∀ i ∈ rest, resolveEntry layer i t' = none

/-- No definition of a layer refers to what the layer redefines. -/
structure Readable (V : String → Option String) (items : List Pending) (t : Table) : Prop where
  once : (names items).Nodup
  agrees : Agrees V t
  keeps : ∀ i ∈ items, Keeps V i.entry
  steady : ∀ i ∈ items, ∀ p ∈ symbols i.entry.parts, Steady V items t p

theorem Ran.settled (h : Ran layer items t t') (hr : Readable V items t) :
    ∀ i ∈ items, Settled layer t t' i := by
  obtain ⟨rest, hd, hstuck⟩ := h
  exact drains_settled hd hstuck hr.once hr.keeps hr.agrees hr.steady

theorem names_perm {items' : List Pending} (hp : (items.map keyOf).Perm (items'.map keyOf)) :
    (names items).Perm (names items') := by
  have := hp.map (·.1.name)
  rwa [List.map_map, List.map_map] at this

theorem Readable.perm {items' : List Pending} (hr : Readable V items t)
    (hp : (items.map keyOf).Perm (items'.map keyOf)) : Readable V items' t := by
  have hnames := names_perm hp
  have hback : ∀ i' ∈ items', ∃ i ∈ items, keyOf i = keyOf i' := fun i' hi' =>
    List.mem_map.mp (hp.mem_iff.mpr (List.mem_map_of_mem hi'))
  refine ⟨hnames.nodup_iff.mp hr.once, hr.agrees, fun i' hi' => ?_, fun i' hi' p hp' => ?_⟩
  · obtain ⟨i, hi, hk⟩ := hback i' hi'
    have he : i.entry = i'.entry := congrArg Prod.fst hk
    exact he ▸ hr.keeps i hi
  · obtain ⟨i, hi, hk⟩ := hback i' hi'
    have he : i.entry = i'.entry := congrArg Prod.fst hk
    refine (hr.steady i hi p (he ▸ hp')).imp id fun hn hm => ?_
    exact hn (hnames.mem_iff.mpr hm)

/-- Whatever one order of resolution finds, another that settles finds as
well. -/
theorem drains_follow (reads : String → Prop) (h : Drains (resolveEntry layer) items t rest t')
    {s : Table} (hreads : ∀ i ∈ items, ∀ p ∈ symbols i.entry.parts, reads p)
    (hset : ∀ i ∈ items, ∀ oid, tryResolveParts i.entry.parts s.numeric = some oid →
      s.numeric i.entry.name = some oid)
    (ht : ∀ p o, reads p → t.numeric p = some o → s.numeric p = some o) :
    ∀ p o, reads p → t'.numeric p = some o → s.numeric p = some o := by
  induction h with
  | done => exact ht
  | @take items i others rest t _ _ hi happly _ ih =>
    obtain ⟨oid, hr, rfl⟩ := resolveEntry_eq_some.mp happly
    have hmem : ∀ j ∈ others, j ∈ items := fun j hj => hi.mem_iff.mpr (List.mem_cons_of_mem i hj)
    have hii : i ∈ items := hi.mem_iff.mpr List.mem_cons_self
    refine ih (fun j hj => hreads j (hmem j hj)) (fun j hj => hset j (hmem j hj)) ?_
    intro p o hp ho
    by_cases hname : p = i.entry.name
    · rw [hname, set_numeric_self] at ho
      cases ho
      rw [hname]
      exact hset i hii oid (tryResolveParts_mono hr fun q hq o => ht q o (hreads i hii q hq))
    · rw [(set_sameAt _ hname).1] at ho
      exact ht p o hp ho

theorem Ran.resolves {items' : List Pending} {s : Table} (h : Ran layer items t t')
    (h' : Ran layer items' t s) (hr : Readable V items t)
    (hp : (items.map keyOf).Perm (items'.map keyOf)) {i : Pending} (hi : i ∈ items)
    {oid : String} (ho : tryResolveParts i.entry.parts t'.numeric = some oid) :
    tryResolveParts i.entry.parts s.numeric = some oid := by
  obtain ⟨rest, hd, -⟩ := h
  have hr' := hr.perm hp
  have hpair : ∀ i ∈ items, ∃ i' ∈ items', i'.entry = i.entry := by
    intro i hi
    obtain ⟨i', hi', hk⟩ := List.mem_map.mp (hp.mem_iff.mp (List.mem_map_of_mem hi))
    exact ⟨i', hi', congrArg Prod.fst hk⟩
  have hreads : ∀ i ∈ items, ∀ p ∈ symbols i.entry.parts, Steady V items' t p := by
    intro i hi p hp
    obtain ⟨i', hi', he⟩ := hpair i hi
    exact hr'.steady i' hi' p (he ▸ hp)
  have hset : ∀ i ∈ items, ∀ oid, tryResolveParts i.entry.parts s.numeric = some oid →
      s.numeric i.entry.name = some oid := by
    intro i hi oid ho
    obtain ⟨i', hi', he⟩ := hpair i hi
    have := h'.settled hr' i' hi'
    rw [Settled, he, ho] at this
    exact this.1
  obtain ⟨rest', hd', -⟩ := h'
  have hkeep := drains_follow (Steady V items' t) hd hreads hset
    fun p o hp ho => steady_keeps hd' hr'.keeps hr'.agrees hp ho
  exact tryResolveParts_mono ho fun p hp' o => hkeep p o (hreads i hi p hp')

/-- The table a layer leaves does not depend on the order of its
definitions. -/
theorem Ran.unique {items' : List Pending} {s : Table} (h : Ran layer items t t')
    (h' : Ran layer items' t s) (hr : Readable V items t)
    (hp : (items.map keyOf).Perm (items'.map keyOf)) : t' = s := by
  have hr' := hr.perm hp
  have hsame : ∀ n, SameAt t' s n := by
    intro n
    by_cases hn : n ∈ names items
    · obtain ⟨i, hi, rfl⟩ := List.mem_map.mp hn
      obtain ⟨i', hi', hk⟩ := List.mem_map.mp (hp.mem_iff.mp (List.mem_map_of_mem hi))
      have he : i'.entry = i.entry := congrArg Prod.fst hk
      have hs := h.settled hr i hi
      have hs' := h'.settled hr' i' hi'
      rw [Settled, he] at hs'
      rw [Settled] at hs
      cases ho : tryResolveParts i.entry.parts t'.numeric with
      | some oid =>
        rw [h.resolves h' hr hp hi ho, sourced_congr hk] at hs'
        rw [ho] at hs
        exact ⟨hs'.1.trans hs.1.symm, hs'.2.trans hs.2.symm⟩
      | none =>
        have hnone : tryResolveParts i.entry.parts s.numeric = none := by
          rw [Option.eq_none_iff_forall_ne_some]
          intro oid ho'
          have := h'.resolves h hr' hp.symm hi' (he ▸ ho')
          rw [he, ho] at this
          cases this
        rw [hnone] at hs'
        rw [ho] at hs
        exact ⟨hs'.1.trans hs.1.symm, hs'.2.trans hs.2.symm⟩
    · obtain ⟨rest, hd, -⟩ := h
      obtain ⟨rest', hd', -⟩ := h'
      have hn' : n ∉ names items' := fun hm => hn ((names_perm hp).mem_iff.mpr hm)
      have hf := drains_frame hd hn
      have hf' := drains_frame hd' hn'
      exact ⟨hf'.1.trans hf.1.symm, hf'.2.trans hf.2.symm⟩
  obtain ⟨numeric, provenance⟩ := t'
  obtain ⟨numeric', provenance'⟩ := s
  rw [Table.mk.injEq]
  exact ⟨funext fun n => (hsame n).1.symm, funext fun n => (hsame n).2.symm⟩

end Layers

section Stages

variable {layers : List (Layer × List LoadedMib)}

def definitionsAt (layers : List (Layer × List LoadedMib)) (i : Nat) : List ParsedAssignment :=
  ((layers[i]?).map fun l => l.2.flatMap (·.entries)).getD []

def definedAt (layers : List (Layer × List LoadedMib)) (i : Nat) : List String :=
  (definitionsAt layers i).map (·.name)

/-- All definitions of an agreed symbol give its agreed OID, and no
definition refers to another symbol that its own layer redefines or a later
one defines. Within a layer every name is defined once: where two modules
define it alike, the order within one decides which of them the map names. -/
structure Unambiguous (layers : List (Layer × List LoadedMib)) (V : String → Option String)
    (rank : String → Nat) : Prop where
  once : ∀ i, (definedAt layers i).Nodup
  seeded : ∀ n o v, seed n = some o → V n = some v → o = v
  agreed : ∀ i, ∀ e ∈ definitionsAt layers i, (V e.name).isSome →
    tryResolveParts e.parts V = V e.name ∧ ∀ p ∈ symbols e.parts, rank p < rank e.name
  reads : ∀ i, ∀ e ∈ definitionsAt layers i, ∀ p ∈ symbols e.parts,
    if (V p).isSome then (seed p).isSome ∨ ∃ j ≤ i, p ∈ definedAt layers j
    else (∀ j > i, p ∉ definedAt layers j) ∧
      (p ∈ definedAt layers i → seed p = none ∧ ∀ j < i, p ∉ definedAt layers j)

def itemsAt (layers : List (Layer × List LoadedMib)) (i : Nat) : List Pending :=
  ((layers[i]?).map fun l => pendingOf l.2).getD []

def tagAt (layers : List (Layer × List LoadedMib)) (i : Nat) : Layer :=
  ((layers[i]?).map (·.1)).getD .seed

def stage (layers : List (Layer × List LoadedMib)) (i : Nat) : Table :=
  (layers.take i).foldl resolveLayer seedTable

theorem definitionsAt_eq (i : Nat) : definitionsAt layers i = (itemsAt layers i).map (·.entry) := by
  rw [definitionsAt, itemsAt]
  cases layers[i]? with
  | none => rfl
  | some l =>
    simp only [Option.map_some, Option.getD_some, pendingOf, List.map_flatMap, List.map_map]
    simp [Function.comp_def]

theorem definedAt_eq (i : Nat) : definedAt layers i = names (itemsAt layers i) := by
  rw [definedAt, definitionsAt_eq, List.map_map]
  rfl

variable (layers) in
theorem stage_ran (i : Nat) :
    Ran (tagAt layers i) (itemsAt layers i) (stage layers i) (stage layers (i + 1)) := by
  rw [stage, stage, tagAt, itemsAt, List.take_add_one]
  cases layers[i]? with
  | none => exact ⟨[], by simpa using Drains.done _ _, by simp⟩
  | some l =>
    simp only [Option.map_some, Option.getD_some, Option.toList_some, List.foldl_append]
    exact settle_drains (le_refl _)

variable {V : String → Option String} {rank : String → Nat}

theorem stage_frame {i k : Nat} (hik : i ≤ k) {p : String}
    (hp : ∀ j, i ≤ j → j < k → p ∉ definedAt layers j) : SameAt (stage layers i) (stage layers k) p := by
  induction k, hik using Nat.le_induction with
  | base => exact ⟨rfl, rfl⟩
  | succ k hik ih =>
    obtain ⟨rest, hd, -⟩ := stage_ran layers k
    have hk := hp k hik (Nat.lt_succ_self k)
    rw [definedAt_eq] at hk
    exact (ih fun j hj hjk => hp j hj (by omega)).trans (drains_frame hd hk)

theorem stage_mono {i k : Nat} (hik : i ≤ k) {p : String} (hp : ((stage layers i).numeric p).isSome) :
    ((stage layers k).numeric p).isSome := by
  induction k, hik using Nat.le_induction with
  | base => exact hp
  | succ k _ ih =>
    obtain ⟨rest, hd, -⟩ := stage_ran layers k
    exact drains_mono hd ih

theorem Unambiguous.keeps (h : Unambiguous layers V rank) {i : Nat} :
    ∀ x ∈ itemsAt layers i, Keeps V x.entry := fun x hx hV =>
  (h.agreed i x.entry (definitionsAt_eq i ▸ List.mem_map_of_mem hx) hV).1

theorem Unambiguous.agrees (h : Unambiguous layers V rank) (i : Nat) : Agrees V (stage layers i) := by
  induction i with
  | zero => exact h.seeded
  | succ i ih =>
    obtain ⟨rest, hd, -⟩ := stage_ran layers i
    exact drains_agrees hd h.keeps ih

theorem Unambiguous.readable (h : Unambiguous layers V rank) (i : Nat) :
    Readable V (itemsAt layers i) (stage layers i) := by
  refine ⟨definedAt_eq i ▸ h.once i, h.agrees i, h.keeps, fun x hx p hp => ?_⟩
  have hreads := h.reads i x.entry (definitionsAt_eq i ▸ List.mem_map_of_mem hx) p hp
  by_cases hV : (V p).isSome
  · exact .inl hV
  · rw [if_neg hV] at hreads
    refine .inr fun hm => ?_
    obtain ⟨hseed, hbelow⟩ := hreads.2 (definedAt_eq i ▸ hm)
    rw [(stage_frame (Nat.zero_le i) fun j _ hj => hbelow j hj).1]
    exact hseed

theorem Unambiguous.settled (h : Unambiguous layers V rank) {i : Nat} {x : Pending}
    (hx : x ∈ itemsAt layers i) :
    Settled (tagAt layers i) (stage layers i) (stage layers (i + 1)) x :=
  (stage_ran layers i).settled (h.readable i) x hx

/-- An agreed symbol is there once a layer that may define it is done. -/
theorem Unambiguous.available (h : Unambiguous layers V rank) {i : Nat} {p : String}
    (hV : (V p).isSome) (hp : (seed p).isSome ∨ ∃ j ≤ i, p ∈ definedAt layers j) :
    ((stage layers (i + 1)).numeric p).isSome := by
  induction hr : rank p using Nat.strong_induction_on generalizing p i with
  | _ r ih =>
    obtain hseed | ⟨j, hj, hd⟩ := hp
    · exact stage_mono (Nat.zero_le _) hseed
    · refine stage_mono (Nat.succ_le_succ hj) ?_
      rw [definedAt_eq] at hd
      obtain ⟨x, hx, rfl⟩ := List.mem_map.mp hd
      have he : x.entry ∈ definitionsAt layers j := definitionsAt_eq j ▸ List.mem_map_of_mem hx
      obtain ⟨hagreed, hrank⟩ := h.agreed j x.entry he hV
      have hsome := tryResolveParts_isSome_iff.mp (hagreed ▸ hV)
      have hparts : ∀ q ∈ symbols x.entry.parts, ((stage layers (j + 1)).numeric q).isSome := by
        intro q hq
        have hreads := h.reads j x.entry he q hq
        rw [if_pos (hsome.2 q hq)] at hreads
        exact ih (rank q) (hr ▸ hrank q hq) (hsome.2 q hq) hreads rfl
      obtain ⟨oid, ho⟩ := Option.isSome_iff_exists.mp (tryResolveParts_isSome_iff.mpr ⟨hsome.1, hparts⟩)
      have hset := h.settled hx
      rw [Settled, ho] at hset
      exact Option.isSome_of_eq_some hset.1

/-- What a definition refers to is, once its layer is done, what it is in
the end. -/
theorem Unambiguous.resolves_alike (h : Unambiguous layers V rank) {i k : Nat} (hik : i < k)
    {x : Pending} (hx : x ∈ itemsAt layers i) :
    tryResolveParts x.entry.parts (stage layers k).numeric =
      tryResolveParts x.entry.parts (stage layers (i + 1)).numeric := by
  refine tryResolveParts_congr fun p hp => ?_
  have hreads := h.reads i x.entry (definitionsAt_eq i ▸ List.mem_map_of_mem hx) p hp
  by_cases hV : (V p).isSome
  · rw [if_pos hV] at hreads
    have hthere := h.available hV hreads
    obtain ⟨v, hv⟩ := Option.isSome_iff_exists.mp hV
    obtain ⟨o, ho⟩ := Option.isSome_iff_exists.mp hthere
    obtain ⟨o', ho'⟩ := Option.isSome_iff_exists.mp (stage_mono (Nat.succ_le_of_lt hik) hthere)
    rw [ho, ho', h.agrees _ p o v ho hv, h.agrees _ p o' v ho' hv]
  · rw [if_neg hV] at hreads
    exact (stage_frame (Nat.succ_le_of_lt hik) fun j hj _ => hreads.1 j hj).1

def lastDefinition (definitions : List ParsedAssignment) (numeric : String → Option String)
    (name : String) : Option String :=
  (definitions.reverse.filter (·.name = name)).findSome? fun e => tryResolveParts e.parts numeric

def winning (layers : List (Layer × List LoadedMib)) (numeric : String → Option String)
    (name : String) : Option String :=
  layers.foldl (fun below l => (lastDefinition (l.2.flatMap (·.entries)) numeric name).or below)
    (seed name)

theorem filter_name {definitions : List ParsedAssignment} {e : ParsedAssignment}
    (hnd : (definitions.map (·.name)).Nodup) (he : e ∈ definitions) :
    definitions.filter (·.name = e.name) = [e] := by
  induction definitions with
  | nil => cases he
  | cons d ds ih =>
    obtain ⟨hd, hnd⟩ := List.nodup_cons.mp hnd
    obtain rfl | he := List.mem_cons.mp he
    · rw [List.filter_cons_of_pos (by simp), List.filter_eq_nil_iff.mpr]
      intro d' hd' hname
      exact hd (List.mem_map.mpr ⟨d', hd', of_decide_eq_true hname⟩)
    · have hne : d.name ≠ e.name := fun h => hd (List.mem_map.mpr ⟨e, he, h.symm⟩)
      rw [List.filter_cons_of_neg (by simpa using hne), ih hnd he]

theorem lastDefinition_of_mem {definitions : List ParsedAssignment} {e : ParsedAssignment}
    {numeric : String → Option String} (hnd : (definitions.map (·.name)).Nodup)
    (he : e ∈ definitions) : lastDefinition definitions numeric e.name =
      tryResolveParts e.parts numeric := by
  rw [lastDefinition, List.filter_reverse, filter_name hnd he]
  simp

theorem lastDefinition_of_not_mem {definitions : List ParsedAssignment} {name : String}
    {numeric : String → Option String} (hn : name ∉ definitions.map (·.name)) :
    lastDefinition definitions numeric name = none := by
  rw [lastDefinition, List.filter_reverse, List.filter_eq_nil_iff.mpr]
  · rfl
  · intro e he hname
    exact hn (List.mem_map.mpr ⟨e, he, of_decide_eq_true hname⟩)

theorem winning_take {i : Nat} (hi : i < layers.length) (numeric : String → Option String)
    (name : String) : winning (layers.take (i + 1)) numeric name =
      (lastDefinition (definitionsAt layers i) numeric name).or
        (winning (layers.take i) numeric name) := by
  rw [winning, List.take_add_one, List.foldl_append, definitionsAt, List.getElem?_eq_getElem hi]
  rfl

theorem Unambiguous.stage_winning (h : Unambiguous layers V rank) {i : Nat} (hi : i ≤ layers.length)
    (n : String) : (stage layers i).numeric n =
      winning (layers.take i) (stage layers layers.length).numeric n := by
  induction i with
  | zero => rfl
  | succ i ih =>
    have ih := ih (by omega)
    rw [winning_take hi]
    by_cases hn : n ∈ definedAt layers i
    · rw [definedAt_eq] at hn
      obtain ⟨x, hx, rfl⟩ := List.mem_map.mp hn
      have hset := h.settled hx
      have hlast : lastDefinition (definitionsAt layers i) (stage layers layers.length).numeric
          x.entry.name = tryResolveParts x.entry.parts (stage layers (i + 1)).numeric := by
        rw [lastDefinition_of_mem (h.once i) (definitionsAt_eq i ▸ List.mem_map_of_mem hx)]
        exact h.resolves_alike hi hx
      rw [Settled] at hset
      rw [hlast]
      cases ho : tryResolveParts x.entry.parts (stage layers (i + 1)).numeric with
      | some oid =>
        rw [ho] at hset
        exact hset.1
      | none =>
        rw [ho] at hset
        exact hset.1.trans ih
    · rw [lastDefinition_of_not_mem hn, Option.none_or, ← ih]
      refine (stage_frame (Nat.le_succ i) fun j hj hjk => ?_).1
      obtain rfl : j = i := by omega
      exact hn

theorem drains_synced {layer : Layer} {items rest : List Pending} {t t' : Table}
    (h : Drains (resolveEntry layer) items t rest t')
    (ht : ∀ n, t.numeric n = (t.provenance n).map (·.oid)) (n : String) :
    t'.numeric n = (t'.provenance n).map (·.oid) := by
  induction h with
  | done => exact ht n
  | @take items i others rest t _ _ _ happly _ ih =>
    obtain ⟨oid, -, rfl⟩ := resolveEntry_eq_some.mp happly
    refine ih fun m => ?_
    by_cases hm : m = i.entry.name
    · rw [hm, set_numeric_self, set_provenance_self, Option.map_some]
    · rw [(set_sameAt _ hm).1, (set_sameAt _ hm).2, ht m]

theorem stage_synced (i : Nat) (n : String) :
    (stage layers i).numeric n = ((stage layers i).provenance n).map (·.oid) := by
  induction i generalizing n with
  | zero => simp [stage, seedTable, Function.comp_def]
  | succ i ih =>
    obtain ⟨rest, hd, -⟩ := stage_ran layers i
    exact drains_synced hd ih n

/-- The same module, with its definitions in another order where their
names are distinct. -/
structure Reordered (m m' : LoadedMib) : Prop where
  id : m'.id = m.id
  moduleName : m'.moduleName = m.moduleName
  manufacturer : m'.manufacturer = m.manufacturer
  model : m'.model = m.model
  entries : m'.entries = m.entries ∨ (m.entries.map (·.name)).Nodup ∧ m'.entries.Perm m.entries

theorem pendingOf_perm {ms ms' : List LoadedMib} (h : List.Forall₂ Reordered ms ms') :
    ((pendingOf ms).map keyOf).Perm ((pendingOf ms').map keyOf) := by
  induction h with
  | nil => exact .refl _
  | @cons m m' ms ms' hm _ ih =>
    have hentries : m'.entries.Perm m.entries := hm.entries.elim (fun h => h ▸ .refl _) (·.2)
    simp only [pendingOf, List.flatMap_cons, List.map_append, List.map_map] at ih ⊢
    refine List.Perm.append ?_ ih
    simp only [Function.comp_def, keyOf, hm.id, hm.moduleName]
    exact hentries.symm.map _

theorem stage_reordered {layers' : List (Layer × List LoadedMib)} (h : Unambiguous layers V rank)
    (htag : ∀ i, tagAt layers i = tagAt layers' i)
    (hitems : ∀ i, ((itemsAt layers i).map keyOf).Perm ((itemsAt layers' i).map keyOf)) (i : Nat) :
    stage layers i = stage layers' i := by
  induction i with
  | zero => rfl
  | succ i ih =>
    have hran := stage_ran layers' i
    rw [← ih, ← htag i] at hran
    exact (stage_ran layers i).unique hran (h.readable i) (hitems i)

end Stages

section Claim

variable (toLowerCase : String → String) (mibs : List LoadedMib) (manufacturer model : Option String)

def oidOf (toLowerCase : String → String) (mibs : List LoadedMib) (manufacturer model : Option String)
    (name : String) : Option String :=
  (resolveScope toLowerCase (some mibs) manufacturer model name).map (·.oid)

/-- The map of a scope is a fixed point of the winning definitions, and
does not depend on the order of the definitions within a module. -/
structure Consistent : Prop where
  fixed : ∀ name, oidOf toLowerCase mibs manufacturer model name =
    winning (layersOf toLowerCase mibs manufacturer model)
      (oidOf toLowerCase mibs manufacturer model) name
  unordered : ∀ mibs', List.Forall₂ Reordered mibs mibs' →
    resolveScope toLowerCase (some mibs') manufacturer model =
      resolveScope toLowerCase (some mibs) manufacturer model

theorem resolveScope_eq_stage : resolveScope toLowerCase (some mibs) manufacturer model =
    (stage (layersOf toLowerCase mibs manufacturer model) 3).provenance := rfl

theorem filter_reordered {ms ms' : List LoadedMib} (h : List.Forall₂ Reordered ms ms')
    (q : Option String → Option String → Bool) :
    List.Forall₂ Reordered (ms.filter fun m => q m.manufacturer m.model)
      (ms'.filter fun m => q m.manufacturer m.model) := by
  refine List.rel_filter (fun m m' hm => ?_) h
  simp only [hm.manufacturer, hm.model]

variable {toLowerCase mibs manufacturer model} in
theorem layersOf_reordered {mibs' : List LoadedMib} (h : List.Forall₂ Reordered mibs mibs') (i : Nat) :
    tagAt (layersOf toLowerCase mibs manufacturer model) i =
        tagAt (layersOf toLowerCase mibs' manufacturer model) i ∧
      ((itemsAt (layersOf toLowerCase mibs manufacturer model) i).map keyOf).Perm
        ((itemsAt (layersOf toLowerCase mibs' manufacturer model) i).map keyOf) := by
  refine ⟨?_, ?_⟩
  · obtain _ | _ | _ | i := i <;> rfl
  obtain _ | _ | _ | i := i
  · exact pendingOf_perm (filter_reordered h fun mfr _ => mfr = none)
  · cases hl : lowered toLowerCase manufacturer with
    | none => simp [layersOf, itemsAt, hl]
    | some lc =>
      simp only [layersOf, itemsAt, hl]
      exact pendingOf_perm (filter_reordered h fun mfr mdl => mfr.map toLowerCase = some lc ∧ mdl = none)
  · cases hl : lowered toLowerCase manufacturer with
    | none => simp [layersOf, itemsAt, hl]
    | some lc =>
      cases hm : lowered toLowerCase model with
      | none => simp [layersOf, itemsAt, hl, hm]
      | some lcm =>
        simp only [layersOf, itemsAt, hl, hm]
        exact pendingOf_perm (filter_reordered h fun mfr mdl =>
          mfr.map toLowerCase = some lc ∧ mdl.map toLowerCase = some lcm)
  · exact .refl _

theorem consistent_of_unambiguous (V : String → Option String) (rank : String → Nat)
    (h : Unambiguous (layersOf toLowerCase mibs manufacturer model) V rank) :
    Consistent toLowerCase mibs manufacturer model := by
  have hoid : oidOf toLowerCase mibs manufacturer model =
      (stage (layersOf toLowerCase mibs manufacturer model) 3).numeric :=
    funext fun n => by rw [oidOf, resolveScope_eq_stage, stage_synced]
  refine ⟨fun name => ?_, fun mibs' hm => ?_⟩
  · rw [hoid]
    exact h.stage_winning (le_refl 3) name
  · rw [resolveScope_eq_stage, resolveScope_eq_stage]
    exact congrArg _ (stage_reordered h (fun i => (layersOf_reordered hm i).1)
      (fun i => (layersOf_reordered hm i).2) 3).symm

end Claim

/-- A vendor's module and one for a single model, which declares the root
of the vendor's objects again. -/
def acmeMibs (root : String) : List LoadedMib :=
  [⟨"1", "ACME-MIB", some "acme", none,
      [⟨"acme", ["enterprises", "99999"]⟩, ⟨"acmeCpu", ["acme", "5"]⟩, ⟨"acmeMem", ["acme", "6"]⟩]⟩,
   ⟨"2", "ACME-X1-MIB", some "acme", some "x1",
      [⟨"acme", ["enterprises", root]⟩, ⟨"acmeCpu", ["acme", "7"]⟩]⟩]

def acmeAgreed (n : String) : Option String :=
  if n = "enterprises" then some "1.3.6.1.4.1" else
  if n = "acme" then some "1.3.6.1.4.1.99999" else none

def acmeRank (n : String) : Nat := if n = "acme" then 1 else 0

theorem acme_unambiguous :
    Unambiguous (layersOf id (acmeMibs "99999") (some "acme") (some "x1")) acmeAgreed acmeRank := by
  have hreads : ∀ i < 3, ∀ e ∈ definitionsAt (layersOf id (acmeMibs "99999") (some "acme") (some "x1")) i,
      1 ≤ i ∧ ∀ p ∈ symbols e.parts, (acmeAgreed p).isSome ∧ ((seed p).isSome ∨
        p ∈ definedAt (layersOf id (acmeMibs "99999") (some "acme") (some "x1")) 1) := by
    decide +kernel
  refine ⟨fun i => ?_, fun n o v ho hv => ?_, fun i => ?_, fun i e he p hp => ?_⟩
  · obtain _ | _ | _ | i := i
    · decide +kernel
    · decide +kernel
    · decide +kernel
    · exact List.nodup_nil
  · unfold acmeAgreed at hv
    split at hv
    · rename_i hn
      have hseed : seed "enterprises" = some "1.3.6.1.4.1" := by decide +kernel
      rw [hn, hseed] at ho
      exact Option.some.inj (ho.symm.trans hv)
    · split at hv
      · rename_i hn
        have hseed : seed "acme" = none := by decide +kernel
        rw [hn, hseed] at ho
        cases ho
      · cases hv
  · obtain _ | _ | _ | i := i
    · decide +kernel
    · decide +kernel
    · decide +kernel
    · intro e he
      cases he
  · have hi : i < 3 := by
      by_contra hi
      obtain ⟨k, rfl⟩ := Nat.exists_eq_add_of_le (Nat.le_of_not_lt hi)
      rw [Nat.add_comm] at he
      cases he
    obtain ⟨h1, hparts⟩ := hreads i hi e he
    obtain ⟨hV, hp⟩ := hparts p hp
    rw [if_pos hV]
    exact hp.imp id fun hp => ⟨1, h1, hp⟩

theorem consistent_acme : Consistent id (acmeMibs "99999") (some "acme") (some "x1") :=
  consistent_of_unambiguous id (acmeMibs "99999") (some "acme") (some "x1") acmeAgreed acmeRank
    acme_unambiguous

/-- Two modules that agree on a symbol, the second with its definitions in the
order that is given. -/
def agreeingMibs (entries : List ParsedAssignment) : List LoadedMib :=
  [⟨"1", "ACME-MIB", none, none, [⟨"acmeCpu", ["enterprises", "1", "5"]⟩]⟩,
    ⟨"2", "ACME-CPU-MIB", none, none, entries⟩]

example :
    let source entries :=
      (resolveScope id (some (agreeingMibs entries)) none none "acmeCpu").bind (·.fromMibId)
    source [⟨"acme", ["enterprises", "1"]⟩, ⟨"acmeCpu", ["acme", "5"]⟩] = some "2" ∧
      source [⟨"acmeCpu", ["acme", "5"]⟩, ⟨"acme", ["enterprises", "1"]⟩] = some "1" := by
  decide +kernel

/-- When the module of the model moves the root, what either module hangs
from it stays where it was. -/
theorem moved_root_leaves_dependents :
    oidOf id (acmeMibs "88888") (some "acme") (some "x1") "acme" = some "1.3.6.1.4.1.88888" ∧
    oidOf id (acmeMibs "88888") (some "acme") (some "x1") "acmeMem" = some "1.3.6.1.4.1.99999.6" ∧
    oidOf id (acmeMibs "88888") (some "acme") (some "x1") "acmeCpu" = some "1.3.6.1.4.1.99999.7" ∧
    ¬ Consistent id (acmeMibs "88888") (some "acme") (some "x1") := by
  refine ⟨by decide +kernel, by decide +kernel, by decide +kernel, fun h => ?_⟩
  exact absurd (h.fixed "acmeMem") (by decide +kernel)

end Polaris.OidScope
