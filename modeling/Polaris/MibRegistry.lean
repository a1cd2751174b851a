import Polaris.Lib.Runs
import Polaris.MibService

namespace Polaris.MibRegistry

open Polaris.Lib.Runs Polaris.Lib.Text Polaris.OidRegistry Polaris.MibService
open Polaris.Cidr (Failure)

/-- A stored MIB, with the columns the registry reads. -/
structure MibFile where
  id : String
  moduleName : String
  manufacturer : Option String
  model : Option String
  contents : List Char
  deriving DecidableEq

structure CreateMibInput where
  filename : String
  contents : List Char
  manufacturer : Option String
  model : Option String

def mibFileOf (id : String) (input : CreateMibInput) : Except Failure MibFile := do
  if trim input.filename = "" then throw (.app 400 "filename is required")
  let manufacturer := (input.manufacturer.map trim).filter (· ≠ "")
  let model := (input.model.map trim).filter (· ≠ "")
  if manufacturer = none ∧ model ≠ none then
    throw (.app 400
      "model cannot be set without a manufacturer (generic MIBs apply to all devices)")
  let parsed ← parseMib input.contents
  return ⟨id, parsed.moduleName, manufacturer, model, parsed.cleanText⟩

def MibFile.sameModule (f g : MibFile) : Prop :=
  f.manufacturer = g.manufacturer ∧ f.model = g.model ∧ f.moduleName = g.moduleName

instance (f g : MibFile) : Decidable (f.sameModule g) := inferInstanceAs (Decidable (_ ∧ _ ∧ _))

/-- The unique key over manufacturer, model and module, where nulls are
distinct from each other. -/
def MibFile.clashes (f g : MibFile) : Prop :=
  f.sameModule g ∧ f.manufacturer ≠ none ∧ f.model ≠ none

instance (f g : MibFile) : Decidable (f.clashes g) := inferInstanceAs (Decidable (_ ∧ _ ∧ _))

def loadedMib (f : MibFile) : LoadedMib :=
  ⟨f.id, f.moduleName, f.manufacturer, f.model, parseObjectAssignments f.contents⟩

/-- A `loadInternal` in flight: its query is not answered yet, it holds the
rows it was answered with and the number of writes they reflect, or it has
published them; or the query was rejected. -/
inductive Load
  | asked
  | answered (rows : List MibFile) (seen : Nat)
  | published
  | rejected
  deriving DecidableEq

structure Query where
  name : String
  manufacturer : Option String
  model : Option String
  deriving DecidableEq

inductive Call
  | checking (file : MibFile)
  | inserting (file : MibFile)
  | deleting (id : String)
  | refreshing
  | ensuring (after : Option Query)
  | awaiting (load : Nat) (after : Option Query)
  | looking (q : Query)
  | done
  | resolved (oid : Option String)
  | failed (e : Failure)
  deriving DecidableEq

def Call.finished : Call → Bool
  | .done | .resolved _ | .failed _ => true
  | _ => false

/-- The module state of the registry beside the table of MIBs. The number
of writes, and how many of them the published table reflects, are kept for
the record. -/
structure State where
  db : List MibFile
  mibs : Option (List LoadedMib) := none
  loading : Option Nat := none
  scopeCache : List (String × (String → Option ResolvedSymbol)) := []
  loads : List Load := []
  calls : List Call := []
  writes : Nat := 0
  shown : Option Nat := none

def continued : Option Query → Call
  | none => .done
  | some q => .looking q

def State.load (s : State) : State :=
  { s with loading := some s.loads.length, loads := s.loads ++ [.asked] }

def ensureLoaded (s : State) (after : Option Query) : State × Call :=
  match s.mibs, s.loading with
  | some _, _ => (s, continued after)
  | none, some load => (s, .awaiting load after)
  | none, none => (s.load, .awaiting s.loads.length after)

def refreshRegistry (s : State) : State × Call :=
  ensureLoaded { s with mibs := none, loading := none, scopeCache := [] } none

def State.write (s : State) (db : List MibFile) : State := { s with db := db, writes := s.writes + 1 }

section Steps

variable (toLowerCase : String → String)

def getScopeMap (s : State) (manufacturer model : Option String) :
    State × (String → Option ResolvedSymbol) :=
  let key := scopeKey toLowerCase manufacturer model
  match s.scopeCache.lookup key with
  | some cached => (s, cached)
  | none =>
    let map := resolveScope toLowerCase s.mibs manufacturer model
    ({ s with scopeCache := s.scopeCache ++ [(key, map)] }, map)

def act (s : State) : Call → State × Call
  | .checking file =>
    if s.db.any fun f => decide (f.sameModule file) then
      (s, .failed (.app 409 ("A MIB module named \"" ++ file.moduleName ++
        "\" is already uploaded for this manufacturer/model — delete the existing one first")))
    else (s, .inserting file)
  | .inserting file =>
    if s.db.any fun f => decide (f.id = file.id ∨ f.clashes file) then
      (s, .failed (.thrown "Unique constraint failed"))
    else (s.write (s.db ++ [file]), .refreshing)
  | .deleting id =>
    if s.db.any (·.id = id) then (s.write (s.db.filter (·.id ≠ id)), .refreshing)
    else (s, .failed (.app 404 "MIB not found"))
  | .refreshing => refreshRegistry s
  | .ensuring after => ensureLoaded s after
  | .awaiting load after =>
    match s.loads[load]? with
    | some .published => ({ s with loading := none }, continued after)
    | some .rejected => (s, .failed (.thrown "findMany failed"))
    | _ => (s, .awaiting load after)
  | .looking q =>
    let (s, map) := getScopeMap toLowerCase s q.manufacturer q.model
    (s, .resolved ((map q.name).map (·.oid)))
  | call => (s, call)

/-- A new call, a call that runs to its next await, an answer of the
database to a load, or a load that goes on from its answer. -/
inductive Event
  | upload (id : String) (input : CreateMibInput)
  | remove (id : String)
  | resolve (q : Query)
  | ensure
  | advance (i : Nat)
  | answer (load : Nat)
  | reject (load : Nat)
  | resume (load : Nat)

def State.start (s : State) (call : Call) : State := { s with calls := s.calls ++ [call] }

def step (s : State) : Event → State
  | .upload id input =>
    match mibFileOf id input with
    | .ok file => s.start (.checking file)
    | .error e => s.start (.failed e)
  | .remove id => s.start (.deleting id)
  | .resolve q => s.start (.ensuring (some q))
  | .ensure => s.start (.ensuring none)
  | .advance i =>
    match s.calls[i]? with
    | none => s
    | some call =>
      let (s', call') := act toLowerCase s call
      { s' with calls := s.calls.set i call' }
  | .answer load =>
    if s.loads[load]? = some .asked then
      { s with loads := s.loads.set load (.answered s.db s.writes) }
    else s
  | .reject load =>
    if s.loads[load]? = some .asked then { s with loads := s.loads.set load .rejected } else s
  | .resume load =>
    match s.loads[load]? with
    | some (.answered rows seen) =>
      { s with
        mibs := some (rows.map loadedMib)
        scopeCache := []
        loads := s.loads.set load .published
        shown := some seen }
    | _ => s

end Steps

def Load.settled : Load → Bool
  | .published | .rejected => true
  | _ => false

/-- No call and no load is under way. -/
def Quiet (s : State) : Prop := (∀ c ∈ s.calls, c.finished) ∧ ∀ l ∈ s.loads, l.settled

instance (s : State) : Decidable (Quiet s) := inferInstanceAs (Decidable (_ ∧ _))

/-- The cached table is the parse of the stored MIBs, once there has been a
load, and the cached scopes were resolved from it. -/
structure Fresh (toLowerCase : String → String) (s : State) : Prop where
  table : s.mibs = if s.loads = [] then none else some (s.db.map loadedMib)
  scopes : ∀ e ∈ s.scopeCache, ∃ manufacturer model,
    e = (scopeKey toLowerCase manufacturer model, resolveScope toLowerCase s.mibs manufacturer model)

def Load.seen : Load → Option Nat
  | .answered _ seen => some seen
  | _ => none

/-- No query of a load is rejected, and no load publishes an older state of
the stored MIBs than one published before it. -/
def InOrder (s : State) : Event → Prop
  | .reject _ => False
  | .resume load => ∀ l ∈ s.loads[load]?, ∀ w ∈ l.seen, ∀ v ∈ s.shown, v ≤ w
  | _ => True

instance InOrder.decidable (s : State) : ∀ e, Decidable (InOrder s e)
  | .reject _ => isFalse id
  | .resume load => inferInstanceAs (Decidable (∀ l ∈ s.loads[load]?, ∀ w ∈ l.seen, ∀ v ∈ s.shown, v ≤ w))
  | .upload .. | .remove _ | .resolve _ | .ensure | .advance _ | .answer _ => isTrue trivial

variable {toLowerCase : String → String} {s : State}

/-- What a step of a call does to the state: nothing that matters, a write
before a refresh, a reset with a load, a load, the end of a wait, or the
resolution of a scope. -/
inductive Acts (toLowerCase : String → String) (s : State) : Call → State → Call → Prop
  | stays {c c' : Call} (hc : c ≠ .refreshing) : Acts toLowerCase s c s c'
  | writes {c : Call} (hc : c ≠ .refreshing) (db : List MibFile) :
    Acts toLowerCase s c (s.write db) .refreshing
  | refreshes : Acts toLowerCase s .refreshing
      { s with mibs := none, scopeCache := [], loading := some s.loads.length,
               loads := s.loads ++ [.asked] } (.awaiting s.loads.length none)
  | loads {c : Call} (hc : c ≠ .refreshing) (after : Option Query) :
    Acts toLowerCase s c s.load (.awaiting s.loads.length after)
  | wakes {c c' : Call} (hc : c ≠ .refreshing) : Acts toLowerCase s c { s with loading := none } c'
  | resolves {c c' : Call} (hc : c ≠ .refreshing) (manufacturer model : Option String) :
    Acts toLowerCase s c
      { s with scopeCache := s.scopeCache ++ [(scopeKey toLowerCase manufacturer model,
          resolveScope toLowerCase s.mibs manufacturer model)] } c'

theorem acts_ensureLoaded {c : Call} (hc : c ≠ .refreshing) (after : Option Query) :
    Acts toLowerCase s c (ensureLoaded s after).1 (ensureLoaded s after).2 := by
  unfold ensureLoaded
  split
  · exact .stays hc
  · exact .stays hc
  · exact .loads hc after

theorem act_acts (s : State) (c : Call) :
    Acts toLowerCase s c (act toLowerCase s c).1 (act toLowerCase s c).2 := by
  cases c with
  | checking file =>
    rw [act]
    split <;> exact .stays (by simp)
  | inserting file =>
    rw [act]
    split
    · exact .stays (by simp)
    · exact .writes (by simp) _
  | deleting id =>
    rw [act]
    split
    · exact .writes (by simp) _
    · exact .stays (by simp)
  | refreshing => exact .refreshes
  | ensuring after => exact acts_ensureLoaded (by simp) after
  | awaiting load after =>
    rw [act]
    split
    · exact .wakes (by simp)
    · exact .stays (by simp)
    · exact .stays (by simp)
  | looking q =>
    simp only [act, getScopeMap]
    split
    · exact .stays (by simp)
    · exact .resolves (by simp) q.manufacturer q.model
  | done | resolved _ | failed _ => exact .stays (by simp)

/-- What the registry promises while calls and loads are under way. -/
structure Tracked (toLowerCase : String → String) (s : State) : Prop where
  read : ∀ rows seen, .answered rows seen ∈ s.loads →
    seen ≤ s.writes ∧ (seen = s.writes → rows = s.db)
  table : ∀ m, s.mibs = some m → s.loads ≠ [] ∧ ∃ v, s.shown = some v ∧
    (v = s.writes → m = s.db.map loadedMib)
  shown : ∀ v, s.shown = some v → v ≤ s.writes
  covered : s.loads = [] ∨ s.shown = some s.writes ∨ .refreshing ∈ s.calls ∨ .asked ∈ s.loads ∨
    ∃ rows, .answered rows s.writes ∈ s.loads
  pending : s.mibs = none → s.loads = [] ∨ ∃ l ∈ s.loads, l.settled = false
  scopes : ∀ e ∈ s.scopeCache, ∃ manufacturer model,
    e = (scopeKey toLowerCase manufacturer model, resolveScope toLowerCase s.mibs manufacturer model)

theorem refreshing_kept {c : Call} {i : Nat} (c' : Call) (hi : s.calls[i]? = some c)
    (hc : c ≠ .refreshing) (h : .refreshing ∈ s.calls) : .refreshing ∈ s.calls.set i c' :=
  (mem_set_or c' hi h).resolve_right (Ne.symm hc)

theorem Tracked.asked (h : Tracked toLowerCase s) {rows : List MibFile} {seen : Nat}
    (hl : .answered rows seen ∈ s.loads ++ [.asked]) :
    seen ≤ s.writes ∧ (seen = s.writes → rows = s.db) := by
  obtain hl | hl := List.mem_append.mp hl
  · exact h.read rows seen hl
  · cases List.mem_singleton.mp hl

theorem Tracked.advance {c c' : Call} {s' : State} {i : Nat} (h : Tracked toLowerCase s)
    (hi : s.calls[i]? = some c) (ha : Acts toLowerCase s c s' c') :
    Tracked toLowerCase { s' with calls := s.calls.set i c' } := by
  have hasked : Load.asked ∈ s.loads ++ [.asked] := List.mem_append_right _ (List.mem_singleton.mpr rfl)
  have hcovered : c ≠ .refreshing → s.loads = [] ∨ s.shown = some s.writes ∨
      .refreshing ∈ s.calls.set i c' ∨ .asked ∈ s.loads ∨ ∃ rows, .answered rows s.writes ∈ s.loads :=
    fun hc => h.covered.imp id (.imp id (.imp (refreshing_kept c' hi hc) id))
  cases ha with
  | stays hc => exact ⟨h.read, h.table, h.shown, hcovered hc, h.pending, h.scopes⟩
  | writes hc db =>
    refine ⟨fun rows seen hl => ?_, fun m hm => ?_, fun v hv => ?_, .inr (.inr (.inl (mem_set_self hi))),
      h.pending, h.scopes⟩
    · have := (h.read rows seen hl).1
      simp only [State.write]
      exact ⟨by omega, fun heq => by omega⟩
    · obtain ⟨hl, v, hv, -⟩ := h.table m hm
      have := h.shown v hv
      refine ⟨hl, v, hv, fun heq => ?_⟩
      simp only [State.write] at heq
      omega
    · have := h.shown v hv
      simp only [State.write]
      omega
  | refreshes =>
    exact ⟨fun rows seen hl => h.asked hl, fun m hm => (by cases hm), h.shown,
      .inr (.inr (.inr (.inl hasked))), fun _ => .inr ⟨.asked, hasked, rfl⟩, fun e he => (by cases he)⟩
  | loads hc after =>
    refine ⟨fun rows seen hl => h.asked hl, fun m hm => ?_, h.shown, .inr (.inr (.inr (.inl hasked))),
      fun _ => .inr ⟨.asked, hasked, rfl⟩, h.scopes⟩
    obtain ⟨-, v, hv, ht⟩ := h.table m hm
    exact ⟨by simp [State.load], v, hv, ht⟩
  | wakes hc => exact ⟨h.read, h.table, h.shown, hcovered hc, h.pending, h.scopes⟩
  | resolves hc manufacturer model =>
    refine ⟨h.read, h.table, h.shown, hcovered hc, h.pending, fun e he => ?_⟩
    obtain he | he := List.mem_append.mp he
    · exact h.scopes e he
    · exact ⟨manufacturer, model, List.mem_singleton.mp he⟩

theorem Tracked.start (h : Tracked toLowerCase s) (c : Call) : Tracked toLowerCase (s.start c) :=
  ⟨h.read, h.table, h.shown,
    h.covered.imp id (.imp id (.imp (List.mem_append_left _) id)), h.pending, h.scopes⟩

theorem Tracked.answer (h : Tracked toLowerCase s) {load : Nat} (hl : s.loads[load]? = some .asked) :
    Tracked toLowerCase { s with loads := s.loads.set load (.answered s.db s.writes) } := by
  have hself : Load.answered s.db s.writes ∈ s.loads.set load (.answered s.db s.writes) :=
    mem_set_self hl
  refine ⟨fun rows seen hm => ?_, fun m hm => ?_, h.shown, ?_, fun _ => .inr ⟨_, hself, rfl⟩, h.scopes⟩
  · obtain hm | hm := List.mem_or_eq_of_mem_set hm
    · exact h.read rows seen hm
    · cases hm
      exact ⟨le_refl _, fun _ => rfl⟩
  · obtain ⟨-, hv⟩ := h.table m hm
    exact ⟨List.ne_nil_of_mem hself, hv⟩
  · exact .inr (.inr (.inr (.inr ⟨s.db, hself⟩)))

theorem Tracked.resume (h : Tracked toLowerCase s) {load : Nat} {rows : List MibFile} {seen : Nat}
    (hl : s.loads[load]? = some (.answered rows seen)) (hord : ∀ v ∈ s.shown, v ≤ seen) :
    Tracked toLowerCase
      { s with
        mibs := some (rows.map loadedMib)
        scopeCache := []
        loads := s.loads.set load .published
        shown := some seen } := by
  obtain ⟨hle, hrows⟩ := h.read rows seen (List.mem_of_getElem? hl)
  have hself : Load.published ∈ s.loads.set load .published := mem_set_self hl
  refine ⟨fun rows' seen' hm => ?_, fun m hm => ⟨List.ne_nil_of_mem hself, seen, rfl, ?_⟩, ?_, ?_,
    fun hm => (by cases hm), fun e he => (by cases he)⟩
  · obtain hm | hm := List.mem_or_eq_of_mem_set hm
    · exact h.read rows' seen' hm
    · cases hm
  · cases hm
    exact fun heq => by rw [hrows heq]
  · rintro v ⟨⟩
    exact hle
  · -- What is left to cover the last write, if the load does not itself.
    by_cases heq : seen = s.writes
    · exact .inr (.inl (by rw [heq]))
    · refine .inr (.inr ?_)
      obtain hnil | hshown | hcall | hasked | ⟨rows', hans⟩ := h.covered
      · rw [hnil] at hl
        cases hl
      · exact absurd (le_antisymm hle (hord _ hshown)) heq
      · exact .inl hcall
      · refine .inr (.inl ((mem_set_or .published hl hasked).resolve_right ?_))
        intro h
        cases h
      · refine .inr (.inr ⟨rows', (mem_set_or .published hl hans).resolve_right ?_⟩)
        rintro ⟨⟩
        exact heq rfl

theorem Tracked.step (h : Tracked toLowerCase s) (e : Event) (hord : InOrder s e) :
    Tracked toLowerCase (step toLowerCase s e) := by
  cases e with
  | upload id input =>
    rw [MibRegistry.step]
    split <;> exact h.start _
  | remove id => exact h.start _
  | resolve q => exact h.start _
  | ensure => exact h.start _
  | advance i =>
    rw [MibRegistry.step]
    split
    · exact h
    · rename_i c hc
      exact h.advance hc (act_acts s c)
  | answer load =>
    rw [MibRegistry.step]
    split
    · rename_i hl
      exact h.answer hl
    · exact h
  | reject load => exact hord.elim
  | resume load =>
    rw [MibRegistry.step]
    split
    · rename_i rows seen hl
      exact h.resume hl (hord _ hl seen rfl)
    · exact h

theorem Tracked.fresh (h : Tracked toLowerCase s) (hq : Quiet s) : Fresh toLowerCase s := by
  obtain ⟨hcalls, hloads⟩ := hq
  refine ⟨?_, h.scopes⟩
  by_cases hnil : s.loads = []
  · rw [if_pos hnil]
    rw [Option.eq_none_iff_forall_ne_some]
    exact fun m hm => (h.table m hm).1 hnil
  · rw [if_neg hnil]
    obtain ⟨m, hm⟩ : ∃ m, s.mibs = some m := by
      rw [← Option.ne_none_iff_exists']
      intro hnone
      obtain hn | ⟨l, hl, hopen⟩ := h.pending hnone
      · exact hnil hn
      · simp [hloads l hl] at hopen
    obtain ⟨-, v, hv, ht⟩ := h.table m hm
    have hshown : s.shown = some s.writes := by
      obtain hn | hs | hc | ha | ⟨rows, ha⟩ := h.covered
      · exact absurd hn hnil
      · exact hs
      · exact absurd (hcalls _ hc) (by decide)
      · exact absurd (hloads _ ha) (by decide)
      · exact absurd (hloads _ ha) (by simp [Load.settled])
    rw [hm, ht (Option.some.inj (hv.symm.trans hshown))]

variable (toLowerCase) in
/-- Whatever uploads, deletions and lookups overlap, the registry ends with
what is stored as long as its loads publish in the order they read. -/
theorem registry_fresh (db : List MibFile) (events : List Event)
    (hord : Along (step toLowerCase) InOrder { db } events)
    (hq : Quiet (events.foldl (step toLowerCase) { db })) :
    Fresh toLowerCase (events.foldl (step toLowerCase) { db }) := by
  have hstart : Tracked toLowerCase { db } :=
    ⟨fun rows seen h => (by cases h), fun m h => (by cases h), fun v h => (by cases h), .inl rfl,
      fun _ => .inl rfl, fun e h => (by cases h)⟩
  have hend := foldl_invariant (I := Tracked toLowerCase) (fun s e h hc => h.step e hc) hstart hord
  exact hend.fresh hq

def moduleNamed (name : String) : CreateMibInput :=
  ⟨"mib.txt", (name ++ " DEFINITIONS ::= BEGIN END").toList, none, none⟩

/-- Two uploads and a lookup. The loads of the uploads overlap and go on in
the given order. -/
def uploads (first second : Nat) : List Event :=
  [.upload "a" (moduleNamed "A"), .advance 0, .advance 0, .advance 0, .answer 0,
   .upload "b" (moduleNamed "B"), .advance 1, .advance 1, .advance 1, .answer 1,
   .resume first, .advance first, .resolve ⟨"iso", none, none⟩, .advance 2, .advance 2,
   .resume second, .advance second]

theorem registry_fresh_uploads :
    Along (step id) InOrder { db := [] } (uploads 0 1) ∧
      Quiet ((uploads 0 1).foldl (step id) { db := [] }) ∧
      Fresh id ((uploads 0 1).foldl (step id) { db := [] }) := by
  have hord : Along (step id) InOrder { db := [] } (uploads 0 1) := by decide +kernel
  have hq : Quiet ((uploads 0 1).foldl (step id) { db := [] }) := by decide +kernel
  exact ⟨hord, hq, registry_fresh id [] (uploads 0 1) hord hq⟩

/-- The load of the first upload goes on last and publishes a table
without the second. -/
theorem older_load_publishes_last :
    Quiet ((uploads 1 0).foldl (step id) { db := [] }) ∧
    ((uploads 1 0).foldl (step id) { db := [] }).db.map (·.moduleName) = ["A", "B"] ∧
    ((uploads 1 0).foldl (step id) { db := [] }).mibs.map (·.map (·.moduleName)) = some ["A"] ∧
    ¬ Fresh id ((uploads 1 0).foldl (step id) { db := [] }) := by
  refine ⟨by decide +kernel, by decide +kernel, by decide +kernel, fun h => ?_⟩
  exact absurd h.table (by decide +kernel)

end Polaris.MibRegistry
