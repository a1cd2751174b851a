import Polaris.Cidr
import Polaris.Lib.Assoc
import Polaris.Lib.Runs

namespace Polaris.AutoMonitor

open Polaris.Cidr Polaris.Lib Polaris.Lib.Runs

section Selection

inductive LldpNeighborType
  | firewall | switch | accessPoint | server | workstation | router | printer | other
  deriving DecidableEq

def LldpNeighborType.text : LldpNeighborType → String
  | .firewall => "firewall"
  | .switch => "switch"
  | .accessPoint => "access_point"
  | .server => "server"
  | .workstation => "workstation"
  | .router => "router"
  | .printer => "printer"
  | .other => "other"

inductive IfType
  | physical | aggregate | vlan | loopback | tunnel
  deriving DecidableEq

def IfType.text : IfType → String
  | .physical => "physical"
  | .aggregate => "aggregate"
  | .vlan => "vlan"
  | .loopback => "loopback"
  | .tunnel => "tunnel"

structure ByPatternsBlock where
  patterns : List String
  regex : Bool
  onlyUp : Bool
  deriving DecidableEq

structure ByTypesBlock where
  types : List IfType
  onlyUp : Bool
  deriving DecidableEq

structure AutoMonitorSelection where
  byNames : Option (List String) := none
  byPatterns : Option ByPatternsBlock := none
  byTypes : Option ByTypesBlock := none
  byLldp : Option (List LldpNeighborType) := none
  deriving DecidableEq

inductive AutoMonitorClass
  | fortigate | fortiswitch | fortiap
  deriving DecidableEq

structure ResolverInterface where
  ifName : String
  ifType : Option String
  operStatus : Option String
  deriving DecidableEq

structure LldpNeighborMatch where
  matchedAssetType : Option String
  matchedAssetMonitored : Bool
  deriving DecidableEq

abbrev LldpByIfName := List (String × List LldpNeighborMatch)

end Selection

section Resolver

/-- The engine's own regular expressions: the test of a source text, or why
it is none. -/
abbrev RegExp := String → Except String (String → Bool)

variable (regExp : RegExp)

def special : List Char := ['^', '$', '.', '|', '+', '(', ')', '[', ']', '\x7b', '\x7d', '\\']

def wildcardChar (ch : Char) : List Char :=
  if ch = '*' then ['.', '*'] else if ch = '?' then ['.'] else if ch ∈ special then ['\\', ch] else [ch]

def compiled (source : String) (failure : String → String) : Except Failure (String → Bool) :=
  match regExp source with
  | .ok test => .ok test
  | .error e => .error (.app 400 (failure (if e = "" then "regex compile failed" else e)))

def compileWildcard (pattern : String) : Except Failure (String → Bool) :=
  if pattern = "" then .error (.app 400 "Empty wildcard pattern")
  else
    compiled regExp (String.ofList ('^' :: pattern.toList.flatMap wildcardChar ++ ['$'])) fun e =>
      "Invalid wildcard \"" ++ pattern ++ "\": " ++ e

def compilePattern (pattern : String) (regex : Bool) : Except Failure (String → Bool) :=
  if pattern = "" then .error (.app 400 "Empty pattern")
  else if !regex then compileWildcard regExp pattern
  else compiled regExp pattern fun e => "Invalid regex \"" ++ pattern ++ "\": " ++ e

def pickByNames (names : List String) (interfaces : List ResolverInterface) : List String :=
  (interfaces.filter (·.ifName ∈ names)).map (·.ifName)

def pickByPatterns (b : ByPatternsBlock) (interfaces : List ResolverInterface) :
    Except Failure (List String) := do
  let regexes ← b.patterns.mapM fun p => compilePattern regExp p b.regex
  let pool := if b.onlyUp then interfaces.filter (·.operStatus = some "up") else interfaces
  return (pool.filter fun i => regexes.any fun r => r i.ifName).map (·.ifName)

def pickByTypes (b : ByTypesBlock) (interfaces : List ResolverInterface) : List String :=
  (interfaces.filter fun i => i.ifType.any (fun type => b.types.any (·.text = type)) &&
    !(b.onlyUp && i.operStatus ≠ some "up")).map (·.ifName)

def pickByLldp (neighborTypes : List LldpNeighborType) (lldpByIfName : LldpByIfName)
    (interfaces : List ResolverInterface) :
    List String :=
  (interfaces.filter fun i => ((Assoc.get lldpByIfName i.ifName).getD []).any fun n =>
    n.matchedAssetMonitored && n.matchedAssetType.any fun type => neighborTypes.any (·.text = type)).map
      (·.ifName)

def resolvePinnedInterfaces (selection : Option AutoMonitorSelection) (interfaces : List ResolverInterface)
    (lldpByIfName : Option LldpByIfName) : Except Failure (List String) :=
  match selection with
  | none => .ok []
  | some selection =>
    if interfaces = [] then .ok []
    else do
      let byPatterns ← selection.byPatterns.elim (.ok []) fun b => pickByPatterns regExp b interfaces
      return ((selection.byNames.elim [] fun names => pickByNames names interfaces) ++ byPatterns ++
        (selection.byTypes.elim [] fun b => pickByTypes b interfaces) ++
          (selection.byLldp.elim [] fun types => pickByLldp types (lldpByIfName.getD [])
            interfaces)).eraseDups

end Resolver

section Pass

structure Asset where
  id : String
  hostname : Option String
  assetType : String
  discoveredByIntegrationId : Option String
  deriving DecidableEq

def CLASS_TO_ASSET_TYPE : AutoMonitorClass → String
  | .fortigate => "firewall"
  | .fortiswitch => "switch"
  | .fortiap => "access_point"

structure SampleDevice where
  assetId : String
  hostname : Option String
  pinNames : List String
  deriving DecidableEq

structure ApplyResult where
  devices : Nat := 0
  interfacesAdded : Nat := 0
  perDeviceMax : Nat := 0
  sampleDevices : List SampleDevice := []
  deriving DecidableEq

def ApplyResult.add (r : ApplyResult) (a : Asset) (fresh unioned : List String) : ApplyResult where
  devices := r.devices + 1
  interfacesAdded := r.interfacesAdded + fresh.length
  perDeviceMax := if r.perDeviceMax < unioned.length then unioned.length else r.perDeviceMax
  sampleDevices := if r.sampleDevices.length < 5 then r.sampleDevices ++
    [⟨a.id, a.hostname, fresh⟩] else r.sampleDevices

/-- Where a pass stands: the assets whose turn is to come, each with the
pins that were read up front. -/
inductive Phase
  | idle
  | looping (rest : List (Asset × List String)) (result : ApplyResult)
  | finished (result : ApplyResult)
  | failed (e : Failure)
  deriving DecidableEq

structure State where
  pins : String → List String
  phase : Phase := .idle

/-- What a pass is given. The samples and neighbours are the latest of an
asset, as they are loaded. -/
structure Pass where
  regExp : RegExp
  assets : List Asset
  integrationId : String
  klass : AutoMonitorClass
  selection : Option AutoMonitorSelection
  interfacesOf : String → List ResolverInterface
  lldpOf : String → Option LldpByIfName

inductive Event
  | edit (id : String) (monitoredInterfaces : List String)
  | read
  | advance
  deriving DecidableEq

variable (P : Pass)

def Pass.computed (id : String) : Except Failure (List String) :=
  resolvePinnedInterfaces P.regExp P.selection (P.interfacesOf id) (P.lldpOf id)

def Pass.fits (a : Asset) : Bool :=
  a.discoveredByIntegrationId = some P.integrationId && a.assetType = CLASS_TO_ASSET_TYPE P.klass

def freshOf (existing computed : List String) : List String := computed.filter (· ∉ existing)

/-- The turn of an asset: the pins that were read and the fresh ones are
written as a whole. -/
def turn (s : State) (a : Asset) (existing : List String) (rest : List (Asset × List String))
    (result : ApplyResult) :
    State :=
  match P.computed a.id with
  | .error e => { s with phase := .failed e }
  | .ok computed =>
    let fresh := freshOf existing computed
    if fresh = [] then { s with phase := .looping rest result }
    else
      { pins := Function.update s.pins a.id (existing ++ fresh)
        phase := .looping rest (result.add a fresh (existing ++ fresh)) }

def step (s : State) : Event → State
  | .edit id monitoredInterfaces => { s with pins := Function.update s.pins id monitoredInterfaces }
  | .read =>
    match s.phase with
    | .looping _ _ => s
    | _ =>
      if P.selection = none then { s with phase := .finished {} }
      else { s with phase := .looping ((P.assets.filter P.fits).map fun a => (a, s.pins a.id)) {} }
  | .advance =>
    match s.phase with
    | .looping ((a, existing) :: rest) result => turn P s a existing rest result
    | .looping [] result => { s with phase := .finished result }
    | _ => s

end Pass

section Intents

/-- The pins beside what the operators last left them at. -/
structure Watched where
  state : State
  intended : String → List String

variable (P : Pass)

def watch (w : Watched) (e : Event) : Watched where
  state := step P w.state e
  intended := match e with
    | .edit id monitoredInterfaces => Function.update w.intended id monitoredInterfaces
    | _ => w.intended

def Computes (id n : String) : Prop := ∃ computed, P.computed id = .ok computed ∧ n ∈ computed

/-- What an operator pinned is pinned, and what he unpinned is not, unless
the selection computes it. -/
def Additive (w : Watched) : Prop :=
  ∀ id n, (n ∈ w.intended id → n ∈ w.state.pins id) ∧
    (n ∈ w.state.pins id → n ∈ w.intended id ∨ Computes P id n)

/-- The asset whose pins are written has the pins that were read up front,
apart from what the selection computes. -/
def Undisturbed (w : Watched) : Event → Prop
  | .advance =>
    match w.state.phase with
    | .looping ((a, existing) :: _) _ =>
      ∀ computed, P.computed a.id = .ok computed → freshOf existing computed ≠ [] →
        ∀ n, n ∉ computed → (n ∈ existing ↔ n ∈ w.state.pins a.id)
    | _ => True
  | _ => True

variable {P} {w : Watched}

theorem mem_union {existing computed : List String} {n : String} :
    n ∈ existing ++ freshOf existing computed ↔ n ∈ existing ∨ n ∈ computed := by
  rw [List.mem_append, freshOf, List.mem_filter, decide_eq_true_eq]
  by_cases h : n ∈ existing <;> simp [h]

theorem additive_edit {id : String} {pins : List String}
    (h : Additive P w) : Additive P (watch P w (.edit id pins)) := by
  intro id' n
  by_cases hid : id' = id
  · subst hid
    simp only [watch, step, Function.update_self]
    exact ⟨fun hn => hn, .inl⟩
  · simp only [watch, step, Function.update_of_ne hid]
    exact h id' n

theorem additive_write_iff {id : String} {existing computed : List String} {phase : Phase} (h : Additive P w)
    (hcomputed : P.computed id = .ok computed) :
    Additive P ⟨⟨Function.update w.state.pins id (existing ++ freshOf existing computed), phase⟩,
      w.intended⟩ ↔
      ∀ n, n ∉ computed → (n ∈ existing ↔ n ∈ w.state.pins id) := by
  have hcomputes : ∀ n, Computes P id n ↔ n ∈ computed := by
    intro n
    constructor
    · rintro ⟨c, hc, hn⟩
      obtain rfl := Except.ok.inj (hc.symm.trans hcomputed)
      exact hn
    · exact fun hn => ⟨computed, hcomputed, hn⟩
  constructor
  · intro hnew n hn
    have hnow := hnew id n
    simp only [Function.update_self, mem_union, hcomputes, hn, or_false] at hnow
    have hbefore := h id n
    rw [hcomputes] at hbefore
    simp only [hn, or_false] at hbefore
    exact ⟨fun he => hbefore.1 (hnow.2 he), fun hp => hnow.1 (hbefore.2 hp)⟩
  · intro hsame id' n
    by_cases hid : id' = id
    · subst hid
      simp only [Function.update_self, mem_union, hcomputes]
      by_cases hn : n ∈ computed
      · exact ⟨fun _ => .inr hn, fun _ => .inr hn⟩
      · have hbefore := h id' n
        rw [hcomputes] at hbefore
        simp only [hn, or_false, hsame n hn] at hbefore ⊢
        exact hbefore
    · simp only [Function.update_of_ne hid]
      exact h id' n

theorem additive_watch_iff (e : Event) (h : Additive P w) : Additive P (watch P w e) ↔ Undisturbed P w e := by
  cases e with
  | edit id pins => exact iff_of_true (additive_edit h) trivial
  | read =>
    have hread : watch P w .read = ⟨step P w.state .read, w.intended⟩ := rfl
    refine iff_of_true ?_ trivial
    rw [hread, step]
    split
    · exact h
    · split_ifs
      · exact h
      · exact h
  | advance =>
    have hadvance : watch P w .advance = ⟨step P w.state .advance, w.intended⟩ := rfl
    rw [hadvance, step, Undisturbed]
    cases hphase : w.state.phase with
    | looping rest result =>
      cases rest with
      | nil => exact iff_of_true h trivial
      | cons p rest =>
        obtain ⟨a, existing⟩ := p
        dsimp only
        rw [turn]
        cases hcomputed : P.computed a.id with
        | error e => exact iff_of_true h nofun
        | ok computed =>
          dsimp only
          split_ifs with hfresh
          · refine iff_of_true h fun c hc hne => ?_
            obtain rfl := Except.ok.inj hc
            exact absurd hfresh hne
          · rw [additive_write_iff h hcomputed]
            constructor
            · intro hsame c hc _
              obtain rfl := Except.ok.inj hc
              exact hsame
            · exact fun hsame => hsame computed rfl hfresh
    | idle => exact iff_of_true h trivial
    | finished result => exact iff_of_true h trivial
    | failed e => exact iff_of_true h trivial

end Intents

section Main

/-- A state in which no pin is at odds with its operator yet. -/
def watched (pins : String → List String) : Watched := ⟨{ pins := pins }, pins⟩

/-- Pins are additive in every state of a run just when no write meets pins
that an operator has changed since the read. -/
theorem pins_additive_iff (P : Pass) (pins : String → List String) (events : List Event) :
    (∀ k, Additive P ((events.take k).foldl (watch P) (watched pins))) ↔
      Along (watch P) (Undisturbed P) (watched pins) events := by
  apply along_iff_reached
  · exact fun w e h => additive_watch_iff e h
  · exact fun id n => ⟨fun hn => hn, .inl⟩

def uplinks : Pass where
  regExp _ := .error ""
  assets := [⟨"sw1", some "access-1", "switch", some "i1"⟩]
  integrationId := "i1"
  klass := .fortiswitch
  selection := some { byNames := some ["port48"] }
  interfacesOf _ := [⟨"port1", none, none⟩, ⟨"port48", none, some "up"⟩]
  lldpOf _ := none

def editBetween : List Event := [.read, .edit "sw1" ["port1"], .advance]

theorem edit_between_is_lost :
    ¬ Additive uplinks (editBetween.foldl (watch uplinks) (watched fun _ => [])) := by
  intro h
  have hintended : "port1" ∈ (editBetween.foldl (watch uplinks) (watched fun _ => [])).intended "sw1" := by
    decide +kernel
  have hpinned := (h "sw1" "port1").1 hintended
  revert hpinned
  decide +kernel

end Main

end Polaris.AutoMonitor
