import Mathlib.Data.List.Nodup
import Mathlib.Logic.Function.Basic
import Polaris.Lib.Runs

namespace Polaris.AgentChannel

open Polaris.Lib.Runs

inductive Outcome
  | resolved (payload : String)
  | rejected (message : String)
  deriving DecidableEq

/-- A session, under the number of its `attach`. The pending requests are by
frame id, each with its promise. -/
structure Session where
  pending : List (String × Nat) := []
  pingTimer : Bool := false
  pongSeen : Bool := true
  deriving DecidableEq

structure Timer where
  promise : Nat
  session : Nat
  frameId : String
  timeoutMs : Nat
  deriving DecidableEq

structure Frame where
  type : String
  id : String
  payload : String
  deriving DecidableEq

/-- The sessions of one agent, and which of them the map holds. -/
structure Channel where
  current : Option Nat := none
  sessions : Nat → Session := fun _ => {}
  attached : Nat := 0
  timers : List Timer := []
  settled : List (Nat × Outcome) := []
  probes : Nat := 0

namespace Channel

variable (s : Channel)

def finish (outcomes : List (Nat × Outcome)) : Channel :=
  { s with
    timers := s.timers.filter (·.promise ∉ outcomes.map (·.1))
    settled := s.settled ++ outcomes }

def withSession (i : Nat) (session : Session) : Channel :=
  { s with sessions := Function.update s.sessions i session }

def teardown (i : Nat) : Channel :=
  (s.withSession i { s.sessions i with pending := [], pingTimer := false }).finish
    ((s.sessions i).pending.map fun e => (e.2, .rejected "Agent disconnected"))

def attach : Channel :=
  let s := match s.current with
    | some i => s.teardown i
    | none => s
  { s.withSession s.attached { pingTimer := true } with
    current := some s.attached, attached := s.attached + 1 }

def detach : Channel :=
  match s.current with
  | none => s
  | some i => { s with current := none }.teardown i

def withoutPending (i : Nat) (frameId : String) : Channel :=
  s.withSession i { s.sessions i with pending := (s.sessions i).pending.filter (·.1 ≠ frameId) }

def onFrame (frame : Option Frame) : Channel :=
  match frame, s.current with
  | some f, some i =>
    if f.type = "probe-now-response" then
      match (s.sessions i).pending.find? (·.1 = f.id) with
      | none => s
      | some e => (s.withoutPending i f.id).finish [(e.2, .resolved f.payload)]
    else s
  | _, _ => s

def onPong (i : Nat) : Channel := s.withSession i { s.sessions i with pongSeen := true }

def onPing (i : Nat) : Channel :=
  if (s.sessions i).pongSeen then s.withSession i { s.sessions i with pongSeen := false } else s.detach

def sendProbeNow (frameId : String) (timeoutMs : Nat) : Channel :=
  match s.current with
  | none =>
    { s with
      settled := s.settled ++ [(s.probes,
        .rejected "Agent is not currently attached — try again after the agent reconnects")]
      probes := s.probes + 1 }
  | some i =>
    { s.withSession i { s.sessions i with
        pending := (s.sessions i).pending.filter (·.1 ≠ frameId) ++ [(frameId, s.probes)] } with
      timers := s.timers ++ [⟨s.probes, i, frameId, timeoutMs⟩]
      probes := s.probes + 1 }

def onTimeout (t : Timer) : Channel :=
  (s.withoutPending t.session t.frameId).finish [(t.promise, .rejected
    ("Agent did not respond to probe-now within " ++ toString t.timeoutMs ++ "ms"))]

end Channel

/-- Events of a socket are told by the number of its `attach`, at any time
after it. -/
inductive Event
  | attach
  | message (i : Nat) (frame : Option Frame)
  | pong (i : Nat)
  | close (i : Nat)
  | error (i : Nat)
  | tick (i : Nat)
  | detach
  | sendProbeNow (frameId : String) (timeoutMs : Nat)
  | timeout (promise : Nat)

def step (s : Channel) : Event → Channel
  | .attach => s.attach
  | .message i frame => if i < s.attached then s.onFrame frame else s
  | .pong i => if i < s.attached then s.onPong i else s
  | .close i | .error i => if i < s.attached then s.detach else s
  | .tick i => if (s.sessions i).pingTimer then s.onPing i else s
  | .detach => s.detach
  | .sendProbeNow frameId timeoutMs => s.sendProbeNow frameId timeoutMs
  | .timeout k =>
    match s.timers.find? (·.promise = k) with
    | none => s
    | some t => s.onTimeout t

def run (events : List Event) : Channel := events.foldl step {}

section Purpose

/-- Which socket is in force: the newest, until it ends itself, has not
answered a ping by the next, or is detached. -/
structure Link where
  current : Option Nat := none
  pongSeen : Bool := true
  attached : Nat := 0
  deriving DecidableEq

def Link.next (l : Link) : Event → Link
  | .attach => ⟨some l.attached, true, l.attached + 1⟩
  | .pong i => if l.current = some i then { l with pongSeen := true } else l
  | .close i | .error i => if l.current = some i then { l with current := none } else l
  | .tick i =>
    if l.current = some i then
      if l.pongSeen then { l with pongSeen := false } else { l with current := none }
    else l
  | .detach => { l with current := none }
  | .message _ _ | .sendProbeNow _ _ | .timeout _ => l

def link (events : List Event) : Link := events.foldl Link.next {}

/-- A promise has been settled once, or its timeout still runs. -/
def Owed (s : Channel) (k : Nat) : Prop :=
  (s.settled.map (·.1)).count k = 1 ∧ k ∉ s.timers.map (·.promise) ∨
    k ∉ s.settled.map (·.1) ∧ k ∈ s.timers.map (·.promise)

def Ended (session : Session) : Prop := session.pingTimer = false ∧ session.pending = []

/-- No socket closes or fails while the map holds another. -/
def Undisturbed (s : Channel) : Event → Prop
  | .close i | .error i => i < s.attached → ∀ j ∈ s.current, j = i
  | _ => True

instance (s : Channel) : ∀ e, Decidable (Undisturbed s e)
  | .close i | .error i => inferInstanceAs (Decidable (i < s.attached → ∀ j ∈ s.current, j = i))
  | .attach | .message _ _ | .pong _ | .tick _ | .detach | .sendProbeNow _ _ | .timeout _ =>
    inferInstanceAs (Decidable True)

end Purpose

section Accounts

variable {s : Channel} {i : Nat}

/-- The books on the promises: each is settled or timed, once, and a pending
request is one whose timeout runs. -/
structure Accounted (s : Channel) : Prop where
  once : (s.settled.map (·.1)).Nodup
  timed : (s.timers.map (·.promise)).Nodup
  apart : ∀ k ∈ s.settled.map (·.1), k ∉ s.timers.map (·.promise)
  either : ∀ k, k < s.probes ↔ k ∈ s.settled.map (·.1) ∨ k ∈ s.timers.map (·.promise)
  keys : ∀ i, ((s.sessions i).pending.map (·.1)).Nodup
  backed : ∀ i, ∀ e ∈ (s.sessions i).pending,
    ∃ t ∈ s.timers, t.promise = e.2 ∧ t.session = i ∧ t.frameId = e.1

theorem Accounted.owed (h : Accounted s) {k : Nat} (hk : k < s.probes) : Owed s k := by
  obtain hk | hk := (h.either k).mp hk
  · exact .inl ⟨List.count_eq_one_of_mem h.once hk, h.apart k hk⟩
  · exact .inr ⟨fun hs => h.apart k hs hk, hk⟩

/-- Requests of one promise are one request. -/
theorem Accounted.unique (h : Accounted s) {i j : Nat} {e e' : String × Nat}
    (he : e ∈ (s.sessions i).pending) (he' : e' ∈ (s.sessions j).pending) (hk : e.2 = e'.2) :
    i = j ∧ e = e' := by
  obtain ⟨t, ht, hp, hi, hid⟩ := h.backed i e he
  obtain ⟨t', ht', hp', hj, hid'⟩ := h.backed j e' he'
  have htt : t = t' := List.inj_on_of_nodup_map h.timed ht ht' (hp.trans (hk.trans hp'.symm))
  cases htt
  exact ⟨hi.symm.trans hj, Prod.ext (hid.symm.trans hid') hk⟩

theorem Accounted.finish (h : Accounted s) {sessions : Nat → Session} {outcomes : List (Nat × Outcome)}
    (hk : (outcomes.map (·.1)).Nodup)
    (hmem : ∀ k ∈ outcomes.map (·.1), k ∈ s.timers.map (·.promise))
    (hsub : ∀ i, (sessions i).pending.Sublist (s.sessions i).pending)
    (hgone : ∀ i, ∀ e ∈ (sessions i).pending, e.2 ∉ outcomes.map (·.1)) :
    Accounted ({ s with sessions := sessions }.finish outcomes) := by
  have htimer : ∀ k, k ∈ (s.timers.filter (·.promise ∉ outcomes.map (·.1))).map (·.promise) ↔
      k ∈ s.timers.map (·.promise) ∧ k ∉ outcomes.map (·.1) := by
    intro k
    simp only [List.mem_map, List.mem_filter, decide_eq_true_eq]
    constructor
    · rintro ⟨t, ⟨ht, hnot⟩, rfl⟩
      exact ⟨⟨t, ht, rfl⟩, hnot⟩
    · rintro ⟨⟨t, ht, rfl⟩, hnot⟩
      exact ⟨t, ⟨ht, hnot⟩, rfl⟩
  have hsettled : ∀ k, k ∈ (s.settled ++ outcomes).map (·.1) ↔
      k ∈ s.settled.map (·.1) ∨ k ∈ outcomes.map (·.1) := by
    intro k
    rw [List.map_append, List.mem_append]
  refine ⟨?_, h.timed.sublist (List.filter_sublist.map _), ?_, fun k => ?_, ?_, ?_⟩
  · change ((s.settled ++ outcomes).map (·.1)).Nodup
    rw [List.map_append, List.nodup_append]
    exact ⟨h.once, hk, fun k hs k' ho he => h.apart k hs (he ▸ hmem k' ho)⟩
  · intro k hs ht
    obtain ⟨ht, hnot⟩ := (htimer k).mp ht
    obtain hs | hs := (hsettled k).mp hs
    · exact h.apart k hs ht
    · exact hnot hs
  · change k < s.probes ↔ k ∈ (s.settled ++ outcomes).map (·.1) ∨
      k ∈ (s.timers.filter (·.promise ∉ outcomes.map (·.1))).map (·.promise)
    rw [h.either, hsettled, htimer]
    constructor
    · rintro (hs | ht)
      · exact .inl (.inl hs)
      · by_cases ho : k ∈ outcomes.map (·.1)
        · exact .inl (.inr ho)
        · exact .inr ⟨ht, ho⟩
    · rintro ((hs | ho) | ⟨ht, -⟩)
      · exact .inl hs
      · exact .inr (hmem k ho)
      · exact .inr ht
  · exact fun i => (h.keys i).sublist ((hsub i).map _)
  · intro i e he
    obtain ⟨t, ht, hp, hrest⟩ := h.backed i e ((hsub i).subset he)
    refine ⟨t, List.mem_filter.mpr ⟨ht, decide_eq_true ?_⟩, hp, hrest⟩
    rw [hp]
    exact hgone i e he

theorem Accounted.withSession (h : Accounted s) {session : Session}
    (hsub : session.pending.Sublist (s.sessions i).pending) : Accounted (s.withSession i session) := by
  have hpending : ∀ j, (Function.update s.sessions i session j).pending.Sublist (s.sessions j).pending := by
    intro j
    by_cases hj : j = i
    · rw [hj, Function.update_self]
      exact hsub
    · rw [Function.update_of_ne hj]
  refine ⟨h.once, h.timed, h.apart, h.either, fun j => ?_, fun j e he => ?_⟩
  · exact (h.keys j).sublist ((hpending j).map _)
  · exact h.backed j e ((hpending j).subset he)

theorem Accounted.teardown (h : Accounted s) (i : Nat) : Accounted (s.teardown i) := by
  have hfst : ((s.sessions i).pending.map fun e => (e.2, Outcome.rejected "Agent disconnected")).map (·.1) =
      (s.sessions i).pending.map (·.2) := by
    rw [List.map_map]
    rfl
  refine h.finish ?_ ?_ (fun j => ?_) (fun j e he hk => ?_)
  · rw [hfst]
    refine (List.nodup_map_iff_inj_on (h.keys i).of_map).mpr fun e he e' he' hk => ?_
    exact (h.unique he he' hk).2
  · rw [hfst]
    intro k hk
    obtain ⟨e, he, rfl⟩ := List.mem_map.mp hk
    obtain ⟨t, ht, hp, -⟩ := h.backed i e he
    exact List.mem_map.mpr ⟨t, ht, hp⟩
  · by_cases hj : j = i
    · rw [hj, Function.update_self]
      exact List.nil_sublist _
    · rw [Function.update_of_ne hj]
  · rw [hfst] at hk
    obtain ⟨e', he', hk⟩ := List.mem_map.mp hk
    by_cases hj : j = i
    · rw [hj, Function.update_self] at he
      cases he
    · rw [Function.update_of_ne hj] at he
      exact hj (h.unique he he' hk.symm).1

theorem Accounted.drop (h : Accounted s) {t : Timer} (ht : t ∈ s.timers) (o : Outcome) :
    Accounted ((s.withoutPending t.session t.frameId).finish [(t.promise, o)]) := by
  refine h.finish (by simp) ?_ (fun j => ?_) (fun j e he hk => ?_)
  · intro k hk
    rw [List.map_singleton, List.mem_singleton] at hk
    exact List.mem_map.mpr ⟨t, ht, hk.symm⟩
  · by_cases hj : j = t.session
    · rw [hj, Function.update_self]
      exact List.filter_sublist
    · rw [Function.update_of_ne hj]
  · rw [List.map_singleton, List.mem_singleton] at hk
    by_cases hj : j = t.session
    · rw [hj, Function.update_self] at he
      obtain ⟨he, hne⟩ := List.mem_filter.mp he
      obtain ⟨t', ht', hp, -, hid⟩ := h.backed t.session e he
      have htt : t' = t := List.inj_on_of_nodup_map h.timed ht' ht (hp.trans hk)
      rw [htt] at hid
      exact of_decide_eq_true hne hid.symm
    · rw [Function.update_of_ne hj] at he
      obtain ⟨t', ht', hp, hs, -⟩ := h.backed j e he
      have htt : t' = t := List.inj_on_of_nodup_map h.timed ht' ht (hp.trans hk)
      rw [htt] at hs
      exact hj hs.symm

theorem Accounted.detach (h : Accounted s) : Accounted s.detach := by
  unfold Channel.detach
  split
  · exact h
  · rename_i i _
    have h' : Accounted { s with current := none } :=
      ⟨h.once, h.timed, h.apart, h.either, h.keys, h.backed⟩
    exact h'.teardown i

theorem Accounted.attach (h : Accounted s) : Accounted s.attach := by
  have hopen : ∀ s' : Channel, Accounted s' → Accounted
      { s'.withSession s'.attached { pingTimer := true } with
        current := some s'.attached, attached := s'.attached + 1 } := by
    intro s' h'
    have hs : Accounted (s'.withSession s'.attached { pingTimer := true }) :=
      h'.withSession (List.nil_sublist _)
    exact ⟨hs.once, hs.timed, hs.apart, hs.either, hs.keys, hs.backed⟩
  unfold Channel.attach
  cases s.current with
  | none => exact hopen s h
  | some i => exact hopen _ (h.teardown i)

theorem Accounted.onFrame (h : Accounted s) (frame : Option Frame) : Accounted (s.onFrame frame) := by
  unfold Channel.onFrame
  split
  · rename_i f i _
    split_ifs
    · split
      · exact h
      · rename_i e he
        obtain ⟨t, ht, hp, hi, hid⟩ := h.backed i e (List.mem_of_find?_eq_some he)
        have hkey : e.1 = f.id := by simpa using List.find?_some he
        have hdrop := h.drop ht (.resolved f.payload)
        rw [hp, hi, hid, hkey] at hdrop
        exact hdrop
    · exact h
  · exact h

theorem Accounted.sendProbeNow (h : Accounted s) (frameId : String) (timeoutMs : Nat) :
    Accounted (s.sendProbeNow frameId timeoutMs) := by
  have hnew : s.probes ∉ s.settled.map (·.1) ∧ s.probes ∉ s.timers.map (·.promise) := by
    rw [← not_or, ← h.either]
    exact Nat.lt_irrefl _
  have hlt : ∀ k, k < s.probes + 1 ↔ (k ∈ s.settled.map (·.1) ∨ k ∈ s.timers.map (·.promise)) ∨
      k = s.probes := by
    intro k
    rw [← h.either]
    omega
  unfold Channel.sendProbeNow
  split
  · refine ⟨?_, h.timed, ?_, fun k => ?_, h.keys, h.backed⟩
    · rw [List.map_append, List.nodup_append]
      refine ⟨h.once, by simp, fun k hk k' hk' he => hnew.1 ?_⟩
      rw [List.map_singleton, List.mem_singleton] at hk'
      have hk₀ : k = s.probes := he.trans hk'
      exact hk₀ ▸ hk
    · intro k hk
      rw [List.map_append, List.mem_append, List.map_singleton, List.mem_singleton] at hk
      obtain hk | rfl := hk
      · exact h.apart k hk
      · exact hnew.2
    · rw [hlt, List.map_append, List.mem_append, List.map_singleton, List.mem_singleton]
      tauto
  · rename_i i _
    refine ⟨h.once, ?_, ?_, fun k => ?_, fun j => ?_, fun j e he => ?_⟩
    · rw [List.map_append, List.nodup_append]
      refine ⟨h.timed, by simp, fun k hk k' hk' he => hnew.2 ?_⟩
      rw [List.map_singleton, List.mem_singleton] at hk'
      have hk₀ : k = s.probes := he.trans hk'
      exact hk₀ ▸ hk
    · intro k hk ht
      rw [List.map_append, List.mem_append, List.map_singleton, List.mem_singleton] at ht
      obtain ht | rfl := ht
      · exact h.apart k hk ht
      · exact hnew.1 hk
    · rw [hlt, List.map_append, List.mem_append, List.map_singleton, List.mem_singleton]
      exact or_assoc
    · by_cases hj : j = i
      · subst hj
        change ((Function.update s.sessions j _ j).pending.map _).Nodup
        rw [Function.update_self, List.map_append, List.nodup_append]
        refine ⟨(h.keys j).sublist (List.filter_sublist.map _), by simp, fun key hkey key' hkey' he => ?_⟩
        obtain ⟨e, hmem, rfl⟩ := List.mem_map.mp hkey
        rw [List.map_singleton, List.mem_singleton] at hkey'
        exact of_decide_eq_true (List.mem_filter.mp hmem).2 (he.trans hkey')
      · change ((Function.update s.sessions i _ j).pending.map _).Nodup
        rw [Function.update_of_ne hj]
        exact h.keys j
    · by_cases hj : j = i
      · subst hj
        change e ∈ (Function.update s.sessions j _ j).pending at he
        rw [Function.update_self] at he
        obtain he | he := List.mem_append.mp he
        · obtain ⟨t, ht, hrest⟩ := h.backed j e (List.mem_filter.mp he).1
          exact ⟨t, List.mem_append_left _ ht, hrest⟩
        · rw [List.mem_singleton.mp he]
          exact ⟨_, List.mem_append_right _ (List.mem_singleton.mpr rfl), rfl, rfl, rfl⟩
      · change e ∈ (Function.update s.sessions i _ j).pending at he
        rw [Function.update_of_ne hj] at he
        obtain ⟨t, ht, hrest⟩ := h.backed j e he
        exact ⟨t, List.mem_append_left _ ht, hrest⟩

theorem accounted_step (h : Accounted s) (e : Event) : Accounted (step s e) := by
  cases e with
  | attach => exact h.attach
  | message i frame =>
    simp only [step]
    split_ifs
    · exact h.onFrame frame
    · exact h
  | pong i =>
    simp only [step]
    split_ifs
    · exact h.withSession (List.Sublist.refl _)
    · exact h
  | close i | error i =>
    simp only [step]
    split_ifs
    · exact h.detach
    · exact h
  | tick i =>
    simp only [step, Channel.onPing]
    split_ifs
    · exact h.withSession (List.Sublist.refl _)
    · exact h.detach
    · exact h
  | detach => exact h.detach
  | sendProbeNow frameId timeoutMs => exact h.sendProbeNow frameId timeoutMs
  | timeout k =>
    simp only [step]
    split
    · exact h
    · rename_i t ht
      exact h.drop (List.mem_of_find?_eq_some ht) _

end Accounts

section Sessions

variable {s : Channel} {l : Link} {i j : Nat}

/-- The session in the map pings, the others have ended, and the map agrees
with the purpose. -/
structure Follows (s : Channel) (l : Link) : Prop where
  current : s.current = l.current
  attached : s.attached = l.attached
  pinging : ∀ i ∈ s.current, i < s.attached ∧ (s.sessions i).pingTimer = true
  pong : ∀ i ∈ s.current, (s.sessions i).pongSeen = l.pongSeen
  ended : ∀ i, s.current ≠ some i → Ended (s.sessions i)

theorem Follows.detach (h : Follows s l) : Follows s.detach { l with current := none } := by
  unfold Channel.detach
  split
  · rename_i hnone
    refine ⟨hnone, h.attached, ?_, ?_, h.ended⟩
    · rw [hnone]
      exact nofun
    · rw [hnone]
      exact nofun
  · rename_i i hi
    refine ⟨rfl, h.attached, nofun, nofun, fun j _ => ?_⟩
    change Ended (Function.update s.sessions i _ j)
    by_cases hj : j = i
    · rw [hj, Function.update_self]
      exact ⟨rfl, rfl⟩
    · rw [Function.update_of_ne hj]
      exact h.ended j fun hs => hj (Option.some.inj (hs.symm.trans hi))

theorem Follows.attach (h : Follows s l) : Follows s.attach ⟨some l.attached, true, l.attached + 1⟩ := by
  have hopen : ∀ s' : Channel, s'.attached = l.attached → (∀ j, j ≠ s'.attached → Ended (s'.sessions j)) →
      Follows { s'.withSession s'.attached { pingTimer := true } with
        current := some s'.attached, attached := s'.attached + 1 } ⟨some l.attached, true,
          l.attached + 1⟩ := by
    intro s' hatt hended
    have hself : Function.update s'.sessions s'.attached { pingTimer := true } s'.attached =
        { pingTimer := true } := Function.update_self ..
    refine ⟨congrArg some hatt, congrArg (· + 1) hatt, ?_, ?_, fun j hj => ?_⟩
    · rintro i ⟨⟩
      exact ⟨Nat.lt_succ_self _, congrArg Session.pingTimer hself⟩
    · rintro i ⟨⟩
      exact congrArg Session.pongSeen hself
    · have hne : j ≠ s'.attached := fun he => hj (he ▸ rfl)
      change Ended (Function.update s'.sessions s'.attached _ j)
      rw [Function.update_of_ne hne]
      exact hended j hne
  unfold Channel.attach
  cases hs : s.current with
  | none => exact hopen s h.attached fun j _ => h.ended j (hs ▸ nofun)
  | some i =>
    refine hopen (s.teardown i) h.attached fun j _ => ?_
    change Ended (Function.update s.sessions i _ j)
    by_cases hj : j = i
    · rw [hj, Function.update_self]
      exact ⟨rfl, rfl⟩
    · rw [Function.update_of_ne hj]
      exact h.ended j fun he => hj (Option.some.inj (he.symm.trans hs))

theorem Follows.congr (h : Follows s l) {s' : Channel} (hc : s'.current = s.current)
    (ha : s'.attached = s.attached)
    (hping : ∀ j, (s'.sessions j).pingTimer = (s.sessions j).pingTimer)
    (hpong : ∀ j ∈ s.current, (s'.sessions j).pongSeen = (s.sessions j).pongSeen)
    (hp : ∀ j, s.current ≠ some j → (s'.sessions j).pending.Sublist (s.sessions j).pending) :
    Follows s' l := by
  refine ⟨hc.trans h.current, ha.trans h.attached, fun i hi => ?_, fun i hi => ?_, fun j hj => ?_⟩
  · rw [hc] at hi
    rw [ha, hping i]
    exact h.pinging i hi
  · rw [hc] at hi
    rw [hpong i hi]
    exact h.pong i hi
  · rw [hc] at hj
    obtain ⟨hnone, hpending⟩ := h.ended j hj
    refine ⟨(hping j).trans hnone, ?_⟩
    have hsub := hp j hj
    rw [hpending] at hsub
    exact List.sublist_nil.mp hsub

theorem Follows.withoutPending (h : Follows s l) (i : Nat) (frameId : String)
    (outcomes : List (Nat × Outcome)) : Follows ((s.withoutPending i frameId).finish outcomes) l := by
  have hupdate : ∀ j, ((s.withoutPending i frameId).sessions j).pingTimer = (s.sessions j).pingTimer ∧
      ((s.withoutPending i frameId).sessions j).pongSeen = (s.sessions j).pongSeen ∧
      ((s.withoutPending i frameId).sessions j).pending.Sublist (s.sessions j).pending := by
    intro j
    change (Function.update s.sessions i _ j).pingTimer = _ ∧
      (Function.update s.sessions i _ j).pongSeen = _ ∧
      (Function.update s.sessions i _ j).pending.Sublist _
    by_cases hj : j = i
    · rw [hj, Function.update_self]
      exact ⟨rfl, rfl, List.filter_sublist⟩
    · rw [Function.update_of_ne hj]
      exact ⟨rfl, rfl, List.Sublist.refl _⟩
  exact h.congr rfl rfl (fun j => (hupdate j).1) (fun j _ => (hupdate j).2.1) fun j _ => (hupdate j).2.2

theorem Follows.onFrame (h : Follows s l) (frame : Option Frame) : Follows (s.onFrame frame) l := by
  unfold Channel.onFrame
  split
  · split_ifs
    · split
      · exact h
      · exact h.withoutPending _ _ _
    · exact h
  · exact h

theorem Follows.sendProbeNow (h : Follows s l) (frameId : String) (timeoutMs : Nat) :
    Follows (s.sendProbeNow frameId timeoutMs) l := by
  unfold Channel.sendProbeNow
  split
  · exact h.congr rfl rfl (fun _ => rfl) (fun _ _ => rfl) fun _ _ => List.Sublist.refl _
  · rename_i i hi
    refine h.congr rfl rfl (fun j => ?_) (fun j _ => ?_) fun j hj => ?_
    · change (Function.update s.sessions i _ j).pingTimer = _
      by_cases hj : j = i
      · rw [hj, Function.update_self]
      · rw [Function.update_of_ne hj]
    · change (Function.update s.sessions i _ j).pongSeen = _
      by_cases hj : j = i
      · rw [hj, Function.update_self]
      · rw [Function.update_of_ne hj]
    · have hne : j ≠ i := fun he => hj (he ▸ hi)
      change (Function.update s.sessions i _ j).pending.Sublist _
      rw [Function.update_of_ne hne]

theorem Follows.setPong (h : Follows s l) (hi : s.current = some i) (seen : Bool) :
    Follows (s.withSession i { s.sessions i with pongSeen := seen }) { l with pongSeen := seen } := by
  have hself : (s.withSession i { s.sessions i with pongSeen := seen }).sessions i =
      { s.sessions i with pongSeen := seen } := Function.update_self ..
  refine ⟨h.current, h.attached, fun j hj => ?_, fun j hj => ?_, fun j hj => ?_⟩
  · cases hi.symm.trans hj
    rw [hself]
    exact h.pinging i hi
  · cases hi.symm.trans hj
    rw [hself]
  · have hne : j ≠ i := fun he => hj (he ▸ hi)
    change Ended (Function.update s.sessions i _ j)
    rw [Function.update_of_ne hne]
    exact h.ended j hj

theorem Follows.onPong (h : Follows s l) (i : Nat) : Follows (s.onPong i) (l.next (.pong i)) := by
  by_cases hi : s.current = some i
  · simp only [Link.next, ← h.current, hi, if_true]
    exact hi ▸ h.current ▸ h.setPong hi true
  · simp only [Link.next, ← h.current, hi, if_false]
    refine h.congr rfl rfl (fun j => ?_) (fun j hj => ?_) fun j _ => ?_
    · change (Function.update s.sessions i _ j).pingTimer = _
      by_cases hj : j = i
      · rw [hj, Function.update_self]
      · rw [Function.update_of_ne hj]
    · have hne : j ≠ i := fun he => hi (he ▸ hj)
      change (Function.update s.sessions i _ j).pongSeen = _
      rw [Function.update_of_ne hne]
    · change (Function.update s.sessions i _ j).pending.Sublist _
      by_cases hj : j = i
      · rw [hj, Function.update_self]
      · rw [Function.update_of_ne hj]

/-- The heartbeat of a session that has ended is silent, so only that of the
one in the map can detach it. -/
theorem Follows.tick (h : Follows s l) (i : Nat) : Follows (step s (.tick i)) (l.next (.tick i)) := by
  by_cases hi : l.current = some i
  · have hs : s.current = some i := h.current.trans hi
    have hstep : step s (.tick i) = s.onPing i := if_pos (h.pinging i hs).2
    have hnext : l.next (.tick i) =
        if l.pongSeen then { l with pongSeen := false } else { l with current := none } := if_pos hi
    rw [hstep, hnext, Channel.onPing, h.pong i hs]
    split_ifs
    · exact h.setPong hs false
    · exact h.detach
  · have hping := (h.ended i (h.current ▸ hi)).1
    simp only [step, hping, Bool.false_eq_true, if_false, Link.next, hi]
    exact h

theorem Follows.close (h : Follows s l) (i : Nat) (hc : i < s.attached → ∀ j ∈ s.current, j = i) :
    Follows (if i < s.attached then s.detach else s)
      (if l.current = some i then { l with current := none } else l) := by
  by_cases hi : l.current = some i
  · have hs : s.current = some i := h.current.trans hi
    rw [if_pos hi, if_pos (h.pinging i hs).1]
    exact h.detach
  · rw [if_neg hi]
    split_ifs with hlt
    · cases hs : s.current with
      | none =>
        rw [Channel.detach, hs]
        exact h
      | some j =>
        cases hc hlt j hs
        exact absurd (h.current.symm.trans hs) hi
    · exact h

theorem follows_step (e : Event) (h : Follows s l) (hc : Undisturbed s e) :
    Follows (step s e) (l.next e) := by
  cases e with
  | attach => exact h.attach
  | message i frame =>
    simp only [step]
    split_ifs
    · exact h.onFrame frame
    · exact h
  | pong i =>
    simp only [step]
    split_ifs with hlt
    · exact h.onPong i
    · have hi : l.current ≠ some i := fun hi => hlt (h.pinging i (h.current.trans hi)).1
      simp only [Link.next, hi, if_false]
      exact h
  | close i => exact h.close i hc
  | error i => exact h.close i hc
  | tick i => exact h.tick i
  | detach => exact h.detach
  | sendProbeNow frameId timeoutMs => exact h.sendProbeNow frameId timeoutMs
  | timeout k =>
    simp only [step]
    split
    · exact h
    · exact h.withoutPending _ _ _

end Sessions

theorem follows_run {events : List Event} {s : Channel} {l : Link} (h : Follows s l)
    (hc : Along step Undisturbed s events) : Follows (events.foldl step s) (events.foldl Link.next l) := by
  induction events generalizing s l with
  | nil => exact h
  | cons e events ih => exact ih (follows_step e h hc.1) hc.2

/-- In every run the newest socket stays in the map as it should, every
promise is settled once or about to be, and what has left the map has ended. -/
theorem newest_socket_stays (events : List Event) (h : Along step Undisturbed {} events) :
    (run events).current = (link events).current ∧
      (∀ k < (run events).probes, Owed (run events) k) ∧
      ∀ i, (run events).current ≠ some i → Ended ((run events).sessions i) := by
  have hfollows : Follows (run events) (link events) :=
    follows_run ⟨rfl, rfl, nofun, nofun, fun _ _ => ⟨rfl, rfl⟩⟩ h
  have hstart : Accounted {} := ⟨List.nodup_nil, List.nodup_nil,
    nofun, by simp, fun _ => List.nodup_nil, nofun⟩
  have haccounted : Accounted (run events) :=
    foldl_invariant (I := Accounted) (fun _ e hs _ => accounted_step hs e) hstart h
  exact ⟨hfollows.current, fun k hk => haccounted.owed hk, hfollows.ended⟩

theorem newest_socket_stays_reconnected :
    (run [.attach, .sendProbeNow "a" 10000, .tick 0, .tick 0, .close 0, .attach, .sendProbeNow "b" 10000,
      .message 1 (some ⟨"probe-now-response", "b", "ok"⟩), .timeout 0]).current = some 1 ∧
    (run [.attach, .sendProbeNow "a" 10000, .tick 0, .tick 0, .close 0, .attach, .sendProbeNow "b" 10000,
      .message 1 (some ⟨"probe-now-response", "b", "ok"⟩), .timeout 0]).settled =
        [(0, .rejected "Agent disconnected"), (1, .resolved "ok")] := by
  refine ⟨?_, by decide +kernel⟩
  exact (newest_socket_stays _ (by decide +kernel)).1.trans (by decide)

/-- Closing the socket that was replaced takes its successor out of the map. -/
theorem late_close_detaches_successor :
    (run [.attach, .attach, .close 0]).current = none ∧
      (link [.attach, .attach, .close 0]).current = some 1 := by
  decide

end Polaris.AgentChannel
