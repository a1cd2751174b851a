import Mathlib.Data.List.Basic
import Mathlib.Data.List.Nodup
import Polaris.Lib.Runs

namespace Polaris.Lib.Jobs

open Polaris.Lib.Runs

section Jobs

variable {σ : Type}

/-- A job over a shared store, from await to await: one statement, whose
result the rest of the job reads, or a bounded wait for a condition. -/
inductive Job (σ : Type)
  | done
  | failed
  | act (write : σ → Option σ) (next : σ → Job σ)
  | poll (n : Nat) (ready : σ → Bool) (next : Job σ)

/-- A statement that throws ends the job. -/
def Job.advance (s : σ) : Job σ → σ × Job σ
  | .done => (s, .done)
  | .failed => (s, .failed)
  | .act write next =>
    match write s with
    | none => (s, .failed)
    | some s' => (s', next s)
  | .poll n ready next => (s, if ready s ∨ n ≤ 1 then next else .poll (n - 1) ready next)

def Job.read (next : σ → Job σ) : Job σ := .act some next

/-- The last poll of a wait, with the condition still missing. -/
def Job.GivesUp (s : σ) : Job σ → Prop
  | .poll n ready _ => n ≤ 1 ∧ ready s = false
  | _ => False

instance Job.decidableGivesUp (s : σ) : (job : Job σ) → Decidable (job.GivesUp s)
  | .poll n ready _ => inferInstanceAs (Decidable (n ≤ 1 ∧ ready s = false))
  | .done => isFalse id
  | .failed => isFalse id
  | .act _ _ => isFalse id

def Job.finished : Job σ → Bool
  | .done => true
  | _ => false

theorem Job.eq_done {job : Job σ} (h : job.finished = true) : job = .done := by
  cases job with
  | done => rfl
  | failed => cases h
  | act _ _ => cases h
  | poll _ _ _ => cases h

structure Duo (σ : Type) where
  state : σ
  first : Job σ
  second : Job σ

inductive Turn
  | first | second | crash

variable (first second : Job σ)

/-- Two jobs of one process. A crash restarts both on the store as it is. -/
def Duo.step (d : Duo σ) : Turn → Duo σ
  | .first => { d with state := (d.first.advance d.state).1, first := (d.first.advance d.state).2 }
  | .second => { d with state := (d.second.advance d.state).1, second := (d.second.advance d.state).2 }
  | .crash => ⟨d.state, first, second⟩

/-- A wait is given up only where its exit condition holds. -/
def Duo.Clear (exit : σ → Prop) (d : Duo σ) : Turn → Prop
  | .first => d.first.GivesUp d.state → exit d.state
  | .second => d.second.GivesUp d.state → exit d.state
  | .crash => True

instance Duo.decidableClear (exit : σ → Prop) [DecidablePred exit] (d : Duo σ) :
    (turn : Turn) → Decidable (d.Clear exit turn)
  | .first => inferInstanceAs (Decidable (d.first.GivesUp d.state → exit d.state))
  | .second => inferInstanceAs (Decidable (d.second.GivesUp d.state → exit d.state))
  | .crash => isTrue trivial

end Jobs

section Safety

variable {σ : Type} {I exit post : σ → Prop} {rely guarantee : σ → σ → Prop}

/-- Whatever the other job does in between, every statement of this one keeps
the invariant and its guarantee, and the end finds the postcondition. -/
def Safe (I exit post : σ → Prop) (rely guarantee : σ → σ → Prop) : Job σ → σ → Prop
  | .done, s => post s
  | .failed, _ => True
  | .act write next, s => ∀ t, rely s t → I t → ∀ t', write t = some t' →
      I t' ∧ guarantee t t' ∧ Safe I exit post rely guarantee (next t) t'
  | .poll _ ready next, s => ∀ t, rely s t → I t → (ready t = true ∨ exit t) →
    Safe I exit post rely guarantee next t

theorem Safe.read {next : σ → Job σ} {s : σ} (hrefl : ∀ s, guarantee s s)
    (h : ∀ t, rely s t → I t → Safe I exit post rely guarantee (next t) t) :
    Safe I exit post rely guarantee (.read next) s := by
  rintro t hst ht t' ⟨⟩
  exact ⟨ht, hrefl t, h t hst ht⟩

theorem Safe.mono {job : Job σ} {s t : σ} (htrans : ∀ a b c, rely a b → rely b c → rely a c)
    (hpost : ∀ a b, rely a b → post a → post b) (h : Safe I exit post rely guarantee job s) (hst : rely s t) :
    Safe I exit post rely guarantee job t := by
  cases job with
  | done => exact hpost s t hst h
  | failed => trivial
  | act write next => exact fun u htu => h u (htrans s t u hst htu)
  | poll n ready next => exact fun u htu => h u (htrans s t u hst htu)

theorem Safe.advance {job : Job σ} {s : σ} (hrefl : ∀ s, rely s s) (hguar : ∀ s, guarantee s s)
    (h : Safe I exit post rely guarantee job s) (hs : I s) (hexit : job.GivesUp s → exit s) :
    I (job.advance s).1 ∧ guarantee s (job.advance s).1 ∧
      Safe I exit post rely guarantee (job.advance s).2 (job.advance s).1 := by
  cases job with
  | done => exact ⟨hs, hguar s, h⟩
  | failed => exact ⟨hs, hguar s, trivial⟩
  | act write next =>
    rw [Job.advance]
    split
    next => exact ⟨hs, hguar s, trivial⟩
    next s' hw => exact h s (hrefl s) hs s' hw
  | poll n ready next =>
    refine ⟨hs, hguar s, ?_⟩
    rw [Job.advance]
    dsimp only
    split
    next hleave =>
      apply h s (hrefl s) hs
      cases hready : ready s with
      | true => exact .inl rfl
      | false => exact .inr (hexit ⟨hleave.resolve_left (by simp [hready]), hready⟩)
    next => exact h

end Safety

section Runs

variable {σ : Type} {I exit post₁ post₂ : σ → Prop} {rely₁ rely₂ : σ → σ → Prop}

/-- Each job guarantees what the other relies on. -/
structure Compatible (I exit post₁ post₂ : σ → Prop) (rely₁ rely₂ : σ → σ → Prop)
  (first second : Job σ) : Prop where
  refl₁ : ∀ s, rely₁ s s
  refl₂ : ∀ s, rely₂ s s
  trans₁ : ∀ a b c, rely₁ a b → rely₁ b c → rely₁ a c
  trans₂ : ∀ a b c, rely₂ a b → rely₂ b c → rely₂ a c
  stable₁ : ∀ a b, rely₁ a b → post₁ a → post₁ b
  stable₂ : ∀ a b, rely₂ a b → post₂ a → post₂ b
  first : ∀ s, I s → Safe I exit post₁ rely₁ rely₂ first s
  second : ∀ s, I s → Safe I exit post₂ rely₂ rely₁ second s

/-- What holds of the store and of the rest of both jobs, however often they
were restarted. -/
structure Sound (I exit post₁ post₂ : σ → Prop) (rely₁ rely₂ : σ → σ → Prop) (d : Duo σ) : Prop where
  inv : I d.state
  first : Safe I exit post₁ rely₁ rely₂ d.first d.state
  second : Safe I exit post₂ rely₂ rely₁ d.second d.state

variable {first second : Job σ} {d : Duo σ}

theorem Compatible.step (h : Compatible I exit post₁ post₂ rely₁ rely₂ first second)
    (hd : Sound I exit post₁ post₂ rely₁ rely₂ d) (turn : Turn) (hclear : d.Clear exit turn) :
    Sound I exit post₁ post₂ rely₁ rely₂ (d.step first second turn) := by
  cases turn with
  | first =>
    obtain ⟨hinv, hrely, hsafe⟩ := hd.first.advance h.refl₁ h.refl₂ hd.inv hclear
    exact ⟨hinv, hsafe, hd.second.mono h.trans₂ h.stable₂ hrely⟩
  | second =>
    obtain ⟨hinv, hrely, hsafe⟩ := hd.second.advance h.refl₂ h.refl₁ hd.inv hclear
    exact ⟨hinv, hd.first.mono h.trans₁ h.stable₁ hrely, hsafe⟩
  | crash => exact ⟨hd.inv, h.first d.state hd.inv, h.second d.state hd.inv⟩

theorem Compatible.run (h : Compatible I exit post₁ post₂ rely₁ rely₂ first second) {s : σ} (hs : I s)
    {turns : List Turn} (hclear : Along (Duo.step first second) (Duo.Clear exit) ⟨s, first, second⟩ turns) :
    Sound I exit post₁ post₂ rely₁ rely₂ (turns.foldl (Duo.step first second) ⟨s, first, second⟩) :=
  foldl_invariant (I := Sound I exit post₁ post₂ rely₁ rely₂) (fun _ turn hd hc => h.step hd turn hc) ⟨hs,
    h.first s hs, h.second s hs⟩ hclear

end Runs

section Sweeps

variable {σ ρ δ κ : Type} [DecidableEq κ]

/-- A loop over rows read before it: each that needs it is written, one
statement a row. -/
def sweep (need : ρ → Option δ) (put : ρ → δ → σ → Option σ) (next : Nat → Job σ) : List ρ → Nat → Job σ
  | [], n => next n
  | r :: rest, n =>
    match need r with
    | none => sweep need put next rest n
    | some data => .act (put r data) fun _ => sweep need put next rest (n + 1)

def replace (key : ρ → κ) (apply : δ → ρ → ρ) (r : ρ) (data : δ) (rows : List ρ) : List ρ :=
  rows.map fun x => if key x = key r then apply data x else x

variable {key : ρ → κ} {apply : δ → ρ → ρ} {need : ρ → Option δ} {rows rest : List ρ} {r : ρ} {data : δ}

theorem key_replace (hkey : ∀ data x, key (apply data x) = key x) (rows : List ρ) :
    (replace key apply r data rows).map key = rows.map key := by
  rw [replace, List.map_map]
  refine List.map_congr_left fun x _ => ?_
  dsimp only [Function.comp]
  split
  · exact hkey data x
  · rfl

/-- The rows that a sweep has still to write are as it read them, and all
others are settled. -/
structure Swept (key : ρ → κ) (need : ρ → Option δ) (rows rest : List ρ) : Prop where
  nodup : (rows.map key).Nodup
  ahead : rest.Nodup
  kept : ∀ x ∈ rest, x ∈ rows
  settled : ∀ x ∈ rows, need x = none ∨ x ∈ rest

omit [DecidableEq κ] in
theorem Swept.start (h : (rows.map key).Nodup) : Swept key need rows rows :=
  ⟨h, List.Nodup.of_map _ h, fun _ hx => hx, fun _ hx => .inr hx⟩

omit [DecidableEq κ] in
theorem Swept.skip (h : Swept key need rows (r :: rest)) (hr : need r = none) : Swept key need rows rest := by
  refine ⟨h.nodup, (List.nodup_cons.mp h.ahead).2, fun x hx => h.kept x (List.mem_cons_of_mem r hx),
    fun x hx => ?_⟩
  obtain hx | hx := h.settled x hx
  · exact .inl hx
  · obtain rfl | hx := List.mem_cons.mp hx
    · exact .inl hr
    · exact .inr hx

theorem Swept.write (h : Swept key need rows (r :: rest)) (hkey : ∀ data x, key (apply data x) = key x)
    (hdata : need (apply data r) = none) : Swept key need (replace key apply r data rows) rest := by
  obtain ⟨hr, hrest⟩ := List.nodup_cons.mp h.ahead
  have hinj : ∀ x ∈ rows, key x = key r → x = r := fun x hx hk =>
    List.inj_on_of_nodup_map h.nodup hx (h.kept r List.mem_cons_self) hk
  refine ⟨?_, hrest, fun x hx => ?_, fun x hx => ?_⟩
  · rw [key_replace hkey]
    exact h.nodup
  · have hmem := h.kept x (List.mem_cons_of_mem r hx)
    have hne : key x ≠ key r := fun hk => hr (hinj x hmem hk ▸ hx)
    exact List.mem_map.mpr ⟨x, hmem, if_neg hne⟩
  · obtain ⟨y, hy, rfl⟩ := List.mem_map.mp hx
    split
    next hk =>
      rw [hinj y hy hk]
      exact .inl hdata
    next hk =>
      obtain hy' | hy' := h.settled y hy
      · exact .inl hy'
      · exact .inr ((List.mem_cons.mp hy').resolve_left fun he => hk (congrArg key he))

variable {I exit post : σ → Prop} {rely guarantee : σ → σ → Prop} {J : σ → Prop} {table : σ → List ρ}
  {put : ρ → δ → σ → Option σ} {next : Nat → Job σ}

variable (key apply J table) in
/-- A sweep is safe when each write is, and what follows it is safe where no
row needs a write any more. -/
theorem sweep_safe (hkey : ∀ data x, key (apply data x) = key x)
    (hneed : ∀ x data, need x = some data → need (apply data x) = none)
    (hstable : ∀ s t, J s → rely s t → I t → J t ∧ table t = table s)
    (hput : ∀ s r data s', J s → r ∈ table s → need r = some data → put r data s = some s' →
      I s' ∧ guarantee s s' ∧ J s' ∧ table s' = replace key apply r data (table s))
    (hnext : ∀ s n, J s → (∀ x ∈ table s, need x = none) → Safe I exit post rely guarantee (next n) s)
    {s : σ} (hs : J s) {rest : List ρ} (h : Swept key need (table s) rest) (n : Nat) :
    Safe I exit post rely guarantee (sweep need put next rest n) s := by
  induction rest generalizing s n with
  | nil => exact hnext s n hs fun x hx => (h.settled x hx).resolve_right List.not_mem_nil
  | cons r rest ih =>
    rw [sweep]
    split
    next hr => exact ih hs (h.skip hr) n
    next data hr =>
      intro t hst ht t' hw
      obtain ⟨hJ, htable⟩ := hstable s t hs hst ht
      have hmem : r ∈ table t := htable ▸ h.kept r List.mem_cons_self
      obtain ⟨hI, hG, hJ', htable'⟩ := hput t r data t' hJ hmem hr hw
      refine ⟨hI, hG, ih hJ' ?_ (n + 1)⟩
      rw [htable', htable]
      exact h.write hkey (hneed r data hr)

end Sweeps

end Polaris.Lib.Jobs
