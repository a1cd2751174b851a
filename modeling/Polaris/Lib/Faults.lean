namespace Polaris.Lib.Faults

variable {D ε α : Type}

/-- How a call to a remote device goes: it is answered, it fails without
effect, or it takes effect and its answer is lost. -/
inductive Outcome (ε : Type)
  | answered
  | failed (e : ε)
  | lost (e : ε)
  deriving DecidableEq

def Outcome.applies : Outcome ε → Bool
  | .failed _ => false
  | .answered | .lost _ => true

def call (o : Outcome ε) (f : D → D × Except ε α) (d : D) : D × Except ε α :=
  match o with
  | .answered => f d
  | .failed e => (d, .error e)
  | .lost e => ((f d).1, .error e)

def fetch (o : Outcome ε) (a : α) : Except ε α :=
  match o with
  | .answered => .ok a
  | .failed e | .lost e => .error e

theorem fetch_ok {o : Outcome ε} {a b : α} (h : fetch o a = .ok b) : b = a := by
  cases o <;> cases h
  rfl

theorem call_fst (o : Outcome ε) (f : D → D × Except ε α) (d : D) :
    (call o f d).1 = if o.applies then (f d).1 else d := by
  cases o <;> rfl

/-- A sequence of calls that stops at the first error. Calls beyond the end
of the outcomes are answered. -/
def sequence {β : Type} (effect : β → D → D) : List β → List (Outcome ε) → D → D × Except ε Unit
  | [], _, d => (d, .ok ())
  | b :: bs, os, d =>
    match call (os.headD .answered) (fun d => (effect b d, Except.ok ())) d with
    | (d, .ok _) => sequence effect bs os.tail d
    | (d, .error e) => (d, .error e)

section Reached

variable {β : Type} {effect : β → D → D} {bs : List β} {os : List (Outcome ε)} {d : D}

/-- How each call of a sequence would go. -/
def outcomes : List β → List (Outcome ε) → List (Outcome ε)
  | [], _ => []
  | _ :: bs, os => os.headD .answered :: outcomes bs os.tail

/-- The calls of a sequence that take effect before it stops. -/
def reached : List β → List (Outcome ε) → List β
  | [], _ => []
  | b :: bs, os =>
    match os.headD .answered with
    | .answered => b :: reached bs os.tail
    | .failed _ => []
    | .lost _ => [b]

theorem sequence_fst (effect : β → D → D) (bs : List β) (os : List (Outcome ε)) (d : D) :
    (sequence effect bs os d).1 = (reached bs os).foldl (fun d b => effect b d) d := by
  induction bs generalizing os d with
  | nil => rfl
  | cons b bs ih =>
    rw [sequence, reached]
    cases os.headD .answered with
    | answered => exact ih os.tail (effect b d)
    | failed e => rfl
    | lost e => rfl

theorem sequence_ok : (sequence effect bs os d).2 = .ok () ↔ ∀ o ∈ outcomes bs os, o = .answered := by
  induction bs generalizing os d with
  | nil => exact ⟨fun _ _ ho => absurd ho List.not_mem_nil, fun _ => rfl⟩
  | cons b bs ih =>
    rw [outcomes, List.forall_mem_cons, sequence]
    cases os.headD .answered with
    | answered => exact ⟨fun h => ⟨rfl, ih.mp h⟩, fun h => ih.mpr h.2⟩
    | failed e => simp [call]
    | lost e => simp [call]

theorem reached_subset {b : β} (h : b ∈ reached bs os) : b ∈ bs := by
  induction bs generalizing os with
  | nil => exact h
  | cons c bs ih =>
    rw [reached] at h
    cases ho : os.headD .answered with
    | answered =>
      rw [ho] at h
      obtain rfl | h := List.mem_cons.mp h
      · exact List.mem_cons_self
      · exact List.mem_cons_of_mem _ (ih h)
    | failed e =>
      rw [ho] at h
      exact absurd h List.not_mem_nil
    | lost e =>
      rw [ho] at h
      exact List.mem_singleton.mp h ▸ List.mem_cons_self

theorem reached_all (h : ∀ o ∈ outcomes bs os, o = .answered) : reached bs os = bs := by
  induction bs generalizing os with
  | nil => rfl
  | cons b bs ih =>
    rw [outcomes, List.forall_mem_cons] at h
    rw [reached, h.1, ih h.2]

theorem reached_nil : reached bs os = [] ↔ bs = [] ∨ ∃ e, (outcomes bs os).head? = some (.failed e) := by
  cases bs with
  | nil => exact ⟨fun _ => .inl rfl, fun _ => rfl⟩
  | cons b bs =>
    rw [reached, outcomes, List.head?_cons]
    cases os.headD .answered <;> simp

end Reached

end Polaris.Lib.Faults
