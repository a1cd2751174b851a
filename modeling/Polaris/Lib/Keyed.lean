import Mathlib.Data.List.Basic

namespace Polaris.Lib.Keyed

variable {α ι κ : Type*} [DecidableEq κ]

/-- A map of keys after an object has claimed some. It gives none back. -/
def claim (ks : List κ) (i : ι) (m : κ → Option ι) : κ → Option ι := fun k => if k ∈ ks then some i else m k

def settle [DecidableEq ι] (i : ι) (a : α) (find : ι → Option α) : ι → Option α := fun j =>
    if j = i then some a else find j

/-- Whoever a key leads to has it. -/
def Sound (has : α → κ → Prop) (find : ι → Option α) (m : κ → Option ι) : Prop :=
  ∀ k i a, m k = some i → find i = some a → has a k

def Closed (find : ι → Option α) (m : κ → Option ι) : Prop := ∀ k i, m k = some i → (find i).isSome

def Within (p : κ → Prop) (m : κ → Option ι) : Prop := ∀ k i, m k = some i → p k

def Full (keys : α → List κ) (objects : List α) (m : κ → Option ι) : Prop :=
  ∀ a ∈ objects, ∀ k ∈ keys a, (m k).isSome

variable {has : α → κ → Prop} {find : ι → Option α} {m : κ → Option ι} {ks : List κ} {i : ι} {a : α} {k : κ}
  {p : κ → Prop}

theorem claim_self (h : m k = some i) : claim ks i m k = some i := by
  rw [claim]
  split
  · rfl
  · exact h

theorem claim_cases {j : ι} (h : claim ks i m k = some j) : (k ∈ ks ∧ j = i) ∨ m k = some j := by
  rw [claim] at h
  split at h
  next hk => exact Or.inl ⟨hk, (Option.some.inj h).symm⟩
  next => exact Or.inr h

theorem claim_nil : claim [] i m = m := by
  funext k
  simp [claim]

theorem claim_claim (ks ks' : List κ) : claim ks' i (claim ks i m) = claim (ks ++ ks') i m := by
  funext k
  by_cases hk : k ∈ ks
  · by_cases hk' : k ∈ ks'
    · simp [claim, hk, hk']
    · simp [claim, hk, hk']
  · simp [claim, hk]

theorem isSome_claim (h : (m k).isSome) : (claim ks i m k).isSome := by
  rw [claim]
  split
  · rfl
  · exact h

theorem within_claim (hks : ∀ k ∈ ks, p k) (h : Within p m) : Within p (claim ks i m) := by
  intro k j hj
  obtain ⟨hk, -⟩ | hk := claim_cases hj
  · exact hks k hk
  · exact h k j hk

theorem full_claim {keys : α → List κ} {objects objects' : List α}
    (hobjects : ∀ b ∈ objects', b = a ∨ b ∈ objects)
    (h : Full keys objects m) : Full keys objects' (claim (keys a) i m) := by
  intro b hb k hk
  obtain rfl | hb := hobjects b hb
  · rw [claim, if_pos hk]
    rfl
  · exact isSome_claim (h b hb k hk)

variable [DecidableEq ι]

theorem sound_claim (hks : ∀ k ∈ ks, has a k) (h : Sound has find m) :
    Sound has (settle i a find) (claim ks i m) ↔ ∀ k, m k = some i → has a k := by
  constructor
  · intro hsound k hk
    exact hsound k i a (claim_self hk) (if_pos rfl)
  · intro hkept k j b hj hb
    by_cases hji : j = i
    · subst hji
      have hab : a = b := Option.some.inj ((if_pos rfl).symm.trans hb)
      subst hab
      obtain ⟨hk, -⟩ | hk := claim_cases hj
      · exact hks k hk
      · exact hkept k hk
    · rw [settle, if_neg hji] at hb
      obtain ⟨-, he⟩ | hk := claim_cases hj
      · exact absurd he hji
      · exact h k j b hk hb

theorem closed_claim (h : Closed find m) : Closed (settle i a find) (claim ks i m) := by
  intro k j hj
  rw [settle]
  by_cases hji : j = i
  · rw [if_pos hji]
    rfl
  · rw [if_neg hji]
    obtain ⟨-, he⟩ | hk := claim_cases hj
    · exact absurd he hji
    · exact h k j hk

theorem sound_claim_new (hks : ∀ k ∈ ks, has a k) (hclosed : Closed find m) (hnew : find i = none)
    (h : Sound has find m) : Sound has (settle i a find) (claim ks i m) := by
  refine (sound_claim hks h).mpr fun k hk => ?_
  have hsome := hclosed k i hk
  rw [hnew] at hsome
  exact absurd hsome Bool.false_ne_true

end Polaris.Lib.Keyed
