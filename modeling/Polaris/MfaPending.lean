import Mathlib.Logic.Function.Basic
import Mathlib.Tactic.SplitIfs

namespace Polaris.MfaPending

structure Entry where
  userId : String
  username : String
  expiresAt : Int
  deriving DecidableEq

def ttlMs : Int := 5 * 60 * 1000

/-- The pending challenges by token. -/
abbrev Store := String → Option Entry

def issue (store : Store) (token userId username : String) (now : Int) : Store :=
  Function.update store token (some ⟨userId, username, now + ttlMs⟩)

def peek (store : Store) (token : String) (now : Int) : Store × Option Entry :=
  if token = "" then (store, none)
  else
    match store token with
    | none => (store, none)
    | some entry =>
      if entry.expiresAt < now then (Function.update store token none, none) else (store, some entry)

def consume (store : Store) (token : String) (now : Int) : Store × Option Entry :=
  match peek store token now with
  | (store', none) => (store', none)
  | (store', some entry) => (Function.update store' token none, some entry)

def cleanup (store : Store) (now : Int) : Store := fun token =>
  (store token).filter fun entry => ¬ entry.expiresAt < now

variable {store : Store} {token : String} {now : Int} {entry : Entry}

theorem peek_some (h : (peek store token now).2 = some entry) :
    store token = some entry ∧ token ≠ "" ∧ ¬ entry.expiresAt < now := by
  unfold peek at h
  split_ifs at h with htok
  split at h
  · cases h
  · rename_i e he
    split_ifs at h with hexp
    cases h
    exact ⟨he, htok, hexp⟩

/-- Whatever is done to the store, an entry still there was there before. -/
def Within (store' store : Store) : Prop := ∀ t, store' t = none ∨ store' t = store t

theorem within_refl : Within store store := fun _ => .inr rfl

theorem within_drop : Within (Function.update store token none) store := by
  intro t
  by_cases h : t = token
  · exact .inl (by rw [h, Function.update_self])
  · exact .inr (Function.update_of_ne h _ _)

theorem peek_within : Within (peek store token now).1 store := by
  unfold peek
  split_ifs
  · exact within_refl
  · split
    · exact within_refl
    · split_ifs
      · exact within_drop
      · exact within_refl

theorem within_trans {a b c : Store} (hab : Within a b) (hbc : Within b c) : Within a c := by
  intro t
  obtain h | h := hab t
  · exact .inl h
  · rw [h]
    exact hbc t

theorem consume_within : Within (consume store token now).1 store := by
  have hp := @peek_within store token now
  unfold consume
  split
  · rename_i h
    rwa [h] at hp
  · rename_i h
    rw [h] at hp
    exact within_trans within_drop hp

theorem consume_gone (htok : token ≠ "") : (consume store token now).1 token = none := by
  unfold consume peek
  rw [if_neg htok]
  cases h : store token with
  | none => simp [h]
  | some entry => by_cases hexp : entry.expiresAt < now <;> simp [hexp]

theorem cleanup_within : Within (cleanup store now) store := by
  intro t
  unfold cleanup
  cases store t with
  | none => exact .inl rfl
  | some entry =>
    by_cases h : entry.expiresAt < now
    · exact .inl (by simp [h])
    · exact .inr (by rw [Option.filter_some, if_pos (decide_eq_true h)])

end Polaris.MfaPending
