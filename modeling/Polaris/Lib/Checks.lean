import Mathlib.Data.List.Forall2

namespace Polaris.Lib.Checks

variable {α β ε : Type}

theorem bind_ok {x : Except ε α} {f : α → Except ε β} {b : β} (h : x >>= f = .ok b) :
    ∃ a, x = .ok a ∧ f a = .ok b := by
  cases x with
  | error e => cases h
  | ok a => exact ⟨a, rfl, h⟩

theorem map_ok {x : Except ε α} {f : α → β} {b : β} (h : x.map f = .ok b) : ∃ a, x = .ok a ∧ f a = b := by
  cases x with
  | error e => cases h
  | ok a => exact ⟨a, rfl, Except.ok.inj h⟩

theorem forM_ok {f : α → Except ε Unit} {l : List α} (h : l.forM f = .ok ()) :
    ∀ a ∈ l, f a = .ok () := by
  induction l with
  | nil => simp
  | cons a l ih =>
    rw [List.forM] at h
    obtain ⟨⟨⟩, ha, hl⟩ := bind_ok h
    intro b hb
    obtain rfl | hb := List.mem_cons.mp hb
    · exact ha
    · exact ih hl b hb

theorem mapM_ok {f : α → Except ε β} {l : List α} {r : List β} (h : l.mapM f = .ok r) :
    List.Forall₂ (fun a b => f a = .ok b) l r := by
  induction l generalizing r with
  | nil =>
    rw [List.mapM_nil] at h
    cases h
    exact .nil
  | cons a l ih =>
    rw [List.mapM_cons] at h
    obtain ⟨b, hb, h⟩ := bind_ok h
    obtain ⟨bs, hbs, h⟩ := bind_ok h
    cases h
    exact .cons hb (ih hbs)

theorem filterAuxM_ok {p : α → Except ε Bool} {l acc r : List α} (h : l.filterAuxM p acc = .ok r) :
    ∀ a ∈ r, a ∈ acc ∨ p a = .ok true := by
  induction l generalizing acc with
  | nil =>
    cases h
    exact fun a ha => .inl ha
  | cons b l ih =>
    rw [List.filterAuxM] at h
    obtain ⟨keep, hkeep, h⟩ := bind_ok h
    intro a ha
    obtain ha | ha := ih h a ha
    · cases keep with
      | false => exact .inl ha
      | true =>
        obtain rfl | ha := List.mem_cons.mp ha
        · exact .inr hkeep
        · exact .inl ha
    · exact .inr ha

theorem filterM_ok {p : α → Except ε Bool} {l r : List α} (h : l.filterM p = .ok r) :
    ∀ a ∈ r, p a = .ok true := by
  unfold List.filterM at h
  obtain ⟨kept, hkept, h⟩ := bind_ok h
  cases h
  intro a ha
  obtain ha | ha := filterAuxM_ok hkept a (List.mem_reverse.mp ha)
  · cases ha
  · exact ha

theorem forall₂_exists_left {R : α → β → Prop} {l : List α} {r : List β} (h : List.Forall₂ R l r)
    {b : β} (hb : b ∈ r) : ∃ a ∈ l, R a b := by
  induction h with
  | nil => simp at hb
  | cons hab _ ih =>
    obtain rfl | hb := List.mem_cons.mp hb
    · exact ⟨_, by simp, hab⟩
    · obtain ⟨a, ha, hr⟩ := ih hb
      exact ⟨a, by simp [ha], hr⟩

theorem forall₂_map_eq {γ : Type} {R : α → β → Prop} {f : α → γ} {g : β → γ} {l : List α}
    {r : List β} (h : List.Forall₂ R l r) (hfg : ∀ a ∈ l, ∀ b, R a b → g b = f a) :
    r.map g = l.map f := by
  induction h with
  | nil => rfl
  | cons hab _ ih =>
    simp only [List.map_cons]
    rw [hfg _ (by simp) _ hab, ih (fun a ha => hfg a (by simp [ha]))]

end Polaris.Lib.Checks
