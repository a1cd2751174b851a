import Mathlib.Data.List.Chain
import Mathlib.Data.List.Nodup

namespace Polaris.Lib.Walks

variable {V : Type*}

section Way

variable (next : V → Option V) (stop : V → Bool)

/-- A way to a first vertex that stops. -/
inductive Way : V → List V → V → Prop
  | last {v w : V} (hnext : next v = some w) (hstop : stop w = true) : Way v [] w
  | step {v w f : V} {ws : List V} (hnext : next v = some w) (hgo : stop w = false) (h : Way w ws f) :
    Way v (w :: ws) f

variable {next stop} {v w f : V} {ws : List V}

/-- From one vertex there is one way. -/
theorem Way.unique {ws' : List V} {f' : V} (h : Way next stop v ws f) (h' : Way next stop v ws' f') :
    ws = ws' ∧
    f = f' := by
  induction h generalizing ws' with
  | last hnext hstop =>
    cases h' with
    | last hnext' hstop' => exact ⟨rfl, Option.some.inj (hnext.symm.trans hnext')⟩
    | step hnext' hgo' h' =>
      cases Option.some.inj (hnext.symm.trans hnext')
      exact absurd hstop (Bool.eq_false_iff.mp hgo')
  | step hnext hgo h ih =>
    cases h' with
    | last hnext' hstop' =>
      cases Option.some.inj (hnext.symm.trans hnext')
      exact absurd hstop' (Bool.eq_false_iff.mp hgo)
    | step hnext' hgo' h' =>
      cases Option.some.inj (hnext.symm.trans hnext')
      obtain ⟨rfl, rfl⟩ := ih h'
      exact ⟨rfl, rfl⟩

/-- What is left of a way, from a vertex on it. -/
theorem Way.tail (h : Way next stop v ws f) (hw : w ∈ ws) :
    ∃ us, Way next stop w us f ∧ us.length < ws.length := by
  induction h with
  | last => cases hw
  | step hnext hgo h ih =>
    obtain rfl | hw := List.mem_cons.mp hw
    · exact ⟨_, h, Nat.lt_succ_self _⟩
    · obtain ⟨us, hus, hlt⟩ := ih hw
      exact ⟨us, hus, hlt.trans (Nat.lt_succ_self _)⟩

/-- A way does not come back to where it started. -/
theorem Way.start_notMem (h : Way next stop v ws f) : v ∉ ws := by
  intro hv
  obtain ⟨us, hus, hlt⟩ := h.tail hv
  rw [(h.unique hus).1] at hlt
  exact lt_irrefl _ hlt

theorem Way.stops (h : Way next stop v ws f) : stop f = true := by
  induction h with
  | last _ hstop => exact hstop
  | step _ _ _ ih => exact ih

theorem Way.nodup (h : Way next stop v ws f) : (ws ++ [f]).Nodup := by
  induction h with
  | last => exact List.nodup_singleton _
  | step hnext hgo h ih =>
    refine List.nodup_cons.mpr ⟨fun hmem => ?_, ih⟩
    obtain hmem | hmem := List.mem_append.mp hmem
    · exact h.start_notMem hmem
    · rw [List.mem_singleton.mp hmem, h.stops] at hgo
      cases hgo

end Way

section Follow

variable [DecidableEq V] (next : V → Option V) (stop : V → Bool)

/-- The vertices that are met on the way from one to the next, up to the first
that stops, to one met before, or to the end of the steps. -/
def follow : ℕ → V → List V → List V
  | 0, _, _ => []
  | n + 1, v, seen =>
    match next v with
    | none => []
    | some w =>
      if w ∈ seen then []
      else if stop w then [w]
      else w :: follow n w (w :: seen)

attribute [local simp] follow

variable {next stop} {n : ℕ} {v f : V} {ws seen : List V}

theorem length_follow : (follow next stop n v seen).length ≤ n := by
  induction n generalizing v seen with
  | zero => exact le_rfl
  | succ n ih =>
    rw [follow]
    split
    · exact Nat.zero_le _
    · split
      · exact Nat.zero_le _
      · split
        · exact Nat.succ_le_succ (Nat.zero_le _)
        · exact Nat.succ_le_succ ih

theorem chain_follow : List.IsChain (fun a b => next a = some b) (v :: follow next stop n v seen) := by
  induction n generalizing v seen with
  | zero => exact List.isChain_singleton v
  | succ n ih =>
    rw [follow]
    split
    · exact List.isChain_singleton v
    next w hw =>
      split
      · exact List.isChain_singleton v
      · split
        · exact List.isChain_cons_cons.mpr ⟨hw, List.isChain_singleton w⟩
        · exact List.isChain_cons_cons.mpr ⟨hw, ih⟩

theorem fresh_follow : (follow next stop n v seen).Nodup ∧ ∀ w ∈ follow next stop n v seen, w ∉ seen := by
  induction n generalizing v seen with
  | zero => exact ⟨List.nodup_nil, List.forall_mem_nil _⟩
  | succ n ih =>
    rw [follow]
    split
    · exact ⟨List.nodup_nil, List.forall_mem_nil _⟩
    next w hw =>
      split
      · exact ⟨List.nodup_nil, List.forall_mem_nil _⟩
      next hfresh =>
        split
        · exact ⟨List.nodup_singleton _, fun u hu => List.mem_singleton.mp hu ▸ hfresh⟩
        · obtain ⟨hnodup, hseen⟩ := @ih w (w :: seen)
          refine ⟨List.nodup_cons.mpr ⟨fun hmem => ?_, hnodup⟩,
            List.forall_mem_cons.mpr ⟨hfresh, fun u hu hmem => ?_⟩⟩
          · exact hseen w hmem List.mem_cons_self
          · exact hseen u hu (List.mem_cons_of_mem _ hmem)

theorem goes_follow : ∀ w ∈ (follow next stop n v seen).dropLast, stop w = false := by
  induction n generalizing v seen with
  | zero => exact List.forall_mem_nil _
  | succ n ih =>
    rw [follow]
    split
    · exact List.forall_mem_nil _
    next w hw =>
      split
      · exact List.forall_mem_nil _
      · split
        · exact List.forall_mem_nil _
        next hgo =>
          cases hrest : follow next stop n w (w :: seen) with
          | nil => exact List.forall_mem_nil _
          | cons u us =>
            rw [List.dropLast_cons_cons, ← hrest]
            exact List.forall_mem_cons.mpr ⟨Bool.eq_false_iff.mpr hgo, ih⟩

theorem way_of_follow (hlast : (follow next stop n v seen).getLast? = some f) (hstop : stop f = true) :
    ∃ ws, Way next stop v ws f ∧ follow next stop n v seen = ws ++ [f] := by
  induction n generalizing v seen with
  | zero => cases hlast
  | succ n ih =>
    rw [follow] at hlast ⊢
    cases hnext : next v with
    | none =>
      rw [hnext] at hlast
      cases hlast
    | some w =>
      rw [hnext] at hlast
      dsimp only at hlast ⊢
      by_cases hseen : w ∈ seen
      · rw [if_pos hseen] at hlast
        cases hlast
      · rw [if_neg hseen] at hlast ⊢
        cases hw : stop w with
        | true =>
          rw [if_pos hw] at hlast
          cases hlast
          exact ⟨[], .last hnext hw, if_pos rfl⟩
        | false =>
          rw [if_neg (Bool.eq_false_iff.mp hw)] at hlast
          have hrest : (follow next stop n w (w :: seen)).getLast? = some f := by
            cases hf : follow next stop n w (w :: seen) with
            | nil =>
              rw [hf, List.getLast?_singleton] at hlast
              cases hlast
              rw [hw] at hstop
              cases hstop
            | cons u us => rwa [hf, List.getLast?_cons_cons] at hlast
          obtain ⟨ws, hway, heq⟩ := ih hrest
          refine ⟨w :: ws, .step hnext hw hway, ?_⟩
          rw [if_neg Bool.false_ne_true, heq, List.cons_append]

theorem follow_of_way (h : Way next stop v ws f) (hn : ws.length < n) (hnodup : (ws ++ [f]).Nodup)
    (hseen : ∀ w ∈ ws ++ [f], w ∉ seen) : follow next stop n v seen = ws ++ [f] := by
  induction h generalizing n seen with
  | last hnext hstop =>
    obtain ⟨n, rfl⟩ := Nat.exists_eq_succ_of_ne_zero (Nat.ne_of_gt hn)
    rw [follow, hnext]
    dsimp only
    rw [if_neg (hseen _ (List.mem_singleton_self _)), if_pos hstop, List.nil_append]
  | @step v w f ws hnext hgo h ih =>
    obtain ⟨n, rfl⟩ := Nat.exists_eq_succ_of_ne_zero (Nat.ne_of_gt (Nat.zero_lt_of_lt hn))
    rw [List.cons_append, List.nodup_cons] at hnodup
    rw [List.cons_append, List.forall_mem_cons] at hseen
    rw [follow, hnext]
    dsimp only
    rw [if_neg hseen.1, if_neg (Bool.eq_false_iff.mp hgo), List.cons_append]
    refine congrArg (w :: ·) (ih (Nat.lt_of_succ_lt_succ hn) hnodup.2 fun u hu hmem => ?_)
    obtain rfl | hmem := List.mem_cons.mp hmem
    · exact hnodup.1 hu
    · exact hseen.2 u hu hmem

theorem follow_iff : ((follow next stop n v seen).getLast? = some f ∧ stop f = true) ↔
    ∃ ws, Way next stop v ws f ∧ ws.length < n ∧ ∀ w ∈ ws ++ [f], w ∉ seen := by
  constructor
  · rintro ⟨hlast, hstop⟩
    obtain ⟨ws, hway, heq⟩ := way_of_follow hlast hstop
    have hlength : (follow next stop n v seen).length ≤ n := length_follow
    rw [heq, List.length_append, List.length_singleton] at hlength
    exact ⟨ws, hway, hlength, heq ▸ fresh_follow.2⟩
  · rintro ⟨ws, hway, hn, hseen⟩
    rw [follow_of_way hway hn hway.nodup hseen]
    exact ⟨List.getLast?_concat, hway.stops⟩

end Follow

end Polaris.Lib.Walks
