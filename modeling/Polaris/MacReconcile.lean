import Mathlib.Data.List.Dedup
import Mathlib.Data.List.Nodup
import Mathlib.Data.List.Sort
import Polaris.Reservations

namespace Polaris.MacReconcile

open Polaris.Reservations (truthy)

section Data

structure MacJsonEntry where
  mac : String
  lastSeen : Option String := none
  source : Option String := none
  device : Option String := none
  subnetCidr : Option String := none
  subnetName : Option String := none
  deriving DecidableEq

structure MacRow where
  assetId : String
  mac : String
  source : String
  device : Option String := none
  subnetCidr : Option String := none
  subnetName : Option String := none
  lastSeen : Nat
  firstSeen : Nat
  deriving DecidableEq

def MacRow.key (r : MacRow) : String × String := (r.assetId, r.mac)

structure MacTable where
  rows : List MacRow
  unique : (rows.map MacRow.key).Nodup

inductive Thrown
  | rangeError | cardinalityViolation | deadlock
  | statement (message : String)
  deriving DecidableEq

/-- How one attempt at a statement goes on the side of the database. -/
inductive Attempt
  | runs | deadlocks
  | fails (message : String)
  deriving DecidableEq

end Data

section Statements

variable {σ : Type}

def attemptsLeft (op : σ → Except Thrown σ) (s : σ) : Nat → List Attempt → Except Thrown σ
  | 0, _ => .error .deadlock
  | n + 1, attempts =>
    match attempts.headD .runs with
    | .runs => op s
    | .deadlocks => attemptsLeft op s n attempts.tail
    | .fails message => .error (.statement message)

/-- A deadlocked statement is tried again, four times at most. -/
def retryOnDeadlock (attempts : List Attempt) (op : σ → Except Thrown σ) (s : σ) : Except Thrown σ :=
  attemptsLeft op s 4 attempts

def MacTable.deleteMany (drop : MacRow → Bool) (t : MacTable) : MacTable where
  rows := t.rows.filter (!drop ·)
  unique := t.unique.sublist (List.filter_sublist.map _)

/-- What an update on conflict leaves of the stored row: when it was first
seen. -/
def overwrite (tuples : List MacRow) (r : MacRow) : MacRow :=
  match tuples.find? (·.key = r.key) with
  | none => r
  | some tuple => { tuple with firstSeen := r.firstSeen }

theorem overwrite_key (tuples : List MacRow) (r : MacRow) : (overwrite tuples r).key = r.key := by
  rw [overwrite]
  split
  · rfl
  next tuple hfind =>
    have hkey := List.find?_some hfind
    rwa [decide_eq_true_eq] at hkey

def MacTable.upsert (tuples : List MacRow) (t : MacTable) : Except Thrown MacTable :=
  if h : (tuples.map MacRow.key).Nodup then
    .ok {
      rows := t.rows.map (overwrite tuples) ++ tuples.filter (·.key ∉ t.rows.map MacRow.key)
      unique := by
        have hkeys : (t.rows.map (overwrite tuples)).map MacRow.key = t.rows.map MacRow.key := by
          rw [List.map_map]
          apply List.map_congr_left
          intro r _
          exact overwrite_key tuples r
        rw [List.map_append, hkeys]
        refine List.nodup_append'.mpr ⟨t.unique, h.sublist (List.filter_sublist.map _), ?_⟩
        intro key hold hnew
        obtain ⟨r, hr, rfl⟩ := List.mem_map.mp hnew
        exact of_decide_eq_true (List.mem_filter.mp hr).2 hold }
  else .error .cardinalityViolation

end Statements

section Reconcile

variable (parseDate : String → Option Nat) (now : Nat) (deletes inserts : List Attempt) (assetId : String)

def sortedMacs (macs : List MacJsonEntry) : List MacJsonEntry :=
  (macs.filter (·.mac ≠ "")).insertionSort fun a b => a.mac ≤ b.mac

def lastSeenOf (m : MacJsonEntry) : Option Nat :=
  match truthy m.lastSeen with
  | none => some now
  | some text => parseDate text

def tupleOf (m : MacJsonEntry) : Except Thrown MacRow :=
  match lastSeenOf parseDate now m with
  | none => .error .rangeError
  | some lastSeen =>
    .ok ⟨assetId, m.mac, (truthy m.source).getD "unknown", m.device, m.subnetCidr, m.subnetName, lastSeen,
      lastSeen⟩

def unlisted (newMacs : List MacJsonEntry) (r : MacRow) : Bool :=
  r.assetId = assetId && r.mac ∉ newMacs.map (·.mac)

/-- The rows that are not listed go in one statement, the others are written
in a second. -/
def reconcileMacAddresses (macs : List MacJsonEntry) (table : MacTable) : MacTable × Except Thrown Unit :=
  let newMacs := sortedMacs macs
  match retryOnDeadlock deletes (fun t : MacTable => .ok (t.deleteMany (unlisted assetId newMacs))) table with
  | .error e => (table, .error e)
  | .ok left =>
    if newMacs = [] then (left, .ok ())
    else
      match newMacs.mapM (tupleOf parseDate now assetId) with
      | .error e => (left, .error e)
      | .ok tuples =>
        match retryOnDeadlock inserts (MacTable.upsert tuples) left with
        | .error e => (left, .error e)
        | .ok written => (written, .ok ())

end Reconcile

section Retries

variable {σ : Type} {op : σ → Except Thrown σ} {s : σ}

def goesThrough : Nat → List Attempt → Bool
  | 0, _ => false
  | n + 1, attempts =>
    match attempts.headD .runs with
    | .runs => true
    | .deadlocks => goesThrough n attempts.tail
    | .fails _ => false

theorem attemptsLeft_eq {n : Nat} {attempts : List Attempt} (h : goesThrough n attempts = true) :
    attemptsLeft op s n attempts = op s := by
  induction n generalizing attempts with
  | zero => cases h
  | succ n ih =>
    rw [goesThrough] at h
    rw [attemptsLeft]
    cases hhead : attempts.headD .runs with
    | runs => rfl
    | deadlocks =>
      rw [hhead] at h
      exact ih h
    | fails message =>
      rw [hhead] at h
      cases h

theorem attemptsLeft_error {n : Nat} {attempts : List Attempt} (h : goesThrough n attempts = false) :
    ∃ e, attemptsLeft op s n attempts = .error e := by
  induction n generalizing attempts with
  | zero => exact ⟨_, rfl⟩
  | succ n ih =>
    rw [goesThrough] at h
    rw [attemptsLeft]
    cases hhead : attempts.headD .runs with
    | runs =>
      rw [hhead] at h
      cases h
    | deadlocks =>
      rw [hhead] at h
      exact ih h
    | fails message => exact ⟨_, rfl⟩

end Retries

section Writes

variable {parseDate : String → Option Nat} {now : Nat} {assetId : String} {table : MacTable}
  {macs l : List MacJsonEntry}
  {tuples : List MacRow}

def macsOf (macs : List MacJsonEntry) : List String := (macs.map (·.mac)).filter (· ≠ "")

def ownRows (assetId : String) (t : MacTable) : List MacRow := t.rows.filter (·.assetId = assetId)

theorem sortedMacs_perm (macs : List MacJsonEntry) : ((sortedMacs macs).map (·.mac)).Perm (macsOf macs) := by
  rw [macsOf, List.filter_map]
  exact (List.perm_insertionSort _ _).map _

theorem mem_sortedMacs {m : MacJsonEntry} : m ∈ sortedMacs macs ↔ m ∈ macs ∧ m.mac ≠ "" := by
  rw [sortedMacs, List.mem_insertionSort, List.mem_filter, decide_eq_true_eq]

theorem tuples_ok (h : ∀ m ∈ l, lastSeenOf parseDate now m ≠ none) :
    ∃ tuples, l.mapM (tupleOf parseDate now assetId) = .ok tuples ∧
      tuples.map MacRow.key = l.map fun m => (assetId, m.mac) := by
  induction l with
  | nil => exact ⟨[], rfl, rfl⟩
  | cons m l ih =>
    obtain ⟨tuples, htuples, hkeys⟩ := ih fun m hm => h m (List.mem_cons_of_mem _ hm)
    obtain ⟨lastSeen, hseen⟩ := Option.ne_none_iff_exists'.mp (h m List.mem_cons_self)
    have htuple : ∃ tuple, tupleOf parseDate now assetId m = .ok tuple ∧ tuple.key = (assetId, m.mac) := by
      rw [tupleOf, hseen]
      exact ⟨_, rfl, rfl⟩
    obtain ⟨tuple, htuple, hkey⟩ := htuple
    refine ⟨tuple :: tuples, ?_, ?_⟩
    · rw [List.mapM_cons, htuple, htuples]
      rfl
    · rw [List.map_cons, List.map_cons, hkey, hkeys]

theorem tuples_error (h : ∃ m ∈ l, lastSeenOf parseDate now m = none) :
    l.mapM (tupleOf parseDate now assetId) = .error .rangeError := by
  induction l with
  | nil =>
    obtain ⟨m, hm, -⟩ := h
    cases hm
  | cons m l ih =>
    rw [List.mapM_cons]
    cases hseen : lastSeenOf parseDate now m with
    | none =>
      have htuple : tupleOf parseDate now assetId m = .error .rangeError := by
        rw [tupleOf, hseen]
      rw [htuple]
      rfl
    | some lastSeen =>
      obtain ⟨m', hm', hnone⟩ := h
      obtain rfl | hm' := List.mem_cons.mp hm'
      · rw [hseen] at hnone
        cases hnone
      · have htuple : ∃ tuple, tupleOf parseDate now assetId m = .ok tuple := by
          rw [tupleOf, hseen]
          exact ⟨_, rfl⟩
        obtain ⟨tuple, htuple⟩ := htuple
        rw [htuple, ih ⟨m', hm', hnone⟩]
        rfl

theorem key_iff {r : MacRow} {mac : String} : r.key = (assetId, mac) ↔ r.assetId = assetId ∧ r.mac = mac :=
    Prod.mk.injEq .. ▸ Iff.rfl

theorem mem_own {mac : String} : mac ∈ (ownRows assetId table).map MacRow.mac ↔
    (assetId, mac) ∈ table.rows.map MacRow.key := by
  simp only [ownRows, List.mem_map, List.mem_filter, decide_eq_true_eq, key_iff, and_assoc]

theorem own_nodup (assetId : String) (table : MacTable) : ((ownRows assetId table).map MacRow.mac).Nodup := by
  apply List.Nodup.of_map (fun mac => (assetId, mac))
  have hkeys : ((ownRows assetId table).map MacRow.mac).map (fun mac => (assetId, mac)) =
      (ownRows assetId table).map MacRow.key := by
    rw [List.map_map]
    apply List.map_congr_left
    intro r hr
    have hown := (List.mem_filter.mp hr).2
    rw [decide_eq_true_eq] at hown
    rw [Function.comp, MacRow.key, hown]
  rw [hkeys]
  exact table.unique.sublist (List.filter_sublist.map _)

theorem eq_of_key {r r' : MacRow} (hr : r ∈ table.rows) (hr' : r' ∈ table.rows) (h : r.key = r'.key) :
    r = r' :=
  List.inj_on_of_nodup_map table.unique hr hr' h

theorem mem_deleteMany {drop : MacRow → Bool} {r : MacRow} :
    r ∈ (table.deleteMany drop).rows ↔ r ∈ table.rows ∧ drop r = false := by
  rw [MacTable.deleteMany, List.mem_filter, Bool.not_eq_true']

theorem upsert_ok (h : (tuples.map MacRow.key).Nodup) : ∃ written, table.upsert tuples = .ok written ∧
    (∀ key, key ∈ written.rows.map MacRow.key ↔ key ∈ table.rows.map MacRow.key ∨
      key ∈ tuples.map MacRow.key) ∧
    ∀ old ∈ table.rows, ∀ new ∈ written.rows, new.key = old.key → new.firstSeen = old.firstSeen := by
  rw [MacTable.upsert, dif_pos h]
  refine ⟨_, rfl, fun key => ?_, fun old hold new hnew hkey => ?_⟩
  · dsimp only
    have hkeys : (t : List MacRow) → (t.map (overwrite tuples)).map MacRow.key = t.map MacRow.key := by
      intro t
      rw [List.map_map]
      apply List.map_congr_left
      intro r _
      exact overwrite_key tuples r
    rw [List.map_append, hkeys, List.mem_append]
    by_cases hold : key ∈ table.rows.map MacRow.key
    · exact iff_of_true (.inl hold) (.inl hold)
    · apply or_congr_right
      simp only [List.mem_map, List.mem_filter, decide_eq_true_eq]
      constructor
      · rintro ⟨t, ⟨ht, -⟩, rfl⟩
        exact ⟨t, ht, rfl⟩
      · rintro ⟨t, ht, rfl⟩
        exact ⟨t, ⟨ht, fun hmem => hold (List.mem_map.mpr hmem)⟩, rfl⟩
  · obtain hnew | hnew := List.mem_append.mp hnew
    · obtain ⟨r, hr, rfl⟩ := List.mem_map.mp hnew
      rw [overwrite_key] at hkey
      obtain rfl := eq_of_key hr hold hkey
      rw [overwrite]
      split <;> rfl
    · have hfresh := (List.mem_filter.mp hnew).2
      rw [decide_eq_true_eq, hkey] at hfresh
      exact absurd (List.mem_map_of_mem hold) hfresh

theorem upsert_error (h : ¬ (tuples.map MacRow.key).Nodup) :
    table.upsert tuples = .error .cardinalityViolation := by
  rw [MacTable.upsert, dif_neg h]

end Writes

section Atomicity

variable (parseDate : String → Option Nat) (now : Nat) (deletes inserts : List Attempt) (assetId : String)
  (macs : List MacJsonEntry) (table : MacTable)

/-- All of the list, with what was known of the rows that stay, or nothing
when it throws. -/
def Reconciled (before : MacTable) (result : MacTable × Except Thrown Unit) : Prop :=
  match result.2 with
  | .ok _ => ((ownRows assetId result.1).map MacRow.mac).Perm (macsOf macs).dedup ∧
      ∀ old ∈ before.rows, ∀ new ∈ result.1.rows, new.key = old.key → new.firstSeen = old.firstSeen
  | .error _ => ownRows assetId result.1 = ownRows assetId before

/-- The second statement goes through, or the first one has removed nothing. -/
def Reconcilable : Prop :=
  goesThrough 4 deletes = false ∨ macsOf macs = [] ∨ (∀ mac ∈ (ownRows assetId table).map MacRow.mac,
    mac ∈ macsOf macs) ∨
    (macsOf macs).Nodup ∧ (∀ m ∈ macs, m.mac ≠ "" → lastSeenOf parseDate now m ≠ none) ∧
      goesThrough 4 inserts = true

instance : Decidable (Reconcilable parseDate now deletes inserts assetId macs table) :=
  inferInstanceAs (Decidable (_ ∨ _ ∨ _ ∨ _))

variable {parseDate now deletes inserts assetId macs table}

theorem unlisted_iff {r : MacRow} : unlisted assetId (sortedMacs macs) r = false ↔
    (r.assetId = assetId → r.mac ∈ macsOf macs) := by
  rw [unlisted, Bool.and_eq_false_iff, decide_eq_false_iff_not, decide_eq_false_iff_not, not_not,
    (sortedMacs_perm macs).mem_iff,
    imp_iff_not_or]

theorem own_deleteMany : ownRows assetId (table.deleteMany (unlisted assetId (sortedMacs macs))) =
    (ownRows assetId table).filter (·.mac ∈ macsOf macs) := by
  rw [ownRows, ownRows, MacTable.deleteMany, List.filter_filter, List.filter_filter]
  apply List.filter_congr
  intro r _
  rw [Bool.eq_iff_iff, Bool.and_eq_true, Bool.and_eq_true, Bool.not_eq_true', unlisted_iff, decide_eq_true_eq,
    decide_eq_true_eq]
  constructor
  · rintro ⟨hown, hlisted⟩
    exact ⟨hlisted hown, hown⟩
  · rintro ⟨hlisted, hown⟩
    exact ⟨hown, fun _ => hlisted⟩

theorem own_unchanged_iff : ownRows assetId (table.deleteMany (unlisted assetId (sortedMacs macs))) =
      ownRows assetId table ↔
    ∀ mac ∈ (ownRows assetId table).map MacRow.mac, mac ∈ macsOf macs := by
  rw [own_deleteMany, List.filter_eq_self, List.forall_mem_map]
  simp only [decide_eq_true_eq]

theorem failed_reconciled_iff {e : Thrown} :
    Reconciled assetId macs table (table.deleteMany (unlisted assetId (sortedMacs macs)), .error e) ↔
      ∀ mac ∈ (ownRows assetId table).map MacRow.mac, mac ∈ macsOf macs :=
  own_unchanged_iff

theorem dated_iff : (∀ m ∈ sortedMacs macs, lastSeenOf parseDate now m ≠ none) ↔
    ∀ m ∈ macs, m.mac ≠ "" → lastSeenOf parseDate now m ≠ none := by
  simp only [mem_sortedMacs, and_imp]

theorem sortedMacs_nil : sortedMacs macs = [] ↔ macsOf macs = [] := by
  rw [← List.map_eq_nil_iff (f := (·.mac))]
  constructor
  · intro h
    exact List.nil_perm.mp (h ▸ sortedMacs_perm macs)
  · intro h
    exact List.perm_nil.mp (h ▸ sortedMacs_perm macs)

theorem keys_nodup : ((sortedMacs macs).map fun m => (assetId, m.mac)).Nodup ↔ (macsOf macs).Nodup := by
  rw [← (sortedMacs_perm macs).nodup_iff]
  have hkeys : ((sortedMacs macs).map fun m => (assetId, m.mac)) =
      ((sortedMacs macs).map (·.mac)).map fun mac => (assetId, mac) := by
    rw [List.map_map]
    rfl
  rw [hkeys]
  exact List.nodup_map_iff (Prod.mk_right_injective assetId)

theorem written_reconciled {left : MacTable} {tuples : List MacRow}
    (hleft : left = table.deleteMany (unlisted assetId (sortedMacs macs)))
    (hkeys : tuples.map MacRow.key = (sortedMacs macs).map fun m => (assetId, m.mac))
    (hnodup : (macsOf macs).Nodup) :
    ∃ written, left.upsert tuples = .ok written ∧ Reconciled assetId macs table (written, .ok ()) := by
  subst hleft
  obtain ⟨written, hwritten, hmem, hfirst⟩ :=
    @upsert_ok (table.deleteMany (unlisted assetId (sortedMacs macs))) tuples
    (hkeys ▸ keys_nodup.mpr hnodup)
  refine ⟨written, hwritten, ?_, fun old hold new hnew hkey => ?_⟩
  · refine (List.perm_ext_iff_of_nodup (own_nodup assetId written) (List.nodup_dedup _)).mpr fun mac => ?_
    have hlisted : (assetId, mac) ∈ tuples.map MacRow.key ↔ mac ∈ macsOf macs := by
      rw [hkeys, ← (sortedMacs_perm macs).mem_iff]
      simp only [List.mem_map, Prod.mk.injEq, true_and]
    rw [mem_own, hmem, hlisted, List.mem_dedup, or_iff_right_iff_imp]
    intro hold
    obtain ⟨r, hr, hkey⟩ := List.mem_map.mp hold
    obtain ⟨hown, rfl⟩ := key_iff.mp hkey
    exact unlisted_iff.mp (mem_deleteMany.mp hr).2 hown
  · by_cases hkept : unlisted assetId (sortedMacs macs) old = false
    · exact hfirst old (mem_deleteMany.mpr ⟨hold, hkept⟩) new hnew hkey
    · -- the row was not listed, so no row of its key comes back
      have hkeyMem : old.key ∈ written.rows.map MacRow.key := hkey ▸ List.mem_map_of_mem hnew
      obtain hback | hback := (hmem old.key).mp hkeyMem
      · obtain ⟨r, hr, hsame⟩ := List.mem_map.mp hback
        obtain ⟨hmemr, hlistedr⟩ := mem_deleteMany.mp hr
        obtain rfl := eq_of_key hmemr hold hsame
        exact absurd hlistedr hkept
      · rw [hkeys] at hback
        obtain ⟨m, hm, hsame⟩ := List.mem_map.mp hback
        obtain ⟨hown, hmac⟩ := key_iff.mp hsame.symm
        refine absurd (unlisted_iff.mpr fun _ => ?_) hkept
        rw [hmac, ← (sortedMacs_perm macs).mem_iff]
        exact List.mem_map_of_mem hm

theorem wiped_reconciled (hnil : macsOf macs = []) :
    Reconciled assetId macs table (table.deleteMany (unlisted assetId (sortedMacs macs)), .ok ()) := by
  refine ⟨?_, fun old hold new hnew hkey => ?_⟩
  · have hempty : ownRows assetId (table.deleteMany (unlisted assetId (sortedMacs macs))) = [] := by
      rw [own_deleteMany, hnil, List.filter_eq_nil_iff]
      simp
    rw [hempty, hnil]
    exact List.Perm.refl _
  · obtain rfl := eq_of_key (mem_deleteMany.mp hnew).1 hold hkey
    rfl

end Atomicity

section Main

variable (parseDate : String → Option Nat) (now : Nat) (deletes inserts : List Attempt) (assetId : String)
  (macs : List MacJsonEntry) (table : MacTable)

/-- The rows become the list or stay as they are just when no row is removed
ahead of a statement that fails. -/
theorem reconciled_iff :
    Reconciled assetId macs table (reconcileMacAddresses parseDate now deletes inserts assetId macs table) ↔
      Reconcilable parseDate now deletes inserts assetId macs table := by
  rw [reconcileMacAddresses, Reconcilable, retryOnDeadlock]
  cases hdeletes : goesThrough 4 deletes with
  | false =>
    obtain ⟨e, he⟩ : ∃ e, attemptsLeft
      (fun t : MacTable => .ok (t.deleteMany (unlisted assetId (sortedMacs macs)))) table 4
        deletes = .error e := attemptsLeft_error hdeletes
    rw [he]
    exact iff_of_true rfl (.inl rfl)
  | true =>
    rw [attemptsLeft_eq hdeletes]
    dsimp only
    by_cases hnil : macsOf macs = []
    · rw [if_pos (sortedMacs_nil.mpr hnil)]
      exact iff_of_true (wiped_reconciled hnil) (.inr (.inl hnil))
    · rw [if_neg (mt sortedMacs_nil.mp hnil)]
      by_cases hseen : ∀ m ∈ sortedMacs macs, lastSeenOf parseDate now m ≠ none
      · obtain ⟨tuples, htuples, hkeys⟩ := @tuples_ok _ _ assetId _ hseen
        rw [htuples]
        dsimp only
        rw [retryOnDeadlock]
        cases hinserts : goesThrough 4 inserts with
        | false =>
          obtain ⟨e, he⟩ : ∃ e, attemptsLeft (MacTable.upsert tuples)
              (table.deleteMany (unlisted assetId (sortedMacs macs))) 4 inserts = .error e :=
                attemptsLeft_error hinserts
          rw [he, failed_reconciled_iff]
          simp [hnil]
        | true =>
          rw [attemptsLeft_eq hinserts]
          by_cases hnodup : (macsOf macs).Nodup
          · obtain ⟨written, hwritten, hreconciled⟩ := written_reconciled rfl hkeys hnodup
            rw [hwritten]
            exact iff_of_true hreconciled (.inr (.inr (.inr ⟨hnodup, dated_iff.mp hseen, rfl⟩)))
          · rw [upsert_error (hkeys ▸ mt keys_nodup.mp hnodup)]
            dsimp only
            rw [failed_reconciled_iff]
            simp [hnil, hnodup]
      · have hbad : ∃ m ∈ sortedMacs macs, lastSeenOf parseDate now m = none := by
          by_contra hall
          exact hseen fun m hm hnone => hall ⟨m, hm, hnone⟩
        rw [tuples_error hbad]
        dsimp only
        rw [failed_reconciled_iff, ← dated_iff]
        simp only [hnil, hseen, false_and, and_false, or_false, false_or, Bool.true_eq_false]

def laptopTable : MacTable :=
  ⟨[⟨"a1", "AA:BB:CC:00:00:01", "dhcp", none, none, none, 5, 1⟩,
    ⟨"a1", "AA:BB:CC:00:00:02", "dhcp", none, none, none, 6, 2⟩],
    by decide⟩

def doubled : List MacJsonEntry := [{ mac := "AA:BB:CC:00:00:01" }, { mac := "AA:BB:CC:00:00:01" }]

/-- The second address is gone and the doubled one makes the insert fail. -/
theorem doubled_mac_loses_row :
    ¬ Reconciled "a1" doubled laptopTable
      (reconcileMacAddresses (fun _ => none) 9 [] [] "a1" doubled laptopTable) := by
  have hthrown : (reconcileMacAddresses (fun _ => none) 9 [] [] "a1" doubled laptopTable).2 = .error
    .cardinalityViolation := by
    decide +kernel
  rw [Reconciled, hthrown]
  decide +kernel

end Main

end Polaris.MacReconcile
