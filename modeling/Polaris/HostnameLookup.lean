import Polaris.DirectoryTables

namespace Polaris.HostnameLookup

open Polaris.AssetLookup Polaris.DirectoryTables

section Names

variable {α : Type} (C : Casing)

def lowered (hostname : String) : List Nat := codeUnits (C.toLowerCase hostname)

def truncated (name : List Nat) : List Nat := name.take NETBIOS_LIMIT

/-- One of two different names is the first part of the other. -/
def Netbios (n q : List Nat) : Prop := n ≠ q ∧ (n = truncated q ∨ q = truncated n)

def Named (a : Known α) (n : List Nat) : Prop := ∃ hostname ∈ a.hostname, lowered C hostname = n

/-- What an asset is indexed under. -/
def keys (a : Known α) : List (List Nat) :=
  a.hostname.toList.flatMap fun hostname =>
    lowered C hostname ::
      if NETBIOS_LIMIT < (lowered C hostname).length then [truncated (lowered C hostname)] else []

def indexAsset (m : Index (List Nat)) (a : Known α) : Index (List Nat) :=
  a.hostname.elim m (indexHostname C m · a.id)

def indexAll (assets : List (Known α)) : Index (List Nat) := assets.foldl (indexAsset C) []

def lookup (assets : List (Known α)) (hostname : String) : Option (Nat × Via) :=
  lookupHostname C assets (indexAll C assets) hostname

def first (assets : List (Known α)) (key : List Nat) : Option (Known α) := assets.find? (key ∈ keys C ·)

variable {C} {assets : List (Known α)} {a : Known α} {n q key : List Nat}

theorem named_unique {n' : List Nat} (h : Named C a n) (h' : Named C a n') : n = n' := by
  obtain ⟨hostname, hm, rfl⟩ := h
  obtain ⟨hostname', hm', rfl⟩ := h'
  rw [Option.mem_unique hm hm']

theorem mem_keys : key ∈ keys C a ↔ ∃ n, Named C a n ∧
    (key = n ∨ NETBIOS_LIMIT < n.length ∧ key = truncated n) := by
  rw [keys]
  cases hname : a.hostname with
  | none => simp [Named, hname]
  | some h =>
    by_cases hlong : NETBIOS_LIMIT < (lowered C h).length
    · simp [Named, hname, hlong]
    · simp [Named, hname, hlong]

theorem indexHostname_eq (m : Index (List Nat)) (h : String) (id : Nat) : indexHostname C m h id =
    if NETBIOS_LIMIT < (lowered C h).length then (m.setNew (lowered C h) id).setNew
      (truncated (lowered C h)) id
    else m.setNew (lowered C h) id := rfl

theorem get_indexAsset (m : Index (List Nat)) :
    (indexAsset C m a).get key = (m.get key).or (if key ∈ keys C a then some a.id else none) := by
  rw [indexAsset, keys]
  cases a.hostname with
  | none => simp
  | some h =>
    rw [Option.elim_some, indexHostname_eq, Option.toList_some, List.flatMap_singleton]
    split
    · rw [Index.get_setNew, Index.get_setNew, Option.or_assoc]
      congr 1
      by_cases h1 : lowered C h = key
      · simp [h1]
      · simp [h1, Ne.symm h1, eq_comm]
    · rw [Index.get_setNew]
      simp [eq_comm]

theorem get_indexAll (assets : List (Known α)) (key : List Nat) :
    (indexAll C assets).get key = (first C assets key).map (·.id) := by
  have hfold (m : Index (List Nat)) : (assets.foldl (indexAsset C) m).get key =
      (m.get key).or ((first C assets key).map (·.id)) := by
    induction assets generalizing m with
    | nil => simp [first]
    | cons a assets ih =>
      rw [List.foldl_cons, ih, get_indexAsset, Option.or_assoc, first, first, List.find?_cons]
      by_cases h : key ∈ keys C a
      · simp [h]
      · simp [h]
  exact hfold []

theorem first_some (h : first C assets key = some a) : a ∈ assets ∧ key ∈ keys C a :=
  ⟨List.mem_of_find?_eq_some h, by simpa using List.find?_some h⟩

theorem first_none : first C assets key = none ↔ ∀ a ∈ assets, key ∉ keys C a := by
  simp [first]

theorem exists_first (ha : a ∈ assets) (h : key ∈ keys C a) : ∃ b, first C assets key = some b := by
  cases hf : first C assets key with
  | none => exact absurd h (first_none.mp hf a ha)
  | some b => exact ⟨b, rfl⟩

theorem length_truncated (h : NETBIOS_LIMIT < n.length) : (truncated n).length = NETBIOS_LIMIT :=
  List.length_take_of_le h.le

theorem mem_keys_self (h : Named C a n) : n ∈ keys C a := mem_keys.mpr ⟨n, h, .inl rfl⟩

theorem mem_keys_of_length (hq : q.length ≠ NETBIOS_LIMIT) : q ∈ keys C a ↔ Named C a q := by
  refine ⟨fun h => ?_, mem_keys_self⟩
  obtain ⟨n, hn, rfl | ⟨hlong, rfl⟩⟩ := mem_keys.mp h
  · exact hn
  · exact absurd (length_truncated hlong) hq

theorem not_netbios (hq : q.length < NETBIOS_LIMIT) : ¬ Netbios n q := by
  rintro ⟨hne, h | h⟩
  · exact hne (h.trans (List.take_of_length_le hq.le))
  · have hlen := congrArg List.length h
    rw [truncated, List.length_take] at hlen
    have hn : n.length ≤ NETBIOS_LIMIT := by omega
    exact hne (h.trans (List.take_of_length_le hn)).symm

theorem netbios_full (hq : q.length = NETBIOS_LIMIT) : Netbios n q ↔ NETBIOS_LIMIT < n.length ∧
    q = truncated n := by
  constructor
  · rintro ⟨hne, h | h⟩
    · exact absurd (h.trans (List.take_of_length_le hq.le)) hne
    · refine ⟨Nat.lt_of_not_le fun hn => hne (h.trans (List.take_of_length_le hn)).symm, h⟩
  · rintro ⟨hlong, h⟩
    exact ⟨fun he => by rw [he, hq] at hlong; exact lt_irrefl _ hlong, .inr h⟩

theorem netbios_long (hq : NETBIOS_LIMIT < q.length) : Netbios n q ↔ n = truncated q := by
  constructor
  · rintro ⟨-, h | h⟩
    · exact h
    · have hlen := congrArg List.length h
      rw [truncated, List.length_take] at hlen
      omega
  · intro h
    have hlen := length_truncated hq
    exact ⟨fun he => by rw [← h, he] at hlen; omega, .inl h⟩

end Names

section Lookups

variable {α : Type} {C : Casing} {assets : List (Known α)} {a b : Known α} {hostname : String}

theorem findKnown_mem (hids : (assets.map (·.id)).Nodup) (ha : a ∈ assets) :
    findKnown assets a.id = some a := by
  induction assets with
  | nil => exact absurd ha List.not_mem_nil
  | cons b assets ih =>
    obtain ⟨hnot, hnodup⟩ := List.nodup_cons.mp (List.map_cons ▸ hids)
    obtain rfl | ha := List.mem_cons.mp ha
    · exact List.find?_cons_of_pos (by simp)
    · have hne : b.id ≠ a.id := fun he => hnot (he ▸ List.mem_map_of_mem ha)
      exact (List.find?_cons_of_neg (by simpa using hne)).trans (ih hnodup ha)

theorem lookup_first (hids : (assets.map (·.id)).Nodup) (h : first C assets (lowered C hostname) = some a) :
    (Named C a (lowered C hostname) → lookup C assets hostname = some (a.id, .exact)) ∧
      (¬ Named C a (lowered C hostname) → lookup C assets hostname = some (a.id, .netbios)) := by
  obtain ⟨ha, hkey⟩ := first_some h
  obtain ⟨n, ⟨stored, hstored, rfl⟩, -⟩ := mem_keys.mp hkey
  have hget : (indexAll C assets).get (codeUnits (C.toLowerCase hostname)) = some a.id := by
    have := get_indexAll (C := C) assets (lowered C hostname)
    rwa [h] at this
  have hlookup : lookup C assets hostname =
      some (a.id, if lowered C stored = lowered C hostname then .exact else .netbios) := by
    rw [lookup, lookupHostname]
    dsimp only
    rw [hget]
    dsimp only
    rw [findKnown_mem hids ha, Option.bind_some, hstored]
    rfl
  refine ⟨fun hn => ?_, fun hn => ?_⟩
  · rw [hlookup, if_pos (named_unique ⟨stored, hstored, rfl⟩ hn)]
  · rw [hlookup, if_neg fun he => hn ⟨stored, hstored, he⟩]

theorem lookup_fallback (h : first C assets (lowered C hostname) = none) : lookup C assets hostname =
    if NETBIOS_LIMIT ≤ (lowered C hostname).length then
      (first C assets (truncated (lowered C hostname))).map fun a => (a.id, .netbios) else none := by
  have hget : (indexAll C assets).get (codeUnits (C.toLowerCase hostname)) = none := by
    have := get_indexAll (C := C) assets (lowered C hostname)
    rwa [h] at this
  have htruncated := get_indexAll (C := C) assets (truncated (lowered C hostname))
  rw [lookup, lookupHostname]
  dsimp only
  rw [hget]
  dsimp only
  rw [show List.take NETBIOS_LIMIT (codeUnits (C.toLowerCase hostname)) =
    truncated (lowered C hostname) from rfl,
    htruncated, Option.map_map]
  rfl

variable (C) (assets) (hostname)

def ExactKnown : Prop := ∃ a ∈ assets, Named C a (lowered C hostname)

def NetbiosKnown : Prop := ∃ a ∈ assets, ∃ n, Named C a n ∧ Netbios n (lowered C hostname)

/-- What is found for a name, and the same kind in whatever order the assets
are indexed. -/
structure Tolerant : Prop where
  exact : ExactKnown C assets hostname → ∃ a ∈ assets, Named C a (lowered C hostname) ∧
    lookup C assets hostname = some (a.id, .exact)
  netbios : ¬ ExactKnown C assets hostname → NetbiosKnown C assets hostname → ∃ a ∈ assets, ∃ n,
    Named C a n ∧ Netbios n (lowered C hostname) ∧ lookup C assets hostname = some (a.id, .netbios)
  unknown : ¬ ExactKnown C assets hostname → ¬ NetbiosKnown C assets hostname →
    lookup C assets hostname = none
  order : ∀ others, others.Perm assets →
    (lookup C others hostname).map (·.2) = (lookup C assets hostname).map (·.2)

/-- A name of 15 characters is not both a full name and a truncated one, and
a longer one is indexed or its truncation leads to a name of 15 characters. -/
structure Unambiguous : Prop where
  full : (lowered C hostname).length = NETBIOS_LIMIT → ExactKnown C assets hostname →
    ¬ NetbiosKnown C assets hostname
  long : NETBIOS_LIMIT < (lowered C hostname).length → ¬ ExactKnown C assets hostname →
    ∀ a, first C assets (truncated (lowered C hostname)) = some a → Named C a (truncated (lowered C hostname))

variable {C assets hostname}

theorem lookup_exact (hids : (assets.map (·.id)).Nodup) (h : ExactKnown C assets hostname)
    (honly : ∀ a ∈ assets, lowered C hostname ∈ keys C a → Named C a (lowered C hostname)) :
    ∃ a ∈ assets, Named C a (lowered C hostname) ∧ lookup C assets hostname = some (a.id, .exact) := by
  obtain ⟨a, ha, hn⟩ := h
  obtain ⟨b, hb⟩ := exists_first ha (mem_keys_self hn)
  obtain ⟨hmem, hkey⟩ := first_some hb
  exact ⟨b, hmem, honly b hmem hkey, (lookup_first hids hb).1 (honly b hmem hkey)⟩

/-- An asset that a name leads to, if only in part. -/
def Led (C : Casing) (hostname : String) (a : Known α) : Prop :=
  lowered C hostname ∈ keys C a ∨
    NETBIOS_LIMIT ≤ (lowered C hostname).length ∧ truncated (lowered C hostname) ∈ keys C a

theorem lookup_not_exact (hids : (assets.map (·.id)).Nodup) (h : ¬ ExactKnown C assets hostname) :
    ((∃ a ∈ assets, Led C hostname a) → (lookup C assets hostname).map (·.2) = some .netbios) ∧
      ((∀ a ∈ assets, ¬ Led C hostname a) → lookup C assets hostname = none) := by
  cases hf : first C assets (lowered C hostname) with
  | some b =>
    obtain ⟨hb, hkey⟩ := first_some hf
    refine ⟨fun _ => ?_, fun hled => absurd (.inl hkey) (hled b hb)⟩
    rw [(lookup_first hids hf).2 fun hn => h ⟨b, hb, hn⟩]
    rfl
  | none =>
    rw [lookup_fallback hf]
    have hnone := first_none.mp hf
    refine ⟨fun hled => ?_, fun hled => ?_⟩
    · obtain ⟨a, ha, hkey | ⟨hlen, hkey⟩⟩ := hled
      · exact absurd hkey (hnone a ha)
      · obtain ⟨b, hb⟩ := exists_first ha hkey
        rw [if_pos hlen, hb]
        rfl
    · split
      next hlen =>
        rw [first_none.mpr fun a ha hkey => hled a ha (.inr ⟨hlen, hkey⟩)]
        rfl
      next => rfl

theorem Unambiguous.only (h : Unambiguous C assets hostname) (hexact : ExactKnown C assets hostname) :
    ∀ a ∈ assets, lowered C hostname ∈ keys C a → Named C a (lowered C hostname) := by
  intro a ha hkey
  by_cases hq : (lowered C hostname).length = NETBIOS_LIMIT
  · obtain ⟨n, hn, heq | hlong⟩ := mem_keys.mp hkey
    · exact heq ▸ hn
    · exact absurd ⟨a, ha, n, hn, (netbios_full hq).mpr hlong⟩ (h.full hq hexact)
  · exact (mem_keys_of_length hq).mp hkey

theorem exact_perm {others : List (Known α)} (hp : others.Perm assets) :
    ExactKnown C others hostname ↔ ExactKnown C assets hostname :=
  exists_congr fun _ => and_congr_left' hp.mem_iff

theorem Unambiguous.order (hids : (assets.map (·.id)).Nodup) (h : Unambiguous C assets hostname)
    {others : List (Known α)} (hp : others.Perm assets) :
    (lookup C others hostname).map (·.2) = (lookup C assets hostname).map (·.2) := by
  have hids' : (others.map (·.id)).Nodup := (hp.map _).nodup_iff.mpr hids
  by_cases hexact : ExactKnown C assets hostname
  · obtain ⟨a, -, -, ha⟩ := lookup_exact hids hexact (h.only hexact)
    obtain ⟨b, -, -, hb⟩ := lookup_exact hids' ((exact_perm hp).mpr hexact) fun a ha =>
      h.only hexact a (hp.mem_iff.mp ha)
    rw [ha, hb]
    rfl
  · obtain ⟨hled, hnone⟩ := lookup_not_exact hids hexact
    obtain ⟨hled', hnone'⟩ := lookup_not_exact hids' (hexact ∘ (exact_perm hp).mp)
    by_cases hsome : ∃ a ∈ assets, Led C hostname a
    · rw [hled hsome, hled' (hsome.imp fun _ => And.imp_left hp.mem_iff.mpr)]
    · rw [hnone fun a ha hl => hsome ⟨a, ha, hl⟩, hnone' fun a ha hl => hsome ⟨a, hp.mem_iff.mp ha, hl⟩]

theorem Unambiguous.netbios (hids : (assets.map (·.id)).Nodup) (h : Unambiguous C assets hostname)
    (hexact : ¬ ExactKnown C assets hostname) (hnetbios : NetbiosKnown C assets hostname) : ∃ a ∈ assets, ∃ n,
    Named C a n ∧ Netbios n (lowered C hostname) ∧ lookup C assets hostname = some (a.id, .netbios) := by
  obtain ⟨a, ha, n, hn, hpart⟩ := hnetbios
  obtain hlt | hq | hlt := lt_trichotomy (lowered C hostname).length NETBIOS_LIMIT
  · exact absurd hpart (not_netbios hlt)
  · obtain ⟨b, hb⟩ := exists_first ha (mem_keys.mpr ⟨n, hn, .inr ((netbios_full hq).mp hpart)⟩)
    obtain ⟨hmem, hkey⟩ := first_some hb
    have hnot : ¬ Named C b (lowered C hostname) := fun hnamed => hexact ⟨b, hmem, hnamed⟩
    obtain ⟨n', hn', heq | hlong⟩ := mem_keys.mp hkey
    · exact absurd (heq ▸ hn') hnot
    · exact ⟨b, hmem, n', hn', (netbios_full hq).mpr hlong, (lookup_first hids hb).2 hnot⟩
  · have hnone : first C assets (lowered C hostname) = none :=
      first_none.mpr fun c hc hkey => hexact ⟨c, hc, (mem_keys_of_length hlt.ne').mp hkey⟩
    obtain ⟨b, hb⟩ := exists_first ha (mem_keys_self ((netbios_long hlt).mp hpart ▸ hn))
    refine ⟨b, (first_some hb).1, _, h.long hlt hexact b hb, (netbios_long hlt).mpr rfl, ?_⟩
    rw [lookup_fallback hnone, if_pos hlt.le, hb]
    rfl

theorem Unambiguous.unknown (hids : (assets.map (·.id)).Nodup) (h : Unambiguous C assets hostname)
    (hexact : ¬ ExactKnown C assets hostname) (hnetbios : ¬ NetbiosKnown C assets hostname) :
    lookup C assets hostname = none := by
  refine (lookup_not_exact hids hexact).2 fun a ha hled => ?_
  obtain hlt | hq | hlt := lt_trichotomy (lowered C hostname).length NETBIOS_LIMIT
  · obtain hkey | ⟨hlen, -⟩ := hled
    · exact hexact ⟨a, ha, (mem_keys_of_length hlt.ne).mp hkey⟩
    · exact absurd hlen (not_le.mpr hlt)
  · have hself : truncated (lowered C hostname) = lowered C hostname := List.take_of_length_le hq.le
    have hkey : lowered C hostname ∈ keys C a := hled.elim id fun hh => hself ▸ hh.2
    obtain ⟨n, hn, heq | hlong⟩ := mem_keys.mp hkey
    · exact hexact ⟨a, ha, heq ▸ hn⟩
    · exact hnetbios ⟨a, ha, n, hn, (netbios_full hq).mpr hlong⟩
  · obtain hkey | ⟨-, hkey⟩ := hled
    · exact hexact ⟨a, ha, (mem_keys_of_length hlt.ne').mp hkey⟩
    · obtain ⟨b, hb⟩ := exists_first ha hkey
      exact hnetbios ⟨b, (first_some hb).1, _, h.long hlt hexact b hb, (netbios_long hlt).mpr rfl⟩

theorem Tolerant.full (hids : (assets.map (·.id)).Nodup) (h : Tolerant C assets hostname)
    (hq : (lowered C hostname).length = NETBIOS_LIMIT) (hexact : ExactKnown C assets hostname) :
    ¬ NetbiosKnown C assets hostname := by
  rintro ⟨a, ha, n, hn, hpart⟩
  obtain ⟨s, t, rfl⟩ := List.append_of_mem ha
  have hp : (a :: (s ++ t)).Perm (s ++ a :: t) := List.perm_middle.symm
  have hkey : lowered C hostname ∈ keys C a := mem_keys.mpr ⟨n, hn, .inr ((netbios_full hq).mp hpart)⟩
  have hfirst : first C (a :: (s ++ t)) (lowered C hostname) = some a :=
    List.find?_cons_of_pos (by simpa using hkey)
  have hkind := (lookup_first ((hp.map _).nodup_iff.mpr hids) hfirst).2 fun hnamed =>
    hpart.1 (named_unique hn hnamed)
  obtain ⟨b, -, -, hb⟩ := h.exact hexact
  have horder := h.order _ hp
  rw [hkind, hb] at horder
  cases horder

theorem Tolerant.long (hids : (assets.map (·.id)).Nodup) (h : Tolerant C assets hostname)
    (hlt : NETBIOS_LIMIT < (lowered C hostname).length) (hexact : ¬ ExactKnown C assets hostname)
    (hfirst : first C assets (truncated (lowered C hostname)) = some a) :
    Named C a (truncated (lowered C hostname)) := by
  have hnone : first C assets (lowered C hostname) = none :=
    first_none.mpr fun c hc hkey => hexact ⟨c, hc, (mem_keys_of_length hlt.ne').mp hkey⟩
  have hfound : lookup C assets hostname = some (a.id, .netbios) := by
    rw [lookup_fallback hnone, if_pos hlt.le, hfirst]
    rfl
  by_cases hnetbios : NetbiosKnown C assets hostname
  · obtain ⟨b, hb, n, hn, hpart, hlookup⟩ := h.netbios hexact hnetbios
    have hid : a.id = b.id := (Prod.mk.inj (Option.some.inj (hfound.symm.trans hlookup))).1
    have hab : a = b := List.inj_on_of_nodup_map hids (first_some hfirst).1 hb hid
    rw [hab, ← (netbios_long hlt).mp hpart]
    exact hn
  · rw [h.unknown hexact hnetbios] at hfound
    cases hfound

/-- The lookup tolerates a truncation just where the index cannot mistake one. -/
theorem tolerant_iff (C : Casing) (assets : List (Known α)) (hostname : String)
    (hids : (assets.map (·.id)).Nodup) : Tolerant C assets hostname ↔ Unambiguous C assets hostname :=
  ⟨fun h => ⟨h.full hids, fun hlt hexact _ => h.long hids hlt hexact⟩,
    fun h => ⟨fun hexact => lookup_exact hids hexact (h.only hexact), h.netbios hids, h.unknown hids,
      fun _ hp => h.order hids hp⟩⟩

end Lookups

section Machines

def machine (id : Nat) (hostname : String) : Known Unit := ⟨id, some hostname, ()⟩

theorem tolerant_iff_finance : Tolerant asciiCasing [machine 1 "DESKTOP-FINANCE",
    machine 2 "printer"] "desktop-finance-02" ↔
    Unambiguous asciiCasing [machine 1 "DESKTOP-FINANCE", machine 2 "printer"] "desktop-finance-02" :=
  tolerant_iff asciiCasing _ _ (by decide)

/-- Two machines that share 15 characters are taken for one, and a longer
name hides the one of 15. -/
theorem finance_mistaken :
    lookup asciiCasing [machine 1 "DESKTOP-FINANCE-01"] "DESKTOP-FINANCE-02" = some (1, .netbios) ∧
      ¬ Tolerant asciiCasing [machine 1 "DESKTOP-FINANCE-01"] "DESKTOP-FINANCE-02" ∧
      lookup asciiCasing [machine 1 "DESKTOP-FINANCE-01", machine 2 "DESKTOP-FINANCE"] "DESKTOP-FINANCE" =
        some (1, .netbios) := by
  have hnamed {n : List Nat} (h : Named asciiCasing (machine 1 "DESKTOP-FINANCE-01") n) :
      lowered asciiCasing "DESKTOP-FINANCE-01" = n := by
    obtain ⟨hostname, hm, rfl⟩ := h
    exact congrArg _ (Option.some.inj hm)
  refine ⟨by decide, fun h => ?_, by decide⟩
  have hexact : ¬ ExactKnown asciiCasing [machine 1 "DESKTOP-FINANCE-01"] "DESKTOP-FINANCE-02" := by
    rintro ⟨a, ha, hn⟩
    rw [List.mem_singleton.mp ha] at hn
    exact absurd (hnamed hn) (by decide)
  exact absurd (hnamed (h.long (by decide) (by decide) hexact (List.find?_cons_of_pos (by decide))))
    (by decide)

end Machines

end Polaris.HostnameLookup
