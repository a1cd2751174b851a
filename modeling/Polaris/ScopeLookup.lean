import Polaris.ReservationPush
import Mathlib.Data.List.Perm.Basic

namespace Polaris.ScopeLookup

open Polaris.Lib.Text Polaris.Netmask Polaris.Cidr Polaris.ReservationPush

section Lookup

variable (N : Package) (block : Netmask.Cidr) (servers : List DhcpServer) (cidr : String)

/-- What a lookup that ends at the server answers with. -/
def scopeOf (s : DhcpServer) : Nat × Option String := (s.id, s.serverInterface)

/-- The two tests that one pass of the loop makes of a server. -/
def candidate (s : DhcpServer) : Bool := matchesNetwork N block s || matchesRange N block s

/-- Some server has exactly the network of the subnet. -/
def HasExact : Prop := ∃ s ∈ servers, matchesNetwork N block s = true

/-- A server with exactly the network is answered with whenever there is one. -/
def PrefersExact : Prop :=
  HasExact N block servers →
    ∃ s ∈ servers, matchesNetwork N block s = true ∧ findScopeIdForCidr N servers cidr = .ok (scopeOf s)

/-- Of the servers in front of the first with exactly the network, the first
that has its range in the subnet has the scope of an exact one too. -/
def ExactLeads : Prop :=
  ∀ before e after, servers = before ++ e :: after →
    (∀ t ∈ before, matchesNetwork N block t = false) → matchesNetwork N block e = true →
      ∀ s ∈ before.find? (matchesRange N block),
        ∃ t ∈ servers, matchesNetwork N block t = true ∧ scopeOf t = scopeOf s

def OrderFree : Prop :=
  ∀ servers', servers'.Perm servers →
    findScopeIdForCidr N servers' cidr = findScopeIdForCidr N servers cidr

/-- A server that has its range in the subnet has the scope of every one with
exactly the network. -/
def RangesAgree : Prop :=
  ∀ s ∈ servers, matchesRange N block s = true →
    ∀ e ∈ servers, matchesNetwork N block e = true → scopeOf s = scopeOf e

end Lookup

variable {N : Package} {block : Netmask.Cidr} {servers : List DhcpServer} {cidr : String} {s : DhcpServer}

theorem findScopeIdForCidr_of_find (hb : N.parse cidr = some block)
    (hf : servers.find? (candidate N block) = some s) :
    findScopeIdForCidr N servers cidr = .ok (scopeOf s) := by
  have hf' : servers.find? (fun s => matchesNetwork N block s || matchesRange N block s) = some s := hf
  simp only [findScopeIdForCidr, hb, hf', scopeOf]

theorem candidate_of_exact (h : matchesNetwork N block s = true) : candidate N block s = true := by
  simp [candidate, h]

theorem candidate_of_range (h : matchesRange N block s = true) : candidate N block s = true := by
  simp [candidate, h]

theorem HasExact.find (h : HasExact N block servers) :
    ∃ s, servers.find? (candidate N block) = some s := by
  obtain ⟨e, he, hexact⟩ := h
  exact Option.isSome_iff_exists.mp (List.find?_isSome.mpr ⟨e, he, candidate_of_exact hexact⟩)

theorem find_before {before : List DhcpServer} (h : ∀ t ∈ before, matchesNetwork N block t = false) :
    before.find? (candidate N block) = before.find? (matchesRange N block) := by
  induction before with
  | nil => rfl
  | cons t before ih =>
    have ht : candidate N block t = matchesRange N block t := by
      rw [candidate, h t List.mem_cons_self, Bool.false_or]
    rw [List.find?_cons, List.find?_cons, ht, ih fun u hu => h u (List.mem_cons_of_mem t hu)]

theorem find_split {before after : List DhcpServer} {e : DhcpServer}
    (h : ∀ t ∈ before, matchesNetwork N block t = false) (he : matchesNetwork N block e = true) :
    (before ++ e :: after).find? (candidate N block) =
      (before.find? (matchesRange N block)).or (some e) := by
  rw [List.find?_append, find_before h, List.find?_cons_of_pos (candidate_of_exact he)]

theorem prefersExact_iff (hb : N.parse cidr = some block) :
    PrefersExact N block servers cidr ↔ ExactLeads N block servers := by
  constructor
  · intro h before e after hservers hbefore he s hs
    subst hservers
    have hf : (before ++ e :: after).find? (candidate N block) = some s := by
      rw [find_split hbefore he, hs, Option.some_or]
    obtain ⟨t, ht, hmatch, hanswer⟩ := h ⟨e, by simp, he⟩
    rw [findScopeIdForCidr_of_find hb hf] at hanswer
    exact ⟨t, ht, hmatch, (Except.ok.inj hanswer).symm⟩
  · rintro h ⟨e, hmem, hexact⟩
    obtain ⟨e, he⟩ := Option.isSome_iff_exists.mp (List.find?_isSome.mpr ⟨e, hmem, hexact⟩)
    obtain ⟨hexact, before, after, hservers, hbefore⟩ := List.find?_eq_some_iff_append.mp he
    have hbefore : ∀ t ∈ before, matchesNetwork N block t = false := fun t ht => by simpa using hbefore t ht
    have hf : servers.find? (candidate N block) = (before.find? (matchesRange N block)).or (some e) :=
      hservers ▸ find_split hbefore hexact
    cases hs : before.find? (matchesRange N block) with
    | none =>
      rw [hs, Option.none_or] at hf
      exact ⟨e, List.mem_of_find?_eq_some he, hexact, findScopeIdForCidr_of_find hb hf⟩
    | some s =>
      rw [hs, Option.some_or] at hf
      obtain ⟨t, ht, hmatch, hscope⟩ := h before e after hservers hbefore hexact s hs
      exact ⟨t, ht, hmatch, by rw [findScopeIdForCidr_of_find hb hf, hscope]⟩

theorem OrderFree.answer (hb : N.parse cidr = some block) (h : OrderFree N servers cidr)
    (hs : s ∈ servers) (hc : candidate N block s = true) :
    findScopeIdForCidr N servers cidr = .ok (scopeOf s) := by
  rw [← h (s :: servers.erase s) (List.perm_cons_erase hs).symm]
  exact findScopeIdForCidr_of_find hb (List.find?_cons_of_pos hc)

theorem RangesAgree.answer (hb : N.parse cidr = some block) (h : RangesAgree N block servers)
    (hone : servers.countP (matchesNetwork N block) = 1) {e : DhcpServer} (he : e ∈ servers)
    (hexact : matchesNetwork N block e = true) {servers' : List DhcpServer} (hp : servers'.Perm servers) :
    findScopeIdForCidr N servers' cidr = .ok (scopeOf e) := by
  have hexact' : HasExact N block servers' := ⟨e, hp.mem_iff.mpr he, hexact⟩
  obtain ⟨s, hf⟩ := hexact'.find
  have hs : s ∈ servers := hp.mem_iff.mp (List.mem_of_find?_eq_some hf)
  rw [findScopeIdForCidr_of_find hb hf]
  have hc : candidate N block s = true := List.find?_some hf
  obtain hmatch | hrange := Bool.or_eq_true_iff.mp hc
  · rw [List.countP_eq_length_filter] at hone
    obtain ⟨a, ha⟩ := List.length_eq_one_iff.mp hone
    have hsa : s ∈ [a] := ha ▸ List.mem_filter.mpr ⟨hs, hmatch⟩
    have hea : e ∈ [a] := ha ▸ List.mem_filter.mpr ⟨he, hexact⟩
    rw [List.mem_singleton.mp hsa, List.mem_singleton.mp hea]
  · rw [h s hs hrange e he hexact]

theorem orderFree_iff (hb : N.parse cidr = some block)
    (hone : servers.countP (matchesNetwork N block) = 1) :
    OrderFree N servers cidr ↔ RangesAgree N block servers := by
  constructor
  · intro h s hs hrange e he hexact
    have hanswer := h.answer hb hs (candidate_of_range hrange)
    rw [h.answer hb he (candidate_of_exact hexact)] at hanswer
    exact (Except.ok.inj hanswer).symm
  · intro h servers' hp
    obtain ⟨e, he, hexact⟩ := List.countP_pos_iff.mp (Nat.lt_of_lt_of_eq Nat.zero_lt_one hone.symm)
    rw [h.answer hb hone he hexact hp, h.answer hb hone he hexact (List.Perm.refl _)]

/-- The lookup prefers the exact scope just when no range of another scope
comes before it, and its answer is free of the order of the list just when
the ranges in the subnet belong to the one exact scope. -/
theorem lookup_exact_iff (hb : N.parse cidr = some block) :
    (PrefersExact N block servers cidr ↔ ExactLeads N block servers) ∧
      (servers.countP (matchesNetwork N block) = 1 →
        (OrderFree N servers cidr ↔ RangesAgree N block servers)) :=
  ⟨prefersExact_iff hb, orderFree_iff hb⟩

section Dotted

def maskLength (mask : Nat) : Option Nat :=
  (List.range 33).reverse.find? fun p => 2 ^ 32 - 2 ^ (32 - p) = mask

def readMasked (s : String) : Option Netmask.Cidr :=
  match split '/' s with
  | [a, m] =>
    if '.' ∈ m then
      ((readAddr (String.ofList m)).bind maskLength).bind fun p =>
        readCidr (String.ofList a ++ "/" ++ toString p)
    else readCidr s
  | _ => readCidr s

theorem readMasked_quad (a p : Nat) (ha : a < 2 ^ 32) (hp : p ≤ 32) :
    readMasked (dottedQuad a ++ "/" ++ toString p) = some ⟨a, p, ha, hp⟩ := by
  have ht : dottedQuad a ++ "/" ++ toString p =
      join '/' [(dottedQuad a).toList, Nat.toDigits 10 p] := by
    apply String.toList_inj.mp
    simp [join, List.intercalate_cons_cons, Nat.toList_repr]
  have hs : split '/' (dottedQuad a ++ "/" ++ toString p) =
      [(dottedQuad a).toList, Nat.toDigits 10 p] := by
    rw [ht]
    refine split_join '/' _ (by simp) ?_
    intro q hq
    simp only [List.mem_cons, List.not_mem_nil, or_false] at hq
    obtain rfl | rfl := hq
    · exact slash_not_mem_dottedQuad a
    · exact not_mem_decimal rfl
  have hdot : '.' ∉ Nat.toDigits 10 p := not_mem_decimal rfl
  rw [readMasked, hs]
  simp only [hdot, if_false]
  exact readCidr_quad a p ha hp

def dotted : Package :=
  { reference with
    parse := readMasked
    parse_quad := readMasked_quad }

end Dotted

def lan : DhcpServer :=
  { id := 1, serverInterface := some "lan", defaultGateway := some "10.0.0.1",
    netmask := some "255.255.255.0", startIp := some "10.0.0.100" }

def annex : DhcpServer :=
  { id := 2, serverInterface := some "annex", defaultGateway := some "10.0.0.129",
    netmask := some "255.255.255.128", startIp := some "10.0.0.130" }

def lanBlock : Netmask.Cidr := ⟨0x0a000000, 24, by decide, Nat.le_add_right 24 8⟩

/-- The exact server stands first, and the annex has its range in the subnet. -/
theorem lookup_exact_iff_lan :
    PrefersExact dotted lanBlock [lan, annex] "10.0.0.0/24" ∧
      (OrderFree dotted [lan, annex] "10.0.0.0/24" ↔ RangesAgree dotted lanBlock [lan, annex]) := by
  have h : dotted.parse "10.0.0.0/24" = some lanBlock := by decide +kernel
  refine ⟨(lookup_exact_iff h).1.mpr fun before e after hservers hbefore _ s hs => ?_,
    (lookup_exact_iff h).2 (by decide +kernel)⟩
  have hlan : matchesNetwork dotted lanBlock lan = true := by decide +kernel
  cases before with
  | nil => cases hs
  | cons t before =>
    have ht : lan = t := (List.cons.inj hservers).1
    rw [ht, hbefore t List.mem_cons_self] at hlan
    cases hlan

theorem annex_answers : findScopeIdForCidr dotted [annex, lan] "10.0.0.0/24" = .ok (scopeOf annex) := by
  decide +kernel

/-- The half that is listed first takes the place of the subnet's own scope,
and gives it back when it is listed last. -/
theorem annex_hides_lan :
    dotted.parse "10.0.0.0/24" = some lanBlock ∧
      [annex, lan].countP (matchesNetwork dotted lanBlock) = 1 ∧
      ¬ PrefersExact dotted lanBlock [annex, lan] "10.0.0.0/24" ∧
      ¬ OrderFree dotted [annex, lan] "10.0.0.0/24" := by
  refine ⟨by decide +kernel, by decide +kernel, fun h => ?_, fun h => ?_⟩
  · obtain ⟨s, hs, hmatch, hanswer⟩ := h ⟨lan, by decide, by decide +kernel⟩
    rw [annex_answers] at hanswer
    obtain rfl | rfl := List.mem_pair.mp hs
    · revert hmatch
      decide +kernel
    · revert hanswer
      decide
  · have hlan : findScopeIdForCidr dotted [lan, annex] "10.0.0.0/24" = .ok (scopeOf lan) := by
      decide +kernel
    have hsame := h [lan, annex] (List.Perm.swap _ _ _)
    rw [hlan, annex_answers] at hsame
    revert hsame
    decide

end Polaris.ScopeLookup
