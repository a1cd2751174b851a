import Polaris.DependencyLayers
import Polaris.Lib.Chains

namespace Polaris.DependencyChains

open Polaris.DependencyTree Polaris.DependencyLayers Polaris.Lib.Chains

section Buckets

variable {edges : List DependencyEdge} {memberIds : List String}

theorem nodup_eraseDups (l : List String) : l.eraseDups.Nodup := by
  induction hlen : l.length using Nat.strong_induction_on generalizing l with
  | h n ih =>
    cases l with
    | nil => exact List.nodup_nil
    | cons a l =>
      rw [List.eraseDups_cons]
      refine List.nodup_cons.mpr ⟨fun hmem => ?_, ih _ ?_ _ rfl⟩
      · have hfilter := (List.mem_filter.mp (List.mem_eraseDups.mp hmem)).2
        simp at hfilter
      · rw [← hlen, List.length_cons]
        exact Nat.lt_succ_of_le (List.length_filter_le _ _)

/-- The cables among the members of a bucket, as seen from each of them. -/
theorem network_bucket (edges : List DependencyEdge) (memberIds : List String) :
    Network (neighborsInBucket edges memberIds) memberIds := by
  refine ⟨fun x => (nodup_eraseDups _).filter _, fun x _ y hy => of_decide_eq_true (List.mem_filter.mp hy).2,
    fun x hx y hy => ?_⟩
  obtain ⟨e, he, hphysical, hends⟩ := mem_adjacent_iff.mp (List.mem_filter.mp hy).1
  exact List.mem_filter.mpr ⟨mem_adjacent_iff.mpr ⟨e, he, hphysical, hends.symm⟩, decide_eq_true hx⟩

theorem counted_bucket (h : isSimpleChain edges memberIds = true) :
    Counted (neighborsInBucket edges memberIds) memberIds ∧ 3 ≤ memberIds.length := by
  simp only [isSimpleChain, Bool.and_eq_true, decide_eq_true_eq, Bool.not_eq_true', List.any_eq_false] at h
  obtain ⟨⟨⟨hthree, hsum⟩, hends⟩, hbranch⟩ := h
  exact ⟨counted_of_sums (by omega) hsum hends fun x hx => Nat.le_of_not_lt (hbranch x hx), hthree⟩

/-- The cables among the members make one simple path, and no two members
are cabled to each other alone. -/
def RealChain (edges : List DependencyEdge) (memberIds : List String) : Prop :=
  (∃ p, SimplePath (neighborsInBucket edges memberIds) memberIds p) ∧
    ¬ ∃ x ∈ memberIds, ∃ y, neighborsInBucket edges memberIds x = [y] ∧
      neighborsInBucket edges memberIds y = [x]

def Ringed (edges : List DependencyEdge) (memberIds : List String) : Prop :=
  ∃ c, Ring (neighborsInBucket edges memberIds) memberIds c

theorem realChain_iff (h : isSimpleChain edges memberIds = true) : RealChain edges memberIds ↔
    ¬ Ringed edges memberIds := by
  obtain ⟨hcounted, hthree⟩ := counted_bucket h
  rw [Ringed, ← simplePath_iff (network_bucket edges memberIds) hcounted]
  exact ⟨fun hreal => hreal.1, fun hpath => ⟨hpath, hpath.elim fun p hp => hp.no_pair hcounted (by omega)⟩⟩

end Buckets

section Runs

variable (toLowerCase : String → String) (assets : List Asset) (edges : List DependencyEdge)

/-- Every bucket that the controller pass looks at, round by round. -/
def Examined (P : List String → Prop) : Nat → Layers → Prop
  | 0, _ => True
  | n + 1, layers =>
    (∀ bucket ∈ buckets assets edges layers, P bucket.2) ∧
      Examined P n ((buckets assets edges layers).foldl (attachBucket toLowerCase assets edges) layers)

variable {toLowerCase assets edges} in
theorem examined_congr {P Q : List String → Prop} (h : ∀ memberIds, P memberIds ↔ Q memberIds) (n : Nat)
    (layers : Layers) :
    Examined toLowerCase assets edges P n layers ↔ Examined toLowerCase assets edges Q n layers := by
  induction n generalizing layers with
  | zero => exact Iff.rfl
  | succ n ih => exact and_congr (forall₂_congr fun bucket _ => h bucket.2) (ih _)

/-- What holds of every bucket taken for a chain. -/
def EveryChain (P : List String → Prop) : Prop :=
  Examined toLowerCase assets edges (fun memberIds => isSimpleChain edges memberIds = true →
    P memberIds) assets.length
    (cabled assets edges)

theorem chains_real_iff : EveryChain toLowerCase assets edges (RealChain edges) ↔
    EveryChain toLowerCase assets edges fun memberIds => ¬ Ringed edges memberIds :=
  examined_congr (fun _ => imp_congr_right realChain_iff) _ _

/-- Two switches cabled to each other, and three in a ring, all of one
firewall. -/
def pairAndRing : List Asset :=
  ⟨"fg", some "fg", .firewall, none, none⟩ ::
    ["s1", "s2", "s3", "s4", "s5"].map fun s => ⟨s, some s, .switch, some ⟨some "fg", none⟩, none⟩

def pairAndRingEdges : List DependencyEdge :=
  buildDependencyEdgesFromInputs id pairAndRing [] [("s1", "s2"), ("s3", "s4"), ("s4", "s5"), ("s3", "s5")]

theorem ring_balances_pair :
    ¬ EveryChain id pairAndRing pairAndRingEdges (RealChain pairAndRingEdges) ∧
      ⟨"s2", "s1", .lldp⟩ ∈ (assignLayers id pairAndRing pairAndRingEdges).keptEdges := by
  have hbucket : ("fg", ["s1", "s2", "s3", "s4", "s5"]) ∈
      buckets pairAndRing pairAndRingEdges (cabled pairAndRing pairAndRingEdges) := by decide +kernel
  have hchain : isSimpleChain pairAndRingEdges ["s1", "s2", "s3", "s4", "s5"] = true := by decide +kernel
  have hpair : neighborsInBucket pairAndRingEdges ["s1", "s2", "s3", "s4", "s5"] "s1" = ["s2"] ∧
      neighborsInBucket pairAndRingEdges ["s1", "s2", "s3", "s4", "s5"] "s2" = ["s1"] := by decide +kernel
  refine ⟨fun h => ?_, by decide +kernel⟩
  exact (h.1 _ hbucket hchain).2 ⟨"s1", List.mem_cons_self, "s2", hpair⟩

end Runs

end Polaris.DependencyChains
