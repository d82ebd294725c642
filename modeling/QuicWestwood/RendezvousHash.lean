import QuicWestwood.PacketTypes
import Mathlib.Data.List.Sort
import Mathlib.Data.Prod.Lex

/-! The node of rank 0 is the first one of the largest scaled weight, found by a scan. The other ranks are
selected from the pairs of scaled weight and index, where the larger index comes first among equal weights. -/
namespace QuicWestwood
open List

/-- `std::nth_element` by `std::greater`: the larger elements come first. -/
structure NthElement (α : Type*) [LinearOrder α] where
  rearrange : List α → ℕ → List α
  perm : ∀ l n,(rearrange l n).Perm l
  split : ∀ l n,n < l.length → ∃ before nth after,rearrange l n = before++nth::after ∧ before.length=n ∧
    (∀ x ∈ before,nth ≤ x) ∧ ∀ x ∈ after,x ≤ nth

namespace NthElement
variable {α : Type*} [LinearOrder α]

/-- Sorting the whole list is one way to meet the specification. -/
def bySorting : NthElement α where
  rearrange l _ := l.insertionSort (· ≥ ·)
  perm l _ := perm_insertionSort _ l
  split l n hn := by
    have hlen : n < (l.insertionSort (· ≥ ·)).length := by rwa [length_insertionSort]
    have hparts : l.insertionSort (· ≥ ·) = _ := (take_append_drop n _).symm
    rw [drop_eq_getElem_cons hlen] at hparts
    have hsorted := pairwise_insertionSort (· ≥ ·) l
    rw [hparts,pairwise_append,pairwise_cons] at hsorted
    exact ⟨_,_,_,hparts,length_take_of_le hlen.le,fun x hx => hsorted.2.2 x hx _ mem_cons_self,hsorted.2.1.1⟩

lemma eq_insertionSort (nthElement : NthElement α) {l : List α} {n : ℕ} (hn : n<l.length) :
    (nthElement.rearrange l n)[n]? = (l.insertionSort (· ≥ ·))[n]? ∧
      ((nthElement.rearrange l n).take n).Perm ((l.insertionSort (· ≥ ·)).take n) := by
  obtain ⟨before,nth,after,heq,rfl,hbefore,hafter⟩ := nthElement.split l n hn
  have hperm := nthElement.perm l before.length
  rw [heq] at hperm ⊢
  have hparts : (before.insertionSort (· ≥ ·)++nth::after.insertionSort (· ≥ ·)).Perm (l.insertionSort (· ≥ ·)) := by
    apply Perm.trans _ (hperm.trans (perm_insertionSort (· ≥ ·) l).symm)
    exact (perm_insertionSort _ before).append ((perm_insertionSort _ after).cons nth)
  rw [← hparts.eq_of_pairwise' _ (pairwise_insertionSort (· ≥ ·) l)]
  · have hlen := length_insertionSort (· ≥ ·) before
    rw [getElem?_append_right le_rfl,getElem?_append_right hlen.le,hlen,take_left' rfl,take_left' hlen]
    exact ⟨by simp,(perm_insertionSort _ before).symm⟩
  · apply pairwise_append.mpr
    simp only [pairwise_cons,pairwise_insertionSort,mem_insertionSort,mem_cons,and_true,true_and]
    refine ⟨hafter,?_⟩
    intro x hx y hy
    rcases hy with rfl | hy
    · exact hbefore x hx
    · exact (hafter y hy).trans (hbefore x hx)

end NthElement

/-- The value of a `size_t` read from an `int`. -/
def sizeOfInt (i : ℕ) : ℕ := ((i : ℤ).bmod (2^32) % 2^64).toNat

lemma sizeOfInt_cases {i : ℕ} (hi : i < 2^59) :
    sizeOfInt i = i ∧ i < 2^31 ∨ 2^31 ≤ i ∧ (sizeOfInt i < i ∨ 2^59 ≤ sizeOfInt i) := by
  unfold sizeOfInt
  rw [Int.bmod_def]
  split_ifs <;> omega

structure RendezvousHash where
  weights : List (UInt64 × UInt64)
  /-- `max_size` of a vector of such pairs. -/
  size : weights.length < 2^59

namespace RendezvousHash

section Weights
variable {S : Type*} (scaled : UInt64 → UInt64 → S) (h : RendezvousHash) (key : UInt64)

/-- The scaled weight of a node is some function of its hash plus the key, and of its weight. -/
def scaledWeights : List (S ×ₗ ℕ) := h.weights.zipIdx.map fun e => toLex (scaled (e.1.1+key) e.1.2,e.2)

lemma length_scaledWeights : (h.scaledWeights scaled key).length = h.weights.length := by simp [scaledWeights]

lemma map_scaledWeights : (h.scaledWeights scaled key).map (fun x => (ofLex x).2) = range h.weights.length := by
  rw [scaledWeights,map_map,range_eq_range',← zipIdx_map_snd]
  rfl

lemma scaledWeights_ascending :
    (h.scaledWeights scaled key).Pairwise fun x y => (ofLex x).2 < (ofLex y).2 := by
  rw [← pairwise_map (R := (· < ·)),map_scaledWeights]
  exact pairwise_lt_range

variable {scaled h key}

lemma index_lt {x : S ×ₗ ℕ} (hx : x ∈ h.scaledWeights scaled key) : (ofLex x).2 < 2^59 := by
  have hmem := mem_map_of_mem (f := fun x => (ofLex x).2) hx
  rw [map_scaledWeights,mem_range] at hmem
  exact hmem.trans h.size

end Weights

variable {S : Type*} [LinearOrder S]

/-- One turn of the scan; every weight is above the initial maximum. -/
def scanWeight (best : WithBot S × ℕ) (x : S ×ₗ ℕ) : WithBot S × ℕ :=
  if best.1 < (ofLex x).1 then ((ofLex x).1,sizeOfInt (ofLex x).2) else best

def maxWeightIndex (l : List (S ×ₗ ℕ)) : ℕ := (l.foldl scanWeight (⊥,0)).2

section
variable (scaled : UInt64 → UInt64 → S) (nthElement : NthElement (S ×ₗ ℕ)) (h : RendezvousHash) (key : UInt64) (rank : ℕ)

/-- The index of the rank asked for, and the ids of the ranks before it. -/
def getNthByWeightedHash : ℕ × List ℕ :=
  let modRank := rank % h.weights.length
  let scaledWeights := h.scaledWeights scaled key
  if modRank=0 then (maxWeightIndex scaledWeights,[maxWeightIndex scaledWeights])
  else
    let ranked := nthElement.rearrange scaledWeights modRank
    ((ranked[modRank]?.map fun x => (ofLex x).2).getD 0,(ranked.take modRank).map fun x => (ofLex x).2)

def get : ℕ := (h.getNthByWeightedHash scaled nthElement key rank).1

def selectNUnweighted : List ℕ :=
  if h.weights.length ≤ rank then range h.weights.length else (h.getNthByWeightedHash scaled nthElement key rank).2

/-- One node has the largest scaled weight, at an index that an `int` holds. -/
def SingleMaximum : Prop :=
  ∃ x ∈ h.scaledWeights scaled key,
    (ofLex x).2 < 2^31 ∧ ∀ y ∈ h.scaledWeights scaled key,y≠x → (ofLex y).1 < (ofLex x).1

end

def IsFirst (l : List (S ×ₗ ℕ)) (x : S ×ₗ ℕ) : Prop :=
  ∀ y ∈ l,(ofLex y).1 ≤ (ofLex x).1 ∧ ((ofLex y).1 = (ofLex x).1 → (ofLex x).2 ≤ (ofLex y).2)

lemma foldl_scanWeight {l : List (S ×ₗ ℕ)} (hl : l.Pairwise fun x y => (ofLex x).2 < (ofLex y).2) :
    l = [] ∨ ∃ x ∈ l,l.foldl scanWeight (⊥,0) = (((ofLex x).1 : WithBot S),sizeOfInt (ofLex x).2) ∧ IsFirst l x := by
  induction l using List.reverseRecOn with
  | nil => exact .inl rfl
  | append_singleton l z ih =>
    obtain ⟨hrest,-,hlast⟩ := pairwise_append.mp hl
    rw [foldl_append,foldl_cons,foldl_nil]
    apply Or.inr
    rcases ih hrest with rfl | ⟨x,hx,hfold,hfirst⟩
    · exact ⟨z,by simp,by simp [scanWeight],by simp [IsFirst]⟩
    · simp only [hfold,scanWeight,WithBot.coe_lt_coe]
      split_ifs with hlt
      · refine ⟨z,by simp,rfl,?_⟩
        intro y hy
        rcases mem_append.mp hy with hy | hy
        · have hbelow := (hfirst y hy).1.trans_lt hlt
          exact ⟨hbelow.le,fun he => absurd he hbelow.ne⟩
        · simp [mem_singleton.mp hy]
      · refine ⟨x,mem_append_left _ hx,rfl,?_⟩
        intro y hy
        rcases mem_append.mp hy with hy | hy
        · exact hfirst y hy
        · rw [mem_singleton.mp hy]
          exact ⟨not_lt.mp hlt,fun _ => (hlast x hx z mem_cons_self).le⟩

variable {scaled : UInt64 → UInt64 → S} {nthElement : NthElement (S ×ₗ ℕ)} {h : RendezvousHash} {key : UInt64}

/-- The scan finds the largest pair exactly when no other node has its weight. -/
lemma get_zero_iff {top : S ×ₗ ℕ} (htop : top ∈ h.scaledWeights scaled key)
    (hle : ∀ y ∈ h.scaledWeights scaled key,y ≤ top) :
    h.get scaled nthElement key 0 = (ofLex top).2 ↔ h.SingleMaximum scaled key := by
  obtain ⟨x,hx,hfold,hfirst⟩ :=
    (foldl_scanWeight (scaledWeights_ascending scaled h key)).resolve_left (ne_nil_of_mem htop)
  have hget : h.get scaled nthElement key 0 = sizeOfInt (ofLex x).2 := by
    simp [RendezvousHash.get,getNthByWeightedHash,maxWeightIndex,hfold]
  rw [hget]
  have hsame : (ofLex top).1 = (ofLex x).1 := by
    rcases Prod.Lex.le_iff.mp (hle x hx) with hlt | ⟨heq,-⟩
    · exact absurd (hfirst top htop).1 hlt.not_ge
    · exact heq.symm
  have hbefore := (hfirst top htop).2 hsame
  have hcases := sizeOfInt_cases (index_lt hx)
  constructor
  · intro heq
    have htoplt := index_lt htop
    have hindex : (ofLex x).2 = (ofLex top).2 ∧ (ofLex x).2 < 2^31 := by omega
    refine ⟨x,hx,hindex.2,?_⟩
    intro y hy hne
    apply lt_of_le_of_ne (hfirst y hy).1
    intro hyx
    have hback : (ofLex y).2 ≤ (ofLex top).2 := by
      rcases Prod.Lex.le_iff.mp (hle y hy) with hlt | ⟨-,hback⟩
      · exact absurd (hyx.trans hsame.symm) hlt.ne
      · exact hback
    apply hne
    exact Prod.ext hyx (le_antisymm (hback.trans hindex.1.ge) ((hfirst y hy).2 hyx))
  · rintro ⟨z,hz,hint,hall⟩
    have hxz : x=z := by
      by_contra hne
      exact (hall x hx hne).not_ge (hfirst z hz).1
    have htopz : top=z := by
      by_contra hne
      exact (hall top htop hne).not_ge (hsame ▸ (hfirst z hz).1)
    subst hxz htopz
    omega

/-- Every rank but the first is read from the pairs in order. -/
lemma map_get (nthElement : NthElement (S ×ₗ ℕ)) {top : S ×ₗ ℕ} {rest : List (S ×ₗ ℕ)}
    (hsorted : (h.scaledWeights scaled key).insertionSort (· ≥ ·) = top::rest) :
    (range h.weights.length).map (h.get scaled nthElement key) =
      h.get scaled nthElement key 0::rest.map fun x => (ofLex x).2 := by
  have hlen := congrArg length hsorted
  rw [length_insertionSort,length_scaledWeights,length_cons] at hlen
  rw [hlen,range_succ_eq_map,map_cons,map_map]
  congr 1
  apply ext_getElem (by simp)
  intro i hi _
  have hlt : i+1 < h.weights.length := by simpa [hlen] using hi
  have hnth := (nthElement.eq_insertionSort (l := h.scaledWeights scaled key) (by rwa [length_scaledWeights])).1
  rw [hsorted,getElem?_cons_succ] at hnth
  have hi' : i < rest.length := by simpa using hi
  simp [RendezvousHash.get,getNthByWeightedHash,Nat.mod_eq_of_lt hlt,hnth,getElem?_eq_getElem hi']

/-- Ranks are a permutation of the nodes, and a selection is the nodes of the first ranks, exactly when it is not empty
and the largest scaled weight belongs to one node. -/
theorem ranks_permute_iff (scaled : UInt64 → UInt64 → S) (nthElement : NthElement (S ×ₗ ℕ)) (h : RendezvousHash)
    (hne : h.weights≠[]) (key : UInt64) {r : ℕ} (hr : r≤h.weights.length) :
    (((range h.weights.length).map (h.get scaled nthElement key)).Perm (range h.weights.length) ∧
      ∀ i,i ∈ h.selectNUnweighted scaled nthElement key r ↔ ∃ k < r,h.get scaled nthElement key k = i) ↔
      r≠0 ∧ h.SingleMaximum scaled key := by
  have hpos := length_pos_of_ne_nil hne
  obtain ⟨top,rest,hsorted⟩ : ∃ top rest,(h.scaledWeights scaled key).insertionSort (· ≥ ·) = top::rest := by
    apply exists_cons_of_length_pos
    rwa [length_insertionSort,length_scaledWeights]
  have hindices : (((top::rest).map fun x => (ofLex x).2)).Perm (range h.weights.length) := by
    rw [← hsorted,← map_scaledWeights scaled h key]
    exact (perm_insertionSort _ _).map _
  have hdescending := pairwise_insertionSort (· ≥ ·) (h.scaledWeights scaled key)
  rw [hsorted,pairwise_cons] at hdescending
  have hmem : ∀ y,y ∈ h.scaledWeights scaled key ↔ y ∈ top::rest := by simp [← hsorted]
  have hzero : h.get scaled nthElement key 0 = (ofLex top).2 ↔ h.SingleMaximum scaled key := by
    apply get_zero_iff ((hmem top).mpr mem_cons_self)
    intro y hy
    rcases mem_cons.mp ((hmem y).mp hy) with rfl | hy
    · exact le_rfl
    · exact hdescending.1 y hy
  have hmap := map_get nthElement hsorted
  constructor
  · rintro ⟨hperm,hselect⟩
    constructor
    · rintro rfl
      have hin : h.get scaled nthElement key 0 ∈ h.selectNUnweighted scaled nthElement key 0 := by
        simp [RendezvousHash.get,selectNUnweighted,getNthByWeightedHash,hpos.ne']
      obtain ⟨k,hk,-⟩ := (hselect _).mp hin
      exact absurd hk (Nat.not_lt_zero k)
    · rw [← hzero]
      rw [hmap] at hperm
      have hsame := Multiset.coe_eq_coe.mpr (hperm.trans hindices.symm)
      rw [map_cons,← Multiset.cons_coe,← Multiset.cons_coe] at hsame
      exact (Multiset.cons_inj_left _).mp hsame
  · rintro ⟨hr0,hsingle⟩
    have hranks : (range h.weights.length).map (h.get scaled nthElement key) = (top::rest).map fun x => (ofLex x).2 := by
      rw [hmap,hzero.mpr hsingle,map_cons]
    refine ⟨hranks ▸ hindices,?_⟩
    intro i
    have hselect : (h.selectNUnweighted scaled nthElement key r).Perm
        ((range r).map (h.get scaled nthElement key)) := by
      unfold selectNUnweighted
      split_ifs with hall
      · rw [le_antisymm hr hall,hranks]
        exact hindices.symm
      · have hlt := not_le.mp hall
        have htaken := (nthElement.eq_insertionSort (l := h.scaledWeights scaled key) (by rwa [length_scaledWeights])).2
        rw [hsorted] at htaken
        have hfront : (range r).map (h.get scaled nthElement key) = ((top::rest).take r).map fun x => (ofLex x).2 := by
          rw [map_take,← hranks,← map_take,take_range,min_eq_left hr]
        rw [hfront]
        simpa [getNthByWeightedHash,Nat.mod_eq_of_lt hlt,hr0] using htaken.map _
    rw [hselect.mem_iff]
    simp

theorem ranks_permute_two :
    let h : RendezvousHash := ⟨[(3,1),(5,1)],by decide⟩
    let scaled (hash weight : UInt64) := if weight=0 then 0 else hash.toNat
    ([0,1].map (h.get scaled .bySorting 0)).Perm [0,1] := by
  exact ((ranks_permute_iff _ .bySorting ⟨[(3,1),(5,1)],by decide⟩ (by decide) 0 (r := 2) (by decide)).mpr
    ⟨by decide,toLex (5,1),by decide,by decide,by decide⟩).1

/-- Two nodes of one hash: both ranks are the first node. -/
theorem equal_hashes_share_rank :
    let h : RendezvousHash := ⟨[(7,1),(7,1)],by decide⟩
    let scaled (hash weight : UInt64) := if weight=0 then 0 else hash.toNat
    ¬((range 2).map (h.get scaled .bySorting 0)).Perm (range 2) := by
  decide

section
variable (scaled nthElement h key)

lemma get_zero_isFirst (hne : h.weights≠[]) (hint : h.weights.length ≤ 2^31) :
    ∃ s i,h.get scaled nthElement key 0 = i ∧ toLex (s,i) ∈ h.scaledWeights scaled key ∧
      IsFirst (h.scaledWeights scaled key) (toLex (s,i)) := by
  rw [← length_pos_iff,← length_scaledWeights scaled h key,length_pos_iff] at hne
  obtain ⟨x,hx,hfold,hfirst⟩ := (foldl_scanWeight (scaledWeights_ascending scaled h key)).resolve_left hne
  have hmem := mem_map_of_mem (f := fun x => (ofLex x).2) hx
  rw [map_scaledWeights,mem_range] at hmem
  have hcases := sizeOfInt_cases (index_lt hx)
  have hsize : sizeOfInt (ofLex x).2 = (ofLex x).2 := by omega
  exact ⟨_,(ofLex x).2,by simp [RendezvousHash.get,getNthByWeightedHash,maxWeightIndex,hfold,hsize],hx,hfirst⟩

/-- Removing a node moves only the keys it had: the others keep their node, at its new index. -/
theorem get_eraseIdx (h' : RendezvousHash) (gone : ℕ) (hint : h.weights.length ≤ 2^31)
    (hgone : h'.weights = h.weights.eraseIdx gone) (hne : h'.weights≠[]) :
    let node (h : RendezvousHash) := h.get scaled nthElement key 0
    node h≠gone → node h = if node h' < gone then node h' else node h'+1 := by
  have hmem : ∀ s j,toLex (s,j) ∈ h'.scaledWeights scaled key ↔
      toLex (s,if j<gone then j else j+1) ∈ h.scaledWeights scaled key := by
    simp [scaledWeights,mem_zipIdx_iff_getElem?,hgone,getElem?_eraseIdx,apply_ite (h.weights[·]?)]
  obtain ⟨s,i,hget,hi,hfirst⟩ := get_zero_isFirst scaled nthElement h key (by rintro h0; simp [hgone,h0] at hne) hint
  obtain ⟨s',i',hget',hi',hfirst'⟩ := get_zero_isFirst scaled nthElement h' key hne
    ((hgone ▸ length_eraseIdx_le _ _).trans hint)
  simp only [hget,hget']
  intro hkept
  obtain ⟨k,rfl⟩ : ∃ k,i = if k<gone then k else k+1 := ⟨if i<gone then i else i-1,by grind⟩
  have hback := hfirst _ ((hmem s' i').mp hi')
  have hforth := hfirst' _ ((hmem s k).mpr hi)
  have hsame : s'=s := le_antisymm hback.1 hforth.1
  have hge : i'≤k := hforth.2 hsame.symm
  exact (hback.2 hsame).antisymm (by dsimp only [ofLex_toLex]; split_ifs <;> omega)

end

theorem get_eraseIdx_first :
    let node (weights) (hw) := RendezvousHash.get (fun hash _ => hash.toNat) .bySorting ⟨weights,hw⟩ 0 0
    node [(3,1),(5,1)] (by decide) = node [(5,1)] (by decide)+1 :=
  get_eraseIdx _ .bySorting _ 0 _ 0 (by decide) rfl (by decide) (by decide)

end RendezvousHash

end QuicWestwood
