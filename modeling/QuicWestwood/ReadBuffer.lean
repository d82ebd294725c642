import QuicWestwood.StreamReceive

/-! The merge loop keeps the entries sorted and apart, and the offsets it covers afterwards are those of the
buffer and of the segment. Nothing is assumed about the bytes: two segments may disagree. -/
namespace QuicWestwood
open ByteCodec StreamBuffer List

namespace StreamBuffer

def byteAt (e : StreamBuffer) (x : ℕ) : Option UInt8 := if e.offset≤x then e.data[x-e.offset]? else none

def dropFront (e : StreamBuffer) (n : ℕ) : StreamBuffer := {e with data := e.data.drop n, offset := e.offset+n}

def joined (a b : StreamBuffer) : StreamBuffer := a.append (b.data.drop (a.endOffset-b.offset))

@[simp] lemma joined_offset (a b : StreamBuffer) : (a.joined b).offset = a.offset := rfl

variable {a b : StreamBuffer}

lemma joined_endOffset (hab : b.offset≤a.endOffset) (hend : a.endOffset≤b.endOffset) :
    (a.joined b).endOffset = b.endOffset := by
  unfold joined append endOffset at *
  simp only [length_append,length_drop]
  omega

variable {x : ℕ} {v : UInt8}

lemma byteAt_eq_some {e : StreamBuffer} :
    e.byteAt x = some v ↔ e.offset≤x ∧ e.data[x-e.offset]? = some v := by
  unfold byteAt
  split_ifs with h <;> simp [h]

lemma exists_byteAt {e : StreamBuffer} : (∃ v,e.byteAt x = some v) ↔ e.offset≤x ∧ x<e.endOffset := by
  simp only [byteAt_eq_some,exists_and_left,endOffset]
  refine and_congr_right fun hx => ?_
  constructor
  · rintro ⟨v,hv⟩
    have := (List.getElem?_eq_some_iff.mp hv).1
    omega
  · intro hlt
    exact ⟨_,List.getElem?_eq_getElem (by omega)⟩

lemma byteAt_dropFront {e : StreamBuffer} {n x : ℕ} :
    (e.dropFront n).byteAt x = some v ↔ e.offset+n ≤ x ∧ e.byteAt x = some v := by
  simp only [byteAt_eq_some,dropFront,List.getElem?_drop]
  constructor
  · rintro ⟨hx,hv⟩
    rw [show n+(x-(e.offset+n)) = x-e.offset by omega] at hv
    exact ⟨hx,by omega,hv⟩
  · rintro ⟨hx,-,hv⟩
    rw [show n+(x-(e.offset+n)) = x-e.offset by omega]
    exact ⟨hx,hv⟩

lemma byteAt_trimTo {e : StreamBuffer} {currentReadOffset x : ℕ} :
    (e.trimTo currentReadOffset).byteAt x = some v ↔ currentReadOffset≤x ∧ e.byteAt x = some v := by
  unfold trimTo
  split_ifs with h
  · have hdrop := byteAt_dropFront (e := e) (n := currentReadOffset-e.offset) (x := x) (v := v)
    unfold dropFront at hdrop
    rwa [show e.offset+(currentReadOffset-e.offset) = currentReadOffset by omega] at hdrop
  · refine ⟨fun hx => ⟨?_,hx⟩,fun hx => hx.2⟩
    have := (byteAt_eq_some.mp hx).1
    omega

lemma le_trimTo_offset (e : StreamBuffer) (currentReadOffset : ℕ) :
    currentReadOffset ≤ (e.trimTo currentReadOffset).offset := by
  unfold trimTo
  split_ifs with h
  · exact le_rfl
  · exact not_lt.mp h

lemma byteAt_joined (hab : b.offset≤a.endOffset) (hx : (a.joined b).byteAt x = some v) :
    a.byteAt x = some v ∨ b.byteAt x = some v := by
  obtain ⟨hoff,hget⟩ := byteAt_eq_some.mp hx
  simp only [joined_offset] at hoff hget
  rcases lt_or_ge (x-a.offset) a.data.length with hlt | hge
  · left
    rw [byteAt_eq_some]
    refine ⟨hoff,?_⟩
    rwa [joined,append,List.getElem?_append_left hlt] at hget
  · right
    rw [joined,append,List.getElem?_append_right hge,List.getElem?_drop] at hget
    unfold endOffset at hab hget
    rw [byteAt_eq_some]
    refine ⟨by omega,?_⟩
    rwa [show a.offset+a.data.length-b.offset+(x-a.offset-a.data.length) = x-b.offset by omega] at hget

end StreamBuffer

/-- The entries are not empty, stand in the order of their offsets, and do not touch. -/
structure SortedBuffer (buffers : List StreamBuffer) : Prop where
  apart : buffers.Pairwise fun a b => a.endOffset < b.offset
  nonempty : ∀ e ∈ buffers,e.data≠[]

def Holds (buffers : List StreamBuffer) (x : ℕ) (v : UInt8) : Prop := ∃ e ∈ buffers,e.byteAt x = some v

def Covers (buffers : List StreamBuffer) (x : ℕ) : Prop := ∃ e ∈ buffers,e.offset≤x ∧ x<e.endOffset

variable {buffers : List StreamBuffer}

lemma covers_iff_holds : Covers buffers x ↔ ∃ v,Holds buffers x v := by
  simp only [Covers,Holds,← exists_byteAt]
  constructor
  · rintro ⟨e,he,v,hv⟩
    exact ⟨v,e,he,hv⟩
  · rintro ⟨v,e,he,hv⟩
    exact ⟨e,he,v,hv⟩

@[simp] lemma covers_nil : ¬Covers [] x := by simp [Covers]

variable {rest : List StreamBuffer}

lemma covers_cons {e : StreamBuffer} :
    Covers (e::rest) x ↔ (e.offset≤x ∧ x<e.endOffset) ∨ Covers rest x := by simp [Covers]

lemma covers_append {front rest : List StreamBuffer} :
    Covers (front++rest) x ↔ Covers front x ∨ Covers rest x := by
  simp only [Covers,mem_append,or_and_right,exists_or]

lemma holds_cons {e : StreamBuffer} :
    Holds (e::rest) x v ↔ e.byteAt x = some v ∨ Holds rest x v := by simp [Holds]

lemma holds_append {front rest : List StreamBuffer} :
    Holds (front++rest) x v ↔ Holds front x v ∨ Holds rest x v := by
  simp only [Holds,mem_append,or_and_right,exists_or]

lemma StreamBuffer.lt_endOffset {e : StreamBuffer} (h : e.data≠[]) : e.offset<e.endOffset := by
  have := length_pos_of_ne_nil h
  unfold endOffset
  omega

namespace SortedBuffer

lemma nil : SortedBuffer [] := ⟨.nil,nofun⟩

lemma singleton {e : StreamBuffer} (h : e.data≠[]) : SortedBuffer [e] :=
  ⟨pairwise_singleton _ _,by simpa using h⟩

lemma cons_iff {e : StreamBuffer} :
    SortedBuffer (e::rest) ↔ e.data≠[] ∧ (∀ f ∈ rest,e.endOffset < f.offset) ∧ SortedBuffer rest := by
  constructor
  · rintro ⟨hapart,hne⟩
    obtain ⟨hhead,htail⟩ := pairwise_cons.mp hapart
    exact ⟨hne e (by simp),hhead,htail,fun f hf => hne f (by simp [hf])⟩
  · rintro ⟨he,hhead,hrest⟩
    exact ⟨pairwise_cons.mpr ⟨hhead,hrest.apart⟩,by simpa [he] using hrest.nonempty⟩

lemma append_iff {front rest : List StreamBuffer} :
    SortedBuffer (front++rest) ↔
      SortedBuffer front ∧ SortedBuffer rest ∧ ∀ e ∈ front,∀ f ∈ rest,e.endOffset < f.offset := by
  constructor
  · rintro ⟨hapart,hne⟩
    obtain ⟨hfront,hrest,hcross⟩ := pairwise_append.mp hapart
    exact ⟨⟨hfront,fun e he => hne e (by simp [he])⟩,⟨hrest,fun e he => hne e (by simp [he])⟩,hcross⟩
  · rintro ⟨hfront,hrest,hcross⟩
    refine ⟨pairwise_append.mpr ⟨hfront.apart,hrest.apart,hcross⟩,fun e he => ?_⟩
    rcases mem_append.mp he with h | h
    · exact hfront.nonempty e h
    · exact hrest.nonempty e h

end SortedBuffer

structure Merges (result parts : List StreamBuffer) : Prop where
  sorted : SortedBuffer result
  holds : ∀ {x v}, Holds result x v → Holds parts x v
  covers : ∀ x,Covers parts x → Covers result x

namespace Merges

variable {result parts : List StreamBuffer}

lemma covers_iff (h : Merges result parts) (x : ℕ) : Covers result x ↔ Covers parts x := by
  refine ⟨fun hx => ?_,h.covers x⟩
  obtain ⟨v,hv⟩ := covers_iff_holds.mp hx
  exact covers_iff_holds.mpr ⟨v,h.holds hv⟩

lemma endOffset_le (h : Merges result parts) (bound : ℕ) (hparts : ∀ x,Covers parts x → x<bound) :
    ∀ e ∈ result,e.endOffset ≤ bound := by
  intro e he
  have hlt := lt_endOffset (h.sorted.nonempty e he)
  have := hparts _ ((h.covers_iff (e.endOffset-1)).mp ⟨e,he,by omega,by omega⟩)
  omega

lemma le_offset (h : Merges result parts) (bound : ℕ) (hparts : ∀ e ∈ parts,bound ≤ e.offset) :
    ∀ e ∈ result,bound ≤ e.offset := by
  intro e he
  have hlt := lt_endOffset (h.sorted.nonempty e he)
  obtain ⟨f,hf,hoff,-⟩ := (h.covers_iff e.offset).mp ⟨e,he,le_rfl,hlt⟩
  exact (hparts f hf).trans hoff

lemma of_parts {result parts parts' : List StreamBuffer} (h : Merges result parts)
    (hholds : ∀ x v,Holds parts x v → Holds parts' x v) (hcovers : ∀ x,Covers parts' x → Covers parts x) :
    Merges result parts' :=
  ⟨h.sorted,fun hx => hholds _ _ (h.holds hx),fun x hx => h.covers x (hcovers x hx)⟩

lemma swap {result rest : List StreamBuffer} (h : Merges result (a::b::rest)) :
    Merges result (b::a::rest) := by
  refine h.of_parts (fun x v => ?_) fun x => ?_
  · simp only [holds_cons,or_left_comm,imp_self]
  · simp only [covers_cons,or_left_comm,imp_self]

lemma spanned {result rest : List StreamBuffer} (h : Merges result (a::rest)) (hoff : a.offset≤b.offset)
    (hend : b.endOffset≤a.endOffset) : Merges result (a::b::rest) := by
  refine h.of_parts (fun x v hx => ?_) fun x hx => ?_
  · rcases holds_cons.mp hx with hx | hx
    · exact holds_cons.mpr (.inl hx)
    · exact holds_cons.mpr (.inr (holds_cons.mpr (.inr hx)))
  · simp only [covers_cons] at hx ⊢
    rcases hx with hx | hx | hx
    · exact .inl hx
    · exact .inl ⟨by omega,by omega⟩
    · exact .inr hx

lemma of_joined {result rest : List StreamBuffer} (h : Merges result (a.joined b::rest))
    (hoff : a.offset≤b.offset) (hmeet : b.offset≤a.endOffset) (hend : a.endOffset≤b.endOffset) :
    Merges result (a::b::rest) := by
  refine h.of_parts (fun x v hx => ?_) fun x hx => ?_
  · simp only [holds_cons] at hx ⊢
    rcases hx with hx | hx
    · rcases byteAt_joined hmeet hx with h | h
      · exact .inl h
      · exact .inr (.inl h)
    · exact .inr (.inr hx)
  · simp only [covers_cons,joined_offset,joined_endOffset hmeet hend] at hx ⊢
    rcases hx with hx | hx | hx
    · exact .inl ⟨hx.1,by omega⟩
    · exact .inl ⟨by omega,hx.2⟩
    · exact .inr hx

lemma refl (h : SortedBuffer buffers) : Merges buffers buffers :=
  ⟨h,fun hx => hx,fun _ hx => hx⟩

lemma append {front result rest : List StreamBuffer} {current : StreamBuffer}
    (h : Merges result (current::rest)) (hsorted : SortedBuffer (front++rest))
    (hfront : ∀ e ∈ front,e.endOffset < current.offset) :
    Merges (front++result) (current::(front++rest)) := by
  obtain ⟨hsortedFront,-,hcross⟩ := SortedBuffer.append_iff.mp hsorted
  refine ⟨SortedBuffer.append_iff.mpr ⟨hsortedFront,h.sorted,fun e he f hf => ?_⟩,fun hx => ?_,fun x hx => ?_⟩
  · refine h.le_offset (e.endOffset+1) (fun g hg => ?_) f hf
    rcases mem_cons.mp hg with rfl | hg
    · exact hfront e he
    · exact hcross e he g hg
  · simp only [holds_append,holds_cons] at hx ⊢
    rcases hx with hx | hx
    · exact .inr (.inl hx)
    · rcases holds_cons.mp (h.holds hx) with hx | hx
      · exact .inl hx
      · exact .inr (.inr hx)
  · have := h.covers x
    simp only [covers_append,covers_cons] at hx this ⊢
    rcases hx with hx | hx | hx
    · exact .inr (this (.inl hx))
    · exact .inl hx
    · exact .inr (this (.inr hx))

end Merges

namespace MergeState

lemma extendOverlap_spec (s : MergeState) (it : StreamBuffer) :
    (s.extendOverlap it).front = s.front ∧ (s.extendOverlap it).current = s.current ∧
      ∃ overlapping,(s.extendOverlap it).overlap = some (overlapping,[]) := by
  unfold extendOverlap
  split
  · exact ⟨rfl,rfl,_,rfl⟩
  · exact ⟨rfl,rfl,_,rfl⟩

lemma finish_of_overlap {s : MergeState} {overlapping : List StreamBuffer}
    (h : s.overlap = some (overlapping,[])) (rest : List StreamBuffer) :
    s.finish rest = s.front++s.current::rest := by
  simp [finish,h]

lemma finish_of_mem {s : MergeState} {e : StreamBuffer} (hoverlap : s.overlap=none)
    (hinserted : s.inserted=false) (hsorted : SortedBuffer rest) (he : e ∈ rest)
    (hle : s.current.offset≤e.endOffset) : s.finish rest = s.front++rest := by
  obtain ⟨init,last,rfl⟩ := (eq_nil_or_concat' rest).resolve_left (ne_nil_of_mem he)
  have hlast : e.endOffset≤last.endOffset := by
    rcases mem_append.mp he with he | he
    · have := (SortedBuffer.append_iff.mp hsorted).2.2 e he last (by simp)
      have := lt_endOffset (hsorted.nonempty last (by simp))
      omega
    · rw [mem_singleton.mp he]
  simp [finish,hoverlap,hinserted,← append_assoc,show ¬last.endOffset < s.current.offset by omega]

/-- The loop, by induction on the entries ahead. In the first state nothing has been met and the first entry
ahead reaches the segment; after that, all entries ahead start behind `current`. -/
lemma merge_spec {s : MergeState} (hcurrent : s.current.data≠[]) (hsorted : SortedBuffer rest)
    (hstate : (s.overlap=none ∧ s.inserted=false ∧ ∃ it ∈ rest.head?,s.current.offset ≤ it.endOffset) ∨
      (∃ overlapping,s.overlap = some (overlapping,[])) ∧ ∀ e ∈ rest,s.current.offset < e.offset) :
    ∃ result,s.merge rest = s.front++result ∧ Merges result (s.current::rest) := by
  induction rest generalizing s with
  | nil =>
    obtain ⟨-,-,it,hit,-⟩ | ⟨⟨overlapping,hoverlap⟩,-⟩ := hstate
    · cases hit
    · exact ⟨[s.current],by simp [merge,finish,hoverlap],.refl (.singleton hcurrent)⟩
  | cons it rest ih =>
    obtain ⟨hit,hbehind,hrest⟩ := SortedBuffer.cons_iff.mp hsorted
    have hitlt := lt_endOffset hit
    have hcurlt := lt_endOffset hcurrent
    have hreach : s.current.offset ≤ it.endOffset := by
      obtain ⟨-,-,it',hit',hle⟩ | ⟨-,hahead⟩ := hstate
      · rwa [Option.mem_some_iff.mp hit']
      · have := hahead it (by simp)
        omega
    -- only the first entry can start before the segment
    have hfirst : it.offset ≤ s.current.offset → s.overlap=none ∧ s.inserted=false := by
      intro hle
      obtain ⟨hnone,hins,-⟩ | ⟨-,hahead⟩ := hstate
      · exact ⟨hnone,hins⟩
      · have := hahead it (by simp)
        omega
    rw [merge]
    dsimp only
    have hsubset (hle : it.offset ≤ s.current.offset) (hend : s.current.endOffset ≤ it.endOffset) :
        ∃ result,s.finish (it::rest) = s.front++result ∧ Merges result (s.current::it::rest) := by
      obtain ⟨hnone,hins⟩ := hfirst hle
      exact ⟨it::rest,finish_of_mem hnone hins hsorted (by simp) hreach,
        ((Merges.refl hsorted).spanned hle hend).swap⟩
    split
    · rename_i hexact
      exact hsubset (by omega) (by omega)
    split
    · rename_i hsub
      exact hsubset hsub.1 hsub.2
    split
    · rename_i hleft
      obtain ⟨hfront,hcur,overlapping,hoverlap⟩ :=
        extendOverlap_spec {s with current := s.current.joined it} it
      have hjoined : SortedBuffer (s.current.joined it::rest) := by
        refine SortedBuffer.cons_iff.mpr ⟨?_,?_,hrest⟩
        · simp [joined,append,hcurrent]
        · rwa [joined_endOffset hleft.2.1 hleft.2.2]
      refine ⟨s.current.joined it::rest,?_,(Merges.refl hjoined).of_joined hleft.1 hleft.2.1 hleft.2.2⟩
      have hfinish := finish_of_overlap hoverlap rest
      rwa [hfront,hcur] at hfinish
    split
    · rename_i hgap
      have hsortedAll : SortedBuffer (s.current::it::rest) := by
        refine SortedBuffer.cons_iff.mpr ⟨hcurrent,fun f hf => ?_,hsorted⟩
        rcases mem_cons.mp hf with rfl | hf
        · exact hgap.2
        · have := hbehind f hf
          omega
      refine ⟨s.current::it::rest,?_,.refl hsortedAll⟩
      obtain ⟨hnone,-,-⟩ | ⟨⟨overlapping,hoverlap⟩,-⟩ := hstate
      · simp [finish,hnone]
      · simp [finish,hoverlap]
    split
    · rename_i hcomplete
      obtain ⟨hfront,hcur,hoverlap⟩ := extendOverlap_spec s it
      obtain ⟨result,heq,hmerges⟩ := ih (s := s.extendOverlap it) (by rwa [hcur]) hrest
        (.inr ⟨hoverlap,fun f hf => by have := hbehind f hf; rw [hcur]; omega⟩)
      rw [hfront] at heq
      rw [hcur] at hmerges
      exact ⟨result,heq,hmerges.spanned hcomplete.1 (by omega)⟩
    split
    · rename_i hright
      obtain ⟨hnone,hins⟩ := hfirst hright.1
      have hjoined : (it.joined s.current).data≠[] := by simp [joined,append,hit]
      obtain ⟨result,heq,hmerges⟩ := ih
        (s := {front := s.front, current := it.joined s.current, inserted := true, overlap := some ([],[])})
        hjoined hrest (.inr ⟨⟨[],rfl⟩,fun f hf => by have := hbehind f hf; simp only [joined_offset]; omega⟩)
      refine ⟨result,?_,(hmerges.of_joined hright.1 hright.2.1 (by omega)).swap⟩
      rw [← heq]
      simp only [hnone,hins,Bool.false_eq_true,if_false,Option.getD_none,append_nil]
      rfl
    · omega

end MergeState

lemma takeWhile_endOffset_lt (readBuffer : List StreamBuffer) (offset : ℕ) :
    ∀ e ∈ readBuffer.takeWhile fun entry => entry.endOffset < offset,e.endOffset < offset :=
  fun _ he => by simpa using mem_takeWhile_imp he

variable {readBuffer : List StreamBuffer}

lemma mergeIntoReadBuffer_merges (hsorted : SortedBuffer readBuffer) (current : StreamBuffer) :
    Merges (mergeIntoReadBuffer readBuffer current) (current::readBuffer) := by
  unfold mergeIntoReadBuffer
  split_ifs with hempty hnil
  · refine (Merges.refl hsorted).of_parts (fun x v hx => holds_cons.mpr (.inr hx)) fun x hx => ?_
    rw [covers_cons,endOffset,hempty] at hx
    simp only [length_nil] at hx
    exact hx.resolve_left (by omega)
  · rw [hnil]
    exact .refl (.singleton hempty)
  · set front := readBuffer.takeWhile fun entry => entry.endOffset < current.offset
    have hfront : ∀ e ∈ front,e.endOffset < current.offset := takeWhile_endOffset_lt readBuffer current.offset
    have hsplit : front++readBuffer.dropWhile (fun entry => entry.endOffset < current.offset) = readBuffer :=
      takeWhile_append_dropWhile
    cases hrest : readBuffer.dropWhile fun entry => entry.endOffset < current.offset with
    | nil =>
      rw [hrest,append_nil] at hsplit
      obtain ⟨init,last,hlast⟩ := (eq_nil_or_concat' readBuffer).resolve_left hnil
      have hend := hfront last (by rw [hsplit,hlast]; simp)
      have hmerge : MergeState.merge {front, current} [] = readBuffer++[current] := by
        simp [MergeState.merge,MergeState.finish,hsplit,hlast,hend]
      rw [hmerge]
      have h := (Merges.refl (.singleton hempty)).append (by rwa [append_nil]) (by rwa [hsplit] at hfront)
      rwa [append_nil] at h
    | cons it rest =>
      rw [hrest] at hsplit
      have hit : current.offset ≤ it.endOffset := by
        have hhead := head_dropWhile_not (fun entry : StreamBuffer => decide (entry.endOffset < current.offset))
          (show readBuffer.dropWhile _≠[] by rw [hrest]; simp)
        simpa [hrest] using hhead
      have hsortedRest := (SortedBuffer.append_iff.mp (hsplit ▸ hsorted)).2.1
      obtain ⟨result,heq,hmerges⟩ := MergeState.merge_spec (s := {front, current}) hempty hsortedRest
        (.inl ⟨rfl,rfl,it,rfl,hit⟩)
      rw [heq]
      have := hmerges.append (hsplit.symm ▸ hsorted) hfront
      rwa [hsplit] at this

lemma covers_trimTo {e : StreamBuffer} {currentReadOffset x : ℕ} :
    Covers [e.trimTo currentReadOffset] x ↔ currentReadOffset≤x ∧ e.offset≤x ∧ x<e.endOffset := by
  simp only [covers_iff_holds,Holds,mem_singleton,exists_eq_left,byteAt_trimTo,exists_and_left,exists_byteAt]

theorem insertIntoReadBuffer_merges (hsorted : SortedBuffer readBuffer) (currentReadOffset : ℕ)
    (buffer : StreamBuffer) : Merges (insertIntoReadBuffer readBuffer currentReadOffset buffer)
      (buffer.trimTo currentReadOffset::readBuffer) :=
  mergeIntoReadBuffer_merges hsorted _

structure Takes (amount currentReadOffset : ℕ) (readBuffer : List StreamBuffer) (r : ReadState) : Prop where
  offset : r.currentReadOffset = currentReadOffset+r.data.length
  data : ∀ i v,r.data[i]? = some v → Holds readBuffer (currentReadOffset+i) v
  sorted : SortedBuffer r.readBuffer
  ahead : ∀ e ∈ r.readBuffer,r.currentReadOffset ≤ e.offset
  holds : ∀ {x v}, Holds r.readBuffer x v → Holds readBuffer x v
  covers : ∀ x,Covers readBuffer x → x < r.currentReadOffset ∨ Covers r.readBuffer x
  bounded : amount≠0 → r.data.length≤amount
  greedy : amount=0 ∨ r.data.length<amount → ¬Covers r.readBuffer r.currentReadOffset

lemma not_covers_of_ahead (h : ∀ e ∈ buffers,x < e.offset) : ¬Covers buffers x := by
  rintro ⟨e,he,hoff,-⟩
  have := h e he
  omega

lemma holds_head (curr : StreamBuffer) (rest : List StreamBuffer) {i : ℕ} (hv : curr.data[i]? = some v) :
    Holds (curr::rest) (curr.offset+i) v := by
  refine holds_cons.mpr (.inl (byteAt_eq_some.mpr ⟨by omega,?_⟩))
  rwa [Nat.add_sub_cancel_left]

namespace Takes

lemma nothing {amount currentReadOffset : ℕ} (hsorted : SortedBuffer readBuffer)
    (hgap : ∀ e ∈ readBuffer,currentReadOffset < e.offset) :
    Takes amount currentReadOffset readBuffer ⟨[],currentReadOffset,readBuffer⟩ where
  offset := rfl
  data := nofun
  sorted := hsorted
  ahead := fun e he => (hgap e he).le
  holds := fun hx => hx
  covers := fun _ => .inr
  bounded := fun _ => Nat.zero_le _
  greedy := fun _ => not_covers_of_ahead hgap

lemma part {amount : ℕ} {curr : StreamBuffer} (hsorted : SortedBuffer (curr::rest)) (hamount : amount≠0)
    (hlt : amount < curr.data.length) : Takes amount curr.offset (curr::rest)
      ⟨curr.data.take amount,curr.offset+amount,curr.dropFront amount::rest⟩ := by
  obtain ⟨-,hbehind,hrest⟩ := SortedBuffer.cons_iff.mp hsorted
  have hend : (curr.dropFront amount).endOffset = curr.endOffset := by
    simp only [dropFront,endOffset,length_drop]
    omega
  have hne : (curr.dropFront amount).data≠[] := by simpa [dropFront] using hlt
  have htaken : (curr.data.take amount).length = amount := by simp [hlt.le]
  refine ⟨?_,fun i v hv => ?_,?_,fun e he => ?_,fun hx => ?_,fun x hx => ?_,fun _ => htaken.le,?_⟩
  · rw [htaken]
  · rw [List.getElem?_take] at hv
    split at hv
    · exact holds_head curr rest hv
    · cases hv
  · refine SortedBuffer.cons_iff.mpr ⟨hne,?_,hrest⟩
    rwa [hend]
  · rcases mem_cons.mp he with rfl | he
    · exact le_rfl
    · have := hbehind e he
      simp only [endOffset] at this ⊢
      omega
  · rcases holds_cons.mp hx with hx | hx
    · exact holds_cons.mpr (.inl (byteAt_dropFront.mp hx).2)
    · exact holds_cons.mpr (.inr hx)
  · rcases lt_or_ge x (curr.offset+amount) with hlt | hge
    · exact .inl hlt
    · right
      rcases covers_cons.mp hx with hx | hx
      · exact covers_cons.mpr (.inl ⟨hge,by rw [hend]; exact hx.2⟩)
      · exact covers_cons.mpr (.inr hx)
  · simp only [htaken]
    omega

lemma first {amount : ℕ} {curr : StreamBuffer} (hsorted : SortedBuffer (curr::rest))
    (hamount : amount≠0 → curr.data.length≤amount) :
    Takes amount curr.offset (curr::rest) ⟨curr.data,curr.endOffset,rest⟩ := by
  obtain ⟨-,hbehind,hrest⟩ := SortedBuffer.cons_iff.mp hsorted
  refine ⟨rfl,fun i v hv => holds_head curr rest hv,hrest,fun e he => (hbehind e he).le,fun hx => ?_,
    fun x hx => ?_,hamount,fun _ => not_covers_of_ahead hbehind⟩
  · exact holds_cons.mpr (.inr hx)
  · rcases covers_cons.mp hx with hx | hx
    · exact .inl hx.2
    · exact .inr hx

end Takes

lemma readFrom_of_gap (amount remaining : ℕ) (data : Bytes) {currentReadOffset : ℕ}
    (hgap : ∀ e ∈ readBuffer,currentReadOffset < e.offset) :
    ConnStream.readFrom amount remaining data currentReadOffset readBuffer =
      .ok ⟨data,currentReadOffset,readBuffer⟩ := by
  cases readBuffer with
  | nil => rfl
  | cons curr rest =>
    rw [ConnStream.readFrom]
    split
    · rfl
    · rw [if_pos (hgap curr (by simp))]

theorem readFrom_takes {currentReadOffset : ℕ} (hsorted : SortedBuffer readBuffer)
    (hahead : ∀ e ∈ readBuffer,currentReadOffset ≤ e.offset) (amount : ℕ) :
    ∃ r,ConnStream.readFrom amount amount [] currentReadOffset readBuffer = .ok r ∧
      Takes amount currentReadOffset readBuffer r := by
  cases readBuffer with
  | nil => exact ⟨_,rfl,.nothing .nil (by simp)⟩
  | cons curr rest =>
    obtain ⟨hcurr,hbehind,-⟩ := SortedBuffer.cons_iff.mp hsorted
    rcases (hahead curr (by simp)).lt_or_eq with hlt | rfl
    · have hgap : ∀ e ∈ curr::rest,currentReadOffset < e.offset := by
        intro e he
        rcases mem_cons.mp he with rfl | he
        · exact hlt
        · have := hbehind e he
          have := lt_endOffset hcurr
          omega
      exact ⟨_,readFrom_of_gap amount amount [] hgap,.nothing hsorted hgap⟩
    · rw [ConnStream.readFrom,if_neg (by omega),if_neg (lt_irrefl _),if_neg (not_not.mpr rfl)]
      by_cases hpart : amount≠0 ∧ amount < curr.data.length
      · refine ⟨_,?_,.part hsorted hpart.1 hpart.2⟩
        simp only [if_neg hpart.1,min_eq_right hpart.2.le,if_pos hpart.2]
        rfl
      · have hamount : amount≠0 → curr.data.length≤amount := by omega
        have hall : min curr.data.length (if amount=0 then curr.data.length else amount) = curr.data.length := by
          split
          · exact min_self _
          · rename_i hne
            exact min_eq_left (hamount hne)
        refine ⟨_,?_,.first hsorted hamount⟩
        simp only [hall,lt_irrefl,if_false]
        exact readFrom_of_gap _ _ _ hbehind

end QuicWestwood
