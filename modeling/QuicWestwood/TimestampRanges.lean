import QuicWestwood.AckFrameBytes

/-! `fillPacketReceiveTimestamps` puts the longest first part of the stored timestamps, newest first, that fits
in the packet: `cutRanges` says how they are grouped. -/
namespace QuicWestwood
open ByteCodec TimestampDelta RecvdPacketsTimestampsRange List

/-- The room that ranges take in a packet with `cum` bytes in `n` ranges before them. -/
def rangesCost (cum n : ℕ) (ranges : List RecvdPacketsTimestampsRange) : ℕ :=
  cum+(quicIntegers (ranges.flatMap fields)).length + (quicInteger (n+ranges.length)).length

/-- Group timestamps along the intervals of their packet numbers; a gap of 0 names `base`. -/
def cutRanges : ℕ → List Interval → List TimestampDelta → List RecvdPacketsTimestampsRange
  | _, [], _ => []
  | base, i::is, ts =>
    let run := ts.takeWhile fun t => i.start ≤ t.pktNum ∧ t.pktNum ≤ i.stop
    if run.isEmpty then []
    else ⟨base-i.stop,run.length,run.map delta⟩ :: cutRanges (i.start-2) is (ts.drop run.length)

/-- The timestamps are those of the intervals' numbers, largest first. -/
def Tiles (is : List Interval) (ts : List TimestampDelta) : Prop :=
  ts.map pktNum = is.flatMap fun i => i.elements.reverse

structure IsRun (i : Interval) (run rest : List TimestampDelta) : Prop where
  inside : ∀ t ∈ run,i.start ≤ t.pktNum ∧ t.pktNum ≤ i.stop
  outside : ∀ t ∈ rest.head?,¬(i.start≤t.pktNum ∧ t.pktNum ≤ i.stop)

variable {i : Interval} {run rest : List TimestampDelta}

lemma IsRun.take (h : IsRun i run rest) (j : ℕ) : IsRun i run (rest.take j) := by
  refine ⟨h.inside,fun t ht => h.outside t ?_⟩
  cases j with
  | zero => simp at ht
  | succ j =>
    cases rest with
    | nil => simp at ht
    | cons t' ts => simpa using ht

lemma IsRun.part (h : IsRun i run rest) (j : ℕ) : IsRun i (run.take j) [] :=
  ⟨fun t ht => h.inside t (mem_of_mem_take ht),by simp⟩

lemma cutRanges_nil (base : ℕ) (is : List Interval) : cutRanges base is [] = [] := by
  cases is <;> rfl

variable {is : List Interval}

lemma cutRanges_run {base : ℕ} (h : IsRun i run rest) (hne : run≠[]) : cutRanges base (i::is) (run++rest) =
      ⟨base-i.stop,run.length,run.map delta⟩::cutRanges (i.start-2) is rest := by
  have htake : (run++rest).takeWhile
      (fun t => decide (i.start≤t.pktNum ∧ t.pktNum ≤ i.stop)) = run := by
    rw [takeWhile_append_of_pos (by simpa using h.inside)]
    cases rest with
    | nil => simp
    | cons t ts => rw [takeWhile_cons_of_neg (by simpa using h.outside t (by simp)),append_nil]
  rw [cutRanges,htake,drop_left]
  simp [hne]

lemma BlocksBelow.mono {c c' : ℕ} {blocks : List Interval} (h : BlocksBelow c blocks) (hc : c ≤ c') :
    BlocksBelow c' blocks := by
  cases blocks with
  | nil => trivial
  | cons block blocks => exact ⟨h.1.trans hc,h.2⟩

lemma BlocksBelow.lt {currentSeqNum n : ℕ} {blocks : List Interval}
    (h : BlocksBelow currentSeqNum blocks)
    (hn : n ∈ blocks.flatMap fun i => i.elements.reverse) : n+2 ≤ currentSeqNum := by
  induction blocks generalizing currentSeqNum with
  | nil => simp at hn
  | cons block blocks ih =>
    rw [flatMap_cons,mem_append] at hn
    have := block.valid
    rcases hn with hn | hn
    · have hmem : block.start≤n ∧ n≤block.stop := by simpa [Interval.mem_def] using hn
      have := h.1
      omega
    · have := ih h.2 hn
      have := h.1
      omega

lemma cutRanges_part {base j : ℕ} (h : IsRun i run rest) (hpos : 0<j) (hj : j ≤ run.length) :
    cutRanges base (i::is) (run.take j) = [⟨base-i.stop,j,(run.take j).map delta⟩] := by
  have hne : run.take j≠[] := by
    rw [← length_pos_iff,length_take]
    omega
  have hrun : cutRanges base (i::is) (run.take j++[]) = _ := cutRanges_run (h.part j) hne
  rw [append_nil,cutRanges_nil,length_take,min_eq_left hj] at hrun
  exact hrun

variable {ts : List TimestampDelta}

lemma Tiles.cons (h : Tiles (i::is) ts) (hbelow : BlocksBelow i.start is) :
    ∃ run rest,ts = run++rest ∧ run≠[] ∧ IsRun i run rest ∧ Tiles is rest ∧
      run.map pktNum = i.elements.reverse := by
  obtain ⟨run,rest,rfl,hrun,hrest⟩ := map_eq_append_iff.mp (h.trans flatMap_cons)
  refine ⟨run,rest,rfl,?_,⟨fun t ht => ?_,fun t ht => ?_⟩,hrest,hrun⟩
  · rintro rfl
    have : i.start ∈ i.elements.reverse := by simp [Interval.mem_def,i.valid]
    simp [← hrun] at this
  · have hmem : t.pktNum ∈ i.elements.reverse := by
      rw [← hrun]
      exact mem_map_of_mem ht
    simpa [Interval.mem_def] using hmem
  · cases rest with
    | nil => simp at ht
    | cons t' ts =>
      obtain rfl : t'=t := by simpa using ht
      cases is with
      | nil => simp at hrest
      | cons k ks =>
        have hmem : t'.pktNum ∈ (k::ks).flatMap fun i => i.elements.reverse := by
          rw [← hrest]
          simp
        have hlt := hbelow.lt hmem
        omega

lemma size_ok {v : ℕ} (h : v≤kEightByteLimit) :
    getQuicIntegerSizeThrows v = .ok (quicInteger v).length :=
  getQuicIntegerSizeThrows_eq_ok.mpr ⟨h,rfl⟩

lemma fillTimestampRange_run (space cum n count used : ℕ) (h : IsRun i run rest)
    (hn : n+1 ≤ kEightByteLimit) (hdeltas : ∀ t ∈ run,t.delta ≤ kEightByteLimit)
    (hcount : count+run.length ≤ kEightByteLimit) : ∃ j ≤ run.length,
      fillTimestampRange space cum n i count used (run++rest) = .ok ((run.take j).map delta,
          used+(quicIntegers ((run.take j).map delta)).length,run.drop j++rest,decide (j < run.length)) ∧
      (0<j → cum+used+(quicIntegers ((run.take j).map delta)).length +
        (quicInteger (count+j)).length+(quicInteger (n+1)).length ≤ space) ∧ (j < run.length →
        space < cum+used+(quicIntegers ((run.take (j+1)).map delta)).length +
          (quicInteger (count+j+1)).length+(quicInteger (n+1)).length) := by
  induction run generalizing count used with
  | nil =>
    refine ⟨0,le_rfl,?_,by simp,by simp⟩
    cases rest with
    | nil => simp [fillTimestampRange]
    | cons t ts => simp [fillTimestampRange,if_neg (h.outside t (by simp))]
  | cons t run ih =>
    have hin := h.inside t (by simp)
    have hδ := hdeltas t (by simp)
    simp only [length_cons] at hcount
    have hstep : fillTimestampRange space cum n i count used (t::run++rest) =
        if space < cum+used+(quicInteger t.delta).length+(quicInteger (count+1)).length +
            (quicInteger (n+1)).length then .ok ([],used,t::run++rest,true)
        else fillTimestampRange space cum n i (count+1) (used+(quicInteger t.delta).length)
          (run++rest) >>= fun r => .ok (t.delta::r.1,r.2) := by
      rw [cons_append,fillTimestampRange,if_pos hin,size_ok hδ,size_ok (by omega),size_ok hn]
      simp only [ok_bind]
    rw [hstep]
    split
    · rename_i hout
      exact ⟨0,Nat.zero_le _,by simp,by simp,fun _ => by simpa using hout⟩
    · rename_i hfits
      obtain ⟨j,hj,hrun,hle,hlt⟩ := ih (count+1)
        (used+(quicInteger t.delta).length)
        ⟨fun u hu => h.inside u (by simp [hu]),h.outside⟩
        (fun u hu => hdeltas u (by simp [hu])) (by omega)
      refine ⟨j+1,by simpa using hj,?_,fun _ => ?_,fun hj' => ?_⟩
      · rw [hrun]
        simp [Nat.add_assoc]
      · simp only [take_succ_cons,map_cons,quicIntegers_cons,length_append]
        rcases Nat.eq_zero_or_pos j with rfl | hpos
        · simpa using hfits
        · have := hle hpos
          rw [Nat.add_assoc count,Nat.add_comm 1 j] at this
          omega
      · have := hlt (by simpa using hj')
        simp only [take_succ_cons,map_cons,quicIntegers_cons,length_append]
        rw [Nat.add_assoc count,Nat.add_comm 1 j] at this
        omega

lemma gap_eq {prev n stop : ℕ} (hprev : prev≤kEightByteLimit)
    (hstop : stop+2 ≤ prev+if n=0 then 2 else 0) :
    (if n=0 then subU64 prev stop else subU64 (subU64 prev 2) stop) = prev-(if n=0 then 0 else 2)-stop := by
  unfold kEightByteLimit at hprev
  split_ifs at hstop ⊢
  · rw [subU64_of_le (by omega) (by omega),Nat.sub_zero]
  · rw [subU64_of_le (a := prev) (by omega) (by omega),subU64_of_le (by omega) (by omega)]

lemma rangesCost_cons (cum n : ℕ) (r : RecvdPacketsTimestampsRange)
    (rs : List RecvdPacketsTimestampsRange) :
    rangesCost cum n (r::rs) = rangesCost (cum+(quicIntegers r.fields).length) (n+1) rs := by
  simp only [rangesCost,flatMap_cons,quicIntegers_append,length_append,length_cons]
  rw [Nat.add_right_comm n 1,Nat.add_assoc n]
  omega

lemma length_fields (r : RecvdPacketsTimestampsRange) :
    (quicIntegers r.fields).length = (quicInteger r.gap).length +
      (quicInteger r.timestampDeltaCount).length+(quicIntegers r.deltas).length := by
  simp [fields,Nat.add_assoc]

theorem fillTimestampRanges_tiles (space : ℕ) {prev : ℕ} (n cum : ℕ) (htiles : Tiles is ts)
    (hbelow : BlocksBelow (prev+if n=0 then 2 else 0) is) (hprev : prev≤kEightByteLimit)
    (hdeltas : ∀ t ∈ ts,t.delta ≤ kEightByteLimit) (hcount : n+ts.length ≤ kEightByteLimit) : ∃ j ≤ ts.length,
      fillTimestampRanges space prev n cum is ts =
        .ok (cutRanges (prev-if n=0 then 0 else 2) is (ts.take j)) ∧
      (0<j → rangesCost cum n (cutRanges (prev-if n=0 then 0 else 2) is (ts.take j)) ≤ space) ∧ (j<ts.length →
        space < rangesCost cum n (cutRanges (prev-if n=0 then 0 else 2) is (ts.take (j+1)))) := by
  induction is generalizing prev n cum ts with
  | nil =>
    obtain rfl : ts=[] := by simpa [Tiles] using htiles
    exact ⟨0,le_rfl,by simp [fillTimestampRanges,cutRanges],by simp,by simp⟩
  | cons i is ih =>
    obtain ⟨hstop,hbelow'⟩ := hbelow
    obtain ⟨run,rest,rfl,hne,hrun,hrest,-⟩ := htiles.cons hbelow'
    have hpos := length_pos_iff.mpr hne
    rw [length_append] at hcount
    have hstart : i.start≤kEightByteLimit := by
      have := i.valid
      split_ifs at hstop <;> omega
    set base := prev-if n=0 then 0 else 2 with hbase
    have hgap := gap_eq hprev hstop
    rw [← hbase] at hgap
    have hgapEnc : base-i.stop ≤ kEightByteLimit := by omega
    obtain ⟨j,hj,hfill,hle,hlt⟩ := fillTimestampRange_run space cum n 0
      (quicInteger (base-i.stop)).length hrun (by omega)
      (fun t ht => hdeltas t (mem_append_left _ ht)) (by omega)
    rw [fillTimestampRanges,hgap,size_ok hgapEnc,ok_bind,hfill,ok_bind]
    have hcost : ∀ k,0 < k → k ≤ run.length → rangesCost cum n (cutRanges base (i::is) ((run++rest).take k)) =
          cum+(quicInteger (base-i.stop)).length + (quicIntegers ((run.take k).map delta)).length +
            (quicInteger k).length+(quicInteger (n+1)).length := by
      intro k hk0 hk
      rw [take_append_of_le_length hk,cutRanges_part hrun hk0 hk,rangesCost_cons,rangesCost,length_fields]
      simp only [flatMap_nil,quicIntegers_nil,length_nil,Nat.add_zero]
      omega
    rcases Nat.eq_zero_or_pos j with rfl | hj0
    · -- nothing of the run fits
      refine ⟨0,Nat.zero_le _,by simp [hpos,cutRanges_nil],by simp,fun _ => ?_⟩
      rw [hcost 1 (by omega) (by omega)]
      simpa using hlt hpos
    · have hnotEmpty : ((run.take j).map delta).isEmpty = false := by
        rw [isEmpty_eq_false_iff,← length_pos_iff,length_map,length_take]
        omega
      have hlen : ((run.take j).map delta).length = j := by
        rw [length_map,length_take,min_eq_left hj]
      simp only [hnotEmpty,Bool.false_eq_true,if_false,hlen]
      rw [size_ok (by omega),ok_bind]
      rcases hj.lt_or_eq with hpart | rfl
      · -- the packet is full within the run
        refine ⟨j,by rw [length_append]; omega,?_,fun _ => ?_,fun _ => ?_⟩
        · rw [take_append_of_le_length hj,cutRanges_part hrun hj0 hj]
          simp [hpart]
        · rw [hcost j hj0 hj]
          have := hle hj0
          rw [Nat.zero_add] at this
          omega
        · rw [hcost (j+1) (by omega) hpart]
          have := hlt hpart
          rw [Nat.zero_add] at this
          omega
      · -- the run is complete
        have hcut : ∀ k,cutRanges base (i::is) ((run++rest).take (run.length+k)) =
            ⟨base-i.stop,run.length,run.map delta⟩ :: cutRanges (i.start-2) is (rest.take k) := by
          intro k
          rw [take_length_add_append,cutRanges_run (hrun.take k) hne]
        simp only [take_length,lt_irrefl,decide_false,Bool.false_eq_true,if_false,
          drop_length,nil_append] at hle ⊢
        obtain ⟨j',hj',hfill',hle',hlt'⟩ := ih (n+1)
          (cum+((quicInteger (base-i.stop)).length +
            (quicIntegers (run.map delta)).length)+(quicInteger run.length).length)
          hrest (by simpa using hbelow') hstart
          (fun t ht => hdeltas t (mem_append_right _ ht)) (by omega)
        simp only [Nat.add_eq_zero_iff,one_ne_zero,and_false,if_false] at hfill' hle' hlt'
        have hsum : cum+(quicIntegers (fields ⟨base-i.stop,run.length,run.map delta⟩)).length =
            cum+((quicInteger (base-i.stop)).length +
              (quicIntegers (run.map delta)).length)+(quicInteger run.length).length := by
          simp only [length_fields]
          omega
        refine ⟨run.length+j',by rw [length_append]; omega,?_,fun _ => ?_,fun hj₁ => ?_⟩
        · rw [hfill',ok_bind,hcut]
        · rw [hcut,rangesCost_cons,hsum]
          rcases Nat.eq_zero_or_pos j' with rfl | hj'0
          · have := hle hpos
            rw [Nat.zero_add] at this
            simp only [take_zero,cutRanges_nil,rangesCost,flatMap_nil,quicIntegers_nil,
              length_nil,Nat.add_zero]
            omega
          · exact hle' hj'0
        · rw [Nat.add_assoc,hcut,rangesCost_cons,hsum]
          rw [length_append] at hj₁
          exact hlt' (by omega)

lemma one_le_length_quicInteger {v : ℕ} (h : v≤kEightByteLimit) : 1 ≤ (quicInteger v).length :=
  (quicInteger_spec h).2.2.1

lemma rangesCost_cutRanges_lt (base cum : ℕ) {c n j : ℕ} (htiles : Tiles is ts) (hbelow : BlocksBelow c is)
    (hdeltas : ∀ t ∈ ts,t.delta ≤ kEightByteLimit) (hcount : n+ts.length ≤ kEightByteLimit)
    (hj : j<ts.length) : rangesCost cum n (cutRanges base is (ts.take j)) <
      rangesCost cum n (cutRanges base is (ts.take (j+1))) := by
  induction is generalizing base c cum n j ts with
  | nil =>
    obtain rfl : ts=[] := by simpa [Tiles] using htiles
    simp at hj
  | cons i is ih =>
    obtain ⟨run,rest,rfl,hne,hrun,hrest,-⟩ := htiles.cons hbelow.2
    have hpos := length_pos_iff.mpr hne
    rw [length_append] at hcount hj
    rcases lt_or_ge j run.length with hin | hout
    · have hnext : (run.take (j+1)).map delta = (run.take j).map delta++[run[j].delta] := by
        rw [take_succ_eq_append_getElem hin,map_append,map_singleton]
      have hδ := one_le_length_quicInteger (hdeltas run[j] (by simp))
      have hmono : (quicInteger j).length ≤ (quicInteger (j+1)).length :=
        length_quicInteger_mono (Nat.le_succ j) (by omega)
      have hn : (quicInteger n).length ≤ (quicInteger (n+1)).length :=
        length_quicInteger_mono (Nat.le_succ n) (by omega)
      rw [take_append_of_le_length hin.le,take_append_of_le_length (Nat.succ_le_of_lt hin),
        cutRanges_part hrun (Nat.succ_pos j) hin]
      rcases Nat.eq_zero_or_pos j with rfl | hj0
      · rw [take_zero,cutRanges_nil]
        simp only [rangesCost,flatMap_cons,flatMap_nil,append_nil,length_fields,
          quicIntegers_nil,length_nil,length_singleton,hnext,quicIntegers_append,
          quicIntegers_cons,length_append,Nat.succ_eq_add_one,Nat.add_zero]
        omega
      · rw [cutRanges_part hrun hj0 hin.le]
        simp only [rangesCost,flatMap_cons,flatMap_nil,append_nil,length_fields,
          length_singleton,hnext,quicIntegers_append,quicIntegers_cons,quicIntegers_nil,
          length_append,Nat.succ_eq_add_one]
        omega
    · obtain ⟨k,rfl⟩ := Nat.exists_eq_add_of_le hout
      rw [Nat.add_assoc,take_length_add_append,take_length_add_append,
        cutRanges_run (hrun.take k) hne,cutRanges_run (hrun.take (k+1)) hne,rangesCost_cons,rangesCost_cons]
      exact ih _ _ hrest hbelow.2 (fun t ht => hdeltas t (mem_append_right _ ht)) (by omega) (by omega)

lemma rangesCost_cutRanges_strictMono {base c cum n j k : ℕ} (htiles : Tiles is ts)
    (hbelow : BlocksBelow c is) (hdeltas : ∀ t ∈ ts,t.delta ≤ kEightByteLimit)
    (hcount : n+ts.length ≤ kEightByteLimit) (hjk : j<k) (hk : k≤ts.length) :
    rangesCost cum n (cutRanges base is (ts.take j)) < rangesCost cum n (cutRanges base is (ts.take k)) := by
  induction k with
  | zero => omega
  | succ k ih =>
    have hstep := rangesCost_cutRanges_lt base cum htiles hbelow hdeltas hcount hk
    rcases (Nat.lt_succ_iff.mp hjk).lt_or_eq with hlt | rfl
    · exact (ih hlt (by omega)).trans hstep
    · exact hstep

lemma length_flatMap_fields_cutRanges_le (base : ℕ) (is : List Interval) (ts : List TimestampDelta) :
    ((cutRanges base is ts).flatMap fields).length ≤ 3*ts.length := by
  induction is generalizing base ts with
  | nil => simp [cutRanges]
  | cons i is ih =>
    rw [cutRanges]
    split
    · simp
    · rename_i hne
      have hpos : 0 < (ts.takeWhile fun t => decide (i.start≤t.pktNum ∧ t.pktNum ≤ i.stop)).length := by
        rw [length_pos_iff]
        simpa using hne
      have hle := (takeWhile_sublist (l := ts)
        fun t => decide (i.start≤t.pktNum ∧ t.pktNum ≤ i.stop)).length_le
      have hrest := ih (i.start-2) (ts.drop
        (ts.takeWhile fun t => decide (i.start≤t.pktNum ∧ t.pktNum ≤ i.stop)).length)
      rw [length_drop] at hrest
      simp only [flatMap_cons,length_append,fields,length_cons,length_map]
      omega

def IsTimePoint (t : ℤ) : Prop := -2^63 ≤ t ∧ t < 2^63

instance (t : ℤ) : Decidable (IsTimePoint t) := inferInstanceAs (Decidable (_ ∧ _))

/-- Stored packets in the order of their numbers and of their times, none above the largest
acked packet. -/
structure StoredInOrder (connTime : ℤ) (largestAcked : ℕ) (infos : List ReceivedPacket) : Prop where
  increasing : infos.Pairwise fun p q => p.pktNum < q.pktNum
  ordered : infos.Pairwise fun p q => p.receiveTimePoint ≤ q.receiveTimePoint
  acked : ∀ p ∈ infos,p.pktNum ≤ largestAcked
  times : ∀ p ∈ infos,IsTimePoint p.receiveTimePoint
  start : IsTimePoint connTime

variable {connTime : ℤ}

lemma deltaDuration_bounds (newer : Option ReceivedPacket) {p : ReceivedPacket}
    (hstart : IsTimePoint connTime) (hp : IsTimePoint p.receiveTimePoint)
    (hnewer : ∀ q ∈ newer,IsTimePoint q.receiveTimePoint ∧ p.receiveTimePoint≤q.receiveTimePoint) :
    0 ≤ deltaDuration connTime newer p ∧ deltaDuration connTime newer p < 2^62 := by
  unfold IsTimePoint at *
  cases newer with
  | none =>
    simp only [deltaDuration,sinceConnection]
    split
    · rw [Int.tdiv_eq_ediv_of_nonneg (by omega)]
      omega
    · omega
  | some q =>
    obtain ⟨hq,hle⟩ := hnewer q rfl
    simp only [deltaDuration]
    rw [Int.tdiv_eq_ediv_of_nonneg (by omega)]
    omega

lemma u64_shiftRight {d : ℤ} (e : ℕ) (h0 : 0≤d) (hd : d < 2^62) :
    ((u64 (d >>> e) : ℕ) : ℤ) = d/2^e ∧ u64 (d >>> e) ≤ kEightByteLimit := by
  have hle : d/2^e ≤ d := Int.ediv_le_self _ h0
  have hnonneg : 0 ≤ d/2^e := Int.ediv_nonneg h0 (by positivity)
  have hshift : d >>> e = d/2^e := Int.shiftRight_eq_div_pow d e
  have hval : ((u64 (d >>> e) : ℕ) : ℤ) = d/2^e := by
    rw [hshift]
    exact u64_of_nonneg hnonneg (by omega)
  refine ⟨hval,?_⟩
  unfold kEightByteLimit
  omega

@[simp] lemma map_pktNum_timestampDeltas (connTime : ℤ) (e : ℕ) (newer : Option ReceivedPacket)
    (ps : List ReceivedPacket) :
    (timestampDeltas connTime e newer ps).map pktNum = ps.map ReceivedPacket.pktNum := by
  induction ps generalizing newer with
  | nil => rfl
  | cons p ps ih => simp [timestampDeltas,ih]

@[simp] lemma length_timestampDeltas (connTime : ℤ) (e : ℕ) (newer : Option ReceivedPacket)
    (ps : List ReceivedPacket) : (timestampDeltas connTime e newer ps).length = ps.length := by
  induction ps generalizing newer with
  | nil => rfl
  | cons p ps ih => simp [timestampDeltas,ih]

lemma timestampDeltas_small (e : ℕ) (newer : Option ReceivedPacket) {ps : List ReceivedPacket}
    (hstart : IsTimePoint connTime)
    (hordered : (newer.toList++ps).Pairwise fun p q => q.receiveTimePoint ≤ p.receiveTimePoint)
    (htimes : ∀ p ∈ newer.toList++ps,IsTimePoint p.receiveTimePoint) :
    ∀ t ∈ timestampDeltas connTime e newer ps,t.delta*2^e < 2^62 := by
  induction ps generalizing newer with
  | nil => simp [timestampDeltas]
  | cons p ps ih =>
    intro t ht
    rcases mem_cons.mp ht with rfl | ht
    · have hbounds := deltaDuration_bounds newer hstart (htimes p (by simp)) (by
        intro q hq
        have hmem : q ∈ newer.toList := by simpa using hq
        exact ⟨htimes q (by simp [hmem]),(pairwise_append.mp hordered).2.2 q hmem p (by simp)⟩)
      have hval := (u64_shiftRight e hbounds.1 hbounds.2).1
      have hle : (u64 (deltaDuration connTime newer p >>> e) : ℤ)*2^e ≤ deltaDuration connTime newer p := by
        rw [hval]
        exact Int.ediv_mul_le _ (by positivity)
      exact_mod_cast hle.trans_lt hbounds.2
    · refine ih (some p) ?_ ?_ t ht
      · exact (pairwise_append.mp hordered).2.1
      · intro q hq
        exact htimes q (mem_append_right _ hq)

variable {infos : List ReceivedPacket}

lemma mem_selectedPktNums {m n : ℕ} : n ∈ selectedPktNums m infos ↔ ∃ p ∈ infos.take m,p.pktNum=n := by
  have hfold : ∀ (ps : List ReceivedPacket) (s : IntervalSet 1),
      n ∈ ps.foldl (fun set p => set.insertPoint p.pktNum) s ↔ n ∈ s ∨ ∃ p ∈ ps,p.pktNum=n := by
    intro ps
    induction ps with
    | nil => simp
    | cons p ps ih =>
      intro s
      rw [foldl_cons,ih]
      simp [or_assoc,eq_comm]
  simpa [selectedPktNums] using hfold (infos.take m) .empty

lemma flatMap_selectedPktNums {m : ℕ} (h : infos.Pairwise fun p q => p.pktNum < q.pktNum) :
    ((selectedPktNums m infos).intervals.reverse.flatMap fun i => i.elements.reverse) =
      ((infos.take m).map ReceivedPacket.pktNum).reverse := by
  have helements : (selectedPktNums m infos).elements = (infos.take m).map ReceivedPacket.pktNum := by
    refine IntervalSet.elements_eq ?_ fun n => ?_
    · exact pairwise_map.mpr (h.sublist (take_sublist m infos))
    · rw [mem_selectedPktNums,mem_map]
  rw [← helements,IntervalSet.elements,reverse_flatMap]
  rfl

lemma blocksBelow_selectedPktNums {m n : ℕ} (h : ∀ p ∈ infos,p.pktNum ≤ n) :
    BlocksBelow (n+2) (selectedPktNums m infos).intervals.reverse := by
  cases hr : (selectedPktNums m infos).intervals.reverse with
  | nil => trivial
  | cons i is =>
    have hmem : i.stop ∈ selectedPktNums m infos :=
      ⟨i,mem_reverse.mp (by rw [hr]; simp),i.valid,le_rfl⟩
    obtain ⟨p,hp,hpn⟩ := mem_selectedPktNums.mp hmem
    have := h p (mem_of_mem_take hp)
    exact ⟨by omega,blocksBelow_of_reverse (selectedPktNums m infos).sorted hr⟩

def newestRanges (connTime : ℤ) (e largestAcked : ℕ) (infos : List ReceivedPacket) (j : ℕ) :
    List RecvdPacketsTimestampsRange :=
  cutRanges largestAcked (selectedPktNums infos.length infos).intervals.reverse
    ((timestampDeltas connTime e none infos.reverse).take j)

section Newest
variable {metaData : WriteAckFrameMetaData} {largestAcked e m : ℕ}

section
variable (h : StoredInOrder connTime largestAcked infos) (e : ℕ)
include h

lemma StoredInOrder.tiles :
    Tiles (selectedPktNums infos.length infos).intervals.reverse
      (timestampDeltas connTime e none infos.reverse) := by
  rw [Tiles,flatMap_selectedPktNums h.increasing,map_pktNum_timestampDeltas,take_length,map_reverse]

lemma StoredInOrder.small :
    ∀ t ∈ timestampDeltas connTime e none infos.reverse,t.delta*2^e < 2^62 := by
  refine timestampDeltas_small e none h.start ?_ ?_
  · simpa [pairwise_reverse] using h.ordered
  · simpa using h.times

lemma StoredInOrder.encodable :
    ∀ t ∈ timestampDeltas connTime e none infos.reverse,t.delta ≤ kEightByteLimit := by
  intro t ht
  have hle : t.delta ≤ t.delta*2^e := Nat.le_mul_of_pos_right _ (by positivity)
  have := h.small e t ht
  unfold kEightByteLimit
  omega

end

lemma rangesCost_newestRanges_le (connTime : ℤ) (e largestAcked : ℕ) (infos : List ReceivedPacket)
    (j : ℕ) : rangesCost 0 0 (newestRanges connTime e largestAcked infos j) ≤ 8*(3*infos.length+1) := by
  have hfields := length_flatMap_fields_cutRanges_le largestAcked
    (selectedPktNums infos.length infos).intervals.reverse
    ((timestampDeltas connTime e none infos.reverse).take j)
  have hbytes := length_quicIntegers_le
    ((newestRanges connTime e largestAcked infos j).flatMap fields)
  have hcount := length_quicInteger_le (0+(newestRanges connTime e largestAcked infos j).length)
  simp only [length_take,length_timestampDeltas,length_reverse] at hfields
  unfold rangesCost newestRanges at *
  omega

variable (h : StoredInOrder metaData.connTime largestAcked infos)
  (hinfos : metaData.ackState.recvdPacketInfos=infos) (hlargest : largestAcked≤kEightByteLimit)
  (hfew : infos.length≤kEightByteLimit) (hm : infos.length ≤ m)
include h hinfos hlargest hfew hm

/-- If the limit admits all stored packets, the newest ones are written, as many as fit. -/
theorem fillPacketReceiveTimestamps_newest (space : ℕ) : ∃ j ≤ infos.length,
      fillPacketReceiveTimestamps metaData largestAcked space e m =
        .ok (newestRanges metaData.connTime e largestAcked infos j) ∧
      (0<j → rangesCost 0 0 (newestRanges metaData.connTime e largestAcked infos j) ≤ space) ∧
      (j < infos.length → space < rangesCost 0 0 (newestRanges metaData.connTime e largestAcked infos (j+1))) := by
  have hfill := fillTimestampRanges_tiles space 0 0 (h.tiles e)
    (blocksBelow_selectedPktNums h.acked) hlargest (h.encodable e) (by simpa using hfew)
  have hall : selectedPktNums m infos = selectedPktNums infos.length infos := by
    rw [selectedPktNums,selectedPktNums,take_of_length_le hm,take_length]
  simp only [fillPacketReceiveTimestamps,hinfos,hall]
  simpa [newestRanges] using hfill

theorem fillPacketReceiveTimestamps_exact {j : ℕ} (hj : 0<j) (hjk : j ≤ infos.length) :
    fillPacketReceiveTimestamps metaData largestAcked
        (rangesCost 0 0 (newestRanges metaData.connTime e largestAcked infos j)) e m =
      .ok (newestRanges metaData.connTime e largestAcked infos j) := by
  have hmono {a b : ℕ} (hab : a < b) (hb : b ≤ infos.length) :
      rangesCost 0 0 (newestRanges metaData.connTime e largestAcked infos a) <
      rangesCost 0 0 (newestRanges metaData.connTime e largestAcked infos b) :=
    rangesCost_cutRanges_strictMono (h.tiles e) (blocksBelow_selectedPktNums h.acked) (h.encodable e)
      (by simpa using hfew) hab (by simpa using hb)
  obtain ⟨j',hj',hfill,hle,hlt⟩ := fillPacketReceiveTimestamps_newest (e := e) h hinfos hlargest hfew hm
    (rangesCost 0 0 (newestRanges metaData.connTime e largestAcked infos j))
  rcases lt_trichotomy j' j with hjj | rfl | hjj
  · have hnext := hlt (by omega)
    rcases (Nat.succ_le_of_lt hjj).lt_or_eq with hlt' | heq
    · have := hmono hlt' hjk
      simp only [Nat.succ_eq_add_one] at this
      omega
    · rw [← Nat.succ_eq_add_one,heq] at hnext
      omega
  · exact hfill
  · have := hle (by omega)
    have := hmono hjj hj'
    omega

theorem fillPacketReceiveTimestamps_all (space : ℕ) (hspace : 8*(3*infos.length+1) ≤ space) :
    fillPacketReceiveTimestamps metaData largestAcked space e m =
      .ok (newestRanges metaData.connTime e largestAcked infos infos.length) := by
  obtain ⟨j,hj,hfill,-,hlt⟩ := fillPacketReceiveTimestamps_newest (e := e) h hinfos hlargest hfew hm space
  rcases hj.lt_or_eq with hlt' | rfl
  · have := hlt hlt'
    have := rangesCost_newestRanges_le metaData.connTime e largestAcked infos (j+1)
    omega
  · exact hfill

end Newest

/-- A state in which a frame can be written: there is something to acknowledge, and the
numbers and times are those of packets and clocks. -/
structure ReadyToWrite (metaData : WriteAckFrameMetaData) (largest : Interval)
    (others : List Interval) : Prop where
  acks : metaData.ackState.acks.intervals.reverse = largest::others
  largest_le : largest.stop≤kEightByteLimit
  ackDelay_nonneg : 0 ≤ metaData.ackDelay
  ackDelay_le : metaData.ackDelay≤kEightByteLimit
  last : ∃ p,metaData.ackState.lastRecvdPacketInfo = some p ∧ p.pktNum≤kEightByteLimit ∧
    IsTimePoint p.receiveTimePoint
  stored : StoredInOrder metaData.connTime largest.stop metaData.ackState.recvdPacketInfos

lemma encodable_cutRanges {base : ℕ} (ts : List TimestampDelta) (hbelow : BlocksBelow (base+2) is)
    (hbase : base≤kEightByteLimit) (hdeltas : ∀ t ∈ ts,t.delta ≤ kEightByteLimit)
    (hcount : ts.length≤kEightByteLimit) :
    Encodable ((cutRanges base is ts).flatMap fields) ∧ (cutRanges base is ts).length ≤ ts.length := by
  induction is generalizing base ts with
  | nil => simp [cutRanges]
  | cons i is ih =>
    rw [cutRanges]
    set run := ts.takeWhile fun t => decide (i.start≤t.pktNum ∧ t.pktNum ≤ i.stop)
    have hsub : run.Sublist ts := takeWhile_sublist _
    have hle := hsub.length_le
    have hvalid := i.valid
    have hstop := hbelow.1
    split
    · simp
    · rename_i hne
      have hpos : 0 < run.length := by
        rw [length_pos_iff]
        simpa using hne
      have hbelow' : BlocksBelow (i.start-2+2) is := hbelow.2.mono (by omega)
      obtain ⟨henc,hlen⟩ := ih (ts.drop run.length) hbelow' (by omega) (fun t ht => hdeltas t (mem_of_mem_drop ht))
        (by rw [length_drop]; omega)
      rw [length_drop] at hlen
      refine ⟨?_,by rw [length_cons]; omega⟩
      rw [flatMap_cons,encodable_append]
      refine ⟨?_,henc⟩
      simp only [fields,encodable_cons]
      refine ⟨by omega,by omega,fun v hv => ?_⟩
      obtain ⟨t,ht,rfl⟩ := mem_map.mp hv
      exact hdeltas t (hsub.subset ht)

lemma ReadyToWrite.encodable {metaData : WriteAckFrameMetaData} {largest : Interval}
    {others : List Interval} (h : ReadyToWrite metaData largest others)
    (hothers : others.length≤kEightByteLimit)
    (hfew : metaData.ackState.recvdPacketInfos.length≤kEightByteLimit) (e j : ℕ) :
    Encodable (timestampFrameFields metaData largest others
      (newestRanges metaData.connTime e largest.stop metaData.ackState.recvdPacketInfos j)) := by
  obtain ⟨p,hp,hpn,hpt⟩ := h.last
  obtain ⟨hranges,hlen⟩ := encodable_cutRanges ((timestampDeltas metaData.connTime e none
      metaData.ackState.recvdPacketInfos.reverse).take j)
    (blocksBelow_selectedPktNums (m := metaData.ackState.recvdPacketInfos.length) h.stored.acked)
    h.largest_le (fun t ht => h.stored.encodable e t (mem_of_mem_take ht))
    (by simp only [length_take,length_timestampDeltas,length_reverse]; omega)
  have hblocks := blocksBelow_of_reverse metaData.ackState.acks.sorted h.acks
  have hvalid := largest.valid
  have hlargest := h.largest_le
  have hdelay : encodedAckDelay metaData ≤ kEightByteLimit := by
    have hval := u64_of_nonneg h.ackDelay_nonneg (h.ackDelay_le.trans_lt (by unfold kEightByteLimit; omega))
    have := h.ackDelay_le
    exact (Nat.div_le_self _ _).trans (by omega)
  have htime : u64 (latestRecvdPacket metaData).2 ≤ kEightByteLimit := by
    have hbounds := deltaDuration_bounds none h.stored.start hpt (by simp)
    have := u64_shiftRight 0 hbounds.1 hbounds.2
    simpa [latestRecvdPacket,hp,deltaDuration] using this.2
  simp only [timestampFrameFields,ackFields,encodable_append,encodable_cons,encodable_nil]
  refine ⟨⟨⟨⟨by decide,by omega,hdelay,hothers,by omega,trivial⟩,
    encodable_blockFields hblocks (by omega)⟩,?_,htime,trivial⟩,?_,hranges⟩
  · simpa [latestRecvdPacket,hp] using hpn
  · simp only [length_take,length_timestampDeltas,length_reverse] at hlen
    unfold newestRanges
    omega

lemma length_before_timestamps_le (metaData : WriteAckFrameMetaData) (largest : Interval)
    (others : List Interval) :
    (quicIntegers (ackFields metaData .ackReceiveTimestamps largest others ++
      [(latestRecvdPacket metaData).1,u64 (latestRecvdPacket metaData).2])).length ≤
      8*(2*others.length+7) := by
  refine (length_quicIntegers_le _).trans (le_of_eq ?_)
  simp only [ackFields,length_append,length_cons,length_nil,length_blockFields]
  omega

end QuicWestwood
