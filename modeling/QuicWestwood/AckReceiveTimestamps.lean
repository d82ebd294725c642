import QuicWestwood.AckFrameDecode
import QuicWestwood.Outcome
import QuicWestwood.TimestampRanges

/-! `parseAckReceiveTimestamps` counts down from the latest received packet and adds the deltas up. The early
returns of its loops are the `fail` of an `Outcome`. -/
namespace QuicWestwood
open ByteCodec RecvdPacketsTimestampsRange List

/-- `packetReceiveTimeStamps[n] = t` -/
def assignTimestamp (map : List (ℕ × ℕ)) (n t : ℕ) : List (ℕ × ℕ) :=
  (n,t)::map.filter fun entry => entry.1≠n

structure TimestampParse where
  receivedPacketNum : ℕ
  receiveTimeStamp : ℕ
  packetReceiveTimeStamps : List (ℕ × ℕ)
  deriving DecidableEq

def decrementPacketNum (pktNum : ℕ) : ℕ := pktNum-1

def parseTimestampDelta (firstPacketNum maxRequested : ℕ) (s : TimestampParse) (delta : ℕ) :
    Outcome Unit TimestampParse :=
  if s.receivedPacketNum<firstPacketNum then .fail () s
  else if maxRequested ≤ s.packetReceiveTimeStamps.length then .fail () s
  else
    let receiveTimeStamp := subU64 s.receiveTimeStamp delta
    .done
      {receivedPacketNum := decrementPacketNum s.receivedPacketNum
       receiveTimeStamp
       packetReceiveTimeStamps :=
         assignTimestamp s.packetReceiveTimeStamps s.receivedPacketNum receiveTimeStamp}

def parseTimestampRange (firstPacketNum maxRequested : ℕ) (s : TimestampParse)
    (r : RecvdPacketsTimestampsRange) : Outcome Unit TimestampParse :=
  (Outcome.each (parseTimestampDelta firstPacketNum maxRequested)
    {s with receivedPacketNum := subU64 s.receivedPacketNum r.gap} r.deltas).andThen fun s =>
      .done {s with receivedPacketNum := decrementPacketNum s.receivedPacketNum}

/-- `sentToPeer` is the configuration in which this side asked for timestamps. -/
def parseAckReceiveTimestamps (sentToPeer : Option AckReceiveTimestampsConfig) (frame : ReadAckFrame)
    (packetReceiveTimeStamps : List (ℕ × ℕ)) (firstPacketNum : Option ℕ) :
    Except Failure (List (ℕ × ℕ)) :=
  if frame.frameType≠.ackReceiveTimestamps then .ok packetReceiveTimeStamps
  else
    match sentToPeer, frame.recvdPacketsTimestampRanges.head?.bind fun r => r.deltas.head? with
    | some config, some firstDelta =>
      match frame.maybeLatestRecvdPacketNum, firstPacketNum with
      | none, _ => .error .optionalEmptyException
      | some _, none => .ok packetReceiveTimeStamps
      | some latest, some first =>
        if latest<first then .ok packetReceiveTimeStamps
        else
          .ok (Outcome.each (parseTimestampRange first config.maxReceiveTimestampsPerAck)
            ⟨latest,2*firstDelta % 2^64,packetReceiveTimeStamps⟩
            frame.recvdPacketsTimestampRanges).state.packetReceiveTimeStamps
    | _, _ => .ok packetReceiveTimeStamps

lemma subU64_u64 (z : ℤ) (n : ℕ) : subU64 (u64 z) n = u64 (z-n) := by
  unfold subU64 u64
  omega

def rangeEntries : ℕ → ℤ → List ℕ → List (ℕ × ℕ)
  | _, _, [] => []
  | n, time, δ::δs => (n,u64 (time-δ))::rangeEntries (n-1) (time-δ) δs

def frameEntries : ℕ → ℤ → List RecvdPacketsTimestampsRange → List (ℕ × ℕ)
  | _, _, [] => []
  | n, time, r::rs =>
    rangeEntries (subU64 n r.gap) time r.deltas ++
      frameEntries (subU64 n r.gap-r.deltas.length-1) (time-r.deltas.sum) rs

def assignAll (map entries : List (ℕ × ℕ)) : List (ℕ × ℕ) :=
  entries.foldl (fun map entry => assignTimestamp map entry.1 entry.2) map

lemma length_assignTimestamp_le (map : List (ℕ × ℕ)) (n t : ℕ) :
    (assignTimestamp map n t).length ≤ map.length+1 := by
  rw [assignTimestamp,length_cons]
  exact Nat.succ_le_succ (length_filter_le _ _)

lemma length_assignAll_le (map entries : List (ℕ × ℕ)) :
    (assignAll map entries).length ≤ map.length+entries.length := by
  induction entries generalizing map with
  | nil => exact le_rfl
  | cons entry entries ih =>
    have h₁ := ih (assignTimestamp map entry.1 entry.2)
    have h₂ := length_assignTimestamp_le map entry.1 entry.2
    rw [length_cons]
    exact h₁.trans (by omega)

lemma mem_assignAll {map entries : List (ℕ × ℕ)} {entry : ℕ × ℕ} (h : entry ∈ assignAll map entries) :
    entry ∈ map ∨ entry ∈ entries := by
  induction entries generalizing map with
  | nil => exact .inl h
  | cons e entries ih =>
    rcases ih h with h | h
    · rcases mem_cons.mp h with rfl | h
      · exact .inr (by simp)
      · exact .inl (mem_of_mem_filter h)
    · exact .inr (by simp [h])

lemma mem_assignAll_append (map entries : List (ℕ × ℕ)) (entry : ℕ × ℕ) :
    entry ∈ assignAll map (entries++[entry]) := by
  simp [assignAll,foldl_append,assignTimestamp]

@[simp] lemma length_rangeEntries (n : ℕ) (time : ℤ) (δs : List ℕ) :
    (rangeEntries n time δs).length = δs.length := by
  induction δs generalizing n time with
  | nil => rfl
  | cons δ δs ih => simp [rangeEntries,ih]

lemma each_parseTimestampDelta {maxRequested n : ℕ} {time : ℤ} {map : List (ℕ × ℕ)} {δs : List ℕ}
    (hroom : map.length+δs.length ≤ maxRequested) :
    Outcome.each (parseTimestampDelta 0 maxRequested) ⟨n,u64 time,map⟩ δs =
      .done ⟨n-δs.length,u64 (time-δs.sum),assignAll map (rangeEntries n time δs)⟩ := by
  induction δs generalizing n time map with
  | nil => simp [Outcome.each,rangeEntries,assignAll]
  | cons δ δs ih =>
    rw [length_cons] at hroom
    have hstep : parseTimestampDelta 0 maxRequested ⟨n,u64 time,map⟩ δ =
        .done ⟨n-1,u64 (time-δ),assignTimestamp map n (u64 (time-δ))⟩ := by
      simp only [parseTimestampDelta,decrementPacketNum,subU64_u64]
      rw [if_neg (by omega),if_neg (by omega)]
    have hlen := length_assignTimestamp_le map n (u64 (time-δ))
    rw [Outcome.each,hstep,Outcome.done_andThen,ih (by omega)]
    simp only [rangeEntries,assignAll,foldl_cons,length_cons,sum_cons,Nat.cast_add]
    congr 2
    · omega
    · congr 1
      omega

theorem each_parseTimestampRange {maxRequested n : ℕ} {time : ℤ} {map : List (ℕ × ℕ)}
    {ranges : List RecvdPacketsTimestampsRange}
    (hroom : map.length+(ranges.map fun r => r.deltas.length).sum ≤ maxRequested) :
    (Outcome.each (parseTimestampRange 0 maxRequested) ⟨n,u64 time,map⟩
      ranges).state.packetReceiveTimeStamps = assignAll map (frameEntries n time ranges) := by
  induction ranges generalizing n time map with
  | nil => simp [Outcome.each,frameEntries,assignAll]
  | cons r ranges ih =>
    rw [map_cons,sum_cons] at hroom
    have hrange : parseTimestampRange 0 maxRequested ⟨n,u64 time,map⟩ r =
        .done ⟨subU64 n r.gap-r.deltas.length-1,u64 (time-r.deltas.sum),
          assignAll map (rangeEntries (subU64 n r.gap) time r.deltas)⟩ := by
      have hdeltas : map.length+r.deltas.length ≤ maxRequested := by omega
      rw [parseTimestampRange,each_parseTimestampDelta hdeltas,Outcome.done_andThen]
      rfl
    have hlen := length_assignAll_le map (rangeEntries (subU64 n r.gap) time r.deltas)
    rw [length_rangeEntries] at hlen
    rw [Outcome.each,hrange,Outcome.done_andThen,ih (by omega)]
    simp only [frameEntries,assignAll,foldl_append]

/-- The number that follows `c` when the packet stored before `n` is `n'`. -/
def nextNumber (c n n' : ℕ) : ℕ := if n'+1 = n then c-1 else subU64 (c-1-1) (n-n'-2)

/-- The entries for stored packets, with the first one attributed to number `c`. -/
def namedEntries (e : ℕ) : ℕ → ℤ → List TimestampDelta → List (ℕ × ℕ)
  | _, _, [] => []
  | c, time, [t] => [(c,u64 (time-t.delta*2^e))]
  | c, time, t::t'::ts =>
    (c,u64 (time-t.delta*2^e)) :: namedEntries e (nextNumber c t.pktNum t'.pktNum) (time-t.delta*2^e) (t'::ts)

lemma namedEntries_take (e c j : ℕ) (time : ℤ) (ts : List TimestampDelta) :
    namedEntries e c time (ts.take j) = (namedEntries e c time ts).take j := by
  induction ts generalizing c time j with
  | nil => simp [namedEntries]
  | cons t ts ih =>
    cases j with
    | zero => simp [namedEntries]
    | succ j =>
      cases ts with
      | nil => simp [namedEntries]
      | cons t' ts =>
        cases j with
        | zero => simp [namedEntries]
        | succ j =>
          rw [take_succ_cons,take_succ_cons,namedEntries,namedEntries,take_succ_cons]
          rw [← ih,take_succ_cons]

lemma length_namedEntries (e c : ℕ) (time : ℤ) (ts : List TimestampDelta) :
    (namedEntries e c time ts).length = ts.length := by
  induction ts generalizing c time with
  | nil => rfl
  | cons t ts ih =>
    cases ts with
    | nil => rfl
    | cons t' ts =>
      rw [namedEntries,length_cons,ih]
      rfl

def microDeltas (e : ℕ) (run : List TimestampDelta) : List ℕ := run.map fun t => t.delta*2^e

lemma scale_mk (e gap count : ℕ) (run : List TimestampDelta) :
    scale e ⟨gap,count,run.map TimestampDelta.delta⟩ = ⟨gap,count,microDeltas e run⟩ := by
  rw [scale,map_map]
  rfl

lemma length_microDeltas (e : ℕ) (run : List TimestampDelta) :
    (microDeltas e run).length = run.length := length_map _

lemma namedEntries_run {e c : ℕ} (time : ℤ) {run : List TimestampDelta} (rest : List TimestampDelta)
    (hne : run≠[])
    (hconsecutive : run.IsChain fun t t' => t'.pktNum+1 = t.pktNum) {last : ℕ}
    (hlast : ∀ t ∈ run.getLast?,t.pktNum = last) {d : ℕ}
    (hnext : ∀ t ∈ rest.head?,d = nextNumber (c-(run.length-1)) last t.pktNum) :
    namedEntries e c time (run++rest) = rangeEntries c time (microDeltas e run) ++
        namedEntries e d (time-(microDeltas e run).sum) rest := by
  induction run generalizing c time with
  | nil => exact absurd rfl hne
  | cons t run ih =>
    cases run with
    | nil =>
      have ht := hlast t (by simp)
      cases rest with
      | nil => simp [namedEntries,rangeEntries,microDeltas]
      | cons t' rest =>
        have hd : d = nextNumber c last t'.pktNum := by simpa using hnext t' (by simp)
        simp [namedEntries,rangeEntries,microDeltas,hd,ht]
    | cons t' run =>
      have hstep : nextNumber c t.pktNum t'.pktNum = c-1 := by
        rw [nextNumber,if_pos (isChain_cons_cons.mp hconsecutive).1]
      have hrec := ih (c := c-1) (time-t.delta*2^e) (by simp)
        (isChain_cons_cons.mp hconsecutive).2 (by simpa using hlast) (by
          intro u hu
          rw [hnext u hu]
          simp only [length_cons]
          congr 1
          omega)
      have htime : time-t.delta*2^e-(microDeltas e (t'::run)).sum =
          time-(microDeltas e (t::t'::run)).sum := by
        simp only [microDeltas,map_cons,sum_cons,Nat.cast_add,Nat.cast_mul,Nat.cast_pow,Nat.cast_ofNat]
        ring
      rw [cons_append,cons_append,namedEntries,hstep,← cons_append,hrec,htime]
      simp [microDeltas,rangeEntries]

theorem frameEntries_cutRanges {is : List Interval} {ts : List TimestampDelta} (htiles : Tiles is ts)
    {base : ℕ} (hbelow : BlocksBelow (base+2) is) (e n j : ℕ) (time : ℤ) {c : ℕ}
    (hc : ∀ t ∈ ts.head?,c = subU64 n (base-t.pktNum)) :
    frameEntries n time ((cutRanges base is (ts.take j)).map (scale e)) =
      namedEntries e c time (ts.take j) := by
  induction is generalizing ts base n j time c with
  | nil =>
    obtain rfl : ts=[] := by simpa [Tiles] using htiles
    simp [cutRanges,frameEntries,namedEntries]
  | cons i is ih =>
    obtain ⟨run,rest,rfl,hne,hrun,hrest,hnums⟩ := htiles.cons hbelow.2
    have hpos := length_pos_iff.mpr hne
    have hchain : run.IsChain fun t t' => t'.pktNum+1 = t.pktNum := by
      have := i.elements_reverse_chain
      rwa [← hnums,isChain_map] at this
    have hhead : (run.head?.map TimestampDelta.pktNum) = some i.stop := by
      rw [← head?_map,hnums,i.elements_reverse_head?]
    have hlast : ∀ t ∈ run.getLast?,t.pktNum = i.start := by
      have hmap : (run.getLast?.map TimestampDelta.pktNum) = some i.start := by
        rw [← getLast?_map,hnums,i.elements_reverse_getLast?]
      intro t ht
      simpa [Option.mem_def.mp ht] using hmap
    have hcgap : c = subU64 n (base-i.stop) := by
      cases hr : run with
      | nil => exact absurd hr hne
      | cons t run' =>
        have ht : t.pktNum=i.stop := by simpa [hr] using hhead
        rw [hc t (by simp [hr]),ht]
    rcases Nat.eq_zero_or_pos j with rfl | hj0
    · simp [cutRanges_nil,frameEntries,namedEntries]
    rcases le_or_gt j run.length with hin | hout
    · -- the packet was full within the run
      have hlast' : ∀ t ∈ (run.take j).getLast?,
          t.pktNum = (run.take j).getLast?.elim 0 TimestampDelta.pktNum := by
        intro t ht
        simp [Option.mem_def.mp ht]
      have hnamed := namedEntries_run (e := e) (c := c) (d := 0) time []
        (by rw [← length_pos_iff,length_take]; omega) (hchain.take j) hlast' (by simp)
      rw [append_nil] at hnamed
      rw [take_append_of_le_length hin,cutRanges_part hrun hj0 hin,hnamed,hcgap,map_cons,map_nil,scale_mk]
      rfl
    · obtain ⟨k,rfl⟩ := Nat.exists_eq_add_of_le hout.le
      set c' := rest.head?.elim 0 fun t => nextNumber (c-(run.length-1)) i.start t.pktNum with hc'
      have hnext : ∀ t ∈ rest.head?,c' = nextNumber (c-(run.length-1)) i.start t.pktNum := by
        intro t ht
        rw [hc',Option.mem_def.mp ht]
        rfl
      have hnamed := namedEntries_run (e := e) (c := c) time (rest.take k) hne hchain hlast
        (d := c') (by
          intro t ht
          refine hnext t ?_
          cases rest <;> cases k <;> simp_all)
      have hbelow' : BlocksBelow (i.start-2+2) is := hbelow.2.mono (by omega)
      have hrec := ih hrest hbelow' (subU64 n (base-i.stop)-run.length-1) k
        (time-(microDeltas e run).sum) (c := c') (by
          intro t ht
          have hlt : t.pktNum+2 ≤ i.start := by
            refine hbelow.2.lt ?_
            rw [← hrest]
            exact mem_map_of_mem (mem_of_mem_head? ht)
          rw [hnext t ht,nextNumber,if_neg (by omega),← hcgap]
          congr 1 <;> omega)
      rw [take_length_add_append,cutRanges_run (hrun.take k) hne,hnamed,map_cons,scale_mk,
        frameEntries,length_microDeltas,hrec,← hcgap]

lemma cutRanges_deltas (base : ℕ) (is : List Interval) (ts : List TimestampDelta) :
    ((cutRanges base is ts).map fun r => r.deltas.length).sum ≤ ts.length ∧
      ∀ r ∈ cutRanges base is ts,r.timestampDeltaCount = r.deltas.length ∧
        ∀ δ ∈ r.deltas,∃ t ∈ ts,t.delta=δ := by
  induction is generalizing base ts with
  | nil => simp [cutRanges]
  | cons i is ih =>
    rw [cutRanges]
    set run := ts.takeWhile fun t => decide (i.start≤t.pktNum ∧ t.pktNum ≤ i.stop)
    have hsub : run.Sublist ts := takeWhile_sublist _
    obtain ⟨hsum,hmem⟩ := ih (i.start-2) (ts.drop run.length)
    rw [length_drop] at hsum
    have hle := hsub.length_le
    split
    · simp
    · refine ⟨?_,fun r hr => ?_⟩
      · rw [map_cons,sum_cons,length_map]
        omega
      · rcases mem_cons.mp hr with rfl | hr
        · refine ⟨by simp,fun δ hδ => ?_⟩
          obtain ⟨t,ht,rfl⟩ := mem_map.mp hδ
          exact ⟨t,hsub.subset ht,rfl⟩
        · obtain ⟨hcount,hδ⟩ := hmem r hr
          refine ⟨hcount,fun δ hδr => ?_⟩
          obtain ⟨t,ht,htδ⟩ := hδ δ hδr
          exact ⟨t,mem_of_mem_drop ht,htδ⟩

lemma cutRanges_firstDelta (base e : ℕ) {c : ℕ} {is : List Interval} {ts : List TimestampDelta}
    (htiles : Tiles is ts) (hbelow : BlocksBelow c is) (j : ℕ) :
    (((cutRanges base is (ts.take j)).map (scale e)).head?.bind
      fun r => r.deltas.head?) = (ts.take j).head?.map fun t => t.delta*2^e := by
  cases is with
  | nil =>
    obtain rfl : ts=[] := by simpa [Tiles] using htiles
    simp [cutRanges]
  | cons i is =>
    obtain ⟨run,rest,rfl,hne,hrun,-,-⟩ := htiles.cons hbelow.2
    rcases Nat.eq_zero_or_pos j with rfl | hj0
    · simp [cutRanges_nil]
    rcases le_or_gt j run.length with hin | hout
    · rw [take_append_of_le_length hin,cutRanges_part hrun hj0 hin,map_cons,scale_mk]
      simp only [head?_cons,Option.bind_some,microDeltas,head?_map]
    · obtain ⟨k,rfl⟩ := Nat.exists_eq_add_of_le hout.le
      rw [take_length_add_append,cutRanges_run (hrun.take k) hne,map_cons,scale_mk]
      cases run with
      | nil => exact absurd rfl hne
      | cons t run => simp [microDeltas]

theorem parseAckReceiveTimestamps_newest {connTime : ℤ} {largestAcked e j latest : ℕ}
    {newest : ReceivedPacket} {infos older : List ReceivedPacket}
    (hinfos : infos.reverse = newest::older) (h : StoredInOrder connTime largestAcked infos)
    {config : AckReceiveTimestampsConfig} (hlimit : infos.length ≤ config.maxReceiveTimestampsPerAck)
    {frame : ReadAckFrame} (htype : frame.frameType = .ackReceiveTimestamps)
    (hlatest : frame.maybeLatestRecvdPacketNum = some latest)
    (hranges : frame.recvdPacketsTimestampRanges =
      (newestRanges connTime e largestAcked infos j).map (scale e)) :
    parseAckReceiveTimestamps (some config) frame [] (some 0) =
      .ok (assignAll [] ((namedEntries e (subU64 latest (largestAcked-newest.pktNum))
        (2*(u64 (deltaDuration connTime none newest >>> e)*2^e))
        (timestampDeltas connTime e none infos.reverse)).take j)) := by
  have htiles := h.tiles e
  have hbelow := blocksBelow_selectedPktNums (m := infos.length) h.acked
  have hfirst := cutRanges_firstDelta largestAcked e htiles hbelow j
  simp only [parseAckReceiveTimestamps,htype,hlatest,hranges,newestRanges,ne_eq,not_true_eq_false,
    if_false,hfirst]
  rcases Nat.eq_zero_or_pos j with rfl | hj0
  · simp [assignAll]
  · obtain ⟨j,rfl⟩ := Nat.exists_eq_add_of_lt hj0
    have hhead : ((timestampDeltas connTime e none infos.reverse).take (0+j+1)).head? =
        some ⟨newest.pktNum,u64 (deltaDuration connTime none newest >>> e)⟩ := by
      rw [hinfos]
      simp [timestampDeltas]
    have htime : 2*(u64 (deltaDuration connTime none newest >>> e)*2^e) % 2^64 =
        u64 (2*((u64 (deltaDuration connTime none newest >>> e) : ℤ)*2^e)) := by
      norm_cast
    have hroom : ((cutRanges largestAcked (selectedPktNums infos.length infos).intervals.reverse
        ((timestampDeltas connTime e none infos.reverse).take (0+j+1))).map
          (scale e) |>.map fun r => r.deltas.length).sum ≤ config.maxReceiveTimestampsPerAck := by
      have hsum := (cutRanges_deltas largestAcked (selectedPktNums infos.length infos).intervals.reverse
        ((timestampDeltas connTime e none infos.reverse).take (0+j+1))).1
      simp only [map_map,length_take,length_timestampDeltas,length_reverse] at hsum ⊢
      refine le_trans (le_of_eq ?_) ((hsum.trans (min_le_right _ _)).trans hlimit)
      simp [Function.comp_def,scale]
    simp only [hhead,Option.map_some,Nat.not_lt_zero,if_false,htime]
    rw [each_parseTimestampRange (by simpa using hroom),frameEntries_cutRanges htiles hbelow e latest
      (0+j+1) _ (c := subU64 latest (largestAcked-newest.pktNum)) (by
        rw [hinfos]
        simp [timestampDeltas]),namedEntries_take]

end QuicWestwood
