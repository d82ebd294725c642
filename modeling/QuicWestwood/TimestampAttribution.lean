import QuicWestwood.AckReceiveTimestamps

/-! The writer counts packet numbers down from the largest acked packet, the parser from the latest received
one, and every time difference is rounded down on its own. The condition below says exactly when the entries
nevertheless name the right packets and times. -/
namespace QuicWestwood
open ByteCodec AckState List

def relativeMicros (connTime t : ℤ) : ℤ := (t-connTime).tdiv 1000

/-- The entry names a packet that arrived and gives its receive time up to `2 ^ e` µs. -/
def EntryRight (arrivals : List Arrival) (connTime : ℤ) (e : ℕ) (entry : ℕ × ℕ) : Prop :=
  ∃ a,firstArrival arrivals entry.1 = some a ∧
    |(entry.2 : ℤ)-relativeMicros connTime a.receiveTimePoint| < 2^e

section Condition
variable (arrivals : List Arrival) (connTime : ℤ) (e shift : ℕ)

/-- A stored packet with an encoded time `lead` ns ahead of its own: the packet `shift`
numbers below it arrived, less than `2 ^ e` µs away from the encoded time. -/
def AttributedWithin (lead : ℤ) (p : ReceivedPacket) : Prop :=
  0 ≤ p.receiveTimePoint-connTime+lead ∧ ∃ a,firstArrival arrivals (p.pktNum-shift) = some a ∧
      |p.receiveTimePoint-connTime+lead-1000*relativeMicros connTime a.receiveTimePoint| <
        1000*2^e

/-- From the newest stored packet on: the rounding of each difference adds to the lead, and
a distance between neighbours must not take the parser's count below zero. -/
def Attributable : ℤ → List ReceivedPacket → Prop
  | _, [] => True
  | lead, [p] => AttributedWithin arrivals connTime e shift lead p
  | lead, p::q::older =>
    AttributedWithin arrivals connTime e shift lead p ∧ p.pktNum-q.pktNum ≤ max (p.pktNum-shift) 2 ∧
      Attributable (lead+(p.receiveTimePoint-q.receiveTimePoint) % (1000*2^e)) (q::older)

end Condition

/-- What rounding does to the time of the newest packet, which counts as 0 before `connTime`. -/
def newestLead (connTime : ℤ) (e : ℕ) (p : ReceivedPacket) : ℤ :=
  let r := p.receiveTimePoint-connTime
  max r 0-r-max r 0 % (1000*2^e)

lemma relativeMicros_bounds {connTime t : ℤ} (hstart : IsTimePoint connTime) (ht : IsTimePoint t) :
    -2^62 < relativeMicros connTime t ∧ relativeMicros connTime t < 2^62 := by
  have hdiv := Int.mul_tdiv_add_tmod (t-connTime) 1000
  have hupper := Int.tmod_lt_of_pos (t-connTime) (by norm_num : (0 : ℤ) < 1000)
  have hlower := Int.lt_tmod_of_pos (t-connTime) (by norm_num : (0 : ℤ) < 1000)
  unfold IsTimePoint at *
  unfold relativeMicros
  omega

section Entries
variable {arrivals : List Arrival} {connTime : ℤ} {e shift : ℕ}

variable (shift) in
lemma entryRight_iff (hstart : IsTimePoint connTime)
    (htimes : ∀ a ∈ arrivals,IsTimePoint a.receiveTimePoint) (he : e<64) {p : ReceivedPacket}
    {lead time : ℤ} (htime : 1000*time = p.receiveTimePoint-connTime+lead)
    (hlow : -2^62 ≤ time) (hhigh : time ≤ 2^62) :
    EntryRight arrivals connTime e (p.pktNum-shift,u64 time) ↔
      AttributedWithin arrivals connTime e shift lead p := by
  have hpow : (2 : ℤ)^e ≤ 2^63 := pow_le_pow_right₀ (by norm_num) (by omega)
  have hscale : ∀ r : ℤ,|time-r| < 2^e ↔ |1000*time-1000*r| < 1000*2^e := by
    intro r
    rw [← mul_sub,abs_mul,abs_of_pos (by norm_num : (0 : ℤ) < 1000)]
    omega
  have hmem : ∀ {n a}, firstArrival arrivals n = some a → IsTimePoint a.receiveTimePoint :=
    fun h => htimes _ (mem_of_find?_eq_some h)
  unfold EntryRight AttributedWithin
  rw [← htime]
  constructor
  · rintro ⟨a,ha,hclose⟩
    obtain ⟨hr₁,hr₂⟩ := relativeMicros_bounds hstart (hmem ha)
    rcases lt_or_ge time 0 with hneg | hnonneg
    · -- a negative time wraps around and is far from every receive time
      have hwrap : (u64 time : ℤ) = time+2^64 := by
        unfold u64
        omega
      simp only [hwrap,abs_lt] at hclose
      omega
    · rw [u64_of_nonneg hnonneg (by omega)] at hclose
      exact ⟨by omega,a,ha,(hscale _).mp hclose⟩
  · rintro ⟨hnonneg,a,ha,hclose⟩
    refine ⟨a,ha,?_⟩
    rw [u64_of_nonneg (by omega) (by omega)]
    exact (hscale _).mpr hclose

variable (shift) in
lemma nextNumber_shift {n n' : ℕ} (hlt : n'<n) (hn : n≤kEightByteLimit) :
    (n-n' ≤ max (n-shift) 2 → nextNumber (n-shift) n n' = n'-shift) ∧
      (max (n-shift) 2 < n-n' → kEightByteLimit < nextNumber (n-shift) n n') := by
  unfold kEightByteLimit at *
  unfold nextNumber
  refine ⟨fun hle => ?_,fun hgt => ?_⟩
  · split
    · omega
    · rw [subU64_of_le (by omega) (by omega)]
      omega
  · rw [if_neg (by omega),subU64_of_lt (by omega) (by omega)]
    omega

lemma microDelta_eq {d : ℤ} (e : ℕ) (h0 : 0≤d) (hd : d.tdiv 1000 < 2^62) :
    1000*((u64 (d.tdiv 1000 >>> e) : ℤ)*2^e) = d-d % (1000*2^e) := by
  have hquot : d.tdiv 1000 = d/1000 := Int.tdiv_eq_ediv_of_nonneg h0
  rw [(u64_shiftRight e (by omega) hd).1,hquot,Int.ediv_ediv_of_nonneg (by norm_num)]
  have := Int.mul_ediv_add_emod d (1000*2^e)
  linarith

lemma exists_mem_namedEntries (connTime : ℤ) (e c : ℕ) (time : ℤ) (newer : Option ReceivedPacket)
    (p : ReceivedPacket) (older : List ReceivedPacket) :
    ∃ t,(c,t) ∈ namedEntries e c time (timestampDeltas connTime e newer (p::older)) := by
  cases older <;> exact ⟨_,mem_cons_self⟩

theorem namedEntries_right_iff (hstart : IsTimePoint connTime)
    (hnums : ∀ a ∈ arrivals,a.packetNum ≤ kEightByteLimit)
    (htimes : ∀ a ∈ arrivals,IsTimePoint a.receiveTimePoint) (he : e<64)
    {newer : Option ReceivedPacket} {p : ReceivedPacket} {older : List ReceivedPacket}
    (hdecreasing : (p::older).Pairwise fun p q => q.pktNum < p.pktNum)
    (hordered : (p::older).Pairwise fun p q => q.receiveTimePoint ≤ p.receiveTimePoint)
    (hpoints : ∀ q ∈ p::older,IsTimePoint q.receiveTimePoint) (hp : p.pktNum≤kEightByteLimit)
    {lead time : ℤ} (hlead : -2^64 ≤ lead)
    (htime : 1000*(time-u64 (deltaDuration connTime newer p >>> e)*2^e) = p.receiveTimePoint-connTime+lead)
    (hhigh : time-u64 (deltaDuration connTime newer p >>> e)*2^e ≤ 2^62) :
    (∀ entry ∈ namedEntries e (p.pktNum-shift) time (timestampDeltas connTime e newer (p::older)),
      EntryRight arrivals connTime e entry) ↔ Attributable arrivals connTime e shift lead (p::older) := by
  induction older generalizing p newer lead time with
  | nil =>
    have hpt := hpoints p (by simp)
    unfold IsTimePoint at hpt hstart
    simp only [timestampDeltas,namedEntries,mem_singleton,forall_eq,Attributable]
    exact entryRight_iff shift hstart htimes he htime (by omega) hhigh
  | cons q older ih =>
    have hpt := hpoints p (by simp)
    have hqt := hpoints q (by simp)
    have hqp := (pairwise_cons.mp hdecreasing).1 q (by simp)
    have hqle := (pairwise_cons.mp hordered).1 q (by simp)
    have hfirst := entryRight_iff shift hstart htimes he htime
      (by unfold IsTimePoint at hpt hstart; omega) hhigh
    rw [show namedEntries _ _ _ (timestampDeltas _ _ _ (p::q::older)) = _::namedEntries _ _ _
      (timestampDeltas _ _ _ (q::older)) from rfl,forall_mem_cons,hfirst,Attributable]
    dsimp only
    refine and_congr_right fun _ => ?_
    obtain ⟨hshift,hwrap⟩ := nextNumber_shift shift hqp hp
    rcases le_or_gt (p.pktNum-q.pktNum) (max (p.pktNum-shift) 2) with hle | hgt
    · have hδ : 1000*((u64 (deltaDuration connTime (some p) q >>> e) : ℤ)*2^e) =
          p.receiveTimePoint-q.receiveTimePoint -
            (p.receiveTimePoint-q.receiveTimePoint) % (1000*2^e) :=
        microDelta_eq e (by omega) (deltaDuration_bounds (some p) hstart hqt (by simpa using ⟨hpt,hqle⟩)).2
      have hmod : 0 ≤ (p.receiveTimePoint-q.receiveTimePoint) % (1000*2^e) :=
        Int.emod_nonneg _ (by positivity)
      have hpos : 0 ≤ (u64 (deltaDuration connTime (some p) q >>> e) : ℤ)*2^e := by positivity
      have hlead' : -2^64 ≤ lead+(p.receiveTimePoint-q.receiveTimePoint) % (1000*2^e) := by omega
      rw [hshift hle,ih (pairwise_cons.mp hdecreasing).2 (pairwise_cons.mp hordered).2
        (fun r hr => hpoints r (by simp [hr])) (by omega) hlead' (by linarith) (by omega)]
      exact (and_iff_right hle).symm
    · -- the count has wrapped around: the next entry names no packet
      refine iff_of_false (fun hall => ?_) fun h => absurd h.1 (by omega)
      obtain ⟨t,ht⟩ := exists_mem_namedEntries connTime e (nextNumber (p.pktNum-shift) p.pktNum q.pktNum)
        (time-u64 (deltaDuration connTime newer p >>> e)*2^e) (some p) q older
      obtain ⟨a,ha,-⟩ := hall _ ht
      have hnum := hnums a (mem_of_find?_eq_some ha)
      have hfound : a.packetNum = nextNumber (p.pktNum-shift) p.pktNum q.pktNum := by
        simpa using find?_some ha
      have := hwrap hgt
      omega

end Entries

/-- No frame can be written while a stored packet lies above the largest acked one: the
first gap would be negative. -/
lemma fillPacketReceiveTimestamps_above {metaData : WriteAckFrameMetaData} {newest : ReceivedPacket}
    {older : List ReceivedPacket} (hinfos : metaData.ackState.recvdPacketInfos.reverse = newest::older)
    (hincreasing : metaData.ackState.recvdPacketInfos.Pairwise fun p q => p.pktNum < q.pktNum)
    {largestAcked space e m : ℕ} (hm : metaData.ackState.recvdPacketInfos.length ≤ m)
    (habove : largestAcked<newest.pktNum) (hnewest : newest.pktNum≤kEightByteLimit)
    (ranges : List RecvdPacketsTimestampsRange) :
    fillPacketReceiveTimestamps metaData largestAcked space e m≠.ok ranges := by
  have hflat := flatMap_selectedPktNums (m := m) hincreasing
  rw [take_of_length_le hm,← map_reverse,hinfos,map_cons] at hflat
  intro h
  unfold fillPacketReceiveTimestamps at h
  cases his : (selectedPktNums m metaData.ackState.recvdPacketInfos).intervals.reverse with
  | nil => simp [his] at hflat
  | cons i is =>
    have hstop : i.stop=newest.pktNum := by
      have hhead := congrArg head? hflat
      rw [his,flatMap_cons,head?_append,i.elements_reverse_head?] at hhead
      simpa using hhead
    have hgap : kEightByteLimit < subU64 largestAcked i.stop := by
      unfold kEightByteLimit at *
      rw [subU64_of_lt (by omega) (by omega)]
      omega
    simp only [his,fillTimestampRanges,if_true,bind_eq_ok,getQuicIntegerSizeThrows_eq_ok] at h
    obtain ⟨_,⟨hle,-⟩,-⟩ := h
    omega

/-- Arrivals as a clock and a peer produce them. -/
structure ClockedArrivals (arrivals : List Arrival) : Prop where
  ordered : arrivals.Pairwise fun a b => a.receiveTimePoint ≤ b.receiveTimePoint
  nums : ∀ a ∈ arrivals,a.packetNum ≤ kEightByteLimit
  times : ∀ a ∈ arrivals,IsTimePoint a.receiveTimePoint

section Stored
variable {arrivals : List Arrival} {connTime : ℤ} {s : AckState} {newest : ReceivedPacket}

lemma getLast?_of_reverse {infos older : List ReceivedPacket} (h : infos.reverse = newest::older) :
    infos.getLast? = some newest := by
  rw [getLast?_eq_head?_reverse,h]
  rfl

lemma le_newest (hrem : s.Remembers arrivals) (hnewest : s.recvdPacketInfos.getLast? = some newest) :
    ∀ a ∈ arrivals,a.packetNum ≤ newest.pktNum := by
  intro a ha
  have hbelow := hrem.below a ha
  have hlargest := hrem.newest
  rw [hnewest,Option.map_some] at hlargest
  simp only [expectedNextPacket,← hlargest] at hbelow
  omega

lemma storedInOrder (hrem : s.Remembers arrivals) (h : ClockedArrivals arrivals) (hstart : IsTimePoint connTime)
    (hnewest : s.recvdPacketInfos.getLast? = some newest) :
    StoredInOrder connTime newest.pktNum s.recvdPacketInfos := by
  have harrived : ∀ p ∈ s.recvdPacketInfos,∃ a ∈ arrivals,a.info=p :=
    fun p hp => mem_map.mp (hrem.sublist.subset hp)
  refine ⟨hrem.increasing,?_,fun p hp => ?_,fun p hp => ?_,hstart⟩
  · refine List.Pairwise.sublist hrem.sublist (pairwise_map.mpr h.ordered)
  · obtain ⟨a,ha,rfl⟩ := harrived p hp
    exact le_newest hrem hnewest a ha
  · obtain ⟨a,ha,rfl⟩ := harrived p hp
    exact h.times a ha

end Stored

/-- `map` is what the peer gets when a frame with the timestamps of `s` is written in some
space, decoded with the same exponent and parsed, and no limit is exceeded. -/
def Transmits (s : AckState) (connTime : ℤ) (e : ℕ) (map : List (ℕ × ℕ)) : Prop :=
  ∃ (space : UInt32) (ackDelay : ℤ) (ackDelayExponent m : ℕ) (config peer : AckReceiveTimestampsConfig)
    (header : HeaderForm) (params : CodecParameters) (result : WriteAckFrameResult) (b : PacketBuilder)
    (frame : ReadAckFrame) (rest : Bytes),
    config.receiveTimestampsExponent = e ∧ peer.receiveTimestampsExponent=e ∧
    s.recvdPacketInfos.length ≤ m ∧ m≤kEightByteLimit ∧
    s.recvdPacketInfos.length ≤ peer.maxReceiveTimestampsPerAck ∧
    params.maybeAckReceiveTimestampsConfig = some peer ∧
    (writeAckFrameWithReceivedTimestamps ⟨s,ackDelay,ackDelayExponent,connTime⟩ config m).run
      {remainingBytes := space} = .ok (some result,b) ∧
    (parseFrame header params).run b.body = .ok (some frame,rest) ∧
    parseAckReceiveTimestamps (some peer) frame [] (some 0) = .ok map

def stateWithAcks (maxStored : ℕ) (arrivals : List Arrival) (acks : IntervalSet 1) : AckState :=
  {receive maxStored {} arrivals with acks := acks}

/-- When the timestamps are attributed to the right packets. A frame is only written if the
largest acked packet is the largest received one. -/
def AttributionCondition (arrivals : List Arrival) (maxStored : ℕ) (acks : IntervalSet 1)
    (connTime : ℤ) (e : ℕ) : Prop :=
  ∀ largestAcked last newest,acks.intervals.getLast?.map Interval.stop = some largestAcked →
    (receive maxStored {} arrivals).largestRecvdPacketNum = some largestAcked →
    (receive maxStored {} arrivals).lastRecvdPacketInfo = some last →
    (receive maxStored {} arrivals).recvdPacketInfos.getLast? = some newest →
    Attributable arrivals connTime e (largestAcked-last.pktNum) (newestLead connTime e newest)
      (receive maxStored {} arrivals).recvdPacketInfos.reverse

lemma sinceConnection_eq (connTime t : ℤ) :
    sinceConnection connTime t = (max (t-connTime) 0).tdiv 1000 := by
  unfold sinceConnection
  split
  · rw [max_eq_left (by omega)]
  · rw [max_eq_right (by omega)]
    rfl

section Attribution
variable {arrivals : List Arrival} {connTime : ℤ} {maxStored e : ℕ} {acks : IntervalSet 1}
  {newest last : ReceivedPacket} {older : List ReceivedPacket} {s : AckState}

lemma storedEntries_right_iff (hrem : s.Remembers arrivals) (h : ClockedArrivals arrivals)
    (hstart : IsTimePoint connTime) (he : e<64) (hinfos : s.recvdPacketInfos.reverse = newest::older)
    (hlast : last.pktNum≤newest.pktNum) (hnewest : newest.pktNum≤kEightByteLimit) :
    (∀ entry ∈ namedEntries e (subU64 last.pktNum (newest.pktNum-newest.pktNum))
        (2*(u64 (deltaDuration connTime none newest >>> e)*2^e))
        (timestampDeltas connTime e none s.recvdPacketInfos.reverse),EntryRight arrivals connTime e entry) ↔
      Attributable arrivals connTime e (newest.pktNum-last.pktNum) (newestLead connTime e newest)
        s.recvdPacketInfos.reverse := by
  have hstored := storedInOrder hrem h hstart (getLast?_of_reverse hinfos)
  have hlatest : subU64 last.pktNum (newest.pktNum-newest.pktNum) =
      newest.pktNum-(newest.pktNum-last.pktNum) := by
    unfold kEightByteLimit at hnewest
    rw [subU64_of_le (by omega) (by omega)]
    omega
  have hpoint := hstored.times newest (mem_of_getLast? (getLast?_of_reverse hinfos))
  have hbounds := deltaDuration_bounds none hstart hpoint (by simp)
  set r := max (newest.receiveTimePoint-connTime) 0 with hr
  have hδ : 1000*((u64 (deltaDuration connTime none newest >>> e) : ℤ)*2^e) = r-r % (1000*2^e) := by
    simp only [deltaDuration,sinceConnection_eq] at hbounds ⊢
    exact microDelta_eq e (le_max_right _ _) hbounds.2
  have hmod := Int.emod_nonneg r (by positivity : (1000*2^e : ℤ)≠0)
  have hmod' : r % (1000*2^e) ≤ r := by
    have hquot := Int.mul_ediv_add_emod r (1000*2^e)
    have hnonneg : 0 ≤ 1000*2^e*(r/(1000*2^e)) :=
      mul_nonneg (by positivity) (Int.ediv_nonneg (le_max_right _ _) (by positivity))
    omega
  rw [hlatest,hinfos]
  have hdecreasing : (newest::older).Pairwise fun p q => q.pktNum < p.pktNum := by
    rw [← hinfos,pairwise_reverse]
    exact hstored.increasing
  have hdescending : (newest::older).Pairwise fun p q => q.receiveTimePoint ≤ p.receiveTimePoint := by
    rw [← hinfos,pairwise_reverse]
    exact hstored.ordered
  have hpoints : ∀ q ∈ newest::older,IsTimePoint q.receiveTimePoint := fun q hq =>
    hstored.times q (mem_reverse.mp (by rw [hinfos]; exact hq))
  unfold IsTimePoint at hstart hpoint
  refine namedEntries_right_iff hstart h.nums h.times he hdecreasing hdescending hpoints hnewest ?_ ?_ ?_
  · simp only [newestLead,← hr]
    omega
  · simp only [newestLead,← hr]
    linarith
  · omega

lemma exponentToUse_eq {params : CodecParameters} {peer : AckReceiveTimestampsConfig} (he : e<64)
    (hpeer : peer.receiveTimestampsExponent=e)
    (hparams : params.maybeAckReceiveTimestampsConfig = some peer) :
    (receiveTimestampsExponentToUse params).toNat = e := by
  simp only [receiveTimestampsExponentToUse,hparams,hpeer,UInt8.toNat_ofNat']
  omega

lemma scalable_newestRanges {largestAcked j : ℕ} {infos : List ReceivedPacket}
    (h : StoredInOrder connTime largestAcked infos) :
    Scalable e (newestRanges connTime e largestAcked infos j) := by
  intro r hr
  obtain ⟨hcount,hmem⟩ := (cutRanges_deltas _ _ _).2 r hr
  refine ⟨hcount,fun δ hδ => ?_⟩
  obtain ⟨t,ht,rfl⟩ := hmem δ hδ
  exact h.small e t (mem_of_mem_take ht)

lemma parse_written {metaData : WriteAckFrameMetaData} {largest : Interval} {blocks : List Interval}
    {j delay : ℕ} {header : HeaderForm} {params : CodecParameters} {peer : AckReceiveTimestampsConfig}
    (hinfos : metaData.ackState.recvdPacketInfos.reverse = newest::older)
    (hstored : StoredInOrder metaData.connTime largest.stop metaData.ackState.recvdPacketInfos)
    (hlast : metaData.ackState.lastRecvdPacketInfo = some last)
    (henc : Encodable (timestampFrameFields metaData largest blocks
      (newestRanges metaData.connTime e largest.stop metaData.ackState.recvdPacketInfos j)))
    (hblocks : BlocksBelow largest.start blocks) (he : e<64)
    (hpeer : peer.receiveTimestampsExponent=e)
    (hparams : params.maybeAckReceiveTimestampsConfig = some peer)
    (hlimit : metaData.ackState.recvdPacketInfos.length≤peer.maxReceiveTimestampsPerAck)
    (hdelay : decodedAckDelay header params .ackReceiveTimestamps (encodedAckDelay metaData) = .ok delay) :
    ∃ frame,(parseFrame header params).run (quicIntegers (timestampFrameFields metaData largest blocks
        (newestRanges metaData.connTime e largest.stop metaData.ackState.recvdPacketInfos j))) =
        .ok (some frame,[]) ∧ parseAckReceiveTimestamps (some peer) frame [] (some 0) =
        .ok (assignAll [] ((namedEntries e (subU64 last.pktNum (largest.stop-newest.pktNum))
          (2*(u64 (deltaDuration metaData.connTime none newest >>> e)*2^e))
          (timestampDeltas metaData.connTime e none metaData.ackState.recvdPacketInfos.reverse)).take j)) := by
  have hexp := exponentToUse_eq he hpeer hparams
  have hread := reads_timestampFrame henc hblocks hdelay (by rw [hexp]; exact he)
    (by rw [hexp]; exact scalable_newestRanges hstored) []
  rw [append_nil] at hread
  refine ⟨_,hread,?_⟩
  refine parseAckReceiveTimestamps_newest hinfos hstored hlimit rfl ?_ (by rw [hexp])
  simp [latestRecvdPacket,hlast]

lemma infos_ne_nil (hrem : s.Remembers arrivals) (h : s.lastRecvdPacketInfo.isSome) : s.recvdPacketInfos≠[] := by
  intro hnil
  have hlargest := hrem.newest
  rw [hnil] at hlargest
  cases arrivals with
  | nil => rw [hrem.last] at h; simp at h
  | cons a arrivals =>
    have hbelow := hrem.below a (by simp)
    simp [expectedNextPacket,← hlargest] at hbelow

lemma exists_arrival_of_last (hrem : s.Remembers arrivals) (h : s.lastRecvdPacketInfo = some last) :
    ∃ a ∈ arrivals,a.info=last := by
  rw [hrem.last] at h
  obtain ⟨a,ha,rfl⟩ := Option.map_eq_some_iff.mp h
  exact ⟨a,mem_of_getLast? ha,rfl⟩

lemma largestAcked_eq_newest {largest : Interval} {others : List Interval} (hrem : s.Remembers arrivals)
    (hacks : ∀ n ∈ acks,n ∈ s.acks) (hreverse : acks.intervals.reverse = largest::others)
    (hinfos : s.recvdPacketInfos.reverse = newest::older) (hle : newest.pktNum≤largest.stop) :
    largest.stop=newest.pktNum := by
  have hmem : largest.stop ∈ acks :=
    ⟨largest,mem_reverse.mp (by rw [hreverse]; simp),largest.valid,le_rfl⟩
  obtain ⟨a,ha,han⟩ := (hrem.acks _).mp (hacks _ hmem)
  have := le_newest hrem (getLast?_of_reverse hinfos) a ha
  omega

lemma newest_le (hrem : s.Remembers arrivals) (h : ClockedArrivals arrivals)
    (hinfos : s.recvdPacketInfos.reverse = newest::older) : newest.pktNum ≤ kEightByteLimit := by
  have hmem := mem_of_getLast? (getLast?_of_reverse hinfos)
  obtain ⟨a,ha,rfl⟩ := mem_map.mp (hrem.sublist.subset hmem)
  exact h.nums a ha

lemma written_newest (hrem : s.Remembers arrivals) (h : ClockedArrivals arrivals) (hstart : IsTimePoint connTime)
    (hacks : ∀ n ∈ acks,n ∈ s.acks) {ackDelay : ℤ} {ackDelayExponent m : ℕ}
    {config : AckReceiveTimestampsConfig} {result : WriteAckFrameResult} {b b' : PacketBuilder}
    (hm : s.recvdPacketInfos.length ≤ m) (hm' : m≤kEightByteLimit)
    (hwrite : (writeAckFrameWithReceivedTimestamps ⟨{s with acks := acks},ackDelay,ackDelayExponent,connTime⟩
      config m).run b = .ok (some result,b')) :
    ∃ largest blocks newest older j last,acks.intervals.getLast? = some largest ∧
      BlocksBelow largest.start blocks ∧ s.recvdPacketInfos.reverse = newest::older ∧
      largest.stop = newest.pktNum ∧ s.lastRecvdPacketInfo = some last ∧
      StoredInOrder connTime largest.stop s.recvdPacketInfos ∧
      let fields := timestampFrameFields ⟨{s with acks := acks},ackDelay,ackDelayExponent,connTime⟩ largest blocks
        (newestRanges connTime config.receiveTimestampsExponent largest.stop s.recvdPacketInfos j)
      Encodable fields ∧ b' = b.append (quicIntegers fields) := by
  obtain ⟨largest,others,i,space,hreverse,hlastSome,hfill,-,henc,rfl⟩ :=
    writeAckFrameWithReceivedTimestamps_ok hwrite
  replace hreverse : acks.intervals.reverse = largest::others := hreverse
  obtain ⟨newest,older,hinfos⟩ := exists_cons_of_ne_nil
    (reverse_ne_nil_iff.mpr (infos_ne_nil hrem hlastSome))
  have hnewest := newest_le hrem h hinfos
  have hle : newest.pktNum≤largest.stop := by
    by_contra habove
    exact fillPacketReceiveTimestamps_above hinfos hrem.increasing hm (not_le.mp habove) hnewest _ hfill
  have hlargest := largestAcked_eq_newest hrem hacks hreverse hinfos hle
  have hstored := storedInOrder hrem h hstart (getLast?_of_reverse hinfos)
  rw [← hlargest] at hstored
  obtain ⟨j,-,hfill',-,-⟩ := @fillPacketReceiveTimestamps_newest _
    ⟨{s with acks := acks},ackDelay,ackDelayExponent,connTime⟩ _ config.receiveTimestampsExponent m hstored rfl
    (by omega) (hm.trans hm') hm space
  have hranges := Except.ok.inj (hfill.symm.trans hfill')
  rw [hranges] at henc ⊢
  obtain ⟨last,hlast⟩ := Option.isSome_iff_exists.mp hlastSome
  have hgetLast : acks.intervals.getLast? = some largest := by
    rw [getLast?_eq_head?_reverse,hreverse]
    rfl
  exact ⟨largest,others.take i,newest,older,j,last,hgetLast,
    (blocksBelow_of_reverse acks.sorted hreverse).take i,hinfos,hlargest,hlast,hstored,henc,rfl⟩

lemma entryRight_of_condition (h : ClockedArrivals arrivals) (hstart : IsTimePoint connTime) (he : e<64)
    (hacks : ∀ n ∈ acks,n ∈ (receive maxStored {} arrivals).acks)
    (hcondition : AttributionCondition arrivals maxStored acks connTime e) {map : List (ℕ × ℕ)}
    (htransmits : Transmits (stateWithAcks maxStored arrivals acks) connTime e map) :
    ∀ entry ∈ map,EntryRight arrivals connTime e entry := by
  have hrem := remembers_receive maxStored arrivals
  obtain ⟨space,ackDelay,ackDelayExponent,m,config,peer,header,params,result,b,frame,rest,
    hconfig,hpeer,hm,hm',hlimit,hparams,hwrite,hparse,hmap⟩ := htransmits
  obtain ⟨largest,blocks,newest,older,j,last,hgetLastAck,hblocks,hinfos,hlargest,hlast,hstored,henc,
    rfl⟩ := written_newest hrem h hstart hacks hm hm' hwrite
  rw [hconfig] at henc hparse
  have hgetLast := getLast?_of_reverse hinfos
  cases hdelay : decodedAckDelay header params .ackReceiveTimestamps
      (encodedAckDelay ⟨stateWithAcks maxStored arrivals acks,ackDelay,ackDelayExponent,connTime⟩) with
  | error err =>
    obtain ⟨err',hfails⟩ := fails_timestampFrame henc hdelay []
    rw [append_nil] at hfails
    cases hparse.symm.trans hfails
  | ok delay =>
    obtain ⟨frame',hframe,hmap'⟩ := parse_written hinfos hstored hlast henc hblocks he hpeer hparams
      hlimit hdelay
    obtain ⟨hsome,-⟩ := Prod.mk.inj (Except.ok.inj (hparse.symm.trans hframe))
    obtain rfl := Option.some.inj hsome
    obtain rfl := Except.ok.inj (hmap.symm.trans hmap')
    obtain ⟨a,ha,rfl⟩ := exists_arrival_of_last hrem hlast
    intro entry hentry
    rcases mem_assignAll hentry with hnone | hentry
    · cases hnone
    · have hattributable := hcondition largest.stop a.info newest
        (by rw [hgetLastAck]; rfl)
        (by rw [← hrem.newest,hgetLast,hlargest]; rfl) hlast hgetLast
      rw [hlargest] at hattributable
      have hentry' := mem_of_mem_take hentry
      simp only [hlargest] at hentry'
      exact (storedEntries_right_iff hrem h hstart he hinfos (le_newest hrem hgetLast a ha)
        (newest_le hrem h hinfos)).mpr hattributable entry hentry'

/-- Every stored packet is the last one of some frame, so its entry reaches the peer. -/
lemma condition_of_entryRight (h : ClockedArrivals arrivals) (hstart : IsTimePoint connTime) (he : e<64)
    (hfits : 8*(2*acks.intervals.length + 3*(receive maxStored {} arrivals).recvdPacketInfos.length+8) < 2^32)
    (hall : ∀ map,Transmits (stateWithAcks maxStored arrivals acks) connTime e map →
      ∀ entry ∈ map,EntryRight arrivals connTime e entry) :
    AttributionCondition arrivals maxStored acks connTime e := by
  intro largestAcked last newest hlargestAcked hlargest hlast hgetLast
  have hrem := remembers_receive maxStored arrivals
  obtain ⟨older,hinfos⟩ : ∃ older,
      (receive maxStored {} arrivals).recvdPacketInfos.reverse = newest::older := by
    rw [getLast?_eq_head?_reverse] at hgetLast
    exact ⟨_,(cons_head?_tail hgetLast).symm⟩
  obtain ⟨largest,hlargestLast,rfl⟩ := Option.map_eq_some_iff.mp hlargestAcked
  obtain ⟨others,hreverse⟩ : ∃ others,acks.intervals.reverse = largest::others := by
    rw [getLast?_eq_head?_reverse] at hlargestLast
    exact ⟨_,(cons_head?_tail hlargestLast).symm⟩
  have heq : newest.pktNum=largest.stop := by
    have := hrem.newest
    rw [hgetLast,hlargest] at this
    exact Option.some.inj this
  have hnewest := newest_le hrem h hinfos
  obtain ⟨a,ha,rfl⟩ := exists_arrival_of_last hrem hlast
  have hstored := storedInOrder hrem h hstart hgetLast
  let metaData : WriteAckFrameMetaData := ⟨stateWithAcks maxStored arrivals acks,0,0,connTime⟩
  have hready : ReadyToWrite metaData largest others :=
    {acks := hreverse
     largest_le := heq ▸ hnewest
     ackDelay_nonneg := le_rfl
     ackDelay_le := Int.natCast_nonneg _
     last := ⟨a.info,hlast,h.nums a ha,h.times a ha⟩
     stored := heq ▸ hstored}
  rw [← heq]
  refine (storedEntries_right_iff hrem h hstart he hinfos (le_newest hrem hgetLast a ha) hnewest).mp fun entry hentry => ?_
  obtain ⟨i,hi,rfl⟩ := mem_iff_getElem.mp hentry
  have hik : i < metaData.ackState.recvdPacketInfos.length := by
    rw [length_namedEntries,length_timestampDeltas,length_reverse] at hi
    exact hi
  have hothers : others.length+1 = acks.intervals.length := by
    have := congrArg length hreverse
    simpa using this.symm
  have hfew : metaData.ackState.recvdPacketInfos.length≤kEightByteLimit := by
    change (receive maxStored {} arrivals).recvdPacketInfos.length ≤ kEightByteLimit
    unfold kEightByteLimit
    omega
  have hfill := fillPacketReceiveTimestamps_exact (e := e) hready.stored rfl hready.largest_le hfew le_rfl
    (Nat.succ_pos i) hik
  set ranges := newestRanges metaData.connTime e largest.stop metaData.ackState.recvdPacketInfos
    (i+1)
  have hbefore := length_before_timestamps_le metaData largest others
  have hcost : rangesCost 0 0 ranges ≤ _ := rangesCost_newestRanges_le _ _ _ _ _
  set before := (quicIntegers (ackFields metaData .ackReceiveTimestamps largest others ++
    [(latestRecvdPacket metaData).1,u64 (latestRecvdPacket metaData).2])).length
  have hlt : before+rangesCost 0 0 ranges < 2^32 := by
    change rangesCost 0 0 ranges ≤ 8*(3*(receive maxStored {} arrivals).recvdPacketInfos.length+1)
      at hcost
    omega
  have henc := hready.encodable (by unfold kEightByteLimit; omega) hfew e (i+1)
  have hpos : 0 < rangesCost 0 0 ranges := by
    have hone := one_le_length_quicInteger (v := 0+ranges.length) (by
      rw [Nat.zero_add]
      exact henc ranges.length (by simp [timestampFrameFields,ranges]))
    unfold rangesCost
    omega
  obtain ⟨result,hwrite,-⟩ := writeAckFrameWithReceivedTimestamps_all
    (b := {remainingBytes := UInt32.ofNat (before+rangesCost 0 0 ranges)})
    {receiveTimestampsExponent := e} hready.acks (Option.isSome_of_eq_some hlast) hpos
    (UInt32.toNat_ofNat_of_lt' hlt) hfill henc
  let peer : AckReceiveTimestampsConfig :=
    {maxReceiveTimestampsPerAck := metaData.ackState.recvdPacketInfos.length
     receiveTimestampsExponent := e}
  have hpeer : peer.receiveTimestampsExponent=e := rfl
  have hdelay : decodedAckDelay .short {maybeAckReceiveTimestampsConfig := some peer}
      .ackReceiveTimestamps (encodedAckDelay metaData) = .ok 0 := by
    have hzero : encodedAckDelay metaData = 0 := by simp [encodedAckDelay,metaData,u64]
    simp [hzero,decodedAckDelay,convertEncodedDurationToMicroseconds]
  obtain ⟨frame,hframe,hmap⟩ := parse_written hinfos hready.stored hlast henc
    (blocksBelow_of_reverse acks.sorted hreverse) he hpeer rfl le_rfl hdelay
  refine hall _ ⟨_,_,_,_,_,peer,_,_,result,_,frame,_,rfl,rfl,le_rfl,hfew,le_rfl,rfl,hwrite,hframe,hmap⟩ _ ?_
  have hentries := take_succ_eq_append_getElem hi
  rw [← heq]
  erw [hentries]
  exact mem_assignAll_append _ _ _

/-- Receive timestamps are attributed to the packets they belong to exactly under the
condition; the converse is for states whose whole frame fits in one packet. -/
theorem timestamps_attributed_iff
    (hordered : arrivals.Pairwise fun a b => a.receiveTimePoint ≤ b.receiveTimePoint)
    (hnums : ∀ a ∈ arrivals,a.packetNum ≤ kEightByteLimit)
    (htimes : ∀ a ∈ arrivals,IsTimePoint a.receiveTimePoint) (hstart : IsTimePoint connTime)
    (he : e<64) (hacks : ∀ n ∈ acks,n ∈ (receive maxStored {} arrivals).acks) :
    (AttributionCondition arrivals maxStored acks connTime e →
      ∀ map,Transmits (stateWithAcks maxStored arrivals acks) connTime e map →
        ∀ entry ∈ map,EntryRight arrivals connTime e entry) ∧ (8*(2*acks.intervals.length +
        3*(receive maxStored {} arrivals).recvdPacketInfos.length+8) < 2^32 →
      (∀ map,Transmits (stateWithAcks maxStored arrivals acks) connTime e map →
        ∀ entry ∈ map,EntryRight arrivals connTime e entry) →
      AttributionCondition arrivals maxStored acks connTime e) :=
  ⟨fun hcondition _ => entryRight_of_condition ⟨hordered,hnums,htimes⟩ hstart he hacks hcondition,
    condition_of_entryRight ⟨hordered,hnums,htimes⟩ hstart he⟩

end Attribution

/-- Packets 5 and 7 arrive 10 ms apart, and packet 6, delayed on the way, 20 ms after that. -/
def lateSix : List Arrival := [⟨5,0,0⟩,⟨7,10000000,0⟩,⟨6,30000000,0⟩]

def lateSixFrame : ReadAckFrame where
  largestAcked := 7
  ackBlocks := [⟨5,7⟩]
  frameType := .ackReceiveTimestamps
  maybeLatestRecvdPacketTime := some 30000
  maybeLatestRecvdPacketNum := some 6
  recvdPacketsTimestampRanges := [⟨0,1,[10000]⟩,⟨0,1,[10000]⟩]

/-- The time of packet 7 goes to packet 6, and that of packet 5 to packet 4, which never arrived. -/
theorem late_six_misattributes :
    lateSix.Pairwise (fun a b => a.receiveTimePoint ≤ b.receiveTimePoint) ∧
      ∃ map,Transmits (stateWithAcks 10 lateSix (receive 10 {} lateSix).acks) 0 3 map ∧
        (6,10000) ∈ map ∧ (4,0) ∈ map ∧
        ¬EntryRight lateSix 0 3 (6,10000) ∧ ¬EntryRight lateSix 0 3 (4,0) := by
  refine ⟨by decide,[(4,0),(6,10000)],⟨1200,0,3,10,{},{},.short,
    {maybeAckReceiveTimestampsConfig := some {}},_,_,lateSixFrame,[],rfl,rfl,by decide,by decide,
    by decide,rfl,rfl,rfl,rfl⟩,by simp,by simp,?_,?_⟩
  · rintro ⟨a,ha,hclose⟩
    obtain rfl := Option.some.inj ha
    revert hclose
    decide
  · rintro ⟨a,ha,-⟩
    cases ha

def inOrder : List Arrival := [⟨0,1000000,0⟩,⟨1,3000000,0⟩]

lemma attributionCondition_inOrder :
    AttributionCondition inOrder 10 (receive 10 {} inOrder).acks 0 3 := by
  intro largestAcked last newest h₁ h₂ h₃ h₄
  obtain rfl := Option.some.inj h₁
  obtain rfl := Option.some.inj h₃
  obtain rfl := Option.some.inj h₄
  exact ⟨⟨by decide,_,rfl,by decide⟩,by decide,by decide,_,rfl,by decide⟩

theorem timestamps_attributed_in_order :
    AttributionCondition inOrder 10 (receive 10 {} inOrder).acks 0 3 ∧
      ∀ map,Transmits (stateWithAcks 10 inOrder (receive 10 {} inOrder).acks) 0 3 map →
        ∀ entry ∈ map,EntryRight inOrder 0 3 entry :=
  ⟨attributionCondition_inOrder,
    (timestamps_attributed_iff (by decide) (by decide) (by decide) (by decide) (by decide)
      fun _ hn => hn).1 attributionCondition_inOrder⟩

end QuicWestwood
