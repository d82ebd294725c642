import QuicWestwood.Http2Effects

/-! `onMessageComplete` of a stream is owed to a HEADERS or DATA frame of that stream with END_STREAM. What is
owed is with the frame that is being received, or with the mark that waits for the end of a header block. -/
namespace QuicWestwood.HTTP2
open ByteCodec HTTP HPACK

def FrameType.carriesEndStream : FrameType → Bool
  | headers | exHeaders | data => true
  | _ => false

def Callback.isMessageCompleteOf (stream : ℕ) : Callback → Bool
  | .onMessageComplete s _ => s = stream
  | _ => false

/-- The header of a HEADERS or DATA frame of the stream with the END_STREAM flag. -/
def Callback.announcesEnd (stream : ℕ) : Callback → Bool
  | .onFrameHeader s flags _ type => s = stream && flags &&& 0x1 != 0 && (FrameType.ofCode type).carriesEndStream
  | _ => false

def completions (stream : ℕ) (trace : List Callback) : ℕ := trace.countP (Callback.isMessageCompleteOf stream)

def announcements (stream : ℕ) (trace : List Callback) : ℕ := trace.countP (Callback.announcesEnd stream)

/-- The ends that are not due to a websocket upgrade. -/
def reported (stream : ℕ) (trace : List Callback) : ℕ := trace.count (.onMessageComplete stream false)

lemma reported_append (stream : ℕ) (trace calls : List Callback) :
    reported stream (trace++calls) = reported stream trace+reported stream calls := List.count_append

lemma announcements_append (stream : ℕ) (trace calls : List Callback) :
    announcements stream (trace++calls) = announcements stream trace+announcements stream calls := List.countP_append

lemma Silent.reported {calls : List Callback} (h : Silent calls) (stream : ℕ) : reported stream calls = 0 :=
  List.count_eq_zero.mpr fun hmem => absurd (h _ hmem) (by simp [Callback.isMessageComplete])

def Callback.isUpgrade : Callback → Bool
  | .onMessageComplete _ upgrade => upgrade
  | _ => false

def NoUpgrade (trace : List Callback) : Prop := ∀ call ∈ trace,call.isUpgrade = false

instance (trace : List Callback) : Decidable (NoUpgrade trace) :=
  inferInstanceAs (Decidable (∀ call ∈ trace,call.isUpgrade = false))

lemma completions_eq_reported {trace : List Callback} (h : NoUpgrade trace) (stream : ℕ) :
    completions stream trace = reported stream trace := by
  refine List.countP_congr fun call hcall => ?_
  have hupgrade := h call hcall
  cases call with
  | onMessageComplete s upgrade =>
    cases (show upgrade = false from hupgrade)
    simp [Callback.isMessageCompleteOf]
  | _ => simp [Callback.isMessageCompleteOf]

namespace HTTP2Codec
variable {c d : HTTP2Codec}

def marked (c : HTTP2Codec) (stream : ℕ) : ℕ :=
  if c.pendingEndStreamHandling ∧ c.expectedContinuationStream=stream then 1 else 0

def carried (c : HTTP2Codec) (stream : ℕ) : ℕ :=
  if c.curHeader.type.carriesEndStream ∧ c.curHeader.endStream ∧ c.curHeader.stream=stream then 1 else 0

def inFlight (c : HTTP2Codec) (stream : ℕ) : ℕ := if c.inFrame then c.carried stream else 0

/-- What an open connection owes is covered by the frames that were announced. -/
structure Covered (c : HTTP2Codec) (trace : List Callback) : Prop where
  data : c.frameState = .dataFrameData → c.curHeader.type = .data
  pending : c.pendingEndStreamHandling=true → c.expectedContinuationStream≠0
  covered : ∀ stream,reported stream trace+c.marked stream+c.inFlight stream ≤ announcements stream trace

@[simp] lemma handleEndStream_expected (c : HTTP2Codec) :
    c.handleEndStream.codec.expectedContinuationStream = c.expectedContinuationStream := by
  unfold handleEndStream
  split_ifs <;> rfl

lemma handleEndStream_pending (c : HTTP2Codec) (h : endsStream c.curHeader.type = true) :
    c.handleEndStream.codec.pendingEndStreamHandling =
      ((c.pendingEndStreamHandling || c.curHeader.endStream) && decide (c.expectedContinuationStream≠0)) := by
  unfold handleEndStream
  rw [if_neg (by simp [h])]
  cases c.pendingEndStreamHandling || c.curHeader.endStream <;> simp

lemma reported_deliver_le (c : HTTP2Codec) (stream s : ℕ) :
    reported stream (c.deliver s (.onMessageComplete s false)) ≤ if s=stream then 1 else 0 := by
  unfold deliver reported
  split_ifs <;> simp_all

lemma reported_deliver_upgrade (c : HTTP2Codec) (stream s : ℕ) :
    reported stream (c.deliver s (.onMessageComplete s true)) = 0 := by
  unfold deliver reported
  split_ifs <;> simp

lemma reported_handleEndStream_le (c : HTTP2Codec) (stream : ℕ) :
    reported stream c.handleEndStream.calls ≤
      if (c.pendingEndStreamHandling || c.curHeader.endStream) ∧ c.expectedContinuationStream=0 ∧
        c.curHeader.stream = stream then 1 else 0 := by
  unfold handleEndStream
  by_cases hends : (!endsStream c.curHeader.type) = true
  · rw [if_pos hends]
    exact Nat.zero_le _
  · rw [if_neg hends]
    have hupgrade : reported stream (if c.ingressWebsocketUpgrade then
        c.deliver c.curHeader.stream (.onMessageComplete c.curHeader.stream true) else []) = 0 := by
      split_ifs
      · exact reported_deliver_upgrade _ _ _
      · rfl
    rw [reported_append,hupgrade,Nat.zero_add]
    by_cases hcomplete : (c.pendingEndStreamHandling || c.curHeader.endStream) = true ∧ c.expectedContinuationStream=0
    · rw [if_pos (by simpa using hcomplete)]
      exact (reported_deliver_le c stream _).trans_eq (by simp [hcomplete])
    · rw [if_neg (by simpa using hcomplete)]
      exact Nat.zero_le _

lemma handleEndStream_of_not_ends (h : endsStream c.curHeader.type = false) : c.handleEndStream = ⟨c,[],none⟩ := by
  simp [handleEndStream,h]

lemma covered_handleEndStream {trace calls : List Callback} {owed : ℕ → ℕ} (hcalls : Silent calls)
    (hends : endsStream d.curHeader.type = true)
    (hcovered : ∀ stream,reported stream trace+owed stream ≤ announcements stream trace)
    (hcredit : (d.pendingEndStreamHandling || d.curHeader.endStream) = true → 0 < owed d.curHeader.stream)
    (hopen : d.expectedContinuationStream≠0 → d.expectedContinuationStream=d.curHeader.stream) (stream : ℕ) :
    reported stream (trace++(calls++d.handleEndStream.calls))+d.handleEndStream.codec.marked stream ≤
      announcements stream (trace++(calls++d.handleEndStream.calls)) := by
  have hreported := reported_handleEndStream_le d stream
  have hcov := hcovered stream
  simp only [reported_append,announcements_append,hcalls.reported,marked,handleEndStream_pending d hends,
    handleEndStream_expected]
  cases hend : d.pendingEndStreamHandling || d.curHeader.endStream with
  | false =>
    simp only [hend,Bool.false_eq_true,false_and,if_false] at hreported
    simp only [Bool.false_and,Bool.false_eq_true,false_and,if_false]
    omega
  | true =>
    have hpos := hcredit hend
    simp only [hend,true_and] at hreported
    simp only [Bool.true_and,decide_eq_true_eq]
    by_cases hstream : d.curHeader.stream=stream
    · rw [hstream] at hpos
      split_ifs at hreported ⊢ <;> omega
    · rw [if_neg fun h => hstream h.2] at hreported
      rw [if_neg fun h => hstream ((hopen h.1).symm.trans h.2)]
      omega

lemma Effect.cases {p : Parsed} (h : Effect c p) :
    (p.stop≠none ∧ Silent p.calls) ∨ (SameMark c p.codec ∧ Silent p.calls) ∨
      ∃ d calls,SameMark c d ∧ Silent calls ∧ endsStream d.curHeader.type = true ∧
        p = d.handleEndStream.prepend calls := by
  cases h with
  | quiet hmark hcalls => exact .inr (.inl ⟨hmark,hcalls⟩)
  | concludes h =>
    cases h with
    | failed hstop hcalls => exact .inl ⟨hstop,hcalls⟩
    | ended d hmark calls hcalls hp =>
      cases hends : endsStream d.curHeader.type with
      | true => exact .inr (.inr ⟨d,calls,hmark,hcalls,hends,hp⟩)
      | false =>
        rw [handleEndStream_of_not_ends hends] at hp
        refine .inr (.inl ⟨?_,?_⟩)
        · rw [hp]
          exact hmark
        · rw [hp]
          exact hcalls.append silent_nil

structure Balanced (trace : List Callback) (p : Parsed) : Prop where
  le : ∀ stream,reported stream (trace++p.calls) ≤ announcements stream (trace++p.calls)
  pending : p.stop=none → p.codec.pendingEndStreamHandling=true → p.codec.expectedContinuationStream≠0
  covered : p.stop=none → ∀ stream,
    reported stream (trace++p.calls)+p.codec.marked stream ≤ announcements stream (trace++p.calls)

section
variable {trace : List Callback} {p : Parsed}

lemma Covered.le (h : Covered c trace) (stream : ℕ) : reported stream trace ≤ announcements stream trace := by
  have := h.covered stream
  omega

lemma Covered.unmarked (h : Covered c trace) (hexp : c.expectedContinuationStream=0) :
    c.pendingEndStreamHandling = false := by
  by_contra hne
  exact h.pending (by simpa using hne) hexp

lemma le_append_of_silent {calls : List Callback} (hcalls : Silent calls) {stream n : ℕ}
    (h : reported stream trace+n ≤ announcements stream trace) :
    reported stream (trace++calls)+n ≤ announcements stream (trace++calls) := by
  rw [reported_append,announcements_append,hcalls.reported]
  omega

lemma Covered.balanced_of_stop (h : Covered c trace) (hstop : p.stop≠none) (hcalls : Silent p.calls) :
    Balanced trace p where
  le stream := le_append_of_silent (n := 0) hcalls (h.le stream)
  pending hnone := absurd hnone hstop
  covered hnone := absurd hnone hstop

lemma Covered.balanced_of_unmarked (h : Covered c trace) (hpending : p.codec.pendingEndStreamHandling=false)
    (hcalls : Silent p.calls) : Balanced trace p where
  le stream := le_append_of_silent (n := 0) hcalls (h.le stream)
  pending _ htrue := absurd htrue (by simp [hpending])
  covered _ stream := by
    refine le_append_of_silent hcalls ?_
    have := h.le stream
    simpa [marked,hpending] using this

lemma Covered.balanced_of_ended (h : Covered c trace) {calls : List Callback} (hcalls : Silent calls)
    (hends : endsStream d.curHeader.type = true)
    (hcredit : (d.pendingEndStreamHandling || d.curHeader.endStream) = true →
      0 < c.marked d.curHeader.stream+c.inFlight d.curHeader.stream)
    (hopen : d.expectedContinuationStream≠0 → d.expectedContinuationStream=d.curHeader.stream) :
    Balanced trace (d.handleEndStream.prepend calls) := by
  have howed (stream : ℕ) :
      reported stream trace+(fun s => c.marked s+c.inFlight s) stream ≤ announcements stream trace := by
    have := h.covered stream
    dsimp only
    omega
  have hcovered := covered_handleEndStream hcalls hends howed hcredit hopen
  refine ⟨fun stream => ?_,fun _ hpending => ?_,fun _ => hcovered⟩
  · exact (Nat.le_add_right _ _).trans (hcovered stream)
  · rw [show (d.handleEndStream.prepend calls).codec = d.handleEndStream.codec from rfl] at hpending ⊢
    rw [handleEndStream_pending d hends,Bool.and_eq_true,decide_eq_true_eq] at hpending
    rw [handleEndStream_expected]
    exact hpending.2

/-- The mark of an open block is not set by its CONTINUATION frames, and a block that has it is
delivered. -/
def KeepsContinuation (parseURL : Bytes → Bool) (c : HTTP2Codec) (payload : Bytes) : Prop :=
  c.expectedContinuationStream≠0 → c.curHeader.type = .continuation →
    c.curHeader.stream = c.expectedContinuationStream →
      (c.curHeader.endStream=true → c.pendingEndStreamHandling=true) ∧
        (c.pendingEndStreamHandling=true → c.expectContinuation.endsInStreamError parseURL payload = false)

instance (parseURL : Bytes → Bool) (c : HTTP2Codec) (payload : Bytes) : Decidable (KeepsContinuation parseURL c payload) :=
  inferInstanceAs (Decidable (_ → _ → _ → _))

lemma expectContinuation_open (h : c.expectContinuation.expectedContinuationStream≠0) :
    c.expectContinuation.expectedContinuationStream = c.curHeader.stream := by
  unfold expectContinuation at h ⊢
  split_ifs at h ⊢ with hif
  · rfl
  · exact absurd rfl h

lemma carriesEndStream_of_ends {type : FrameType} (h : endsStream type = true) (hne : type≠.continuation) :
    type.carriesEndStream = true := by
  cases type <;> simp_all [endsStream,FrameType.carriesEndStream]

section
variable (parseURL : Bytes → Bool) (num : ℕ) (payload : Bytes) (h : Covered c trace)
include h

lemma Covered.balanced_dispatch
    (hframe : c.inFrame=true) (hexp : c.expectedContinuationStream=0) (htype : c.curHeader.type≠.continuation) :
    Balanced trace (c.expectContinuation.dispatch parseURL num payload) := by
  rcases (effect_dispatch (c := c.expectContinuation) parseURL num payload).cases with
    ⟨hstop,hcalls⟩ | ⟨hmark,hcalls⟩ | ⟨d,calls,hmark,hcalls,hends,hp⟩
  · exact h.balanced_of_stop hstop hcalls
  · exact h.balanced_of_unmarked (hmark.pending.trans (h.unmarked hexp)) hcalls
  · rw [hp]
    refine h.balanced_of_ended hcalls hends ?_ ?_
    · intro hend
      rw [hmark.header,hmark.pending,show c.expectContinuation.pendingEndStreamHandling = false from h.unmarked hexp,
        Bool.false_or] at hend
      rw [hmark.header] at hends
      have hcarried : c.inFlight d.curHeader.stream = 1 := by
        rw [hmark.header]
        unfold inFlight carried
        rw [if_pos hframe]
        exact if_pos ⟨carriesEndStream_of_ends hends htype,hend,rfl⟩
      omega
    · rw [hmark.expected,hmark.header]
      exact expectContinuation_open

lemma Covered.balanced_continuation
    (hexp : c.expectedContinuationStream≠0) (htype : c.curHeader.type = .continuation)
    (hstream : c.curHeader.stream=c.expectedContinuationStream) (hkeep : KeepsContinuation parseURL c payload) :
    Balanced trace (c.expectContinuation.dispatch parseURL num payload) := by
  obtain ⟨hend,herror⟩ := hkeep hexp htype hstream
  have hended {d : HTTP2Codec} {calls : List Callback} (hmark : SameMark c.expectContinuation d) (hcalls : Silent calls) :
      Balanced trace (d.handleEndStream.prepend calls) := by
    refine h.balanced_of_ended hcalls ?_ ?_ ?_
    · rw [hmark.header,show c.expectContinuation.curHeader.type = .continuation from htype]
      rfl
    · intro hpend
      rw [hmark.header,hmark.pending] at hpend
      have hpending : c.pendingEndStreamHandling=true := by
        rcases Bool.or_eq_true_iff.mp hpend with hpend | hpend
        · exact hpend
        · exact hend hpend
      have hmarked : c.marked d.curHeader.stream = 1 := by
        rw [hmark.header]
        exact if_pos ⟨hpending,hstream.symm⟩
      omega
    · rw [hmark.expected,hmark.header]
      exact expectContinuation_open
  cases hpending : c.pendingEndStreamHandling with
  | true =>
    have hconcludes := concludes_parseContinuation (c := c.expectContinuation) parseURL num htype (herror hpending)
    rw [dispatch,show c.expectContinuation.curHeader.type = .continuation from htype]
    cases hconcludes with
    | failed hstop hcalls => exact h.balanced_of_stop hstop hcalls
    | ended d hmark calls hcalls hp =>
      rw [hp]
      exact hended hmark hcalls
  | false =>
    rcases (effect_dispatch (c := c.expectContinuation) parseURL num payload).cases with
      ⟨hstop,hcalls⟩ | ⟨hmark,hcalls⟩ | ⟨d,calls,hmark,hcalls,-,hp⟩
    · exact h.balanced_of_stop hstop hcalls
    · exact h.balanced_of_unmarked (hmark.pending.trans hpending) hcalls
    · rw [hp]
      exact hended hmark hcalls

theorem Covered.balanced_parseFrame
    (hframe : c.inFrame=true) (hkeep : KeepsContinuation parseURL c payload) :
    Balanced trace (c.parseFrame parseURL num payload) := by
  unfold parseFrame
  dsimp only
  split_ifs with hwrong hunexpected
  · exact h.balanced_of_stop (by simp [failWith,fail]) silent_nil
  · exact h.balanced_of_stop (by simp [failWith,fail]) silent_nil
  · exact h.balanced_of_stop (by simp [failWith,fail]) silent_nil
  · by_cases hexp : c.expectedContinuationStream=0
    · exact h.balanced_dispatch parseURL num payload hframe hexp fun htype => hunexpected ⟨hexp,htype⟩
    · have hright : c.curHeader.type = .continuation ∧ c.expectedContinuationStream=c.curHeader.stream := by
        by_contra hnot
        exact hwrong ⟨hexp,by tauto⟩
      exact h.balanced_continuation parseURL num payload hexp hright.1 hright.2.symm hkeep

end

/-- A piece fails, leaves the rest of the frame to come, or ends the frame. -/
inductive PieceEffect (c : HTTP2Codec) (p : Parsed) : Prop
  | failed (hstop : p.stop≠none) (hcalls : Silent p.calls)
  | waits (hmark : SameMark c p.codec) (hstate : p.codec.frameState=c.frameState) (hcalls : Silent p.calls)
  | ended (d : HTTP2Codec) (hmark : SameMark c d) (hbytes : d.pendingDataFrameBytes=0) (calls : List Callback)
      (hcalls : Silent calls) (hp : p = d.handleEndStream.prepend calls)

lemma PieceEffect.of_same (h : SameMark c d) (hstate : d.frameState=c.frameState) (hp : PieceEffect d p) :
    PieceEffect c p := by
  cases hp with
  | failed hstop hcalls => exact .failed hstop hcalls
  | waits hmark hstate' hcalls => exact .waits (h.trans hmark) (hstate'.trans hstate) hcalls
  | ended e hmark hbytes calls hcalls hp => exact .ended e (h.trans hmark) hbytes calls hcalls hp

lemma pieceEffect_parseDataRest (padding : ℕ) (bytes : Bytes) : PieceEffect c (c.parseDataRest padding bytes).1 := by
  unfold parseDataRest
  dsimp only
  split
  · exact .failed (by simp [fail]) silent_nil
  · have hcalls (e : HTTP2Codec) (outData : Bytes) : Silent (if 0<padding ∨ outData≠[] then
        e.deliver e.curHeader.stream (.onBody e.curHeader.stream outData padding) else []) := by
      split_ifs
      · exact silent_deliver rfl
      · exact silent_nil
    by_cases hpos : 0 < c.pendingDataFrameBytes-min (c.pendingDataFrameBytes-c.pendingDataFramePaddingBytes)
        bytes.length-min c.pendingDataFramePaddingBytes
          (bytes.length-min (c.pendingDataFrameBytes-c.pendingDataFramePaddingBytes) bytes.length)
    · rw [if_pos hpos]
      exact .waits ⟨rfl,rfl,rfl⟩ rfl (hcalls _ _)
    · rw [if_neg hpos]
      refine .ended _ ?_ ?_ _ (hcalls _ _) rfl
      · exact ⟨rfl,rfl,rfl⟩
      · exact Nat.eq_zero_of_not_pos hpos

lemma pieceEffect_parseDataFrameData (bytes : Bytes) : PieceEffect c (c.parseDataFrameData bytes).1 := by
  unfold parseDataFrameData
  split_ifs
  · exact .waits (.refl c) rfl silent_nil
  · exact .waits (.refl c) rfl silent_nil
  · split
    · exact .failed (by simp [fail]) silent_nil
    · split_ifs
      · refine PieceEffect.of_same ?_ ?_ (pieceEffect_parseDataRest _ _)
        · exact ⟨rfl,rfl,rfl⟩
        · rfl
      · exact pieceEffect_parseDataRest _ _
  · exact pieceEffect_parseDataRest _ _

lemma handleEndStream_pendingDataFrameBytes (c : HTTP2Codec) :
    c.handleEndStream.codec.pendingDataFrameBytes = c.pendingDataFrameBytes := by
  unfold handleEndStream
  split_ifs <;> rfl

lemma Balanced.covered_frameHeader (h : Balanced trace p) (hstop : p.stop=none) :
    Covered {p.codec with frameState := .frameHeader} (trace++p.calls) where
  data hstate := absurd hstate (by simp)
  pending := h.pending hstop
  covered := h.covered hstop

def Accounted (trace : List Callback) (p : Parsed) : Prop :=
  (∀ stream,reported stream (trace++p.calls) ≤ announcements stream (trace++p.calls)) ∧
    (p.stop=none → Covered p.codec (trace++p.calls))

lemma Covered.accounted_of_same (h : Covered c trace) (hmark : SameMark c p.codec) (hcalls : Silent p.calls)
    (hstate : p.codec.frameState=c.frameState ∨ p.codec.inFrame=false) : Accounted trace p := by
  refine ⟨fun stream => le_append_of_silent (n := 0) hcalls (h.le stream),fun _ => ⟨?_,?_,fun stream => ?_⟩⟩
  · intro hdata
    rw [hmark.header]
    rcases hstate with hstate | hstate
    · exact h.data (hstate ▸ hdata)
    · simp [inFrame,hdata] at hstate
  · rw [hmark.pending,hmark.expected]
    exact h.pending
  · have hinFlight : p.codec.inFlight stream ≤ c.inFlight stream := by
      unfold inFlight
      rcases hstate with hstate | hstate
      · rw [inFrame,hstate,carried,hmark.header]
        rfl
      · rw [if_neg (by simp [hstate])]
        exact Nat.zero_le _
    have hmarked : p.codec.marked stream = c.marked stream := by
      unfold marked
      rw [hmark.pending,hmark.expected]
    rw [reported_append,announcements_append,hcalls.reported,hmarked]
    have := h.covered stream
    omega

lemma announcements_onFrameHeader (bytes : Bytes) (stream : ℕ) :
    let h := parseFrameHeader bytes
    announcements stream [.onFrameHeader h.stream h.flags h.length h.type.toCode] =
      if h.type.carriesEndStream ∧ h.endStream ∧ h.stream=stream then 1 else 0 := by
  have hcode : FrameType.ofCode (parseFrameHeader bytes).type.toCode = (parseFrameHeader bytes).type :=
    congrArg FrameType.ofCode (FrameType.toCode_ofCode _)
  generalize parseFrameHeader bytes = h at hcode ⊢
  simp only [announcements,List.countP_singleton,Callback.announcesEnd,hcode,FrameHeader.endStream,Bool.and_eq_true,
    decide_eq_true_eq]
  exact if_congr (by tauto) rfl rfl

lemma Covered.accounted_startFrame (h : Covered c trace) (bytes : Bytes) :
    Accounted trace (c.startFrame (parseFrameHeader bytes)) := by
  have hcalls : Silent (c.startFrame (parseFrameHeader bytes)).calls := silent_singleton rfl
  have hannounced := announcements_onFrameHeader bytes
  refine ⟨fun stream => le_append_of_silent (n := 0) hcalls (h.le stream),fun _ => ⟨?_,?_,fun stream => ?_⟩⟩
  · unfold startFrame beginFrame
    split_ifs with htype <;> simp [htype]
  · unfold startFrame beginFrame
    dsimp only
    split_ifs <;> exact h.pending
  · have hmarked : (c.startFrame (parseFrameHeader bytes)).codec.marked stream = c.marked stream := by
      unfold startFrame beginFrame
      dsimp only
      split_ifs <;> rfl
    have hinFlight : (c.startFrame (parseFrameHeader bytes)).codec.inFlight stream =
        announcements stream (c.startFrame (parseFrameHeader bytes)).calls := by
      refine Eq.trans ?_ (hannounced stream).symm
      unfold startFrame beginFrame
      split_ifs <;> simp_all [inFlight,inFrame,carried]
    rw [reported_append,announcements_append,hcalls.reported,hmarked,hinFlight]
    have := h.covered stream
    omega

/-- A piece of a DATA frame sets the mark of an open block only if it is set already. -/
def KeepsPiece (c : HTTP2Codec) : Prop :=
  c.expectedContinuationStream≠0 → c.curHeader.endStream=true → c.pendingEndStreamHandling=true

instance (c : HTTP2Codec) : Decidable (KeepsPiece c) := inferInstanceAs (Decidable (_ → _ → _))

lemma Covered.accounted_parsePiece (h : Covered c trace) (hstate : c.frameState = .dataFrameData) (hkeep : KeepsPiece c)
    (bytes : Bytes) : Accounted trace (c.parsePiece bytes).1 := by
  have htype := h.data hstate
  unfold parsePiece
  dsimp only
  have heffect := pieceEffect_parseDataFrameData (c := c) bytes
  generalize (c.parseDataFrameData bytes).1 = p at heffect
  cases heffect with
  | failed hstop hcalls =>
    exact ⟨fun stream => le_append_of_silent (n := 0) hcalls (h.le stream),fun hnone => absurd hnone hstop⟩
  | waits hmark hstate' hcalls =>
    refine h.accounted_of_same ?_ hcalls ?_
    · split_ifs <;> exact ⟨hmark.header,hmark.pending,hmark.expected⟩
    · split_ifs
      · exact .inr rfl
      · exact .inl hstate'
  | ended d hmark hbytes calls hcalls hp =>
    have hends : endsStream d.curHeader.type = true := by
      rw [hmark.header,htype]
      rfl
    subst hp
    rw [if_pos (by rw [← hbytes]; exact handleEndStream_pendingDataFrameBytes d)]
    have hbalanced : Balanced trace (d.handleEndStream.prepend calls) := by
      by_cases hexp : c.expectedContinuationStream=0
      · refine h.balanced_of_ended hcalls hends ?_ fun hne => absurd (hmark.expected.trans hexp) hne
        intro hend
        rw [hmark.header,hmark.pending,h.unmarked hexp,Bool.false_or] at hend
        have hcarried : c.inFlight d.curHeader.stream = 1 := by
          rw [hmark.header]
          simp [inFlight,inFrame,carried,hstate,htype,hend,FrameType.carriesEndStream]
        omega
      · have hmarked (stream : ℕ) : d.handleEndStream.codec.marked stream = c.marked stream := by
          have hsame : (c.pendingEndStreamHandling || c.curHeader.endStream) = c.pendingEndStreamHandling := by
            cases hend : c.curHeader.endStream with
            | true => simp [hkeep hexp hend]
            | false => simp
          unfold marked
          rw [handleEndStream_pending d hends,handleEndStream_expected,hmark.pending,hmark.header,hmark.expected,hsame]
          simp [hexp]
        have hzero (stream : ℕ) : reported stream d.handleEndStream.calls = 0 := by
          have := reported_handleEndStream_le d stream
          rw [if_neg fun h => hexp (hmark.expected.symm.trans h.2.1)] at this
          omega
        have hle (stream : ℕ) : reported stream (trace++(calls++d.handleEndStream.calls))+c.marked stream ≤
            announcements stream (trace++(calls++d.handleEndStream.calls)) := by
          simp only [reported_append,announcements_append,hcalls.reported,hzero]
          have := h.covered stream
          omega
        refine ⟨fun stream => (Nat.le_add_right _ _).trans (hle stream),fun _ _ => ?_,fun _ stream => ?_⟩
        · rw [show (d.handleEndStream.prepend calls).codec = d.handleEndStream.codec from rfl,handleEndStream_expected,
            hmark.expected]
          exact hexp
        · rw [show (d.handleEndStream.prepend calls).codec = d.handleEndStream.codec from rfl,hmarked]
          exact hle stream
    exact ⟨hbalanced.le,fun hstop => hbalanced.covered_frameHeader hstop⟩

end

lemma Covered.of_le {trace : List Callback} (h : Covered c trace) (htype : d.curHeader.type=c.curHeader.type)
    (hstate : d.frameState=c.frameState)
    (hpending : d.pendingEndStreamHandling=true →
      c.pendingEndStreamHandling = true ∧ d.expectedContinuationStream=c.expectedContinuationStream)
    (hcarried : ∀ stream,d.carried stream ≤ c.carried stream) : Covered d trace := by
  refine ⟨fun hdata => htype ▸ h.data (hstate ▸ hdata),fun hpend => ?_,fun stream => ?_⟩
  · obtain ⟨hc,hexp⟩ := hpending hpend
    exact hexp ▸ h.pending hc
  · have hmarked : d.marked stream ≤ c.marked stream := by
      unfold marked
      split_ifs with hd hc
      · exact le_rfl
      · obtain ⟨hpend,hexp⟩ := hpending hd.1
        exact absurd ⟨hpend,hexp ▸ hd.2⟩ hc
      · exact Nat.zero_le _
      · exact le_rfl
    have hinFlight : d.inFlight stream ≤ c.inFlight stream := by
      unfold inFlight inFrame
      rw [hstate]
      split_ifs
      · exact hcarried stream
      · exact le_rfl
    have := h.covered stream
    omega

lemma Covered.egress {trace : List Callback} (h : Covered c trace) (call : EgressCall) : Covered (c.egress call) trace := by
  have hsame {d : HTTP2Codec} (hmark : SameMark c d) (hstate : d.frameState=c.frameState) : Covered d trace :=
    h.of_le (by rw [hmark.header]) hstate (fun hpend => ⟨hmark.pending ▸ hpend,hmark.expected⟩)
      fun stream => by rw [carried,hmark.header]; rfl
  cases call with
  | createStream => exact hsame ⟨rfl,rfl,rfl⟩ rfl
  | enableDoubleGoawayDrain =>
    unfold HTTP2Codec.egress enableDoubleGoawayDrain
    split_ifs <;> exact hsame ⟨rfl,rfl,rfl⟩ rfl
  | generateGoaway lastStream statusCode =>
    unfold HTTP2Codec.egress generateGoaway
    split_ifs <;> exact hsame ⟨rfl,rfl,rfl⟩ rfl
  | generateRstStream stream =>
    unfold HTTP2Codec.egress generateRstStream
    dsimp only
    split_ifs
    · refine h.of_le rfl rfl (fun hpend => absurd hpend (by simp)) fun s => ?_
      have hcleared : ∀ flags : UInt8,(flags &&& ~~~0x1) &&& 0x1 = 0 := by
        intro flags
        rw [UInt8.and_assoc]
        exact UInt8.and_zero
      simp [carried,FrameHeader.endStream,hcleared]
    · exact hsame ⟨rfl,rfl,rfl⟩ rfl
    · exact h
  | generateEOM stream => exact hsame ⟨rfl,rfl,rfl⟩ rfl
  | generateUpgradeHeader stream =>
    unfold HTTP2Codec.egress generateUpgradeHeader
    dsimp only
    split_ifs <;> exact hsame ⟨rfl,rfl,rfl⟩ rfl

lemma covered_nil (hpending : c.pendingEndStreamHandling=false) (hframe : c.inFrame=false) : Covered c [] := by
  refine ⟨fun hdata => ?_,fun hpend => ?_,fun stream => ?_⟩
  · simp [inFrame,hdata] at hframe
  · simp [hpending] at hpend
  · simp [marked,inFlight,hpending,hframe,reported]

lemma covered_start (direction : TransportDirection) (settings : HTTPSettings) (validate strict : Bool) :
    Covered (start direction settings validate strict) [] := by
  have hfold (c : HTTP2Codec) : (settings.foldl sendSetting c).pendingEndStreamHandling = c.pendingEndStreamHandling ∧
      (settings.foldl sendSetting c).frameState = c.frameState := by
    induction settings generalizing c with
    | nil => exact ⟨rfl,rfl⟩
    | cons setting rest ih =>
      obtain ⟨hpending,hstate⟩ := ih (c.sendSetting setting)
      have hsend : (c.sendSetting setting).pendingEndStreamHandling = c.pendingEndStreamHandling ∧
          (c.sendSetting setting).frameState = c.frameState := by
        unfold sendSetting
        split <;> exact ⟨rfl,rfl⟩
      exact ⟨hpending.trans hsend.1,hstate.trans hsend.2⟩
  obtain ⟨hpending,hstate⟩ := hfold
    {init direction with egressSettings := settings, validateHeaders := validate, strictValidation := strict}
  refine covered_nil hpending ?_
  unfold start inFrame
  rw [hstate]
  cases direction <;> rfl

end HTTP2Codec

end QuicWestwood.HTTP2
