import QuicWestwood.EndStreamAccount

/-! The account of ends is kept along a run as long as a header block that carries the mark is delivered and no
other frame sets the mark while the block is open. The codec does not ensure either. -/
namespace QuicWestwood.HTTP2
open ByteCodec HTTP HPACK

namespace Connection
open HTTP2Codec
variable {parseURL : Bytes → Bool} {s : Connection}

/-- The condition on a turn of the loop: while a header block is open, a piece of a DATA frame or a
CONTINUATION frame has END_STREAM only if the block began with END_STREAM, and a block that began with
END_STREAM does not end in a stream error. -/
def KeepsMark (parseURL : Bytes → Bool) (s : Connection) : Action → Prop
  | .parse _ => s.stop = none →
    (s.codec.parsesPiece s.buffer = true → KeepsPiece s.codec) ∧
      (s.codec.frameState = .frameData → s.codec.curHeader.length ≤ s.buffer.length →
        KeepsContinuation parseURL s.codec (s.buffer.take s.codec.curHeader.length))
  | _ => True

lemma silent_errorCalls (c : HTTP2Codec) (stop : Option Stop) : Silent (errorCalls c stop) := by
  unfold errorCalls
  split
  · exact silent_singleton rfl
  · exact silent_nil

lemma accounted_turn {c : HTTP2Codec} {trace : List Callback} {buffer : Bytes} {num n : ℕ} {p : Parsed}
    (hturn : Turn parseURL num c buffer p n) (h : Covered c trace)
    (hpiece : c.parsesPiece buffer = true → KeepsPiece c)
    (hwhole : c.frameState = .frameData → c.curHeader.length≤buffer.length →
      KeepsContinuation parseURL c (buffer.take c.curHeader.length)) : HTTP2Codec.Accounted trace p := by
  cases hturn with
  | preface hstate hlen =>
    unfold parseConnectionPreface
    split_ifs
    · exact h.accounted_of_same ⟨rfl,rfl,rfl⟩ silent_nil (.inr rfl)
    · exact ⟨fun stream => le_append_of_silent (n := 0) silent_nil (h.le stream),fun hnone => absurd hnone (by simp [failWith,fail])⟩
  | header hstate hlen => exact h.accounted_startFrame buffer
  | piece hpieces hprogress =>
    exact h.accounted_parsePiece (parsesPiece_iff.mp hpieces).1 (hpiece hpieces) buffer
  | whole hstate hpieces hlen =>
    have hkeep : KeepsContinuation parseURL c (buffer.take c.curHeader.length) := by
      rcases hstate with hstate | hstate
      · exact hwhole hstate hlen
      · intro _ htype
        exact absurd (h.data hstate ▸ htype) (by simp)
    have hbalanced := h.balanced_parseFrame parseURL num _ (by simpa [inFrame] using hstate) hkeep
    exact ⟨hbalanced.le,fun hstop => hbalanced.covered_frameHeader hstop⟩

instance (parseURL : Bytes → Bool) (s : Connection) (action : Action) : Decidable (s.KeepsMark parseURL action) :=
  match action with
  | .receive _ | .egress _ => .isTrue trivial
  | .parse _ => inferInstanceAs (Decidable (_ → (_ → KeepsPiece _) ∧ (_ → _ → KeepsContinuation _ _ _)))

structure Accounted (s : Connection) : Prop where
  le : ∀ stream,reported stream s.trace ≤ announcements stream s.trace
  covered : s.stop=none → Covered s.codec s.trace

lemma Accounted.act (h : s.Accounted) (action : Action) (hkeep : s.KeepsMark parseURL action) :
    (s.act parseURL action).Accounted := by
  cases action with
  | receive bytes => exact ⟨h.le,h.covered⟩
  | egress call => exact ⟨h.le,fun hstop => (h.covered hstop).egress call⟩
  | parse num =>
    change ((s.parseNext parseURL num).getD s).Accounted
    cases hnext : s.parseNext parseURL num with
    | none => exact h
    | some t =>
      rw [Option.getD_some]
      obtain ⟨hstop,p,n,hturn,rfl⟩ := turn_of_parseNext hnext
      obtain ⟨hpiece,hwhole⟩ := hkeep hstop
      obtain ⟨hle,hcovered⟩ := accounted_turn hturn (h.covered hstop) hpiece hwhole
      refine ⟨fun stream => le_append_of_silent (n := 0) (silent_errorCalls _ _) (hle stream),fun hnone => ?_⟩
      have hnone : p.stop=none := hnone
      simpa [hnone,errorCalls] using hcovered hnone

def start (direction : TransportDirection) (settings : HTTPSettings) (validate strict : Bool) : Connection where
  codec := .start direction settings validate strict

/-- In every run without a websocket upgrade whose turns meet the condition, a stream has no more ends of messages than
HEADERS and DATA frames with END_STREAM. -/
theorem messageComplete_le_endStream (parseURL : Bytes → Bool) (direction : TransportDirection) (settings : HTTPSettings)
    (validate strict : Bool) (actions : List Action)
    (hkeep : Run.EveryStep (act parseURL) (KeepsMark parseURL) (start direction settings validate strict) actions)
    (hupgrade : NoUpgrade (Run.run (act parseURL) (start direction settings validate strict) actions).trace) (stream : ℕ) :
    completions stream (Run.run (act parseURL) (start direction settings validate strict) actions).trace ≤
      announcements stream (Run.run (act parseURL) (start direction settings validate strict) actions).trace := by
  have hstart : (start direction settings validate strict).Accounted :=
    ⟨fun _ => le_rfl,fun _ => covered_start direction settings validate strict⟩
  rw [completions_eq_reported hupgrade]
  clear hupgrade
  generalize start direction settings validate strict = s at hkeep hstart
  -- the account is kept from one action to the next
  induction actions generalizing s with
  | nil => exact hstart.le stream
  | cons action rest ih => exact ih _ hkeep.2 (hstart.act action hkeep.1)

def serverRun (frames : Bytes) (turns : ℕ) : List Action :=
  .receive (kConnectionPreface++[0,0,0,4,0,0,0,0,0]++frames)::List.replicate (3+turns) (.parse 0)

def serverStart : Connection := start .downstream (HTTP2Codec.init .downstream).egressSettings true false

theorem messageComplete_le_endStream_request :
    let actions := serverRun ([0,0,3,1,5,0,0,0,1]++[0x82,0x86,0x84]) 2
    completions 1 (Run.run (act fun _ => true) serverStart actions).trace = 1 ∧
      completions 1 (Run.run (act fun _ => true) serverStart actions).trace ≤
        announcements 1 (Run.run (act fun _ => true) serverStart actions).trace :=
  ⟨by decide +kernel,messageComplete_le_endStream _ _ _ _ _ _ (by decide +kernel) (by decide +kernel) 1⟩

/-- A malformed header block on stream 1 that begins with END_STREAM and ends in a CONTINUATION frame: the end is
reported for the request on stream 3, which goes on. -/
theorem messageComplete_without_endStream :
    let actions := serverRun ([0,0,0,1,1,0,0,0,1]++[0,0,0,9,4,0,0,0,1] ++
      [0,0,3,1,4,0,0,0,3]++[0x82,0x86,0x84]) 6
    let trace := (Run.run (act fun _ => true) serverStart actions).trace
    NoUpgrade trace ∧ completions 3 trace = 1 ∧ announcements 3 trace = 0 := by
  decide +kernel

end Connection

end QuicWestwood.HTTP2
