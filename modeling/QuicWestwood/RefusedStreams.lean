import QuicWestwood.RefusedBlocks

/-! `Tracked` follows the header block of a refused stream along a run, to say that nothing of it is delivered
and that the decoder has read it. -/
namespace QuicWestwood.HTTP2
open ByteCodec HTTP HPACK Connection

structure Tracked where
  connection : Connection
  refused : Option RefusedBlock := none

namespace Tracked

def parsesFrame (t : Tracked) : Bool :=
  t.connection.codec.inFrame && !t.connection.codec.parsesPiece t.connection.buffer &&
    t.connection.codec.curHeader.length ≤ t.connection.buffer.length

def payload (t : Tracked) : Bytes := t.connection.buffer.take t.connection.codec.curHeader.length

def act (parseURL : Bytes → Bool) (t : Tracked) : Action → Tracked
  | .parse num =>
    match t.connection.parseNext parseURL num with
    | none => t
    | some s =>
      let calls := s.trace.drop t.connection.trace.length
      ⟨s,if t.parsesFrame then t.connection.codec.follow t.payload calls t.refused else t.refused⟩
  | action => ⟨t.connection.act parseURL action,t.refused⟩

def newCalls (parseURL : Bytes → Bool) (t : Tracked) (action : Action) : List Callback :=
  (t.act parseURL action).connection.trace.drop t.connection.trace.length

def completesBlock (t : Tracked) : Action → Bool
  | .parse _ => t.parsesFrame && t.connection.codec.curHeader.endHeaders
  | _ => false

/-- Nothing of a refused block is delivered, and when it is complete the decoder has decoded the whole of it. -/
def StaysRefused (parseURL : Bytes → Bool) (t : Tracked) (action : Action) : Prop :=
  ∀ b,(t.act parseURL action).refused = some b → Withholds b.stream (t.newCalls parseURL action) ∧
      (t.completesBlock action = true → (t.act parseURL action).connection.stop = none →
        (t.act parseURL action).connection.codec.headerCodec = (b.decoder.decodeStreaming b.fragments).1)

/-- The condition on a turn: an EX_HEADERS frame holds a whole block, and a refused block does not end in a CONTINUATION
frame that delivers it. -/
def KeepsRefused (parseURL : Bytes → Bool) (t : Tracked) : Action → Prop
  | .parse _ => t.parsesFrame = true →
    (t.connection.codec.startsBlock=true → t.connection.codec.curHeader.type = .exHeaders →
      t.connection.codec.curHeader.endHeaders = true) ∧
    (t.connection.codec.acceptsContinuation=true → t.connection.codec.curHeader.endHeaders=true →
      t.refused.isSome = true → t.connection.codec.withheld parseURL t.payload = true)
  | _ => True

end Tracked

namespace Tracked
open HTTP2Codec
variable {parseURL : Bytes → Bool} {t : Tracked}

def Follows (t : Tracked) : Prop := t.connection.stop = none → HTTP2Codec.Follows t.connection.codec t.refused

lemma withholds_errorCalls (stream : ℕ) (c : HTTP2Codec) (stop : Option Stop) :
    Withholds stream (errorCalls c stop) := by
  unfold errorCalls
  split <;> simp [Withholds,Callback.deliversBlock]

lemma refusal_mem_append_errorCalls (stream : ℕ) (calls : List Callback) (c : HTTP2Codec) (stop : Option Stop) :
    refusal stream ∈ calls++errorCalls c stop ↔ refusal stream ∈ calls := by
  have hnot : refusal stream ∉ errorCalls c stop := by
    unfold errorCalls
    split <;> simp [refusal]
  simp [hnot]

lemma follow_append_errorCalls (c d : HTTP2Codec) (payload : Bytes) (calls : List Callback) (stop : Option Stop)
    (refused : Option RefusedBlock) :
    c.follow payload (calls++errorCalls d stop) refused = c.follow payload calls refused := by
  unfold follow
  simp only [refusal_mem_append_errorCalls]

lemma between_frames {c : HTTP2Codec} {bytes : Bytes} {num n : ℕ} {p : Parsed} (hturn : Turn parseURL num c bytes p n)
    (hframe : (c.inFrame && !c.parsesPiece bytes && decide (c.curHeader.length≤bytes.length)) = false) {refused : Option RefusedBlock}
    (h : HTTP2Codec.Follows c refused) :
    (∀ stream,Withholds stream p.calls) ∧ HTTP2Codec.Follows p.codec refused := by
  cases hturn with
  | preface hstate hlen =>
    unfold parseConnectionPreface
    dsimp only
    split_ifs
    · exact ⟨fun _ => by simp [Withholds],h.congr rfl rfl rfl rfl⟩
    · exact ⟨fun _ => by simp [Withholds,failWith,fail],h.congr rfl rfl rfl rfl⟩
  | header hstate hlen =>
    refine ⟨fun _ => by simp [Withholds,startFrame,Callback.deliversBlock],?_⟩
    unfold startFrame beginFrame
    dsimp only
    split_ifs <;> exact h.congr rfl rfl rfl rfl
  | piece hpieces hprogress =>
    have hsame := sameBlock_parsePiece (c := c) bytes
    exact ⟨fun _ => forall_parsePiece (fun _ _ _ => rfl) (fun _ _ => rfl) bytes,
      h.congr hsame.block hsame.decoder hsame.expected hsame.frameType⟩
  | whole hstate hpieces hlen =>
    have hin : c.inFrame=true := by simpa [inFrame] using hstate
    simp [hin,hpieces,hlen] at hframe

lemma follows_egress {c : HTTP2Codec} {refused : Option RefusedBlock} (h : HTTP2Codec.Follows c refused)
    (call : EgressCall) : HTTP2Codec.Follows (c.egress call) refused := by
  cases call with
  | createStream => exact h.congr rfl rfl rfl rfl
  | enableDoubleGoawayDrain =>
    unfold egress enableDoubleGoawayDrain
    dsimp only
    split_ifs <;> exact h.congr rfl rfl rfl rfl
  | generateGoaway lastStream statusCode =>
    unfold egress generateGoaway
    dsimp only
    split_ifs <;> exact h.congr rfl rfl rfl rfl
  | generateRstStream stream =>
    unfold egress generateRstStream
    dsimp only
    split_ifs <;> exact h.congr rfl rfl rfl rfl
  | generateEOM stream => exact h.congr rfl rfl rfl rfl
  | generateUpgradeHeader stream =>
    unfold egress generateUpgradeHeader
    dsimp only
    split_ifs <;> exact h.congr rfl rfl rfl rfl

lemma parseNext_ne_none (hstop : t.connection.stop=none) (hframe : t.parsesFrame=true) (num : ℕ) :
    t.connection.parseNext parseURL num≠none := by
  simp only [parsesFrame,Bool.and_eq_true,Bool.not_eq_true',decide_eq_true_eq] at hframe
  obtain ⟨⟨hin,hpiece⟩,hlen⟩ := hframe
  simp only [inFrame,Bool.or_eq_true,decide_eq_true_eq] at hin
  rcases hin with hin | hin <;> simp [parseNext,hstop,advance,hin,hpiece,hlen]

lemma whole_of_parsesFrame {num n : ℕ} {p : Parsed}
    (hturn : Turn parseURL num t.connection.codec t.connection.buffer p n) (hframe : t.parsesFrame=true) :
    p = t.connection.codec.parseWholeFrame parseURL num t.connection.buffer := by
  simp only [parsesFrame,Bool.and_eq_true,Bool.not_eq_true',decide_eq_true_eq] at hframe
  obtain ⟨⟨hin,hpiece⟩,-⟩ := hframe
  cases hturn with
  | preface hstate hlen => simp [inFrame,hstate] at hin
  | header hstate hlen => rcases hstate with hstate | hstate <;> simp [inFrame,hstate] at hin
  | piece hpieces hprogress => simp [hpiece] at hpieces
  | whole hstate hpieces hlen => rfl

lemma Follows.act (h : t.Follows) (action : Action) (hkeep : t.KeepsRefused parseURL action) :
    (t.act parseURL action).Follows ∧ t.StaysRefused parseURL action := by
  have hquiet (hcalls : t.newCalls parseURL action = []) (hcompletes : t.completesBlock action = false) :
      t.StaysRefused parseURL action := by
    intro b _
    rw [hcalls,hcompletes]
    exact ⟨by simp [Withholds],fun hfalse => absurd hfalse (by simp)⟩
  cases action with
  | receive bytes => exact ⟨h,hquiet (List.drop_length) rfl⟩
  | egress call => exact ⟨fun hstop => follows_egress (h hstop) call,hquiet (List.drop_length) rfl⟩
  | parse num =>
    cases hnext : t.connection.parseNext parseURL num with
    | none =>
      have hact : t.act parseURL (.parse num) = t := by simp [Tracked.act,hnext]
      refine ⟨by rwa [hact],fun b _ => ⟨?_,fun hcompletes hstop => ?_⟩⟩
      · unfold newCalls
        rw [hact,List.drop_length]
        simp [Withholds]
      · rw [hact] at hstop
        have hframe := (Bool.and_eq_true_iff.mp hcompletes).1
        exact absurd hnext (parseNext_ne_none hstop hframe num)
    | some s =>
      obtain ⟨hstop,p,n,hturn,rfl⟩ := turn_of_parseNext hnext
      have hcalls : t.newCalls parseURL (.parse num) = p.calls++errorCalls p.codec p.stop := by
        simp [newCalls,Tracked.act,hnext]
      have hact : t.act parseURL (.parse num) =
          ⟨⟨p.codec,t.connection.trace++p.calls++errorCalls p.codec p.stop,t.connection.buffer.drop n,p.stop⟩,
            if t.parsesFrame then t.connection.codec.follow t.payload p.calls t.refused else t.refused⟩ := by
        simp [Tracked.act,hnext,follow_append_errorCalls]
      unfold StaysRefused Follows
      rw [hact,hcalls]
      by_cases hframe : t.parsesFrame=true
      · simp only [hframe,if_true]
        obtain ⟨hex,hcont⟩ := hkeep hframe
        have hrefuses := (h hstop).refuses_parseFrame num hex hcont
        obtain rfl := whole_of_parsesFrame hturn hframe
        refine ⟨fun hnone => (hrefuses.follows hnone).congr rfl rfl rfl rfl,fun b hb => ⟨?_,fun hcompletes hnone => ?_⟩⟩
        · exact forall_append (hrefuses.withholds b hb) (withholds_errorCalls b.stream _ _)
        · exact hrefuses.decoder b hb (Bool.and_eq_true_iff.mp hcompletes).2 hnone
      · rw [if_neg hframe]
        obtain ⟨hwithholds,hfollows⟩ := between_frames hturn (by simpa [parsesFrame] using hframe) (h hstop)
        refine ⟨fun _ => hfollows,fun b _ => ⟨?_,fun hcompletes => ?_⟩⟩
        · exact forall_append (hwithholds b.stream) (withholds_errorCalls b.stream p.codec p.stop)
        · exact absurd (Bool.and_eq_true_iff.mp hcompletes).1 hframe

def start (direction : TransportDirection) (settings : HTTPSettings) (validate strict : Bool) : Tracked where
  connection := {codec := .start direction settings validate strict}

lemma follows_start (direction : TransportDirection) (settings : HTTPSettings) (validate strict : Bool) :
    (start direction settings validate strict).Follows := by
  have hfold (c : HTTP2Codec) : (settings.foldl sendSetting c).curHeaderBlock = c.curHeaderBlock := by
    induction settings generalizing c with
    | nil => rfl
    | cons setting rest ih =>
      refine (ih (c.sendSetting setting)).trans ?_
      unfold sendSetting
      split <;> rfl
  exact fun _ => ⟨fun _ => hfold _,fun b hb => absurd hb (by simp [start])⟩

/-- In every run whose turns meet the condition, refused streams stay refused. -/
theorem refused_streams_stay_refused (parseURL : Bytes → Bool) (direction : TransportDirection) (settings : HTTPSettings)
    (validate strict : Bool) (actions : List Action)
    (hkeep : Run.EveryStep (act parseURL) (KeepsRefused parseURL) (start direction settings validate strict) actions) :
    Run.EveryStep (act parseURL) (StaysRefused parseURL) (start direction settings validate strict) actions := by
  have hstart := follows_start direction settings validate strict
  generalize start direction settings validate strict = t at hkeep hstart
  induction actions generalizing t with
  | nil => trivial
  | cons action rest ih =>
    obtain ⟨hfollows,hstays⟩ := hstart.act action hkeep.1
    exact ⟨hstays,ih _ hkeep.2 hfollows⟩

instance (parseURL : Bytes → Bool) (t : Tracked) (action : Action) : Decidable (t.KeepsRefused parseURL action) :=
  match action with
  | .receive _ | .egress _ => .isTrue trivial
  | .parse _ => inferInstanceAs (Decidable (_ → (_ → _ → _) ∧ (_ → _ → _ → _)))

/-- A server that allows one stream, asked for another by frames that follow the preface and the SETTINGS frame. -/
def fullServer (frames : Bytes) (turns : ℕ) : List Action :=
  .receive (kConnectionPreface++[0,0,0,4,0,0,0,0,0]++frames)::List.replicate (3+turns) (.parse 1)

def fullServerStart : Tracked :=
  start .downstream ((init .downstream).egressSettings++[(.maxConcurrentStreams,1)]) true false

theorem refused_streams_stay_refused_request :
    let actions := fullServer ([0,0,3,1,5,0,0,0,1]++[0x82,0x86,0x84]) 2
    (Run.run (act fun _ => true) fullServerStart actions).refused.isSome = true ∧
      Run.EveryStep (act fun _ => true) (StaysRefused fun _ => true) fullServerStart actions :=
  ⟨by decide +kernel,refused_streams_stay_refused _ _ _ _ _ _ (by decide +kernel)⟩

/-- A refused request whose block ends in a CONTINUATION frame is delivered. -/
theorem refused_stream_delivered :
    let actions := fullServer ([0,0,3,1,1,0,0,0,1]++[0x82,0x86,0x84]++[0,0,0,9,4,0,0,0,1]) 4
    ¬Run.EveryStep (act fun _ => true) (StaysRefused fun _ => true) fullServerStart actions := by
  intro actions h
  let t := Run.run (act fun _ => true) fullServerStart (actions.take 7)
  have hlast : t.StaysRefused (fun _ => true) (.parse 1) := Run.everyStep_iff.mp h (actions.take 7) (.parse 1) [] rfl
  have hstream : (t.act (fun _ => true) (.parse 1)).refused.map RefusedBlock.stream = some 1 := by decide +kernel
  obtain ⟨b,hb,hone⟩ := Option.map_eq_some_iff.mp hstream
  have hwithholds := (hlast b hb).1
  rw [hone] at hwithholds
  have hdelivers : ¬Withholds 1 (t.newCalls (fun _ => true) (.parse 1)) := by decide +kernel
  exact hdelivers hwithholds

end Tracked

end QuicWestwood.HTTP2
