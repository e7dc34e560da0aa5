import DroneServer.Lib.Coder
import DroneServer.Media.Frames

/-! # `media_recorder`: a writer that encodes what it hears into a file

Every frame gets the next time stamp, whatever the source's clock says, and goes
through the encoder. The destructor writes the trailer and closes the file before
the encoder is asked for what it holds back, and by then `on_encoded` is the empty
one of the base class: what the encoder still held is not in the file.
-/

namespace DroneServer

/-- `nf` as `encode` gets it: the picture of the last conversion that succeeded, if any did. -/
structure EncoderFrame where
  picture : Option Bytes
  pts : Nat
  deriving DecidableEq, Repr

/-- The width, height and format a conversion is set up for. -/
structure PictureFormat where
  width : Nat
  height : Nat
  format : Int
  deriving DecidableEq, Repr

/-- The part of libav a recorder uses, over the state of an open context. -/
structure RecorderLib (σ π : Type) where
  encoder : Coder σ EncoderFrame π
  /-- `open` with the settings of the constructor. -/
  open2 : Option σ
  /-- `sws_scale_frame`, which may fail. -/
  scale : PictureFormat → AvFrame → Option Bytes
  /-- `av_packet_rescale_ts`, from the encoder's time base to that of the file. -/
  rescale : π → π

/-- What was written to the file. -/
inductive FilePart (π : Type) where
  | header
  | packet (pkt : π)
  | trailer
  deriving DecidableEq, Repr

structure MediaRecorder (σ π : Type) where
  cc : Option σ
  swsctx : Option PictureFormat := none
  nf : Option Bytes := none
  ts : Nat := 0
  file : List (FilePart π) := [.header]

namespace MediaRecorder

variable {σ π : Type}

/-- The constructor; whether the encoder opened is not looked at. -/
def create (lib : RecorderLib σ π) : MediaRecorder σ π := { cc := lib.open2 }

/-- `media_encoder::encode`: the packets `on_encoded` is called with. -/
def encode (lib : RecorderLib σ π) (r : MediaRecorder σ π) (frame : Option EncoderFrame) :
    MediaRecorder σ π × List π :=
  match r.cc with
  | none => (r, [])
  | some s =>
      let (_, s, pkts) := lib.encoder.code s frame
      ({ r with cc := some s }, pkts)

/-- `media_recorder::on_encoded`. -/
def onEncoded (lib : RecorderLib σ π) (r : MediaRecorder σ π) (pkts : List π) :
    MediaRecorder σ π :=
  { r with file := r.file ++ pkts.map fun pkt => .packet (lib.rescale pkt) }

/-- `write_frame`. The conversion is set up for the first frame, and stays; one that fails leaves the
    picture before. -/
def writeFrame (lib : RecorderLib σ π) (r : MediaRecorder σ π) (f : AvFrame) :
    MediaRecorder σ π :=
  let swsctx := r.swsctx.getD { width := f.width, height := f.height, format := f.format }
  let nf := lib.scale swsctx f <|> r.nf
  let pts := r.ts
  let (r, pkts) := encode lib { r with swsctx := some swsctx, nf, ts := r.ts + 1 }
    (some { picture := nf, pts })
  r.onEncoded lib pkts

/-- `~media_recorder`, then `~media_encoder`: the file as it is left, and the packets the encoder
    gives to the `on_encoded` that does nothing. -/
def destroy (lib : RecorderLib σ π) (r : MediaRecorder σ π) : List (FilePart π) × List π :=
  (r.file ++ [.trailer], if r.cc.isSome then (r.encode lib none).2 else [])

/-- The frames encoded so far, the state of the encoder and the packets in the file go together. -/
structure Encoded (lib : RecorderLib σ π) (start : σ) (r : MediaRecorder σ π)
    (inputs : List EncoderFrame) : Prop where
  cc : r.cc = some (lib.encoder.feed (start, []) inputs).1
  file : r.file = .header ::
    (lib.encoder.feed (start, []) inputs).2.map fun pkt => .packet (lib.rescale pkt)
  ts : r.ts = inputs.length
  times : inputs.map (·.pts) = List.range inputs.length

variable {lib : RecorderLib σ π} {start : σ}

/-- What a call of `write_frame` gives to the encoder. -/
def nextFrame (lib : RecorderLib σ π) (r : MediaRecorder σ π) (f : AvFrame) : EncoderFrame where
  picture := lib.scale
    (r.swsctx.getD { width := f.width, height := f.height, format := f.format }) f <|> r.nf
  pts := r.ts

theorem Encoded.writeFrame {r : MediaRecorder σ π} {inputs : List EncoderFrame}
    (encoded : Encoded lib start r inputs) (f : AvFrame) :
    Encoded lib start (r.writeFrame lib f) (inputs ++ [r.nextFrame lib f]) := by
  refine ⟨?_, ?_, ?_, ?_⟩
  · simp only [MediaRecorder.writeFrame, encode, encoded.cc, onEncoded]
    rw [Coder.feed_snoc]
    rfl
  · simp only [MediaRecorder.writeFrame, encode, encoded.cc, onEncoded]
    rw [Coder.feed_snoc, List.map_append, encoded.file]
    rfl
  · simp only [MediaRecorder.writeFrame, encode, encoded.cc, onEncoded]
    rw [List.length_append, encoded.ts]
    rfl
  · rw [List.map_append, List.length_append, encoded.times, List.length_singleton,
      List.range_succ, ← encoded.ts]
    rfl

theorem Encoded.run (is_open : lib.open2 = some start) (frames : List AvFrame) :
    ∃ inputs, inputs.length = frames.length ∧
      Encoded lib start (frames.foldl (MediaRecorder.writeFrame lib) (create lib)) inputs := by
  induction frames using List.reverseRecOn with
  | nil => exact ⟨[], rfl, is_open, rfl, rfl, rfl⟩
  | append_singleton frames f ih =>
      obtain ⟨inputs, length, encoded⟩ := ih
      have next := encoded.writeFrame f
      refine ⟨_, ?_, by rw [List.foldl_append]; exact next⟩
      simp [length]

/-- What the file lacks is what the encoder held back. -/
theorem Encoded.complete {mark : π → Nat} {r : MediaRecorder σ π}
    {inputs : List EncoderFrame} (lossless : lib.encoder.Lossless start (·.pts) mark)
    (encoded : Encoded lib start r inputs) :
    ∃ pkts : List π, (r.destroy lib).1 =
        .header :: (pkts.map fun pkt => .packet (lib.rescale pkt)) ++ [.trailer] ∧
      ((pkts ++ (r.destroy lib).2).map mark).Perm (List.range inputs.length) ∧
      ((pkts.map mark).Perm (List.range inputs.length) ↔ (r.destroy lib).2 = []) := by
  have given := lossless inputs
  rw [encoded.times] at given
  have held : (r.destroy lib).2 =
      (lib.encoder.code (lib.encoder.feed (start, []) inputs).1 none).2.2 := by
    simp [destroy, encode, encoded.cc]
  rw [held]
  refine ⟨(lib.encoder.feed (start, []) inputs).2, by rw [destroy, encoded.file], given, ?_⟩
  constructor
  · intro whole
    have all := given.length_eq
    have some := whole.length_eq
    simp only [List.map_append, List.length_append, List.length_map] at all some
    exact List.length_eq_zero_iff.mp (by omega)
  · intro none
    rwa [none, List.append_nil] at given

end MediaRecorder

/-- A recorder made and added to a drone's pipe in the middle of a run has in its file, between the
    header and the trailer, nothing but packets of the frames it heard: the drone's last header
    frame and those decoded since. They carry the times 0, 1, 2 and so on, each frame's once; and
    none of them is missing if and only if the encoder held nothing back when the recorder was
    destroyed. -/
theorem recording_complete_iff {σ π : Type} (lib : RecorderLib σ π) (start : σ)
    (is_open : lib.open2 = some start) (mark : π → Nat)
    (lossless : lib.encoder.Lossless start (·.pts) mark) (cid : ClientId) (w : WriterId)
    (before during : List MediaCall) (fresh : .addWriter cid w ∉ before)
    (keeps : MediaCall.Keeps cid w during) :
    let heard := FrameManager.heard {} cid w (before ++ .addWriter cid w :: during)
    let r := heard.foldl (MediaRecorder.writeFrame lib) (MediaRecorder.create lib)
    let count := (MediaCall.lastHeader cid before).toList.length +
      (MediaCall.frames cid during).length
    ∃ pkts : List π, (r.destroy lib).1 =
        .header :: (pkts.map fun pkt => .packet (lib.rescale pkt)) ++ [.trailer] ∧
      ((pkts ++ (r.destroy lib).2).map mark).Perm (List.range count) ∧
      ((pkts.map mark).Perm (List.range count) ↔ (r.destroy lib).2 = []) := by
  intro heard r count
  obtain ⟨inputs, length, encoded⟩ := MediaRecorder.Encoded.run is_open heard
  have frames : heard.length = count := by
    simp only [heard, count, FrameManager.heard_added before keeps,
      FrameManager.heard_never_added fresh, List.nil_append, List.length_append]
  rw [← frames, ← length]
  exact encoded.complete lossless

/-- An encoder that gives a frame's packet when the next frame comes, and the last one at the end. -/
def lateEncoder : Coder (List EncoderFrame × Bool) EncoderFrame EncoderFrame where
  send s
    | none => (.accepted, s.1, true)
    | some f => (.accepted, s.1 ++ [f], s.2)
  receive
    | ([], atEnd) => (.stop .again, [], atEnd)
    | ([f], false) => (.stop .again, [f], false)
    | (f :: rest, atEnd) => (.out f, rest, atEnd)
  due s := s.1.length
  fewer {s o s'} received := by
    obtain ⟨held, atEnd⟩ := s
    cases held with
    | nil => cases received
    | cons f rest =>
        cases rest with
        | nil =>
            cases atEnd with
            | false => cases received
            | true =>
                cases received
                exact Nat.lt_succ_self _
        | cons g rest =>
            cases received
            exact Nat.lt_succ_self _

theorem lateEncoder_feed (inputs : List EncoderFrame) :
    lateEncoder.feed (([], false), []) inputs =
      ((inputs.getLast?.toList, false), inputs.dropLast) := by
  induction inputs using List.reverseRecOn with
  | nil => rfl
  | append_singleton inputs f ih =>
      rw [Coder.feed_snoc, ih]
      simp only [List.getLast?_append, List.dropLast_concat]
      cases last : inputs.getLast? with
      | none =>
          have sent : lateEncoder.send ([], false) (some f) = (.accepted, [f], false) := rfl
          have stop : lateEncoder.receive ([f], false) = (.stop .again, [f], false) := rfl
          have empty : inputs = [] := List.getLast?_eq_none_iff.mp last
          simp [empty, Coder.code_accepted sent, Coder.drain_stop stop]
      | some g =>
          have sent : lateEncoder.send ([g], false) (some f) = (.accepted, [g, f], false) := rfl
          have out : lateEncoder.receive ([g, f], false) = (.out g, [f], false) := rfl
          have stop : lateEncoder.receive ([f], false) = (.stop .again, [f], false) := rfl
          have whole : inputs.dropLast ++ [g] = inputs := by
            obtain ⟨rest, rfl⟩ := List.getLast?_eq_some_iff.mp last
            simp
          simp [Coder.code_accepted sent, Coder.drain_out out, Coder.drain_stop stop, whole]

theorem lateEncoder_flush (held : Option EncoderFrame) :
    (lateEncoder.code (held.toList, false) none).2.2 = held.toList := by
  cases held with
  | none =>
      have sent : lateEncoder.send ([], false) none = (.accepted, [], true) := rfl
      have stop : lateEncoder.receive ([], true) = (.stop .again, [], true) := rfl
      simp [Coder.code_accepted sent, Coder.drain_stop stop]
  | some f =>
      have sent : lateEncoder.send ([f], false) none = (.accepted, [f], true) := rfl
      have out : lateEncoder.receive ([f], true) = (.out f, [], true) := rfl
      have stop : lateEncoder.receive ([], true) = (.stop .again, [], true) := rfl
      simp [Coder.code_accepted sent, Coder.drain_out out, Coder.drain_stop stop]

theorem lateEncoder_lossless : lateEncoder.Lossless ([], false) (·.pts) (·.pts) := by
  intro inputs
  rw [lateEncoder_feed, lateEncoder_flush]
  have whole : inputs.dropLast ++ inputs.getLast?.toList = inputs := by
    cases last : inputs.getLast? with
    | none => simp [List.getLast?_eq_none_iff.mp last]
    | some f =>
        obtain ⟨rest, rfl⟩ := List.getLast?_eq_some_iff.mp last
        simp
  rw [whole]

/-- A header and two frames: in the file or in what was dropped, each of them is once. -/
theorem recording_complete_iff_late :
    let lib : RecorderLib (List EncoderFrame × Bool) EncoderFrame :=
      { encoder := lateEncoder, open2 := some ([], false), scale := fun _ f => some f.picture,
        rescale := id }
    let head : AvFrame := { keyFrame := true, nbSideData := 1, picture := [1] }
    let calls : List MediaCall := [.onDecoded 7 { pts := 40 }, .onDecoded 7 { pts := 80 }]
    let heard := FrameManager.heard {} 7 0 ([.onDecoded 7 head] ++ .addWriter 7 0 :: calls)
    let r := heard.foldl (MediaRecorder.writeFrame lib) (MediaRecorder.create lib)
    ∃ pkts : List EncoderFrame, ((pkts ++ (r.destroy lib).2).map (·.pts)).Perm [0, 1, 2] := by
  intro lib head calls heard r
  obtain ⟨pkts, _, all, _⟩ := recording_complete_iff lib ([], false) rfl (·.pts)
    lateEncoder_lossless 7 0 [.onDecoded 7 head] calls (by decide) (by decide)
  exact ⟨pkts, all⟩

end DroneServer
